import Deckent.Model.RunFlowProjection
import Mathlib.Data.Fintype.Defs

/-!
# The projection recovers

While no marker stands, the file holds the rows up to the projected ordinal, each once. A marker stands
from before the first write to the file until after the commit, so whoever finds none may append and
whoever finds one rebuilds. This rests on the marker that is removed being the one that was read: a
writer that leaves its marker while another process stands before its removal loses it.
-/

namespace Deckent.RunFlow

variable {store store' : ProjectionStore} {phase phase' other : ProjectionPhase}
  {action : ProjectionAction}

/-! ### The text of the rows -/

def canonicalText (rows : List CanonicalRow) : Text :=
  rows.flatMap fun row => row.payloadJson ++ ['\n']

theorem joinPayloads_newline {rows : List CanonicalRow} (hrows : rows ≠ []) :
    joinPayloads rows ++ ['\n'] = canonicalText rows := by
  induction rows with
  | nil => exact absurd rfl hrows
  | cons row rest ih =>
      cases rest with
      | nil => simp [joinPayloads, canonicalText, List.intercalate]
      | cons next rest =>
          have hrest := ih (List.cons_ne_nil _ _)
          simp only [joinPayloads, canonicalText, List.intercalate, List.map_cons,
            List.intersperse_cons_cons, List.flatten_cons, List.flatMap_cons] at hrest ⊢
          rw [List.append_assoc, List.append_assoc, hrest]
          simp

theorem rebuiltText_eq (rows : List CanonicalRow) : rebuiltText rows = canonicalText rows := by
  cases rows with
  | nil => rfl
  | cons row rest =>
      rw [rebuiltText, if_pos (by simp)]
      exact joinPayloads_newline (List.cons_ne_nil _ _)

theorem deltaText_eq (read : ProjectionRead) : deltaText read = canonicalText (projectionDelta read) := by
  unfold deltaText
  cases hdelta : projectionDelta read with
  | nil => rfl
  | cons row rest =>
      rw [if_pos (by simp)]
      exact joinPayloads_newline (List.cons_ne_nil _ _)

def CanonicalRows.upTo (canonical : CanonicalRows) (ordinal : Nat) : List CanonicalRow :=
  canonical.rows.filter fun row => row.ordinal ≤ ordinal

theorem upTo_append_above (canonical : CanonicalRows) (ordinal : Nat) :
    canonical.upTo ordinal ++ canonical.rows.filter (fun row => ordinal < row.ordinal)
      = canonical.rows := by
  obtain ⟨rows, hascending⟩ := canonical
  simp only [CanonicalRows.upTo]
  induction rows with
  | nil => rfl
  | cons row rest ih =>
      obtain ⟨hrow, hrest⟩ := List.pairwise_cons.mp hascending
      by_cases hle : row.ordinal ≤ ordinal
      · rw [List.filter_cons_of_pos (by simpa using hle),
          List.filter_cons_of_neg (by simpa using hle), List.cons_append, ih hrest]
      · have hnone : (rest.filter fun row => row.ordinal ≤ ordinal) = [] := by
          rw [List.filter_eq_nil_iff]
          intro next hnext
          have hlt := hrow next hnext
          simp
          omega
        rw [List.filter_cons_of_neg (by simpa using hle),
          List.filter_cons_of_pos (by simpa using hle), hnone, List.nil_append,
          List.filter_eq_self.mpr]
        intro next hnext
        have hlt := hrow next hnext
        simp
        omega

theorem upTo_head (canonical : CanonicalRows) : canonical.upTo canonical.head = canonical.rows := by
  rw [CanonicalRows.upTo, List.filter_eq_self]
  intro row hrow
  exact decide_eq_true (CanonicalRows.ordinal_le_head hrow)

theorem upTo_append {canonical : CanonicalRows} {payloads : List Text} {ordinal : Nat}
    (hle : ordinal ≤ canonical.head) :
    (canonical.append payloads).upTo ordinal = canonical.upTo ordinal := by
  have hnone : ((CanonicalRows.numbered canonical.head payloads).filter fun row =>
      row.ordinal ≤ ordinal) = [] := by
    rw [List.filter_eq_nil_iff]
    intro row hrow
    have hlt := CanonicalRows.lt_ordinal_of_mem_numbered hrow
    simp only [decide_eq_true_eq]
    omega
  rw [CanonicalRows.upTo, CanonicalRows.append, List.filter_append, hnone, List.append_nil,
    CanonicalRows.upTo]

theorem head_le_append (canonical : CanonicalRows) (payloads : List Text) :
    canonical.head ≤ (canonical.append payloads).head := by
  cases hlast : canonical.rows.getLast? with
  | none => simp [CanonicalRows.head, hlast]
  | some row =>
      have hmem : row ∈ (canonical.append payloads).rows :=
        List.mem_append_left _ (List.mem_of_getLast? hlast)
      have hhead : canonical.head = row.ordinal := by simp [CanonicalRows.head, hlast]
      rw [hhead]
      exact CanonicalRows.ordinal_le_head hmem

/-! ### Steps -/

/-- What a process can do. -/
inductive ProjectionStep (store : ProjectionStore) :
    ProjectionAction → ProjectionPhase → ProjectionStore → ProjectionPhase → Prop where
  | append (payloads : List Text) (hlock : store.lock = none) :
      ProjectionStep store (.append payloads) .idle
        { store with canonical := store.canonical.append payloads } .committed
  | begin (hlock : store.lock = none) :
      ProjectionStep store .proceed .committed
        { store with lock := some store.issued, issued := store.issued + 1 }
        (.probing store.issued ⟨store.canonical, store.projectedOrdinal⟩)
  | upToDate (token : Nat) (read : ProjectionRead)
      (hprojected : read.projectedOrdinal = some read.canonical.head)
      (hintent : store.intent = none) :
      ProjectionStep store .proceed (.probing token read) { store with lock := none } (.reading token)
  | probe (token : Nat) (read : ProjectionRead) :
      ProjectionStep store .proceed (.probing token read) store (.observing token read)
  | observe (token : Nat) (read : ProjectionRead) :
      ProjectionStep store .proceed (.observing token read) store
        (.marking token read store.intent.isSome)
  | mark (token : Nat) (read : ProjectionRead) (hadRecoveryIntent : Bool) :
      ProjectionStep store .proceed (.marking token read hadRecoveryIntent)
        { store with intent := some token } (.writing token read hadRecoveryIntent)
  | write (token : Nat) (read : ProjectionRead) (hadRecoveryIntent : Bool) :
      ProjectionStep store .proceed (.writing token read hadRecoveryIntent)
        { store with file := projectFile read hadRecoveryIntent store.file } (.upserting token read)
  | upsert (token : Nat) (read : ProjectionRead) :
      ProjectionStep store .proceed (.upserting token read)
        { store with projectedOrdinal := some read.canonical.head, lock := none } (.reading token)
  | recognise (token : Nat) (hintent : store.intent = some token) :
      ProjectionStep store .proceed (.reading token) store (.unlinking token)
  | leave (token : Nat) : ProjectionStep store .proceed (.reading token) store .idle
  | unlink (token : Nat) :
      ProjectionStep store .proceed (.unlinking token) { store with intent := none } .idle
  | crash (phase : ProjectionPhase) :
      ProjectionStep store .crash phase (releaseLock store phase) .idle
  | tear (count token : Nat) (read : ProjectionRead) (hadRecoveryIntent : Bool) (file : Option Text) :
      ProjectionStep store (.tear count) (.writing token read hadRecoveryIntent)
        { store with file := file, lock := none } .idle

theorem projectionStep_of_step (hstep : stepProjection action store phase = some (store', phase')) :
    ProjectionStep store action phase store' phase' := by
  cases action with
  | append payloads =>
      cases phase with
      | idle =>
          simp only [stepProjection, Option.ite_none_right_eq_some, Option.isNone_iff_eq_none] at hstep
          obtain ⟨⟨hlock, -⟩, hnext⟩ := hstep
          cases hnext
          exact .append payloads hlock
      | _ => cases hstep
  | proceed =>
      cases phase with
      | idle => cases hstep
      | committed =>
          simp only [stepProjection, stepReconcile, Option.ite_none_right_eq_some,
            Option.isNone_iff_eq_none] at hstep
          obtain ⟨hlock, hnext⟩ := hstep
          cases hnext
          exact .begin hlock
      | probing token read =>
          simp only [stepProjection, stepReconcile] at hstep
          split at hstep
          · next hcurrent =>
            cases hstep
            exact .upToDate token read hcurrent.1 (Option.isNone_iff_eq_none.mp hcurrent.2.2)
          · cases hstep
            exact .probe token read
      | observing token read =>
          cases hstep
          exact .observe token read
      | marking token read hadRecoveryIntent =>
          cases hstep
          exact .mark token read hadRecoveryIntent
      | writing token read hadRecoveryIntent =>
          cases hstep
          exact .write token read hadRecoveryIntent
      | upserting token read =>
          cases hstep
          exact .upsert token read
      | reading token =>
          simp only [stepProjection, stepReconcile] at hstep
          split at hstep
          · next hintent =>
            cases hstep
            exact .recognise token hintent
          · cases hstep
            exact .leave token
      | unlinking token =>
          cases hstep
          exact .unlink token
  | crash =>
      cases hstep
      exact .crash phase
  | tear count =>
      cases phase with
      | writing token read hadRecoveryIntent =>
          simp only [stepProjection] at hstep
          split at hstep
          · cases hstep
          · cases hstep
            exact .tear count token read hadRecoveryIntent _
      | _ => cases hstep

/-! ### What the marker protects -/

def Exact (store : ProjectionStore) : Prop :=
  ∀ ordinal, store.projectedOrdinal = some ordinal →
    store.file = some (canonicalText (store.canonical.upTo ordinal))

structure ProjectionStore.Sound (store : ProjectionStore) : Prop where
  projected : ∀ ordinal, store.projectedOrdinal = some ordinal → ordinal ≤ store.canonical.head
  unmarked : store.intent = none → Exact store

def ProjectionRead.Current (read : ProjectionRead) (store : ProjectionStore) : Prop :=
  read.canonical = store.canonical ∧ read.projectedOrdinal = store.projectedOrdinal

def ProjectionPhase.token : ProjectionPhase → Option Nat
  | idle | committed => none
  | probing token _ | observing token _ | marking token _ _ | writing token _ _ => some token
  | upserting token _ | reading token | unlinking token => some token

/-- What holds of a process at the place it has reached. -/
def ProjectionPhase.Sound (store : ProjectionStore) : ProjectionPhase → Prop
  | idle | committed => True
  | probing token read | observing token read => store.lock = some token ∧ read.Current store
  | marking token read hadRecoveryIntent =>
      store.lock = some token ∧ read.Current store ∧ (hadRecoveryIntent = false → Exact store)
  | writing token read hadRecoveryIntent =>
      store.lock = some token ∧ store.intent = some token ∧ read.Current store
        ∧ (hadRecoveryIntent = false → Exact store)
  | upserting token read =>
      store.lock = some token ∧ store.intent = some token ∧ read.Current store
        ∧ store.file = some (canonicalText store.canonical.rows)
  | reading token => store.intent = some token → Exact store
  | unlinking token => store.intent = some token ∧ Exact store

theorem exact_append {payloads : List Text} (hstore : store.Sound) (hexact : Exact store) :
    Exact { store with canonical := store.canonical.append payloads } := by
  intro ordinal hordinal
  rw [upTo_append (hstore.projected ordinal hordinal)]
  exact hexact ordinal hordinal

theorem projectFile_eq {read : ProjectionRead} {hadRecoveryIntent : Bool} (hread : read.Current store)
    (hexact : hadRecoveryIntent = false → Exact store) :
    projectFile read hadRecoveryIntent store.file = some (canonicalText store.canonical.rows) := by
  obtain ⟨hcanonical, hprojected⟩ := hread
  unfold projectFile
  split
  · rw [rebuiltText_eq, hcanonical]
  · next hrebuild =>
    simp only [mustRebuild, Bool.or_eq_true, not_or, Bool.not_eq_true] at hrebuild
    obtain ⟨⟨⟨hintent, hsome⟩, -⟩, -⟩ := hrebuild
    obtain ⟨ordinal, hordinal⟩ := Option.isSome_iff_exists.mp (by simpa using hsome)
    have hfile := hexact hintent ordinal (hprojected ▸ hordinal)
    rw [hfile, deltaText_eq, Option.map_some, projectionDelta, hordinal, hcanonical]
    simp only [Option.getD_some, canonicalText]
    rw [← List.flatMap_append, upTo_append_above]

/-! ### The process that steps -/

theorem releaseLock_sound (hstore : store.Sound) : (releaseLock store phase).Sound := by
  cases phase <;> exact ⟨hstore.projected, hstore.unmarked⟩

theorem sound_projectionStep (hstep : ProjectionStep store action phase store' phase')
    (hstore : store.Sound) (hphase : phase.Sound store) : store'.Sound ∧ phase'.Sound store' := by
  cases hstep with
  | append payloads hlock =>
      refine ⟨⟨?_, ?_⟩, trivial⟩
      · intro ordinal hordinal
        exact (hstore.projected ordinal hordinal).trans (head_le_append _ _)
      · intro hintent
        exact exact_append hstore (hstore.unmarked hintent)
  | begin hlock => exact ⟨⟨hstore.projected, hstore.unmarked⟩, rfl, rfl, rfl⟩
  | upToDate token read hprojected hintent =>
      refine ⟨⟨hstore.projected, hstore.unmarked⟩, ?_⟩
      intro hown
      exact absurd (hintent.symm.trans hown) (by simp)
  | probe token read => exact ⟨hstore, hphase⟩
  | observe token read =>
      refine ⟨hstore, hphase.1, hphase.2, ?_⟩
      intro hintent
      exact hstore.unmarked (Option.not_isSome_iff_eq_none.mp (Bool.eq_false_iff.mp hintent))
  | mark token read hadRecoveryIntent =>
      obtain ⟨hlock, hread, hexact⟩ := hphase
      refine ⟨⟨hstore.projected, ?_⟩, hlock, rfl, hread, hexact⟩
      intro hintent
      cases hintent
  | write token read hadRecoveryIntent =>
      obtain ⟨hlock, hintent, hread, hexact⟩ := hphase
      refine ⟨⟨hstore.projected, ?_⟩, hlock, hintent, hread, projectFile_eq hread hexact⟩
      intro hnone
      exact absurd (hintent.symm.trans hnone) (by simp)
  | upsert token read =>
      obtain ⟨-, hintent, ⟨hcanonical, -⟩, hfile⟩ := hphase
      have hexact : Exact { store with
          projectedOrdinal := some read.canonical.head
          lock := none } := by
        intro ordinal hordinal
        cases hordinal
        rw [hcanonical, upTo_head]
        exact hfile
      refine ⟨⟨?_, fun _ => hexact⟩, fun _ => hexact⟩
      intro ordinal hordinal
      cases hordinal
      rw [hcanonical]
  | recognise token hintent => exact ⟨hstore, hintent, hphase hintent⟩
  | leave token => exact ⟨hstore, trivial⟩
  | unlink token => exact ⟨⟨hstore.projected, fun _ => hphase.2⟩, trivial⟩
  | crash phase => exact ⟨releaseLock_sound hstore, trivial⟩
  | tear count token read hadRecoveryIntent file =>
      refine ⟨⟨hstore.projected, ?_⟩, trivial⟩
      intro hnone
      exact absurd (hphase.2.1.symm.trans hnone) (by simp)

/-! ### The processes that wait -/

def ProjectionPhase.isUnlinking : ProjectionPhase → Bool
  | unlinking _ => true
  | _ => false

def ProjectionPhase.isMarking : ProjectionPhase → Bool
  | marking _ _ _ => true
  | _ => false

structure Frame (waiting : Nat) (store store' : ProjectionStore) : Prop where
  lock : store'.lock = store.lock
  canonical : store'.canonical = store.canonical
  projectedOrdinal : store'.projectedOrdinal = store.projectedOrdinal
  file : store'.file = store.file
  intent : store.intent = some waiting → store'.intent = some waiting

theorem Frame.refl (waiting : Nat) (store : ProjectionStore) : Frame waiting store store :=
  ⟨rfl, rfl, rfl, rfl, id⟩

theorem Frame.exact_ {waiting : Nat} (hframe : Frame waiting store store') (hexact : Exact store) :
    Exact store' := by
  intro ordinal hordinal
  rw [hframe.file, hframe.canonical]
  exact hexact ordinal (hframe.projectedOrdinal ▸ hordinal)

theorem Frame.current {waiting : Nat} {read : ProjectionRead} (hframe : Frame waiting store store')
    (hread : read.Current store) : read.Current store' :=
  ⟨hread.1.trans hframe.canonical.symm, hread.2.trans hframe.projectedOrdinal.symm⟩

theorem frame_of_lock {waiting : Nat} (hstep : ProjectionStep store action phase store' phase')
    (hphase : phase.Sound store) (hlock : store.lock = some waiting)
    (hapart : phase.token ≠ some waiting) : Frame waiting store store' := by
  have hheld : ∀ {token : Nat}, store.lock = some token → phase.token = some token → False :=
    fun hown htoken => hapart (htoken.trans (hown.symm.trans hlock))
  cases hstep with
  | append payloads hfree => exact absurd (hfree.symm.trans hlock) (by simp)
  | begin hfree => exact absurd (hfree.symm.trans hlock) (by simp)
  | upToDate token read => exact (hheld hphase.1 rfl).elim
  | probe token read => exact .refl _ _
  | observe token read => exact .refl _ _
  | mark token read hadRecoveryIntent => exact (hheld hphase.1 rfl).elim
  | write token read hadRecoveryIntent => exact (hheld hphase.1 rfl).elim
  | upsert token read => exact (hheld hphase.1 rfl).elim
  | recognise token hintent => exact .refl _ _
  | leave token => exact .refl _ _
  | unlink token =>
      refine ⟨rfl, rfl, rfl, rfl, ?_⟩
      intro hintent
      exact absurd (hphase.1.symm.trans hintent) hapart
  | crash phase =>
      cases phase with
      | idle | committed | reading token | unlinking token => exact .refl _ _
      | probing | observing | marking | writing | upserting => exact (hheld hphase.1 rfl).elim
  | tear count token read hadRecoveryIntent file => exact (hheld hphase.1 rfl).elim

theorem exact_of_intent {waiting : Nat} (hstep : ProjectionStep store action phase store' phase')
    (hstore : store.Sound) (hphase : phase.Sound store) (hapart : phase.token ≠ some waiting)
    (hexact : store.intent = some waiting → Exact store) (hintent : store'.intent = some waiting) :
    Exact store' := by
  cases hstep with
  | append payloads hfree => exact exact_append hstore (hexact hintent)
  | begin hfree => exact hexact hintent
  | upToDate token read => exact hexact hintent
  | probe token read => exact hexact hintent
  | observe token read => exact hexact hintent
  | mark token read hadRecoveryIntent => exact absurd hintent hapart
  | write token read hadRecoveryIntent => exact absurd (hphase.2.1.symm.trans hintent) hapart
  | upsert token read => exact absurd (hphase.2.1.symm.trans hintent) hapart
  | recognise token hown => exact hexact hintent
  | leave token => exact hexact hintent
  | unlink token => cases hintent
  | crash phase => cases phase <;> exact hexact hintent
  | tear count token read hadRecoveryIntent file => exact absurd (hphase.2.1.symm.trans hintent) hapart

theorem intent_of_unlinking {waiting : Nat} (hstep : ProjectionStep store action phase store' phase')
    (hphase : phase.Sound store) (hapart : phase.token ≠ some waiting)
    (hintent : store.intent = some waiting)
    (hmark : action = .proceed → phase.isMarking = false) : store'.intent = some waiting := by
  cases hstep with
  | mark token read hadRecoveryIntent => exact absurd (hmark rfl) (by simp [ProjectionPhase.isMarking])
  | unlink token => exact absurd (hphase.1.symm.trans hintent) hapart
  | crash phase => cases phase <;> exact hintent
  | append | begin | upToDate | probe | observe | write | upsert | recognise | leave | tear =>
      exact hintent

theorem stable_projectionStep (hstep : ProjectionStep store action phase store' phase')
    (hstore : store.Sound) (hphase : phase.Sound store) (hother : other.Sound store)
    (hapart : ∀ token, other.token = some token → phase.token ≠ some token)
    (hmark : other.isUnlinking = true → action = .proceed → phase.isMarking = false) :
    other.Sound store' := by
  cases other with
  | idle => trivial
  | committed => trivial
  | probing token read =>
      have hframe := frame_of_lock hstep hphase hother.1 (hapart token rfl)
      exact ⟨hframe.lock.trans hother.1, hframe.current hother.2⟩
  | observing token read =>
      have hframe := frame_of_lock hstep hphase hother.1 (hapart token rfl)
      exact ⟨hframe.lock.trans hother.1, hframe.current hother.2⟩
  | marking token read hadRecoveryIntent =>
      obtain ⟨hlock, hread, hexact⟩ := hother
      have hframe := frame_of_lock hstep hphase hlock (hapart token rfl)
      exact ⟨hframe.lock.trans hlock, hframe.current hread, fun hnone => hframe.exact_ (hexact hnone)⟩
  | writing token read hadRecoveryIntent =>
      obtain ⟨hlock, hintent, hread, hexact⟩ := hother
      have hframe := frame_of_lock hstep hphase hlock (hapart token rfl)
      exact ⟨hframe.lock.trans hlock, hframe.intent hintent, hframe.current hread,
        fun hnone => hframe.exact_ (hexact hnone)⟩
  | upserting token read =>
      obtain ⟨hlock, hintent, hread, hfile⟩ := hother
      have hframe := frame_of_lock hstep hphase hlock (hapart token rfl)
      refine ⟨hframe.lock.trans hlock, hframe.intent hintent, hframe.current hread, ?_⟩
      rw [hframe.file, hframe.canonical]
      exact hfile
  | reading token => exact exact_of_intent hstep hstore hphase (hapart token rfl) hother
  | unlinking token =>
      have hintent := intent_of_unlinking hstep hphase (hapart token rfl) hother.1 (hmark rfl)
      exact ⟨hintent, exact_of_intent hstep hstore hphase (hapart token rfl) (fun _ => hother.2) hintent⟩

theorem token_of_projectionStep (hstep : ProjectionStep store action phase store' phase') :
    store.issued ≤ store'.issued ∧ ∀ token, phase'.token = some token →
      phase.token = some token ∨ token = store.issued ∧ store'.issued = store.issued + 1 := by
  cases hstep with
  | begin hfree =>
      refine ⟨Nat.le_succ _, ?_⟩
      intro token htoken
      exact .inr ⟨(Option.some.inj htoken).symm, rfl⟩
  | crash phase => cases phase <;> exact ⟨le_rfl, fun token htoken => by cases htoken⟩
  | append | leave | unlink | tear => exact ⟨le_rfl, fun token htoken => by cases htoken⟩
  | upToDate | probe | observe | mark | write | upsert | recognise =>
      exact ⟨le_rfl, fun token htoken => .inl htoken⟩

/-! ### One reconciliation by itself -/

def ProjectionPhase.Recovers (store : ProjectionStore) : ProjectionPhase → Prop
  | committed => store.intent = none → Exact store
  | probing _ read | observing _ read =>
      read.Current store ∧ (store.intent = none → Exact store)
  | marking _ read hadRecoveryIntent | writing _ read hadRecoveryIntent =>
      read.Current store ∧ (hadRecoveryIntent = false → Exact store)
  | upserting _ read =>
      read.Current store ∧ store.file = some (canonicalText store.canonical.rows)
  | reading _ | unlinking _ | idle => store.file = some (canonicalText store.canonical.rows)

theorem recovers_step (hstep : ProjectionStep store .proceed phase store' phase')
    (hphase : phase.Recovers store) : phase'.Recovers store' := by
  cases hstep with
  | begin hlock => exact ⟨⟨rfl, rfl⟩, hphase⟩
  | upToDate token read hprojected hintent =>
      obtain ⟨⟨hcanonical, hcurrent⟩, hexact⟩ := hphase
      have hfile := hexact hintent _ (hcurrent.symm.trans hprojected)
      rwa [hcanonical, upTo_head] at hfile
  | probe token read => exact hphase
  | observe token read =>
      refine ⟨hphase.1, ?_⟩
      intro hintent
      exact hphase.2 (Option.not_isSome_iff_eq_none.mp (Bool.eq_false_iff.mp hintent))
  | mark token read hadRecoveryIntent => exact hphase
  | write token read hadRecoveryIntent => exact ⟨hphase.1, projectFile_eq hphase.1 hphase.2⟩
  | upsert token read => exact hphase.2
  | recognise token hintent => exact hphase
  | leave token => exact hphase
  | unlink token => exact hphase

/-! ### Runs -/

section Runs

variable {ι : Type} [DecidableEq ι] {system next : Processes ι ProjectionStore ProjectionPhase}
  {turn : ι × ProjectionAction} {turns : List (ι × ProjectionAction)}

def LeavesMarkersAlone (system : Processes ι ProjectionStore ProjectionPhase)
    (turn : ι × ProjectionAction) : Prop :=
  turn.2 = .proceed → (system.memory turn.1).isMarking = true →
    ∀ i, (system.memory i).isUnlinking = false

instance [Fintype ι] (system : Processes ι ProjectionStore ProjectionPhase)
    (turn : ι × ProjectionAction) : Decidable (LeavesMarkersAlone system turn) :=
  inferInstanceAs (Decidable (_ → _ → ∀ _, _))

structure ProjectionInvariant (system : Processes ι ProjectionStore ProjectionPhase) : Prop where
  store : system.shared.Sound
  process : ∀ i, (system.memory i).Sound system.shared
  issued : ∀ i token, (system.memory i).token = some token → token < system.shared.issued
  apart : ∀ i j token, (system.memory i).token = some token → (system.memory j).token = some token →
    i = j

theorem projectionInvariant_turn (hstep : system.act stepProjection turn = .ok next)
    (hinvariant : ProjectionInvariant system) (halone : LeavesMarkersAlone system turn) :
    ProjectionInvariant next := by
  obtain ⟨phase', hturn, hmemory⟩ := Processes.act_ok.mp hstep
  have hstep' := projectionStep_of_step hturn
  obtain ⟨hstore', hown⟩ :=
    sound_projectionStep hstep' hinvariant.store (hinvariant.process turn.1)
  obtain ⟨hissued, htokens⟩ := token_of_projectionStep hstep'
  have hself : next.memory turn.1 = phase' := by rw [hmemory, Function.update_self]
  have hothers : ∀ j, j ≠ turn.1 → next.memory j = system.memory j := by
    intro j hj
    rw [hmemory, Function.update_of_ne hj]
  -- the process that steps holds no token of another one
  have hfresh : ∀ j token, j ≠ turn.1 → (system.memory j).token = some token →
      phase'.token ≠ some token := by
    intro j token hj htoken hphase'
    rcases htokens token hphase' with hkept | ⟨rfl, -⟩
    · exact hj (hinvariant.apart _ _ _ htoken hkept)
    · exact absurd (hinvariant.issued j _ htoken) (lt_irrefl _)
  refine ⟨hstore', ?_, ?_, ?_⟩
  · intro j
    by_cases hj : j = turn.1
    · rwa [hj, hself]
    · rw [hothers j hj]
      refine stable_projectionStep hstep' hinvariant.store (hinvariant.process turn.1)
        (hinvariant.process j) ?_ ?_
      · intro token hwaits hsteps
        exact hj (hinvariant.apart _ _ _ hwaits hsteps)
      · intro hunlinking hproceed
        by_contra hmarking
        have hnone := halone hproceed (by simpa using hmarking) j
        simp [hunlinking] at hnone
  · intro j token htoken
    by_cases hj : j = turn.1
    · rw [hj, hself] at htoken
      rcases htokens token htoken with hkept | ⟨rfl, hcount⟩
      · exact (hinvariant.issued _ _ hkept).trans_le hissued
      · omega
    · rw [hothers j hj] at htoken
      exact (hinvariant.issued _ _ htoken).trans_le hissued
  · intro j k token hjToken hkToken
    by_cases hj : j = turn.1 <;> by_cases hk : k = turn.1
    · rw [hj, hk]
    · rw [hothers k hk] at hkToken
      rw [hj, hself] at hjToken
      exact absurd hjToken (hfresh k token hk hkToken)
    · rw [hothers j hj] at hjToken
      rw [hk, hself] at hkToken
      exact absurd hkToken (hfresh j token hj hjToken)
    · rw [hothers j hj] at hjToken
      rw [hothers k hk] at hkToken
      exact hinvariant.apart _ _ _ hjToken hkToken

/-- The file survives any crashes, and no process removes the marker of another one. -/
structure ProjectionContract (system : Processes ι ProjectionStore ProjectionPhase) : Prop where
  ownMarker : ∀ i token, system.memory i = .unlinking token → system.shared.intent = some token
  recovers : ∀ i count final, system.memory i = .committed →
    replay (Processes.act stepProjection) system (List.replicate count (i, .proceed)) = .ok final →
    final.memory i = .idle →
    final.shared.file = some (canonicalText final.shared.canonical.rows)

theorem recovers_run {i : ι} {count : Nat} {final : Processes ι ProjectionStore ProjectionPhase}
    (hrun : replay (Processes.act stepProjection) system (List.replicate count (i, .proceed))
      = .ok final)
    (hrecovers : (system.memory i).Recovers system.shared) :
    (final.memory i).Recovers final.shared := by
  induction count generalizing system with
  | zero =>
      cases hrun
      exact hrecovers
  | succ count ih =>
      rw [List.replicate_succ] at hrun
      obtain ⟨middle, hstep, hrest⟩ := replay_cons_ok.mp hrun
      apply ih hrest
      obtain ⟨phase', hturn, hmemory⟩ := Processes.act_ok.mp hstep
      rw [hmemory, Function.update_self]
      exact recovers_step (projectionStep_of_step hturn) hrecovers

/-- Where no process leaves its marker while another one stands before an unlink, the projection
recovers from every run. -/
theorem projection_recovers {canonical : CanonicalRows} {file : Option Text}
    (hrun : replay (Processes.act stepProjection) (initialProjection ι canonical file) turns
      = .ok system)
    (halone : Along (Processes.act stepProjection) LeavesMarkersAlone
      (initialProjection ι canonical file) turns) :
    ProjectionContract system := by
  have hinvariant : Along (Processes.act stepProjection) LeavesMarkersAlone
      (initialProjection ι canonical file) turns → ProjectionInvariant system := by
    apply replay_induction _ _ hrun
    · intro _
      have hunprojected : ∀ ordinal,
          (initialProjection ι canonical file).shared.projectedOrdinal ≠ some ordinal := by
        intro ordinal hordinal
        cases hordinal
      refine ⟨⟨?_, ?_⟩, fun _ => trivial, ?_, ?_⟩
      · intro ordinal hordinal
        exact absurd hordinal (hunprojected ordinal)
      · intro _ ordinal hordinal
        exact absurd hordinal (hunprojected ordinal)
      · intro i token htoken
        cases htoken
      · intro i j token htoken
        cases htoken
    · intro before current turn next hbefore hinvariant hstep halong
      obtain ⟨halong, hturn⟩ := along_concat.mp halong
      exact projectionInvariant_turn hstep (hinvariant halong) (hturn current hbefore)
  have hinvariant := hinvariant halone
  constructor
  · intro i token hunlinking
    have hprocess := hinvariant.process i
    rw [hunlinking] at hprocess
    exact hprocess.1
  · intro i count final hcommitted hsolo hidle
    have hrecovers : (system.memory i).Recovers system.shared := by
      rw [hcommitted]
      exact hinvariant.store.unmarked
    have hfinal := recovers_run hsolo hrecovers
    rwa [hidle] at hfinal

end Runs

/-! ### Two writers -/

def writeRow (writer : Bool) (payload : String) (steps : Nat) : List (Bool × ProjectionAction) :=
  (writer, .append [payload.toList]) :: List.replicate steps (writer, .proceed)

def noRows : CanonicalRows := ⟨[], .nil⟩

def crashedTurns : List (Bool × ProjectionAction) :=
  writeRow true "a" 5 ++ [(true, .crash)] ++ writeRow false "b" 0

theorem projection_recovers_crashed :
    ∃ final, replay (Processes.act stepProjection) (initialProjection Bool noRows none)
          (crashedTurns ++ List.replicate 8 (false, .proceed)) = .ok final
        ∧ final.memory false = .idle
        ∧ final.shared.file = some (canonicalText final.shared.canonical.rows) := by
  obtain ⟨system, final, hrun, hcommitted, hsolo, hidle⟩ : ∃ system final,
      replay (Processes.act stepProjection) (initialProjection Bool noRows none) crashedTurns
          = .ok system
        ∧ system.memory false = .committed
        ∧ replay (Processes.act stepProjection) system (List.replicate 8 (false, .proceed)) = .ok final
        ∧ final.memory false = .idle :=
    ⟨_, _, rfl, rfl, rfl, rfl⟩
  have hcontract := projection_recovers hrun (by decide +kernel)
  exact ⟨final, replay_append_ok.mpr ⟨system, hrun, hsolo⟩, hidle,
    hcontract.recovers false 8 final hcommitted hsolo hidle⟩

def racedTurns : List (Bool × ProjectionAction) :=
  writeRow true "a" 7 ++ writeRow false "b" 4
    ++ [(true, .proceed), (false, .proceed), (false, .crash)] ++ writeRow true "c" 0

/-- The marker of the second writer is removed by the first one, and its row ends twice in the file. -/
theorem not_projectionContract_raced :
    (∃ system,
      replay (Processes.act stepProjection) (initialProjection Bool noRows none) (racedTurns.take 13)
          = .ok system
        ∧ system.memory true = .unlinking 0 ∧ system.shared.intent = some 1)
      ∧ ∃ system final,
        replay (Processes.act stepProjection) (initialProjection Bool noRows none) racedTurns
            = .ok system
          ∧ replay (Processes.act stepProjection) system (List.replicate 8 (true, .proceed)) = .ok final
          ∧ final.shared.file = some "a\nb\nb\nc\n".toList
          ∧ canonicalText final.shared.canonical.rows = "a\nb\nc\n".toList
          ∧ ¬ ProjectionContract system := by
  refine ⟨⟨_, rfl, rfl, rfl⟩, ?_⟩
  obtain ⟨system, final, hrun, hcommitted, hsolo, hidle, hfile, htext⟩ : ∃ system final,
      replay (Processes.act stepProjection) (initialProjection Bool noRows none) racedTurns
          = .ok system
        ∧ system.memory true = .committed
        ∧ replay (Processes.act stepProjection) system (List.replicate 8 (true, .proceed)) = .ok final
        ∧ final.memory true = .idle
        ∧ final.shared.file = some "a\nb\nb\nc\n".toList
        ∧ canonicalText final.shared.canonical.rows = "a\nb\nc\n".toList :=
    ⟨_, _, rfl, rfl, rfl, rfl, by rfl, by rfl⟩
  refine ⟨system, final, hrun, hsolo, hfile, htext, ?_⟩
  intro hcontract
  have hexact := hcontract.recovers true 8 final hcommitted hsolo hidle
  rw [hfile, htext] at hexact
  exact absurd hexact (by decide)

end Deckent.RunFlow
