import Deckent.Proof.ExecutionLockFencing
import Deckent.Proof.ExecutionLockParse

/-!
# Lineages of adoptions

Each adoption leaves an audit of the lock that it took over and the lock that it put in its place. From
an active lock the audits lead back to the first generation, and a reader follows them by comparing
whole records. A renewal changes the record of its generation, so a reader gets past an adopted
generation only where no renewal has moved it since.
-/

namespace Deckent.ExecutionLock

variable {options : ExecutionLockOptions} {host : ExecutionLockHost} {tables next : ExecutionLockTables}
  {lock : ExecutionLockInfo} {lineage : List ExecutionLockActiveAdoptionAudit}
  {evidenceRefs : List String}

/-! ### Lineages -/

inductive AdoptionLineage (tables : ExecutionLockTables) :
    ExecutionLockInfo → List ExecutionLockActiveAdoptionAudit → Prop where
  | first (lock : ExecutionLockInfo)
      (hfirst : ∀ audit ∈ tables.activeAdoptionAudit,
        executionLockGenerationEquals audit.adoptedLock lock = false) :
      AdoptionLineage tables lock []
  | adopted (lock : ExecutionLockInfo) (audit : ExecutionLockActiveAdoptionAudit)
      (lineage : List ExecutionLockActiveAdoptionAudit) (hmem : audit ∈ tables.activeAdoptionAudit)
      (hsame : executionLockGenerationEquals audit.adoptedLock lock = true)
      (hprevious : AdoptionLineage tables audit.previousLock lineage) :
      AdoptionLineage tables lock (lineage ++ [audit])

/-- A lock that is active under no quarantine. -/
structure ExecutionLockTables.Unquarantined (tables : ExecutionLockTables) (lock : ExecutionLockInfo) :
    Prop where
  active : lock ∈ tables.active
  free : selectRow (·.lock.taskId) lock.taskId tables.quarantine = none

structure AdoptionEvidence (lineage : List ExecutionLockActiveAdoptionAudit)
    (evidenceRefs : List String) : Prop where
  parses : (parseExecutionLockEvidenceRefs evidenceRefs).isSome = true
  nonempty : evidenceRefs ≠ []
  same : ∀ audit ∈ lineage, audit.evidenceRefs = evidenceRefs

structure MayAdopt (options : ExecutionLockOptions) (host : ExecutionLockHost)
    (tables : ExecutionLockTables) (lock : ExecutionLockInfo) : Prop where
  input : ∃ validated, validateExecutionLockAcquireInput options lock.taskId lock.actor = .ok validated
    ∧ RetirableLock options lock validated.nowMs
  room : tables.fencingCounter < 9007199254740991
  ownerId : ∀ row ∈ tables.active, row.ownerId ≠ host.ownerId.text
  nonce : lock.fencingToken.nonce ≠ host.nonce.text
  eventId : ∀ audit ∈ tables.activeAdoptionAudit, audit.eventId ≠ host.eventId.text
  projection : host.reconcileFault lock.taskId = none

/-- An active lock can be adopted, and its lineage can be read. -/
structure AdoptionContract (tables : ExecutionLockTables) (lock : ExecutionLockInfo)
    (lineage : List ExecutionLockActiveAdoptionAudit) : Prop where
  complete : AdoptionLineage tables lock lineage
  read : lineage.length ≤ maxExecutionLockActiveAdoptions → ∀ evidenceRefs,
    AdoptionEvidence lineage evidenceRefs →
    readExecutionLockActiveAdoption tables lock evidenceRefs
      = .ok (lineage.getLast?.map fun audit => ⟨audit.previousLock, lock, audit, lineage⟩)
  adopt : lineage.length < maxExecutionLockActiveAdoptions → ∀ options host evidenceRefs,
    AdoptionEvidence lineage evidenceRefs → MayAdopt options host tables lock →
    ∃ result next, adoptExecutionLockActiveGeneration options host tables lock evidenceRefs
      = .ok (result, next) ∧ result.previous = lock

/-! ### Rows that a reader accepts -/

/-- What a reader of the adoptions relies on. -/
structure AdoptionRows (tables : ExecutionLockTables) : Prop where
  epoch : ∀ row ∈ tables.active, row.fencingToken.epoch = tables.authorityEpoch
  parses : ∀ row, tables.Unquarantined row → ParsesAsLock row
  audits : ∀ audit ∈ tables.activeAdoptionAudit,
    (parseExecutionLockActiveAdoptionAudit audit).isSome = true
  bounded : ∀ audit ∈ tables.activeAdoptionAudit,
    audit.adoptedLock.fencingToken.counter ≤ tables.fencingCounter
  distinct : (tables.activeAdoptionAudit.map (·.adoptedLock.fencingToken.counter)).Nodup
  replaced : ∀ audit ∈ tables.activeAdoptionAudit, ∀ row ∈ tables.active,
    row.fencingToken ≠ audit.previousLock.fencingToken
  /-- No renewal has moved the lock of an adoption, while it is active or before it was adopted. -/
  current : ∀ audit ∈ tables.activeAdoptionAudit, ∀ row ∈ tables.active,
    executionLockGenerationEquals audit.adoptedLock row = true → audit.adoptedLock = row
  linked : ∀ audit ∈ tables.activeAdoptionAudit, ∀ later ∈ tables.activeAdoptionAudit,
    executionLockGenerationEquals audit.adoptedLock later.previousLock = true →
    audit.adoptedLock = later.previousLock

theorem counter_lt_of_parses {audit : ExecutionLockActiveAdoptionAudit}
    (hparses : (parseExecutionLockActiveAdoptionAudit audit).isSome = true) :
    audit.previousLock.fencingToken.counter < audit.adoptedLock.fencingToken.counter := by
  unfold parseExecutionLockActiveAdoptionAudit at hparses
  split_ifs at hparses with haudit
  · obtain ⟨-, -, hsuccession⟩ := haudit
    simp only [parsesAsSuccession, Bool.and_eq_true, decide_eq_true_eq] at hsuccession
    omega
  · simp at hparses

def ComparedLock (tables : ExecutionLockTables) (lock : ExecutionLockInfo) : Prop :=
  ∀ audit ∈ tables.activeAdoptionAudit,
    executionLockGenerationEquals audit.adoptedLock lock = true → audit.adoptedLock = lock

theorem AdoptionRows.compared (hrows : AdoptionRows tables) (hmem : lock ∈ tables.active) :
    ComparedLock tables lock :=
  fun audit haudit => hrows.current audit haudit lock hmem

theorem AdoptionRows.compared_previous (hrows : AdoptionRows tables)
    {audit : ExecutionLockActiveAdoptionAudit} (hmem : audit ∈ tables.activeAdoptionAudit) :
    ComparedLock tables audit.previousLock :=
  fun other hother => hrows.linked other hother audit hmem

theorem AdoptionRows.find_adopted (hrows : AdoptionRows tables)
    {audit : ExecutionLockActiveAdoptionAudit} (hmem : audit ∈ tables.activeAdoptionAudit)
    (hsame : executionLockGenerationEquals audit.adoptedLock lock = true) :
    tables.activeAdoptionAudit.find? (fun row => executionLockGenerationEquals row.adoptedLock lock)
      = some audit := by
  cases hfind : tables.activeAdoptionAudit.find?
      fun row => executionLockGenerationEquals row.adoptedLock lock with
  | none =>
      rw [List.find?_eq_none] at hfind
      exact absurd hsame (hfind audit hmem)
  | some found =>
      have hfound := List.find?_some hfind
      have htokens := (executionLockGenerationEquals_iff.mp hfound).2.2.trans
        (executionLockGenerationEquals_iff.mp hsame).2.2.symm
      rw [List.inj_on_of_nodup_map hrows.distinct (List.mem_of_find?_eq_some hfind) hmem
        (congrArg (·.counter) htokens)]

theorem AdoptionRows.exists_lineage (hrows : AdoptionRows tables) (hcompared : ComparedLock tables lock) :
    ∃ lineage, AdoptionLineage tables lock lineage := by
  induction hcounter : lock.fencingToken.counter using Nat.strong_induction_on generalizing lock with
  | _ counter ih =>
      by_cases hadopted : ∃ audit ∈ tables.activeAdoptionAudit,
          executionLockGenerationEquals audit.adoptedLock lock = true
      · obtain ⟨audit, hmem, hsame⟩ := hadopted
        have hlt := counter_lt_of_parses (hrows.audits audit hmem)
        rw [hcompared audit hmem hsame, hcounter] at hlt
        obtain ⟨lineage, hlineage⟩ := ih _ hlt (hrows.compared_previous hmem) rfl
        exact ⟨_, .adopted lock audit lineage hmem hsame hlineage⟩
      · push Not at hadopted
        exact ⟨[], .first lock fun audit hmem => by simpa using hadopted audit hmem⟩

theorem AdoptionRows.followAdoptions_eq (hrows : AdoptionRows tables)
    (hlineage : AdoptionLineage tables lock lineage) (hcompared : ComparedLock tables lock)
    (taskId : String) (later : List ExecutionLockActiveAdoptionAudit) {remaining : Nat}
    (hlength : lineage.length ≤ remaining) :
    followAdoptions tables taskId remaining lock later = .ok (lineage ++ later) := by
  induction hlineage generalizing remaining later with
  | first lock hfirst =>
      have hfind : tables.activeAdoptionAudit.find?
          (fun row => executionLockGenerationEquals row.adoptedLock lock) = none := by
        rw [List.find?_eq_none]
        intro audit hmem
        rw [hfirst audit hmem]
        exact Bool.false_ne_true
      unfold followAdoptions
      rw [hfind]
      rfl
  | adopted lock audit lineage hmem hsame hprevious ih =>
      rw [List.length_append, List.length_singleton] at hlength
      obtain ⟨remaining, rfl⟩ : ∃ smaller, remaining = smaller + 1 := ⟨remaining - 1, by omega⟩
      have hparses := hrows.audits audit hmem
      obtain ⟨parsed, hparsed⟩ := Option.isSome_iff_exists.mp hparses
      obtain ⟨rfl, -⟩ := parseExecutionLockActiveAdoptionAudit_eq_some.mp hparsed
      have hrest : followAdoptions tables taskId remaining audit.previousLock (audit :: later)
          = .ok (lineage ++ audit :: later) :=
        ih (hrows.compared_previous hmem) (audit :: later) (by omega)
      unfold followAdoptions
      rw [hrows.find_adopted hmem hsame]
      simp only [bind_eq_ok, requireSome_eq_ok, require_eq_ok, decide_eq_true_eq]
      refine ⟨audit, hparsed, (), hcompared audit hmem hsame, ?_⟩
      rw [hrest, List.append_assoc, List.singleton_append]

/-! ### Reading and adopting -/

theorem AdoptionRows.read (hrows : AdoptionRows tables) (hkeys : tables.KeyedActive)
    (hlock : tables.Unquarantined lock) (hlineage : AdoptionLineage tables lock lineage)
    (hlength : lineage.length ≤ maxExecutionLockActiveAdoptions)
    (hevidence : AdoptionEvidence lineage evidenceRefs) :
    readExecutionLockActiveAdoption tables lock evidenceRefs
      = .ok (lineage.getLast?.map fun audit => ⟨audit.previousLock, lock, audit, lineage⟩) := by
  have hparses := hrows.parses lock hlock
  have hselect := (selectRow_eq_some_iff hkeys).mpr ⟨hlock.active, rfl⟩
  have hcompared := hrows.compared hlock.active
  have hload : loadExecutionLockActiveAdoptionLineage tables lock = .ok lineage := by
    have hfollow := hrows.followAdoptions_eq hlineage hcompared lock.taskId [] hlength
    rwa [List.append_nil] at hfollow
  simp only [readExecutionLockActiveAdoption, requireAdoptionEvidence, bind_eq_ok,
    normalizeExecutionLockHandle_ok, normalizeExecutionLockEvidenceRefs_ok, require_eq_ok, pure_eq_ok,
    loadExecutionLockActiveRow_ok, requireSome_eq_ok, executionLockForExactGeneration_eq_some,
    loadExecutionLockQuarantineForLock_ok]
  refine ⟨lock, ⟨rfl, hparses⟩, evidenceRefs, ⟨evidenceRefs, ⟨rfl, hevidence.parses⟩, (),
    decide_eq_true hevidence.nonempty, rfl⟩, some lock, ⟨hselect.symm, ?_⟩, lock, ⟨rfl, rfl⟩, none,
    ⟨hlock.free.symm, by simp⟩, (), rfl, lineage, hload, ?_⟩
  · rintro row ⟨⟩
    exact hparses
  · cases hlast : lineage.getLast? with
    | none => rfl
    | some audit =>
        have hadopted : audit.adoptedLock = lock := by
          cases hlineage with
          | first lock hfirst => cases hlast
          | adopted lock last lineage hmem hsame hprevious =>
              rw [List.getLast?_concat] at hlast
              obtain rfl := Option.some.inj hlast
              exact hcompared _ hmem hsame
        simp only [bind_eq_ok, require_eq_ok, decide_eq_true_eq, pure_eq_ok, Option.map_some]
        refine ⟨(), ⟨hadopted, ?_⟩, trivial⟩
        rw [List.all_eq_true]
        intro candidate hcandidate
        exact decide_eq_true (hevidence.same candidate hcandidate)

theorem loadedTask_unquarantined (hkeys : tables.KeyedActive) (hlock : tables.Unquarantined lock)
    (hparses : ParsesAsLock lock) : LoadedTask tables lock.taskId ⟨some lock, none⟩ where
  lock := ((selectRow_eq_some_iff hkeys).mpr ⟨hlock.active, rfl⟩).symm
  parses := by
    rintro row ⟨⟩
    exact hparses
  quarantine := hlock.free.symm
  readable := by
    rintro row ⟨⟩ quarantine ⟨⟩

theorem AdoptionRows.not_replayed (hrows : AdoptionRows tables) (hmem : lock ∈ tables.active) :
    loadExecutionLockActiveAdoptionForPrevious tables lock = .ok none := by
  have hfind : tables.activeAdoptionAudit.find?
      (fun row => executionLockGenerationEquals row.previousLock lock) = none := by
    rw [List.find?_eq_none]
    intro audit haudit hsame
    exact hrows.replaced audit haudit lock hmem (executionLockGenerationEquals_iff.mp hsame).2.2.symm
  unfold loadExecutionLockActiveAdoptionForPrevious
  rw [hfind]

/-- The lock that takes the place of an adopted one. -/
def adoptedLock (host : ExecutionLockHost) (tables : ExecutionLockTables)
    (validated : ExecutionLockAcquireInput) (lock : ExecutionLockInfo) : ExecutionLockInfo :=
  succeedExecutionLock host validated lock
    ⟨tables.authorityEpoch, tables.fencingCounter + 1, host.nonce.text⟩
    (max validated.nowMs lock.renewedAt)

theorem appendExecutionLockActiveAdoptionAudit_ok {audit : ExecutionLockActiveAdoptionAudit} :
    appendExecutionLockActiveAdoptionAudit tables audit = .ok next
      ↔ ((∃ row ∈ tables.active, executionLockGenerationEquals row audit.previousLock = true)
          ∧ (∀ row ∈ tables.quarantine, row.lock.taskId ≠ audit.previousLock.taskId)
          ∧ advancesExecutionLock audit.previousLock audit.adoptedLock = true
          ∧ ∀ other ∈ tables.activeAdoptionAudit, other.eventId ≠ audit.eventId
            ∧ executionLockGenerationEquals other.previousLock audit.previousLock = false
            ∧ executionLockGenerationEquals other.adoptedLock audit.adoptedLock = false)
        ∧ next = { tables with activeAdoptionAudit := tables.activeAdoptionAudit ++ [audit] } := by
  simp only [appendExecutionLockActiveAdoptionAudit, bind_eq_ok, require_eq_ok, pure_eq_ok,
    Bool.and_eq_true, List.any_eq_true, List.all_eq_true, decide_eq_true_eq, Bool.not_eq_true',
    and_assoc]
  constructor
  · rintro ⟨-, hactive, hfree, hadvances, hnew, rfl⟩
    exact ⟨hactive, hfree, hadvances, hnew, rfl⟩
  · rintro ⟨hactive, hfree, hadvances, hnew, rfl⟩
    exact ⟨(), hactive, hfree, hadvances, hnew, rfl⟩

theorem assertExecutionLockFencingProgression_ok {previous candidate : ExecutionLockFencingToken}
    {taskId : String} {passed : Unit} :
    assertExecutionLockFencingProgression previous candidate taskId = .ok passed
      ↔ ((parseExecutionLockFencingToken previous).isSome = true
          ∧ (parseExecutionLockFencingToken candidate).isSome = true)
        ∧ previous.epoch = candidate.epoch ∧ previous.counter < candidate.counter := by
  simp [assertExecutionLockFencingProgression, bind_eq_ok]

theorem MayAdopt.advances (hmay : MayAdopt options host tables lock) (hrows : AdoptionRows tables)
    (hmem : lock ∈ tables.active)
    (hbounded : ∀ row ∈ tables.active, row.fencingToken.counter ≤ tables.fencingCounter)
    (validated : ExecutionLockAcquireInput) :
    advancesExecutionLock lock (adoptedLock host tables validated lock) = true := by
  have hcounter := hbounded lock hmem
  rw [advancesExecutionLock_iff]
  exact ⟨(hmay.ownerId lock hmem).symm, (hrows.epoch lock hmem).symm, Nat.lt_succ_of_le hcounter,
    hmay.nonce.symm⟩

theorem AdoptionRows.adopt (hrows : AdoptionRows tables) (hkeys : tables.KeyedActive)
    (hlock : tables.Unquarantined lock) (hlineage : AdoptionLineage tables lock lineage)
    (hlength : lineage.length < maxExecutionLockActiveAdoptions)
    (hevidence : AdoptionEvidence lineage evidenceRefs) (hmay : MayAdopt options host tables lock)
    (hbounded : ∀ row ∈ tables.active, row.fencingToken.counter ≤ tables.fencingCounter) :
    ∃ result next, adoptExecutionLockActiveGeneration options host tables lock evidenceRefs
      = .ok (result, next) ∧ result.previous = lock := by
  have hmem := hlock.active
  have hparses := hrows.parses lock hlock
  have hloaded := loadedTask_unquarantined hkeys hlock hparses
  obtain ⟨validated, hvalidated, hretirable⟩ := hmay.input
  have hload : loadExecutionLockActiveAdoptionLineage tables lock = .ok lineage := by
    have hfollow := hrows.followAdoptions_eq hlineage (hrows.compared hmem) lock.taskId []
      (Nat.le_of_lt hlength)
    rwa [List.append_nil] at hfollow
  have hepoch : isExecutionLockUuid tables.authorityEpoch = true := by
    have htoken := hparses.fencingToken
    unfold parseExecutionLockFencingToken at htoken
    split_ifs at htoken with hvalid
    · rw [← hrows.epoch lock hmem]
      exact hvalid.1
    · simp at htoken
  have hroom := And.intro hmay.room hepoch
  have hadvances := hmay.advances hrows hmem hbounded validated
  simp only [adoptExecutionLockActiveGeneration, bind_eq_ok, normalizeExecutionLockHandle_ok,
    requireAdoptionEvidence, normalizeExecutionLockEvidenceRefs_ok, require_eq_ok, pure_eq_ok,
    replayExecutionLockAdoption, reconcileExecutionLockProjectionForTask_ok]
  refine ⟨⟨lock, adoptedLock host tables validated lock,
      adoptionAudit lock (adoptedLock host tables validated lock) evidenceRefs host.eventId⟩,
    { tables with
      fencingCounter := tables.fencingCounter + 1
      active := replaceRow (·.taskId) (adoptedLock host tables validated lock) tables.active
      activeAdoptionAudit := tables.activeAdoptionAudit
        ++ [adoptionAudit lock (adoptedLock host tables validated lock) evidenceRefs host.eventId] },
    ⟨lock, ⟨rfl, hparses⟩, evidenceRefs,
      ⟨evidenceRefs, ⟨rfl, hevidence.parses⟩, (), decide_eq_true hevidence.nonempty, rfl⟩, validated,
      hvalidated, none, ⟨⟨some lock, none⟩, ⟨hloaded, hmay.projection⟩, none, hrows.not_replayed hmem, rfl⟩,
      ?_⟩, rfl⟩
  simp only [bind_eq_ok, reconcileExecutionLockProjectionForTask_ok, requireSome_eq_ok,
    Option.filter_eq_some_iff, executionLockForExactGeneration_eq_some, require_eq_ok, pure_eq_ok,
    Prod.mk.injEq]
  refine ⟨⟨some lock, none⟩, ⟨hloaded, hmay.projection⟩, lock, ⟨⟨rfl, rfl⟩, rfl⟩, lineage, hload, (),
    decide_eq_true hlength, (), ?_, true, staleExecutionLockCanRetire_ok.mpr hretirable, (), rfl, _,
    allocateExecutionLockFencingToken_ok.mpr ⟨hroom, rfl, rfl⟩, ?_⟩
  · rw [List.all_eq_true]
    intro candidate hcandidate
    exact decide_eq_true (hevidence.same candidate hcandidate)
  · refine ⟨(), ?_, _, appendExecutionLockActiveAdoptionAudit_ok.mpr ⟨⟨⟨lock, hmem, ?_⟩, ?_, hadvances, ?_⟩,
      rfl⟩, _, transferExecutionLockActiveRow_ok.mpr ⟨hmem, hadvances, ?_, rfl⟩, rfl, rfl⟩
    · obtain ⟨-, hsameEpoch, hlt, -⟩ := advancesExecutionLock_iff.mp hadvances
      exact assertExecutionLockFencingProgression_ok.mpr
        ⟨⟨hparses.fencingToken, parses_allocated hroom⟩, hsameEpoch.symm, hlt⟩
    · exact executionLockGenerationEquals_iff.mpr ⟨rfl, rfl, rfl⟩
    · exact selectRow_eq_none.mp hlock.free
    · intro other hother
      have hcounter := hrows.bounded other hother
      refine ⟨hmay.eventId other hother, ?_, ?_⟩
      · rw [Bool.eq_false_iff]
        intro hsame
        exact hrows.replaced other hother lock hmem
          (executionLockGenerationEquals_iff.mp hsame).2.2.symm
      · rw [Bool.eq_false_iff]
        intro hsame
        have htoken : other.adoptedLock.fencingToken.counter = tables.fencingCounter + 1 :=
          congrArg (·.counter) (executionLockGenerationEquals_iff.mp hsame).2.2
        omega
    · intro other hother
      refine .inr ⟨hmay.ownerId other hother, ?_⟩
      intro htoken
      have hcounter : other.fencingToken.counter = tables.fencingCounter + 1 :=
        congrArg (·.counter) htoken
      have hle := hbounded other hother
      omega

/-! ### Operations -/

structure KeepsRows (tables next : ExecutionLockTables) : Prop where
  audits : next.activeAdoptionAudit = tables.activeAdoptionAudit
  epoch : next.authorityEpoch = tables.authorityEpoch
  counter : tables.fencingCounter ≤ next.fencingCounter
  rows : ∀ row ∈ next.active,
    (∃ old ∈ tables.active, row.identity = old.identity
      ∧ (row = old ∨ ∀ audit ∈ tables.activeAdoptionAudit,
        executionLockGenerationEquals audit.adoptedLock row = false))
    ∨ (row.fencingToken.epoch = tables.authorityEpoch
      ∧ tables.fencingCounter < row.fencingToken.counter)
  parses : ∀ row, next.Unquarantined row → tables.Unquarantined row ∨ ParsesAsLock row

theorem AdoptionRows.keep (hrows : AdoptionRows tables) (hkeeps : KeepsRows tables next) :
    AdoptionRows next := by
  have haudits := hkeeps.audits
  have hcounter := hkeeps.counter
  refine ⟨?_, ?_, ?_, ?_, ?_, ?_, ?_, ?_⟩
  · intro row hrow
    rw [hkeeps.epoch]
    rcases hkeeps.rows row hrow with ⟨old, hold, hidentity, -⟩ | ⟨hepoch, -⟩
    · have htoken : row.fencingToken = old.fencingToken := congrArg (·.2.2.1) hidentity
      rw [htoken]
      exact hrows.epoch old hold
    · exact hepoch
  · intro row hrow
    rcases hkeeps.parses row hrow with hold | hparses
    · exact hrows.parses row hold
    · exact hparses
  · rw [haudits]
    exact hrows.audits
  · rw [haudits]
    intro audit haudit
    exact Nat.le_trans (hrows.bounded audit haudit) hcounter
  · rw [haudits]
    exact hrows.distinct
  · rw [haudits]
    intro audit haudit row hrow htoken
    rcases hkeeps.rows row hrow with ⟨old, hold, hidentity, -⟩ | ⟨-, hlt⟩
    · have hsame : row.fencingToken = old.fencingToken := congrArg (·.2.2.1) hidentity
      exact hrows.replaced audit haudit old hold (hsame.symm.trans htoken)
    · have hprevious := counter_lt_of_parses (hrows.audits audit haudit)
      have hbounded := hrows.bounded audit haudit
      rw [htoken] at hlt
      omega
  · rw [haudits]
    intro audit haudit row hrow hsame
    rcases hkeeps.rows row hrow with ⟨old, hold, -, rfl | hother⟩ | ⟨-, hlt⟩
    · exact hrows.current audit haudit row hold hsame
    · rw [hother audit haudit] at hsame
      cases hsame
    · have hbounded := hrows.bounded audit haudit
      rw [(executionLockGenerationEquals_iff.mp hsame).2.2] at hbounded
      omega
  · rw [haudits]
    exact hrows.linked

theorem keepsRows_of_subset (haudits : next.activeAdoptionAudit = tables.activeAdoptionAudit)
    (hepoch : next.authorityEpoch = tables.authorityEpoch)
    (hcounter : next.fencingCounter = tables.fencingCounter)
    (hrows : ∀ row ∈ next.active, row ∈ tables.active)
    (hfree : ∀ row ∈ next.active, selectRow (·.lock.taskId) row.taskId next.quarantine = none →
      selectRow (·.lock.taskId) row.taskId tables.quarantine = none) : KeepsRows tables next where
  audits := haudits
  epoch := hepoch
  counter := Nat.le_of_eq hcounter.symm
  rows := fun row hrow => .inl ⟨row, hrows row hrow, rfl, .inl rfl⟩
  parses := fun row hrow => .inl ⟨hrows row hrow.active, hfree row hrow.active hrow.free⟩

theorem KeepsRows.refl (tables : ExecutionLockTables) : KeepsRows tables tables :=
  keepsRows_of_subset rfl rfl rfl (fun _ hrow => hrow) fun _ _ hfree => hfree

theorem keepsRows_drop (tables : ExecutionLockTables) (lock : ExecutionLockInfo) :
    KeepsRows tables (tables.drop lock) :=
  keepsRows_of_subset rfl rfl rfl (fun _ hrow => (mem_deleteRow.mp hrow).1) fun _ _ hfree => hfree

theorem keepsRows_settle (tables : ExecutionLockTables) (quarantine : ExecutionLockQuarantineInfo)
    (event : ExecutionLockQuarantineAuditEvent) :
    KeepsRows tables (tables.settle quarantine event) := by
  refine keepsRows_of_subset rfl rfl rfl (fun _ hrow => (mem_deleteRow.mp hrow).1) ?_
  intro row hrow hfree
  rwa [ExecutionLockTables.settle, selectRow_deleteRow_of_ne (mem_deleteRow.mp hrow).2] at hfree

theorem keepsRows_enters {quarantine : ExecutionLockQuarantineInfo}
    {event : ExecutionLockQuarantineAuditEvent} (henters : Enters tables next quarantine event) :
    KeepsRows tables next := by
  rw [henters.next_eq]
  refine keepsRows_of_subset rfl rfl rfl (fun _ hrow => hrow) ?_
  intro row _ hfree
  rw [selectRow_eq_none] at hfree ⊢
  exact fun other hother => hfree other (List.mem_append_left _ hother)

theorem keepsRows_acquires {taskId : String} {actor : ExecutionLockActor}
    {validated : ExecutionLockAcquireInput} {kept : ExecutionLockTables}
    (hacquires : Acquires options host tables next taskId actor lock validated kept) :
    KeepsRows tables next := by
  have hparses := hacquires.parses
  have hkept := hacquires.retires.frame
  have hlock := hacquires.lock_eq
  have hnext := hacquires.next_eq
  rw [hkept] at hnext
  have hold : ∀ row ∈ next.active, row ∈ tables.active ∨ row = lock := by
    intro row hrow
    rw [hnext, List.mem_append, List.mem_singleton] at hrow
    rcases hrow with hrow | hrow
    · exact .inl (hacquires.retires.sublist.subset hrow)
    · exact .inr hrow
  refine ⟨by rw [hnext], by rw [hnext], by rw [hnext]; exact Nat.le_succ _, ?_, ?_⟩
  · intro row hrow
    rcases hold row hrow with hrow | rfl
    · exact .inl ⟨row, hrow, rfl, .inl rfl⟩
    · rw [hlock]
      exact .inr ⟨rfl, Nat.lt_succ_self _⟩
  · intro row hrow
    rcases hold row hrow.active with hactive | rfl
    · refine .inl ⟨hactive, ?_⟩
      have hfree := hrow.free
      rwa [hnext] at hfree
    · exact .inr hparses

def LeavesAdopted (options : ExecutionLockOptions) (tables : ExecutionLockTables) :
    ExecutionLockOperation → Prop
  | .renew taskId ownerId => ∀ lock ∈ tables.active, lock.taskId = taskId → lock.ownerId = ownerId →
      (∃ audit ∈ tables.activeAdoptionAudit,
        executionLockGenerationEquals audit.adoptedLock lock = true) →
      ∀ nowMs : Int, options.now = .finite nowMs → nowMs ≤ lock.renewedAt
  | _ => True

theorem keepsRows_renews {taskId : String} {current : ExecutionLockCurrent} {nowMs : Int}
    (hrenews : Renews options tables next taskId current lock nowMs)
    (hleaves : LeavesAdopted options tables (.renew taskId lock.ownerId)) : KeepsRows tables next := by
  have hnext := hrenews.next_eq
  have hmem := hrenews.loaded.lock_mem hrenews.lock
  have hnow := executionLockNow_ok.mp hrenews.now
  have hfree : ∀ k, selectRow (·.lock.taskId) k next.quarantine = none →
      selectRow (·.lock.taskId) k tables.quarantine = none := by
    intro k hselect
    cases hquarantine : current.quarantine with
    | none => rwa [hnext, hquarantine] at hselect
    | some quarantine =>
        rw [hnext, hquarantine] at hselect
        exact selectRow_replaceRow_eq_none.mp hselect
  have hold : ∀ row ∈ next.active, row ∈ tables.active ∨ row = lock.renew nowMs := by
    intro row hrow
    rw [hnext, mem_replaceRow] at hrow
    exact hrow.symm.imp (·.1) (·.1)
  refine ⟨by rw [hnext], by rw [hnext], by rw [hnext], ?_, ?_⟩
  · intro row hrow
    rcases hold row hrow with hrow | rfl
    · exact .inl ⟨row, hrow, rfl, .inl rfl⟩
    · refine .inl ⟨lock, hmem, rfl, ?_⟩
      by_cases hadopted : ∃ audit ∈ tables.activeAdoptionAudit,
          executionLockGenerationEquals audit.adoptedLock lock = true
      · have hle := hleaves lock hmem (hrenews.loaded.lock_taskId hrenews.lock) rfl hadopted nowMs hnow.1
        refine .inl ?_
        rw [ExecutionLockInfo.renew, Int.max_eq_right hle]
      · push Not at hadopted
        refine .inr ?_
        intro audit haudit
        change executionLockGenerationEquals audit.adoptedLock lock = false
        simpa using hadopted audit haudit
  · intro row hrow
    rcases hold row hrow.active with hactive | rfl
    · exact .inl ⟨hactive, hfree _ hrow.free⟩
    · refine .inr ((hrenews.loaded.parses lock hrenews.lock).renew hnow.2 hrenews.expires)

/-- Everything that an operation other than a new adoption does keeps the rows. -/
theorem keepsRows_of_perform {operation : ExecutionLockOperation} (hkeys : tables.KeyedActive)
    (hleaves : LeavesAdopted options tables operation)
    (hperform : operation.perform options host tables = .ok next)
    (hadopt : ∀ lock evidenceRefs, operation ≠ .adopt lock evidenceRefs) : KeepsRows tables next := by
  cases operation with
  | acquire taskId actor =>
      obtain ⟨⟨lock, next⟩, hacquire, rfl⟩ := map_eq_ok.mp hperform
      obtain ⟨validated, kept, hacquires⟩ := acquireExecutionLock_ok hkeys hacquire
      exact keepsRows_acquires hacquires
  | compensate acquired =>
      obtain ⟨⟨compensated, next⟩, hcompensate, rfl⟩ := map_eq_ok.mp hperform
      rcases compensateExecutionLock_ok hcompensate with
        ⟨-, rfl⟩ | ⟨-, canonical, -, -, -, rfl⟩
      · exact .refl _
      · exact keepsRows_drop _ _
  | renew taskId ownerId =>
      obtain ⟨⟨renewed, next⟩, hrenew, rfl⟩ := map_eq_ok.mp hperform
      obtain ⟨current, existing, nowMs, hrenews, rfl, -⟩ := renewExecutionLock_ok hrenew
      exact keepsRows_renews hrenews hleaves
  | release taskId ownerId =>
      obtain ⟨⟨released, next⟩, hrelease, rfl⟩ := map_eq_ok.mp hperform
      rcases releaseExecutionLock_ok hrelease with
        ⟨-, rfl, -⟩ | ⟨-, current, existing, -, -, -, -, -, rfl⟩
      · exact .refl _
      · exact keepsRows_drop _ _
  | beginBoundary exactLock request =>
      obtain ⟨⟨quarantine, next⟩, hbegin, rfl⟩ := map_eq_ok.mp hperform
      obtain ⟨-, -, -, -, ⟨-, -, rfl⟩ | ⟨-, -, henters⟩⟩ :=
        beginExecutionLockIrreversibleBoundary_ok hbegin
      · exact .refl _
      · exact keepsRows_enters henters
  | quarantine exactLock request =>
      obtain ⟨⟨quarantine, next⟩, hquarantine, rfl⟩ := map_eq_ok.mp hperform
      obtain ⟨-, -, -, -, ⟨-, -, rfl⟩ | ⟨-, -, -, -, -, -, -, rfl⟩ | ⟨-, -, -, henters⟩⟩ :=
        quarantineExecutionLock_ok hquarantine
      · exact .refl _
      · exact keepsRows_of_subset rfl rfl rfl (fun _ hrow => hrow)
          fun _ _ hfree => selectRow_replaceRow_eq_none.mp hfree
      · exact keepsRows_enters henters
  | completeNoChange exactLock request =>
      obtain ⟨⟨result, next⟩, hcomplete, rfl⟩ := map_eq_ok.mp hperform
      obtain ⟨-, ⟨rfl, -⟩ | ⟨-, current, nowMs, -, -, -, -, -, -, -, hcompletes⟩⟩ :=
        completeExecutionLockNoChangeBoundary_ok hcomplete
      · exact .refl _
      · change KeepsRows tables next
        rw [hcompletes.next_eq]
        exact keepsRows_of_subset rfl rfl rfl (fun _ hrow => (mem_deleteRow.mp hrow).1)
          fun _ _ hfree => hfree
  | complete exactLock request =>
      obtain ⟨⟨result, next⟩, hcomplete, rfl⟩ := map_eq_ok.mp hperform
      obtain ⟨current, nowMs, -, -, -, -, -, -, -, -, rfl⟩ :=
        completeExecutionLockIrreversibleBoundary_ok hcomplete
      exact keepsRows_settle _ _ _
  | recover exactLock attestation verifier =>
      obtain ⟨⟨result, next⟩, hrecover, rfl⟩ := map_eq_ok.mp hperform
      obtain ⟨current, nowMs, -, -, -, -, -, -, -, rfl⟩ := recoverQuarantinedExecutionLock_ok hrecover
      exact keepsRows_settle _ _ _
  | resume exactQuarantine evidenceRefs =>
      obtain ⟨⟨result, next⟩, hresume, rfl⟩ := map_eq_ok.mp hperform
      obtain ⟨current, validated, lineage, hloaded, hlock, hquarantine, -, -, -, hsucceeds, -, -, hresumed,
        -, -, rfl⟩ := resumeExecutionLockIrreversibleBoundary_ok hresume
      have hsuccessor := hsucceeds.successor_eq
      have hfree : ∀ k, selectRow (·.lock.taskId) k
          (replaceRow (·.lock.taskId) result.resumed tables.quarantine) = none →
          selectRow (·.lock.taskId) k tables.quarantine = none :=
        fun k hselect => selectRow_replaceRow_eq_none.mp hselect
      refine ⟨rfl, rfl, Nat.le_succ _, ?_, ?_⟩
      · intro row hrow
        rcases mem_replaceRow.mp hrow with ⟨rfl, -⟩ | ⟨hrow, -⟩
        · rw [hsuccessor]
          exact .inr ⟨rfl, Nat.lt_succ_self _⟩
        · exact .inl ⟨row, hrow, rfl, .inl rfl⟩
      · intro row hrow
        have hselect := hfree _ hrow.free
        rcases mem_replaceRow.mp hrow.active with ⟨rfl, -⟩ | ⟨hactive, -⟩
        · -- The resumed lock stays under its quarantine.
          have htask : result.resumed.lock.taskId = exactQuarantine.lock.taskId := by
            rw [hsuccessor]
            rfl
          rw [htask] at hselect
          exact absurd rfl (selectRow_eq_none.mp hselect exactQuarantine
            (hloaded.quarantine_mem hlock hquarantine))
        · exact .inl ⟨hactive, hselect⟩
  | adopt exactLock evidenceRefs => exact absurd rfl (hadopt exactLock evidenceRefs)

/-- A committed adoption. -/
structure Adopts (options : ExecutionLockOptions) (host : ExecutionLockHost)
    (tables next : ExecutionLockTables) (lock adopted : ExecutionLockInfo)
    (evidenceRefs : List String) (validated : ExecutionLockAcquireInput) : Prop where
  active : lock ∈ tables.active
  parses : ParsesAsLock lock
  evidence : (parseExecutionLockEvidenceRefs evidenceRefs).isSome = true ∧ evidenceRefs ≠ []
  succeeds : Succeeds options host tables lock adopted validated (max validated.nowMs lock.renewedAt)
  next_eq : next = {
    tables with
    fencingCounter := tables.fencingCounter + 1
    active := replaceRow (·.taskId) adopted tables.active
    activeAdoptionAudit := tables.activeAdoptionAudit
      ++ [adoptionAudit lock adopted evidenceRefs host.eventId] }

section Adopts

variable {adopted : ExecutionLockInfo} {validated : ExecutionLockAcquireInput}

theorem Adopts.since_eq (hadopts : Adopts options host tables next lock adopted evidenceRefs validated) :
    max validated.nowMs lock.renewedAt = validated.nowMs := by
  have hexpired := hadopts.succeeds.retirable.expired
  have hlease := hadopts.parses.lease.2.1
  omega

theorem Adopts.parses_adopted
    (hadopts : Adopts options host tables next lock adopted evidenceRefs validated) :
    ParsesAsLock adopted := by
  have haccepted := hadopts.succeeds.accepted
  apply hadopts.succeeds.parses
  · rw [hadopts.since_eq]
    exact canonical_now haccepted.now
  · rw [hadopts.since_eq]
    exact haccepted.expires.2

theorem Adopts.parses_audit
    (hadopts : Adopts options host tables next lock adopted evidenceRefs validated) :
    (parseExecutionLockActiveAdoptionAudit
      (adoptionAudit lock adopted evidenceRefs host.eventId)).isSome = true := by
  have hadopted := hadopts.parses_adopted
  have hsince : adopted.acquiredAt = max validated.nowMs lock.renewedAt := by
    rw [hadopts.succeeds.successor_eq]
    rfl
  have hsuccession := hadopts.succeeds.parsesAsSuccession hadopts.parses hadopted hadopts.evidence.1
    hadopts.evidence.2
  rw [← hsince] at hsuccession
  unfold parseExecutionLockActiveAdoptionAudit
  rw [if_pos ⟨host.eventId.isUuid, hadopted.acquiredAt, hsuccession⟩]
  rfl

theorem AdoptionRows.succeed (hrows : AdoptionRows tables)
    (hbounded : ∀ row ∈ tables.active, row.fencingToken.counter ≤ tables.fencingCounter)
    (hdistinct : (tables.active.map (·.fencingToken.counter)).Nodup)
    (hadopts : Adopts options host tables next lock adopted evidenceRefs validated) :
    AdoptionRows next := by
  have htask : adopted.taskId = lock.taskId := by
    rw [hadopts.succeeds.successor_eq]
    rfl
  have htoken : adopted.fencingToken
      = ⟨tables.authorityEpoch, tables.fencingCounter + 1, host.nonce.text⟩ := by
    rw [hadopts.succeeds.successor_eq]
    rfl
  have hcounter : adopted.fencingToken.counter = tables.fencingCounter + 1 := by rw [htoken]
  have hactive : ∀ row ∈ next.active,
      row = adopted ∨ (row ∈ tables.active ∧ row.taskId ≠ lock.taskId) := by
    intro row hrow
    rw [hadopts.next_eq] at hrow
    rcases mem_replaceRow.mp hrow with ⟨rfl, -⟩ | ⟨hrow, hne⟩
    · exact .inl rfl
    · exact .inr ⟨hrow, by rwa [← htask]⟩
  have haudits : ∀ audit ∈ next.activeAdoptionAudit, audit ∈ tables.activeAdoptionAudit
      ∨ audit = adoptionAudit lock adopted evidenceRefs host.eventId := by
    intro audit haudit
    rw [hadopts.next_eq, List.mem_append, List.mem_singleton] at haudit
    exact haudit
  have hprevious : ∀ audit ∈ tables.activeAdoptionAudit,
      audit.previousLock.fencingToken.counter < tables.fencingCounter + 1 := by
    intro audit haudit
    have hlt := counter_lt_of_parses (hrows.audits audit haudit)
    have hle := hrows.bounded audit haudit
    omega
  have hlock := hbounded lock hadopts.active
  refine ⟨?_, ?_, ?_, ?_, ?_, ?_, ?_, ?_⟩
  · intro row hrow
    rw [hadopts.next_eq]
    rcases hactive row hrow with rfl | ⟨hrow, -⟩
    · rw [htoken]
    · exact hrows.epoch row hrow
  · intro row hrow
    rcases hactive row hrow.active with rfl | ⟨hold, -⟩
    · exact hadopts.parses_adopted
    · have hfree := hrow.free
      rw [hadopts.next_eq] at hfree
      exact hrows.parses row ⟨hold, hfree⟩
  · intro audit haudit
    rcases haudits audit haudit with haudit | rfl
    · exact hrows.audits audit haudit
    · exact hadopts.parses_audit
  · intro audit haudit
    rw [hadopts.next_eq]
    rcases haudits audit haudit with haudit | rfl
    · exact Nat.le_succ_of_le (hrows.bounded audit haudit)
    · exact Nat.le_of_eq hcounter
  · rw [hadopts.next_eq, List.map_append, List.map_singleton, List.nodup_append]
    refine ⟨hrows.distinct, List.nodup_singleton _, ?_⟩
    intro old hold new hnew
    obtain ⟨audit, haudit, rfl⟩ := List.mem_map.mp hold
    rw [List.mem_singleton.mp hnew]
    have hle := hrows.bounded audit haudit
    simp only [adoptionAudit]
    omega
  · intro audit haudit row hrow hsame
    have hcounters := congrArg (·.counter) hsame
    rcases haudits audit haudit with haudit | rfl
    · have hlt := hprevious audit haudit
      rcases hactive row hrow with rfl | ⟨hold, -⟩
      · omega
      · exact hrows.replaced audit haudit row hold hsame
    · rcases hactive row hrow with rfl | ⟨hold, hne⟩
      · simp only [adoptionAudit] at hcounters
        omega
      · exact hne (congrArg (·.taskId)
          (List.inj_on_of_nodup_map hdistinct hold hadopts.active hcounters))
  · intro audit haudit row hrow hsame
    have hcounters := congrArg (·.counter) (executionLockGenerationEquals_iff.mp hsame).2.2
    rcases haudits audit haudit with haudit | rfl
    · have hle := hrows.bounded audit haudit
      rcases hactive row hrow with rfl | ⟨hold, -⟩
      · omega
      · exact hrows.current audit haudit row hold hsame
    · rcases hactive row hrow with rfl | ⟨hold, -⟩
      · rfl
      · have hle := hbounded row hold
        simp only [adoptionAudit] at hcounters
        omega
  · intro audit haudit later hlater hsame
    have hcounters := congrArg (·.counter) (executionLockGenerationEquals_iff.mp hsame).2.2
    rcases haudits audit haudit with haudit | rfl
    · rcases haudits later hlater with hlater | rfl
      · exact hrows.linked audit haudit later hlater hsame
      · exact hrows.current audit haudit lock hadopts.active hsame
    · rcases haudits later hlater with hlater | rfl
      · have hlt := hprevious later hlater
        simp only [adoptionAudit] at hcounters
        omega
      · simp only [adoptionAudit] at hcounters
        omega

end Adopts

/-! ### Runs -/

variable {world later : ExecutionLockWorld} {event : ExecutionLockEvent}

def ExecutionLockWorld.LeavesAdopted (world : ExecutionLockWorld) : ExecutionLockEvent → Prop
  | .call options _ operation => Deckent.ExecutionLock.LeavesAdopted options world.tables operation
  | .published _ => True
  | .terminated _ => True

theorem ExecutionLockWorld.Sound.distinct (hsound : world.Sound) :
    (world.tables.active.map (·.fencingToken.counter)).Nodup := by
  have hdistinct := hsound.fence.distinct
  simp only [Fence.holding, ExecutionLockWorld.fence, ExecutionLockTables.holders, List.map_map]
    at hdistinct
  exact hdistinct

theorem adoptionRows_step (hsound : world.Sound) (hrows : AdoptionRows world.tables)
    (hleaves : world.LeavesAdopted event) (hstep : world.Step event later) :
    AdoptionRows later.tables := by
  cases hstep with
  | published lock => exact hrows
  | terminated owner => exact hrows
  | call options host operation next hprobe hfresh hpublishing hperform =>
      change AdoptionRows next
      by_cases hadopt : ∃ lock evidenceRefs, operation = .adopt lock evidenceRefs
      · obtain ⟨lock, evidenceRefs, rfl⟩ := hadopt
        obtain ⟨⟨result, next⟩, hadopt, rfl⟩ := map_eq_ok.mp hperform
        rcases adoptExecutionLockActiveGeneration_ok hadopt with
          ⟨rfl, -⟩ | ⟨current, validated, lineage, hloaded, hlock, -, hevidence, hnonempty, -, hsucceeds,
            -, haudit, rfl⟩
        · exact hrows
        · refine hrows.succeed (fun row => hsound.counter_le) hsound.distinct
            ⟨hloaded.lock_mem hlock, hloaded.parses lock hlock, ⟨hevidence, hnonempty⟩, hsucceeds, ?_⟩
          rw [haudit]
      · push Not at hadopt
        exact hrows.keep (keepsRows_of_perform hsound.keyed hleaves hperform hadopt)

theorem adoptionRows_initial (authorityEpoch : String) :
    AdoptionRows (ExecutionLockWorld.initial authorityEpoch).tables where
  epoch := by
    intro row hrow
    cases hrow
  parses := by
    intro row hrow
    cases hrow.active
  audits := by
    intro audit haudit
    cases haudit
  bounded := by
    intro audit haudit
    cases haudit
  distinct := List.nodup_nil
  replaced := by
    intro audit haudit
    cases haudit
  current := by
    intro audit haudit
    cases haudit
  linked := by
    intro audit haudit
    cases haudit

def ExecutionLockWorld.QuietStep (world later : ExecutionLockWorld) : Prop :=
  ∃ event, world.LeavesAdopted event ∧ world.Step event later

theorem leads_of_quietRun (hrun : Relation.ReflTransGen ExecutionLockWorld.QuietStep world later) :
    world.Leads later := by
  induction hrun with
  | refl => exact .refl
  | tail _ hstep ih =>
      obtain ⟨event, -, hstep⟩ := hstep
      exact ih.tail ⟨event, hstep⟩

/-- Along a run in which no renewal moves an adopted generation, every active lock that is under no
quarantine can be adopted by whoever finds its owner dead, and its lineage can be read. -/
theorem adoption_stays_possible {authorityEpoch : String}
    (hrun : Relation.ReflTransGen ExecutionLockWorld.QuietStep
      (ExecutionLockWorld.initial authorityEpoch) world)
    (hlock : world.tables.Unquarantined lock) :
    ∃ lineage, AdoptionContract world.tables lock lineage := by
  have hinvariant : world.Sound ∧ AdoptionRows world.tables := by
    clear hlock
    induction hrun with
    | refl => exact ⟨sound_initial authorityEpoch, adoptionRows_initial authorityEpoch⟩
    | tail _ hstep ih =>
        obtain ⟨hsound, hrows⟩ := ih
        obtain ⟨event, hleaves, hstep⟩ := hstep
        exact ⟨(hsound.step hstep).1, adoptionRows_step hsound hrows hleaves hstep⟩
  obtain ⟨hsound, hrows⟩ := hinvariant
  obtain ⟨lineage, hlineage⟩ := hrows.exists_lineage (hrows.compared hlock.active)
  refine ⟨lineage, hlineage, ?_, ?_⟩
  · intro hlength evidenceRefs hevidence
    exact hrows.read hsound.keyed hlock hlineage hlength hevidence
  · intro hlength options host evidenceRefs hevidence hmay
    exact hrows.adopt hsound.keyed hlock hlineage hlength hevidence hmay fun row => hsound.counter_le

/-! ### A renewed successor -/

def successorHost : ExecutionLockHost :=
  { workerHost with
    ownerId := ⟨"00000000-0000-4000-8000-000000000011", by decide +kernel⟩
    nonce := ⟨"00000000000000000000000000000011", by decide +kernel⟩
    quarantineId := ⟨"00000000-0000-4000-8000-000000000012", by decide +kernel⟩
    eventId := ⟨"00000000-0000-4000-8000-000000000013", by decide +kernel⟩ }

def renewalHost : ExecutionLockHost :=
  { workerHost with
    ownerId := ⟨"00000000-0000-4000-8000-000000000021", by decide +kernel⟩ }

def successorLock : ExecutionLockInfo :=
  { workerLock with
    pid := 8
    ownerId := "00000000-0000-4000-8000-000000000011"
    fencingToken := ⟨workerEpoch, 2, "00000000000000000000000000000011"⟩
    acquiredAt := 40000
    renewedAt := 40000 }

def successorOptions (now : Int) : ExecutionLockOptions :=
  { workerOptions now with
    ownerPid := .finite (8 : Int)
    livenessProbe := fun owner _ =>
      if owner = workerLock.toExecutionLockOwnerIdentity then .dead
      else if owner = successorLock.toExecutionLockOwnerIdentity then .alive
      else .unknown }

def successorEvidence : List String := ["settlement:1"]

def adoptedTables : ExecutionLockTables :=
  { workerTables with
    fencingCounter := 2
    active := [successorLock]
    activeAdoptionAudit := [adoptionAudit workerLock successorLock successorEvidence
      successorHost.eventId] }

def renewedTables : ExecutionLockTables :=
  { adoptedTables with active := [successorLock.renew 50000] }

def adoptedWorld : ExecutionLockWorld :=
  { workerWorld with terminated := [workerLock.toExecutionLockOwnerIdentity] }.commit
    (.adopt workerLock successorEvidence) adoptedTables

theorem truthfulProbe_successor (now : Int) :
    TruthfulProbe [workerLock.toExecutionLockOwnerIdentity] (successorOptions now) where
  dead := by
    intro owner identity hdead
    simp only [successorOptions] at hdead
    split_ifs at hdead with howner
    exact List.mem_singleton.mpr howner
  alive := by
    intro owner identity halive
    simp only [successorOptions] at halive
    split_ifs at halive with hworker howner
    exact fun hterminated => hworker (List.mem_singleton.mp hterminated)

theorem ExecutionLockWorld.Step.quiet (hstep : world.Step event later)
    (hleaves : world.LeavesAdopted event) : world.QuietStep later :=
  ⟨event, hleaves, hstep⟩

theorem quietRun_adoptedWorld :
    Relation.ReflTransGen ExecutionLockWorld.QuietStep (ExecutionLockWorld.initial workerEpoch)
      adoptedWorld := by
  refine .tail (.tail (.single (step_workerWorld.quiet trivial))
    ((ExecutionLockWorld.Step.terminated workerLock.toExecutionLockOwnerIdentity).quiet trivial))
    ((ExecutionLockWorld.Step.call (successorOptions 40000) successorHost
      (.adopt workerLock successorEvidence) adoptedTables (truthfulProbe_successor 40000)
      ⟨?_, ?_⟩ ?_ rfl).quiet trivial)
  · intro lock hlock
    obtain rfl := List.mem_singleton.mp hlock
    decide
  · intro event hevent
    cases hevent
  · intro lock hlock
    cases hlock

theorem adoption_stays_possible_successor :
    ∃ lineage, AdoptionContract adoptedWorld.tables successorLock lineage :=
  adoption_stays_possible quietRun_adoptedWorld ⟨List.mem_singleton_self _, rfl⟩

/-- Once the successor has renewed its lock, the lineage of the lock cannot be read. -/
theorem not_adoptionContract_renewed :
    ∃ world lock, (ExecutionLockWorld.initial workerEpoch).Leads world
      ∧ world.tables.Unquarantined lock
      ∧ ∀ lineage, ¬ AdoptionContract world.tables lock lineage := by
  refine ⟨adoptedWorld.commit (.renew "build" successorLock.ownerId) renewedTables,
    successorLock.renew 50000, ?_, ⟨List.mem_singleton_self _, rfl⟩, ?_⟩
  · refine .tail (leads_of_quietRun quietRun_adoptedWorld)
      ⟨_, .call (successorOptions 50000) renewalHost _ renewedTables (truthfulProbe_successor 50000)
        ⟨?_, ?_⟩ ?_ rfl⟩
    · decide
    · intro event hevent
      cases hevent
    · intro lock hlock
      cases hlock
  · intro lineage hcontract
    have hlineage : lineage.length ≤ maxExecutionLockActiveAdoptions
        ∧ AdoptionEvidence lineage successorEvidence := by
      cases hcontract.complete with
      | first lock hfirst => exact absurd (hfirst _ (List.mem_singleton_self _)) (by decide)
      | adopted lock audit lineage hmem hsame hprevious =>
          obtain rfl := List.mem_singleton.mp hmem
          cases hprevious with
          | first lock hfirst =>
              refine ⟨by decide, by decide +kernel, by decide, ?_⟩
              intro audit haudit
              obtain rfl := List.mem_singleton.mp haudit
              rfl
          | adopted lock audit lineage hmem hsame hprevious =>
              obtain rfl := List.mem_singleton.mp hmem
              exact absurd hsame (by decide)
    have hread := hcontract.read hlineage.1 successorEvidence hlineage.2
    cases hread

end Deckent.ExecutionLock
