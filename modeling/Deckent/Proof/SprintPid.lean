import Deckent.Model.SprintPid
import Mathlib.Tactic.SplitIfs

/-!
# One coordinator for a sprint

Where a PID file is moved into place only over what the collision check has seen, and removed only by the
process that it names or after the end of that process, the file of a coordinator stays at the path while
the coordinator runs, so there is one. SIGKILL goes out with the record at the path that was read first
where the file is still the one of the fence.
-/

namespace Deckent.SprintPid

variable {ι : Type} {host : SprintHost ι} {process other : ι}
  {shared next : SprintPids ι} {memory memory' : SprintProcess} {record : PidRecord} {pid : Nat}

/-! ### The condition on a step -/

def RenamesJudged (action : SprintPidAction) (shared : SprintPids ι) (memory : SprintProcess) : Prop :=
  ∀ judged record, action = .proceed → memory.phase = .publishing judged record →
    ∀ file, shared.file = some file → judged = some file.version

def UnlinksOwn (host : SprintHost ι) (process : ι) (action : SprintPidAction) (shared : SprintPids ι)
    (memory : SprintProcess) : Prop :=
  action = .proceed → memory.phase = .unlinking → ∀ record, shared.readPidRecord = some record →
    record.pid = host.pid process ∨ shared.isProcessAlive host record.pid = false

def KillsFenced (action : SprintPidAction) (shared : SprintPids ι) (memory : SprintProcess) : Prop :=
  ∀ call ok first fence, action = .advance call ok →
    memory.terminations call = .signalling first (some fence) → shared.readPidRecord = some fence

structure Fenced (host : SprintHost ι) (process : ι) (action : SprintPidAction) (shared : SprintPids ι)
    (memory : SprintProcess) : Prop where
  renames : RenamesJudged action shared memory
  unlinks : UnlinksOwn host process action shared memory
  kills : KillsFenced action shared memory

/-! ### The contract -/

structure TerminationContract (earlier : List (SprintPidEvent ι)) (event : SprintPidEvent ι) : Prop where
  /-- When SIGKILL is sent, the record at the path has the start token that was read first. -/
  killed : ∀ first file, event = .killed first file →
    ∃ record, file.bind (·.record) = some record ∧ record.startToken = first.startToken
  /-- A coordinator that is reported as stopped has ended. -/
  stopped : ∀ first result, event = .returned (some first) result →
    result.action = .terminated ∨ result.action = .alreadyStopped →
    ∀ process, .published process first ∈ earlier → .ended process ∈ earlier

theorem terminationContract_of_ne {earlier : List (SprintPidEvent ι)} {event : SprintPidEvent ι}
    (hkilled : ∀ first file, event ≠ .killed first file)
    (hreturned : ∀ first result, event ≠ .returned first result) :
    TerminationContract earlier event where
  killed := fun first file heq => absurd heq (hkilled first file)
  stopped := fun first result heq => absurd heq (hreturned (some first) result)

structure SprintPidContract (processes : Processes ι (SprintPids ι) SprintProcess) : Prop where
  exclusive : ∀ i j, i ∈ processes.shared.running → j ∈ processes.shared.running →
    (processes.memory i).held.isSome = true → (processes.memory j).held.isSome = true → i = j
  /-- The file of a coordinator stays at the path. -/
  kept : ∀ i record, i ∈ processes.shared.running → (processes.memory i).held = some record →
    processes.shared.readPidRecord = some record
  terminations : EachOwes TerminationContract processes.shared.log

/-! ### What holds in every state -/

theorem isProcessAlive_iff :
    shared.isProcessAlive host pid = true ↔ ∃ process ∈ shared.running, host.pid process = pid := by
  simp [SprintPids.isProcessAlive]

/-- What the shared state satisfies. -/
structure Sound (host : SprintHost ι) (shared : SprintPids ι) : Prop where
  distinct : ∀ i ∈ shared.running, ∀ j ∈ shared.running, host.pid i = host.pid j → i = j
  file : ∀ file, shared.file = some file → file.version < shared.versions
    ∧ ∀ writer, file.writer = some writer → (writer ∈ shared.running ∨ writer ∈ shared.ended)
      ∧ ∃ record, file.record = some record ∧ record.pid = host.pid writer
  published : ∀ process record, .published process record ∈ shared.log →
    record.pid = host.pid process ∧ (process ∈ shared.running ∨ .ended process ∈ shared.log)
  log : EachOwes TerminationContract shared.log

def SprintPids.WrittenBy (shared : SprintPids ι) (process : ι) (record : PidRecord) : Prop :=
  ∃ file, shared.file = some file ∧ file.writer = some process ∧ file.record = some record

def SprintPids.Abandoned (shared : SprintPids ι) (judged : Option Nat) : Prop :=
  (∀ version, judged = some version → version < shared.versions)
    ∧ ∀ file, shared.file = some file → judged = some file.version →
      ∀ writer, file.writer = some writer → writer ∉ shared.running

def TerminationPhase.FenceHolds : TerminationPhase → Prop
  | owning first (some fence) | owningAlive first (some fence) _ | owningToken first (some fence) _
  | signalling first (some fence) | unsent first (some fence) | polling first (some fence) _
  | lastPolling first (some fence) | confirming first fence => samePidFence first (some fence) = true
  | _ => True

def PidPhase.Holds (host : SprintHost ι) (process : ι) (shared : SprintPids ι) : PidPhase → Prop
  | .probing _ pid version => version < shared.versions
      ∧ ∀ file, shared.file = some file → file.version = version →
        ∀ writer, file.writer = some writer → host.pid writer = pid
  | .writing _ judged => shared.Abandoned judged
  | .publishing judged record => record.pid = host.pid process ∧ shared.Abandoned judged
  | _ => True

/-- What a process holds, as far as it has come. -/
structure Own (host : SprintHost ι) (process : ι) (shared : SprintPids ι) (memory : SprintProcess) :
    Prop where
  unstarted : process ∉ shared.running → process ∉ shared.ended → memory.held = none
  held : process ∈ shared.running → ∀ record, memory.held = some record →
    shared.WrittenBy process record
  cleared : memory.phase = .clearing ∨ memory.phase = .unlinking → memory.held = none
  phase : memory.phase.Holds host process shared
  fence : ∀ call, (memory.terminations call).FenceHolds

/-! ### What a step leaves to the other processes -/

structure Leaves (shared next : SprintPids ι) (process : ι) : Prop where
  unstarted : process ∉ next.running → process ∉ next.ended →
    process ∉ shared.running ∧ process ∉ shared.ended
  running : process ∈ next.running → process ∈ shared.running
  versions : shared.versions ≤ next.versions
  /-- A file of an earlier version was there before. -/
  file : ∀ file, next.file = some file → file.version < shared.versions → shared.file = some file
  writer : ∀ file writer, shared.file = some file → file.writer = some writer →
    writer ∉ shared.running → writer ∉ next.running
  written : process ∈ shared.running → ∀ record, shared.WrittenBy process record →
    next.WrittenBy process record

theorem SprintPids.Abandoned.leaves {judged : Option Nat} (habandoned : shared.Abandoned judged)
    (hleaves : Leaves shared next process) : next.Abandoned judged := by
  obtain ⟨hversion, hwriter⟩ := habandoned
  constructor
  · intro version hjudged
    exact Nat.lt_of_lt_of_le (hversion version hjudged) hleaves.versions
  · intro file hfile hjudged writer hwrote
    have hsame := hleaves.file file hfile (hversion _ hjudged)
    exact hleaves.writer file writer hsame hwrote (hwriter file hsame hjudged writer hwrote)

theorem PidPhase.Holds.leaves {phase : PidPhase} {i : ι} (hholds : phase.Holds host i shared)
    (hleaves : Leaves shared next process) : phase.Holds host i next := by
  cases phase with
  | probing startedAt pid version =>
      obtain ⟨hversion, hwriter⟩ := hholds
      refine ⟨Nat.lt_of_lt_of_le hversion hleaves.versions, ?_⟩
      rintro file hfile rfl
      exact hwriter file (hleaves.file file hfile hversion) rfl
  | writing startedAt judged => exact SprintPids.Abandoned.leaves hholds hleaves
  | publishing judged record => exact ⟨hholds.1, hholds.2.leaves hleaves⟩
  | idle | looking | reading | clearing | unlinking => trivial

theorem Own.stable (hown : Own host process shared memory) (hleaves : Leaves shared next process) :
    Own host process next memory where
  unstarted := by
    intro hrunning hended
    obtain ⟨hrunning, hended⟩ := hleaves.unstarted hrunning hended
    exact hown.unstarted hrunning hended
  held := by
    intro hrunning record hheld
    have hbefore := hleaves.running hrunning
    exact hleaves.written hbefore record (hown.held hbefore record hheld)
  cleared := hown.cleared
  phase := hown.phase.leaves hleaves
  fence := hown.fence

theorem leaves_logs (shared : SprintPids ι) (event : SprintPidEvent ι) (process : ι) :
    Leaves shared (shared.logs event) process where
  unstarted := fun hrunning hended => ⟨hrunning, hended⟩
  running := fun hrunning => hrunning
  versions := Nat.le_refl _
  file := fun _ hfile _ => hfile
  writer := fun _ _ _ _ hrunning => hrunning
  written := fun _ _ hwritten => hwritten

/-! ### Starts and ends -/

def SprintPids.starts (shared : SprintPids ι) (process : ι) : SprintPids ι :=
  { shared with running := process :: shared.running }

def SprintPids.ends [DecidableEq ι] (shared : SprintPids ι) (process : ι) : SprintPids ι :=
  { shared with
    running := shared.running.filter (· ≠ process)
    ended := process :: shared.ended
    log := shared.log ++ [.ended process] }

theorem leaves_starts (hsound : Sound host shared) (hrunning : process ∉ shared.running)
    (hended : process ∉ shared.ended) (hne : other ≠ process) :
    Leaves shared (shared.starts process) other where
  unstarted := fun hrunning hended => ⟨fun hmem => hrunning (List.mem_cons_of_mem _ hmem), hended⟩
  running := fun hmem => (List.mem_cons.mp hmem).resolve_left hne
  versions := Nat.le_refl _
  file := fun _ hfile _ => hfile
  writer := by
    intro file writer hfile hwriter hstopped hmem
    rcases List.mem_cons.mp hmem with rfl | hbefore
    · rcases ((hsound.file file hfile).2 writer hwriter).1 with h | h
      · exact hrunning h
      · exact hended h
    · exact hstopped hbefore
  written := fun _ _ hwritten => hwritten

theorem Own.starts (hown : Own host process shared memory) (hsound : Sound host shared)
    (hrunning : process ∉ shared.running) (hended : process ∉ shared.ended) :
    Own host process (shared.starts process) memory := by
  have hheld := hown.unstarted hrunning hended
  have hothers : ∀ {judged}, shared.Abandoned judged → (shared.starts process).Abandoned judged := by
    intro judged habandoned
    refine ⟨habandoned.1, ?_⟩
    intro file hfile hjudged writer hwriter hmem
    rcases List.mem_cons.mp hmem with rfl | hbefore
    · rcases ((hsound.file file hfile).2 writer hwriter).1 with h | h
      · exact hrunning h
      · exact hended h
    · exact habandoned.2 file hfile hjudged writer hwriter hbefore
  constructor
  · exact fun _ _ => hheld
  · intro _ record heq
    rw [hheld] at heq
    cases heq
  · exact hown.cleared
  · have hphase := hown.phase
    cases hnow : memory.phase with
    | probing startedAt pid version =>
        rw [hnow] at hphase
        exact hphase
    | writing startedAt judged =>
        rw [hnow] at hphase
        exact hothers hphase
    | publishing judged record =>
        rw [hnow] at hphase
        exact ⟨hphase.1, hothers hphase.2⟩
    | idle | looking | reading | clearing | unlinking => trivial
  · exact hown.fence

theorem Sound.starts (hsound : Sound host shared)
    (halive : shared.isProcessAlive host (host.pid process) = false) :
    Sound host (shared.starts process) where
  distinct := by
    have hfresh : ∀ i ∈ shared.running, host.pid i ≠ host.pid process := by
      intro i hi hpid
      rw [isProcessAlive_iff.mpr ⟨i, hi, hpid⟩] at halive
      cases halive
    intro i hi j hj hpid
    rcases List.mem_cons.mp hi with rfl | hirunning
    · rcases List.mem_cons.mp hj with rfl | hjrunning
      · rfl
      · exact absurd hpid.symm (hfresh j hjrunning)
    · rcases List.mem_cons.mp hj with rfl | hjrunning
      · exact absurd hpid (hfresh i hirunning)
      · exact hsound.distinct i hirunning j hjrunning hpid
  file := by
    intro file hfile
    obtain ⟨hversion, hwriter⟩ := hsound.file file hfile
    refine ⟨hversion, ?_⟩
    intro writer hwrote
    obtain ⟨hstarted, hrecord⟩ := hwriter writer hwrote
    exact ⟨hstarted.imp_left (List.mem_cons_of_mem _), hrecord⟩
  published := by
    intro other record hmem
    obtain ⟨hpid, hstarted⟩ := hsound.published other record hmem
    exact ⟨hpid, hstarted.imp_left (List.mem_cons_of_mem _)⟩
  log := hsound.log

theorem leaves_ends [DecidableEq ι] (shared : SprintPids ι) (process other : ι) :
    Leaves shared (shared.ends process) other where
  unstarted := by
    intro hrunning hended
    simp only [SprintPids.ends, List.mem_filter, List.mem_cons, not_or, decide_eq_true_eq] at hrunning hended
    exact ⟨fun hmem => hrunning ⟨hmem, hended.1⟩, hended.2⟩
  running := fun hmem => (List.mem_filter.mp hmem).1
  versions := Nat.le_refl _
  file := fun _ hfile _ => hfile
  writer := fun _ _ _ _ hstopped hmem => hstopped (List.mem_filter.mp hmem).1
  written := fun _ _ hwritten => hwritten

theorem Sound.ends [DecidableEq ι] (hsound : Sound host shared) : Sound host (shared.ends process) where
  distinct := fun i hi j hj hpid =>
    hsound.distinct i (List.mem_filter.mp hi).1 j (List.mem_filter.mp hj).1 hpid
  file := by
    intro file hfile
    obtain ⟨hversion, hwriter⟩ := hsound.file file hfile
    refine ⟨hversion, ?_⟩
    intro writer hwrote
    obtain ⟨hstarted, hrecord⟩ := hwriter writer hwrote
    refine ⟨?_, hrecord⟩
    by_cases hwho : writer = process
    · exact .inr (hwho ▸ List.mem_cons_self)
    · rcases hstarted with hrunning | hended
      · exact .inl (List.mem_filter.mpr ⟨hrunning, decide_eq_true hwho⟩)
      · exact .inr (List.mem_cons_of_mem _ hended)
  published := by
    intro other record hmem
    have hbefore : .published other record ∈ shared.log := by
      simpa [SprintPids.ends] using hmem
    obtain ⟨hpid, hstarted⟩ := hsound.published other record hbefore
    refine ⟨hpid, ?_⟩
    by_cases hwho : other = process
    · subst hwho
      exact .inr (by simp [SprintPids.ends])
    · rcases hstarted with hrunning | hended
      · exact .inl (List.mem_filter.mpr ⟨hrunning, decide_eq_true hwho⟩)
      · exact .inr (List.mem_append_left _ hended)
  log := hsound.log.concat (terminationContract_of_ne (by simp) (by simp))

/-! ### The file -/

theorem leaves_publish
    (hstopped : ∀ file, shared.file = some file → ∀ writer, file.writer = some writer →
      writer ∉ shared.running) (process : ι) (record : PidRecord) (other : ι) :
    Leaves shared (shared.publish process record) other where
  unstarted := fun hrunning hended => ⟨hrunning, hended⟩
  running := fun hrunning => hrunning
  versions := Nat.le_succ _
  file := by
    intro file hfile hversion
    obtain rfl := Option.some.inj hfile
    exact absurd hversion (Nat.lt_irrefl _)
  writer := fun _ _ _ _ hrunning => hrunning
  written := by
    rintro hrunning written ⟨file, hfile, hwriter, -⟩
    exact absurd hrunning (hstopped file hfile other hwriter)

theorem Sound.publish (hsound : Sound host shared) (hrunning : process ∈ shared.running)
    (hpid : record.pid = host.pid process) : Sound host (shared.publish process record) where
  distinct := hsound.distinct
  file := by
    intro file hfile
    obtain rfl := Option.some.inj hfile
    refine ⟨Nat.lt_succ_self _, ?_⟩
    intro writer hwriter
    obtain rfl := Option.some.inj hwriter
    exact ⟨.inl hrunning, record, rfl, hpid⟩
  published := by
    intro other written hmem
    rcases List.mem_append.mp hmem with hbefore | hlast
    · obtain ⟨hsame, hstarted⟩ := hsound.published other written hbefore
      exact ⟨hsame, hstarted.imp_right (List.mem_append_left _)⟩
    · obtain ⟨rfl, rfl⟩ := SprintPidEvent.published.inj (List.mem_singleton.mp hlast)
      exact ⟨hpid, .inl hrunning⟩
  log := hsound.log.concat (terminationContract_of_ne (by simp) (by simp))

theorem leaves_unlink (hwritten : other ∈ shared.running → ∀ record, ¬ shared.WrittenBy other record) :
    Leaves shared shared.unlink other where
  unstarted := fun hrunning hended => ⟨hrunning, hended⟩
  running := fun hrunning => hrunning
  versions := Nat.le_refl _
  file := by
    intro file hfile
    cases hfile
  writer := fun _ _ _ _ hrunning => hrunning
  written := fun hrunning record hwrote => absurd hwrote (hwritten hrunning record)

theorem Sound.unlink (hsound : Sound host shared) : Sound host shared.unlink where
  distinct := hsound.distinct
  file := by
    intro file hfile
    cases hfile
  published := hsound.published
  log := hsound.log

theorem Sound.logs {event : SprintPidEvent ι} (hsound : Sound host shared)
    (hevent : TerminationContract shared.log event)
    (hpublished : ∀ process record, event ≠ .published process record) :
    Sound host (shared.logs event) where
  distinct := hsound.distinct
  file := hsound.file
  published := by
    intro other record hmem
    rcases List.mem_append.mp hmem with hbefore | hlast
    · obtain ⟨hpid, hstarted⟩ := hsound.published other record hbefore
      exact ⟨hpid, hstarted.imp_right (List.mem_append_left _)⟩
    · exact absurd (List.mem_singleton.mp hlast).symm (hpublished other record)
  log := hsound.log.concat hevent

/-! ### One step -/

inductive PidMove (host : SprintHost ι) (process : ι) (shared : SprintPids ι) (held : Option PidRecord)
    (action : SprintPidAction) : PidPhase → SprintPids ι → Option PidRecord → PidPhase → Prop where
  | looked {phase held' after} (hheld : held' = held ∨ held' = none)
      (hafter : after.Holds host process shared)
      (hcleared : after = .clearing ∨ after = .unlinking → held' = none ∨ phase = .clearing) :
      PidMove host process shared held action phase shared held' after
  | published {judged record} (haction : action = .proceed) :
      PidMove host process shared held action (.publishing judged record)
        (shared.publish process record) (some record) .idle
  | unlinked (haction : action = .proceed) :
      PidMove host process shared held action .unlinking shared.unlink held .idle

theorem abandoned_none (shared : SprintPids ι) : shared.Abandoned none := by
  constructor
  · intro version heq
    cases heq
  · intro file _ heq
    cases heq

theorem pidMove_of_pidStep {held held' : Option PidRecord} {action : SprintPidAction}
    {phase after : PidPhase} (hsound : Sound host shared) (hphase : phase.Holds host process shared)
    (hstep : pidStep host process shared held action phase = some (next, held', after)) :
    PidMove host process shared held action phase next held' after := by
  unfold pidStep at hstep
  split at hstep
  · -- `writePid` is called
    cases hstep
    exact .looked (.inl rfl) trivial (by simp)
  · -- `existsSync`
    cases hfile : shared.file with
    | none =>
        rw [hfile] at hstep
        cases hstep
        exact .looked (.inl rfl) (abandoned_none shared) (by simp)
    | some file =>
        rw [hfile] at hstep
        cases hstep
        exact .looked (.inl rfl) trivial (by simp)
  · -- `readPid`
    cases hfile : shared.file with
    | none =>
        rw [hfile] at hstep
        cases hstep
        exact .looked (.inl rfl) (abandoned_none shared) (by simp)
    | some file =>
        obtain ⟨hversion, hwriter⟩ := hsound.file file hfile
        cases hrecord : file.record with
        | none =>
            simp only [hfile, hrecord] at hstep
            cases hstep
            refine .looked (.inl rfl) ⟨?_, ?_⟩ (by simp)
            · rintro version heq
              obtain rfl := Option.some.inj heq
              exact hversion
            · intro other hother _ writer hwrote
              obtain rfl := Option.some.inj (hfile.symm.trans hother)
              obtain ⟨-, record, hread, -⟩ := hwriter writer hwrote
              rw [hrecord] at hread
              cases hread
        | some record =>
            simp only [hfile, hrecord] at hstep
            cases hstep
            refine .looked (.inl rfl) ⟨hversion, ?_⟩ (by simp)
            intro other hother _ writer hwrote
            obtain rfl := Option.some.inj (hfile.symm.trans hother)
            obtain ⟨-, read, hread, hpid⟩ := hwriter writer hwrote
            obtain rfl := Option.some.inj (hrecord.symm.trans hread)
            exact hpid.symm
  · -- `isProcessAlive`
    split_ifs at hstep with halive
    · cases hstep
      exact .looked (.inl rfl) trivial (by simp)
    · cases hstep
      obtain ⟨hversion, hwriter⟩ := hphase
      refine .looked (.inl rfl) ⟨?_, ?_⟩ (by simp)
      · intro version heq
        obtain rfl := Option.some.inj heq
        exact hversion
      · intro file hfile heq writer hwrote hrunning
        exact halive (isProcessAlive_iff.mpr
          ⟨writer, hrunning, hwriter file hfile (Option.some.inj heq).symm writer hwrote⟩)
  · cases hstep
    exact .looked (.inl rfl) ⟨rfl, hphase⟩ (by simp)
  · cases hstep
    exact .looked (.inl rfl) trivial (by simp)
  · cases hstep
    exact .published rfl
  · cases hstep
    exact .looked (.inl rfl) trivial (by simp)
  · cases hstep
    exact .looked (.inr rfl) trivial (by simp)
  · cases hfile : shared.file with
    | none =>
        rw [hfile] at hstep
        cases hstep
        exact .looked (.inl rfl) trivial (by simp)
    | some file =>
        rw [hfile] at hstep
        cases hstep
        exact .looked (.inl rfl) trivial (fun _ => .inr rfl)
  · cases hstep
    exact .unlinked rfl
  · cases hstep
    exact .looked (.inl rfl) trivial (by simp)
  · cases hstep

inductive TerminationMove (host : SprintHost ι) (shared : SprintPids ι) :
    TerminationPhase → SprintPids ι → TerminationPhase → Prop where
  | looked {phase after} (hafter : after.FenceHolds) : TerminationMove host shared phase shared after
  | killed {first fence} (hfence : samePidFence first (some fence) = true) :
      TerminationMove host shared (.signalling first (some fence))
        (shared.logs (.killed first shared.file)) (.polling first (some fence) 0)
  | returned {phase first result}
      (hstopped : ∀ record, first = some record →
        result.action = .terminated ∨ result.action = .alreadyStopped →
        shared.isProcessAlive host record.pid = false) :
      TerminationMove host shared phase (shared.logs (.returned first result)) .idle

theorem TerminationMove.of_returns {phase after : TerminationPhase} {first : Option PidRecord}
    {action : TerminationAction} {escalation : TerminationEscalation}
    (hreturns : returns shared first action escalation = (next, after))
    (hstopped : ∀ record, first = some record → action = .terminated ∨ action = .alreadyStopped →
      shared.isProcessAlive host record.pid = false) : TerminationMove host shared phase next after := by
  cases hreturns
  exact .returned hstopped

theorem TerminationMove.of_owns {phase after : TerminationPhase} {first : PidRecord}
    {fence : Option PidRecord} {ownership : OwnershipStatus}
    (howns : owns shared first fence ownership = (next, after))
    (hfence : (TerminationPhase.signalling first fence).FenceHolds) :
    TerminationMove host shared phase next after := by
  cases ownership with
  | owned =>
      cases howns
      exact .looked hfence
  | reused => exact .of_returns howns (by simp)
  | dead => exact .of_returns howns (by simp)
  | unknown => exact .of_returns howns (by simp)

theorem terminationMove_of_terminationStep {policy : CoordinatorTerminationPolicy} {ok : Bool}
    {phase after : TerminationPhase} (hphase : phase.FenceHolds)
    (hstep : terminationStep host process shared policy ok phase = some (next, after)) :
    TerminationMove host shared phase next after := by
  cases phase with
  | idle => cases hstep
  | reading =>
      simp only [terminationStep] at hstep
      split at hstep
      · exact .of_returns (Option.some.inj hstep) (by simp)
      · cases hstep
        exact .looked trivial
  | probing first =>
      simp only [terminationStep] at hstep
      split_ifs at hstep with halive
      · exact .of_returns (Option.some.inj hstep) (by simpa using halive)
      · exact .of_returns (Option.some.inj hstep) (by simp)
      · cases hstep
        exact .looked trivial
  | owning first fence =>
      simp only [terminationStep] at hstep
      split at hstep
      · exact .of_owns (Option.some.inj hstep) (by cases fence <;> exact hphase)
      · cases hstep
        exact .looked (by cases fence <;> exact hphase)
  | owningAlive first fence record =>
      simp only [terminationStep] at hstep
      split_ifs at hstep
      · cases hstep
        exact .looked (by cases fence <;> exact hphase)
      · exact .of_owns (Option.some.inj hstep) (by cases fence <;> exact hphase)
  | owningToken first fence record =>
      exact .of_owns (Option.some.inj hstep) (by cases fence <;> exact hphase)
  | signalling first fence =>
      simp only [terminationStep] at hstep
      cases ok with
      | false =>
          cases hstep
          exact .looked (by cases fence <;> exact hphase)
      | true =>
          cases fence with
          | none =>
              cases hstep
              exact .looked trivial
          | some fence =>
              cases hstep
              exact .killed hphase
  | unsent first fence =>
      simp only [terminationStep] at hstep
      split_ifs at hstep with halive
      · exact .of_returns (Option.some.inj hstep) (by simp)
      · exact .of_returns (Option.some.inj hstep) (by simpa using halive)
  | polling first fence elapsedMs =>
      simp only [terminationStep] at hstep
      split at hstep
      · rename_i halive
        exact .of_returns (Option.some.inj hstep) (by simpa using halive)
      · generalize (if fence.isSome then policy.forcedTerminationVerifyMs
          else policy.coordinatorTerminationGraceMs) = timeoutMs at hstep
        split at hstep
        · cases hstep
          exact .looked (by cases fence <;> exact hphase)
        · cases hstep
          exact .looked (by cases fence <;> exact hphase)
  | lastPolling first fence =>
      simp only [terminationStep] at hstep
      split_ifs at hstep with halive hfence
      · exact .of_returns (Option.some.inj hstep) (by simpa using halive)
      · exact .of_returns (Option.some.inj hstep) (by simp)
      · cases hstep
        exact .looked trivial
  | fencing first =>
      simp only [terminationStep] at hstep
      split at hstep
      · exact .of_returns (Option.some.inj hstep) (by simp)
      · split_ifs at hstep with hfence
        · cases hstep
          exact .looked hfence
        · exact .of_returns (Option.some.inj hstep) (by simp)
  | confirming first fence =>
      simp only [terminationStep] at hstep
      split_ifs at hstep
      · cases hstep
        exact .looked hphase
      · exact .of_returns (Option.some.inj hstep) (by simp)

/-! ### Runs -/

/-- What a step keeps: the shared state, what its own process holds, and what the others hold. -/
def Keeps (host : SprintHost ι) (process : ι) (shared next : SprintPids ι) (memory' : SprintProcess) :
    Prop :=
  Sound host next ∧ Own host process next memory' ∧ ∀ other, other ≠ process → Leaves shared next other

theorem Own.keeps_pidMove [DecidableEq ι] {action : SprintPidAction} {held' : Option PidRecord} {after : PidPhase}
    (hown : Own host process shared memory) (hsound : Sound host shared)
    (hrunning : process ∈ shared.running) (hfenced : Fenced host process action shared memory)
    (hmove : PidMove host process shared memory.held action memory.phase next held' after) :
    Keeps host process shared next { memory with held := held', phase := after } := by
  generalize hphase : memory.phase = phase at hmove
  cases hmove with
  | looked hheld hafter hcleared =>
      have hwritten : ∀ record, held' = some record → memory.held = some record := by
        rintro record rfl
        rcases hheld with heq | heq
        · exact heq.symm
        · cases heq
      refine ⟨hsound, ?_, fun other _ => ⟨fun h h' => ⟨h, h'⟩, fun h => h, Nat.le_refl _,
        fun _ hfile _ => hfile, fun _ _ _ _ h => h, fun _ _ h => h⟩⟩
      constructor
      · exact fun hstopped => absurd hrunning hstopped
      · exact fun _ record heq => hown.held hrunning record (hwritten record heq)
      · intro hclears
        rcases hcleared hclears with hnone | hclearing
        · exact hnone
        · have hnone := hown.cleared (.inl (hphase.trans hclearing))
          rcases hheld with heq | heq
          · exact heq.trans hnone
          · exact heq
      · exact hafter
      · exact hown.fence
  | @published judged record haction =>
      have hholds := hown.phase
      rw [hphase] at hholds
      obtain ⟨hpid, -, hwriter⟩ := hholds
      have hstopped : ∀ file, shared.file = some file → ∀ writer, file.writer = some writer →
          writer ∉ shared.running := fun file hfile =>
        hwriter file hfile (hfenced.renames judged record haction hphase file hfile)
      refine ⟨hsound.publish hrunning hpid, ?_, fun other _ => leaves_publish hstopped _ _ other⟩
      constructor
      · exact fun hstopped => absurd hrunning hstopped
      · rintro - written heq
        obtain rfl := Option.some.inj heq
        exact ⟨_, rfl, rfl, rfl⟩
      · simp
      · trivial
      · exact hown.fence
  | unlinked haction =>
      have hnone := hown.cleared (.inr hphase)
      have hothers : ∀ other, other ≠ process → other ∈ shared.running →
          ∀ record, ¬ shared.WrittenBy other record := by
        rintro other hne hother record ⟨file, hfile, hwriter, hrecord⟩
        obtain ⟨-, read, hread, hpid⟩ := (hsound.file file hfile).2 other hwriter
        obtain rfl := Option.some.inj (hrecord.symm.trans hread)
        have hread : shared.readPidRecord = some record := by
          simp [SprintPids.readPidRecord, hfile, hrecord]
        rcases hfenced.unlinks haction hphase record hread with hself | hdead
        · exact hne (hsound.distinct other hother process hrunning (hpid.symm.trans hself))
        · rw [isProcessAlive_iff.mpr ⟨other, hother, hpid.symm⟩] at hdead
          cases hdead
      refine ⟨hsound.unlink, ?_, fun other hne => leaves_unlink (hothers other hne)⟩
      constructor
      · exact fun hstopped => absurd hrunning hstopped
      · intro _ record heq
        exact absurd (hnone.symm.trans heq) (by simp)
      · simp
      · trivial
      · exact hown.fence

theorem samePidFence_startToken {first fence : PidRecord}
    (hfence : samePidFence first (some fence) = true) : fence.startToken = first.startToken := by
  simp only [samePidFence, Bool.and_eq_true, decide_eq_true_eq] at hfence
  exact hfence.2.symm

theorem Own.advance {call : Nat} {after : TerminationPhase} (hown : Own host process shared memory)
    (hafter : after.FenceHolds) :
    Own host process shared {
      memory with terminations := Function.update memory.terminations call after } where
  unstarted := hown.unstarted
  held := hown.held
  cleared := hown.cleared
  phase := hown.phase
  fence := by
    intro other
    by_cases hother : other = call
    · subst hother
      simpa using hafter
    · simpa [Function.update_of_ne hother] using hown.fence other

theorem Own.keeps_terminationMove [DecidableEq ι] {call : Nat} {ok : Bool} {after : TerminationPhase}
    (hown : Own host process shared memory) (hsound : Sound host shared)
    (hfenced : Fenced host process (.advance call ok) shared memory)
    (hmove : TerminationMove host shared (memory.terminations call) next after) :
    Keeps host process shared next {
      memory with terminations := Function.update memory.terminations call after } := by
  generalize hphase : memory.terminations call = phase at hmove
  cases hmove with
  | looked hafter =>
      exact ⟨hsound, hown.advance hafter, fun other _ => ⟨fun h h' => ⟨h, h'⟩, fun h => h,
        Nat.le_refl _, fun _ hfile _ => hfile, fun _ _ _ _ h => h, fun _ _ h => h⟩⟩
  | @killed first fence hfence =>
      have hread := hfenced.kills call ok first fence rfl hphase
      have hevent : TerminationContract shared.log (.killed first shared.file) := by
        constructor
        · intro other file heq
          obtain ⟨rfl, rfl⟩ := SprintPidEvent.killed.inj heq
          exact ⟨fence, hread, samePidFence_startToken hfence⟩
        · intro _ _ heq
          cases heq
      exact ⟨hsound.logs hevent (by simp), (hown.stable (leaves_logs _ _ _)).advance hfence,
        fun other _ => leaves_logs _ _ _⟩
  | @returned phase first result hstopped =>
      have hevent : TerminationContract shared.log (.returned first result) := by
        constructor
        · intro _ _ heq
          cases heq
        · intro record other heq haction coordinator hpublished
          obtain ⟨hfirst, rfl⟩ := SprintPidEvent.returned.inj heq
          have hdead := hstopped record hfirst haction
          obtain ⟨hpid, hstarted⟩ := hsound.published coordinator record hpublished
          refine hstarted.resolve_left ?_
          intro hrunning
          rw [isProcessAlive_iff.mpr ⟨coordinator, hrunning, hpid.symm⟩] at hdead
          cases hdead
      exact ⟨hsound.logs hevent (by simp), (hown.stable (leaves_logs _ _ _)).advance trivial,
        fun other _ => leaves_logs _ _ _⟩

/-- A step that meets the condition keeps what holds. -/
theorem Own.keeps_step [DecidableEq ι] {action : SprintPidAction} (hown : Own host process shared memory)
    (hsound : Sound host shared) (hfenced : Fenced host process action shared memory)
    (hstep : sprintPidStep host process action shared memory = some (next, memory')) :
    Keeps host process shared next memory' := by
  unfold sprintPidStep at hstep
  cases action with
  | start =>
      simp only at hstep
      split_ifs at hstep with hstarted
      cases hstep
      simp only [not_or] at hstarted
      obtain ⟨hrunning, hended, halive⟩ := hstarted
      have halive : shared.isProcessAlive host (host.pid process) = false := by simpa using halive
      exact ⟨hsound.starts halive, hown.starts hsound hrunning hended,
        fun other hne => leaves_starts hsound hrunning hended hne⟩
  | die =>
      simp only at hstep
      split_ifs at hstep with hrunning
      cases hstep
      exact ⟨hsound.ends, hown.stable (leaves_ends _ _ _), fun other _ => leaves_ends _ _ _⟩
  | terminate call =>
      simp only at hstep
      split_ifs at hstep with hrunning hidle
      cases hstep
      exact ⟨hsound, hown.advance trivial, fun other _ => ⟨fun h h' => ⟨h, h'⟩, fun h => h,
        Nat.le_refl _, fun _ hfile _ => hfile, fun _ _ _ _ h => h, fun _ _ h => h⟩⟩
  | advance call ok =>
      simp only at hstep
      split_ifs at hstep with hrunning
      obtain ⟨⟨next, after⟩, hmoved, heq⟩ := Option.map_eq_some_iff.mp hstep
      cases heq
      exact hown.keeps_terminationMove hsound hfenced
        (terminationMove_of_terminationStep (hown.fence call) hmoved)
  | writePid | clearPid | proceed | write | fail =>
      simp only at hstep
      split_ifs at hstep with hrunning
      obtain ⟨⟨next, held', after⟩, hmoved, heq⟩ := Option.map_eq_some_iff.mp hstep
      cases heq
      exact hown.keeps_pidMove hsound hrunning hfenced (pidMove_of_pidStep hsound hown.phase hmoved)

theorem sound_initial (host : SprintHost ι) (found : Option (Option PidRecord)) :
    Sound host (SprintPidProcesses.initial found : Processes ι _ _).shared where
  distinct := by
    intro i hi
    cases hi
  file := by
    intro file hfile
    obtain ⟨record, -, rfl⟩ := Option.map_eq_some_iff.mp hfile
    refine ⟨Nat.zero_lt_one, ?_⟩
    intro writer hwriter
    cases hwriter
  published := by
    intro other record hmem
    cases hmem
  log := eachOwes_nil

theorem own_initial (host : SprintHost ι) (found : Option (Option PidRecord)) (i : ι) :
    Own host i (SprintPidProcesses.initial found : Processes ι _ _).shared
      ((SprintPidProcesses.initial found : Processes ι _ _).memory i) where
  unstarted := fun _ _ => rfl
  held := by
    intro hrunning
    cases hrunning
  cleared := fun _ => rfl
  phase := trivial
  fence := fun _ => trivial

/-- Where every step meets the condition, a sprint has at most one live coordinator, whose PID file stays
at the path, and a coordinator is killed and reported as stopped as its record says. -/
theorem sprintPid_exclusive [DecidableEq ι] {found : Option (Option PidRecord)}
    {processes : Processes ι (SprintPids ι) SprintProcess}
    (hleads : Processes.Leads (sprintPidStep host) (Fenced host)
      (SprintPidProcesses.initial found) processes) : SprintPidContract processes := by
  obtain ⟨hsound, hown⟩ := Processes.leads_induction (Sound host) (Own host)
    ⟨sound_initial host found, own_initial host found⟩ (by
      intro i action shared memory next memory' hfenced hstep hsound hown
      obtain ⟨hsound', hown', hleaves⟩ := hown.keeps_step hsound hfenced hstep
      exact ⟨hsound', hown', fun j other hne hother => hother.stable (hleaves j hne)⟩) hleads
  constructor
  · intro i j hi hj hheldi hheldj
    obtain ⟨first, hfirst⟩ := Option.isSome_iff_exists.mp hheldi
    obtain ⟨second, hsecond⟩ := Option.isSome_iff_exists.mp hheldj
    obtain ⟨file, hfile, hwriter, -⟩ := (hown i).held hi first hfirst
    obtain ⟨file', hfile', hwriter', -⟩ := (hown j).held hj second hsecond
    obtain rfl := Option.some.inj (hfile.symm.trans hfile')
    exact Option.some.inj (hwriter.symm.trans hwriter')
  · intro i record hi hheld
    obtain ⟨file, hfile, -, hrecord⟩ := (hown i).held hi record hheld
    simp [SprintPids.readPidRecord, hfile, hrecord]
  · exact hsound.log

/-! ### Two processes -/

/-- The processes 0, 1, … have their own ids and start tokens. -/
def sampleHost : SprintHost Nat where
  sprintId := "sprint-1"
  pid := fun process => process + 1
  startToken := fun process => some (String.ofList (List.replicate (process + 1) 's'))
  policy := fun _ _ => ⟨10, 5, 5⟩

/-- Whether a step meets the condition. -/
def fenced (process : Nat) (action : SprintPidAction) (shared : SprintPids Nat)
    (memory : SprintProcess) : Bool :=
  match action with
  | .proceed =>
      match memory.phase with
      | .publishing judged _ => shared.file.all fun file => judged = some file.version
      | .unlinking => shared.readPidRecord.all fun record =>
          record.pid = sampleHost.pid process || !shared.isProcessAlive sampleHost record.pid
      | _ => true
  | .advance call _ =>
      match memory.terminations call with
      | .signalling _ (some fence) => shared.readPidRecord = some fence
      | _ => true
  | _ => true

theorem fenced_of_check {process : Nat} {action : SprintPidAction} {shared : SprintPids Nat}
    {memory : SprintProcess} (hcheck : fenced process action shared memory = true) :
    Fenced sampleHost process action shared memory where
  renames := by
    rintro judged record rfl hphase file hfile
    simpa [fenced, hphase, hfile] using hcheck
  unlinks := by
    rintro rfl hphase record hread
    simpa [fenced, hphase, hread] using hcheck
  kills := by
    rintro call ok first fence rfl hphase
    simpa [fenced, hphase] using hcheck

def coordinates (process : Nat) : List (Nat × SprintPidAction) :=
  [.writePid "now", .proceed, .write "lease", .proceed].map (process, ·)

/-- The record of process 0. -/
def sampleRecord : PidRecord where
  pid := 1
  sprintId := "sprint-1"
  startedAt := some "now"
  startToken := some "s"
  leaseId := some "lease"

/-- Process 1 kills the coordinator, which ends, and reports it as stopped. -/
theorem sprintPid_exclusive_killed :
    ∃ processes : Processes Nat (SprintPids Nat) SprintProcess,
      processes.shared.log = [
        .published 0 sampleRecord,
        .killed sampleRecord (some ⟨1, some 0, some sampleRecord⟩),
        .ended 0,
        .returned (some sampleRecord) ⟨.terminated, some 1, .sigkill⟩]
      ∧ SprintPidContract processes := by
  obtain ⟨processes, hturns, hlog⟩ : ∃ processes, Processes.takeTurns (sprintPidStep sampleHost) fenced
      (SprintPidProcesses.initial none)
      ([(0, .start), (1, .start)] ++ coordinates 0 ++ [(1, .terminate 0)]
        ++ List.replicate 16 (1, .advance 0 true) ++ [(0, .die), (1, .advance 0 true)])
        = some processes
      ∧ processes.shared.log = [
        .published 0 sampleRecord,
        .killed sampleRecord (some ⟨1, some 0, some sampleRecord⟩),
        .ended 0,
        .returned (some sampleRecord) ⟨.terminated, some 1, .sigkill⟩] := ⟨_, rfl, rfl⟩
  exact ⟨processes, hlog, sprintPid_exclusive
    (Processes.leads_of_takeTurns (fun _ _ _ _ => fenced_of_check) hturns)⟩

/-- Both processes find no file, and each of them moves its own to the path. -/
theorem not_sprintPidContract_races :
    ∃ processes : Processes Nat (SprintPids Nat) SprintProcess,
      Processes.Leads (sprintPidStep sampleHost) (fun _ _ _ _ => True)
        (SprintPidProcesses.initial none) processes ∧ ¬ SprintPidContract processes := by
  obtain ⟨processes, hturns, hrunning, hfirst, hsecond⟩ : ∃ processes,
      Processes.takeTurns (sprintPidStep sampleHost) (fun _ _ _ _ => true)
        (SprintPidProcesses.initial none)
        [(0, .start), (1, .start), (0, .writePid "now"), (0, .proceed), (1, .writePid "now"),
          (1, .proceed), (0, .write "first"), (0, .proceed), (1, .write "second"), (1, .proceed)]
        = some processes
      ∧ processes.shared.running = [1, 0] ∧ (processes.memory 0).held.isSome = true
      ∧ (processes.memory 1).held.isSome = true := ⟨_, rfl, rfl, rfl, rfl⟩
  refine ⟨processes, Processes.leads_of_takeTurns (fun _ _ _ _ _ => trivial) hturns, ?_⟩
  intro hcontract
  have hsame := hcontract.exclusive 0 1 (by simp [hrunning]) (by simp [hrunning]) hfirst hsecond
  cases hsame

end Deckent.SprintPid
