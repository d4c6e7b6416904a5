import Deckent.Lib.Fallible
import Deckent.Model.ExecutionLockOperation

/-!
# What a load of the lock tables shows

A load succeeds exactly where the rows that it selects are readable, and then it shows these rows as
they are. A quarantine row is readable where it parses, repeats the active lock, and its audit chain
ends at it.
-/

namespace Deckent.ExecutionLock

variable {options : ExecutionLockOptions} {host : ExecutionLockHost} {tables : ExecutionLockTables}
  {lock : ExecutionLockInfo} {quarantine : ExecutionLockQuarantineInfo} {taskId : String}

@[simp]
theorem require_eq_ok {holds : Bool} {error : ExecutionLockError} {passed : Unit} :
    require holds error = .ok passed ↔ holds = true := by
  cases holds <;> simp [require]

@[simp]
theorem requireSome_eq_ok {α : Type} {value : Option α} {error : ExecutionLockError} {a : α} :
    requireSome value error = .ok a ↔ value = some a := by
  cases value <;> simp [requireSome]

@[simp]
theorem withoutFault_eq_ok {fault : Option ExecutionLockError} {passed : Unit} :
    withoutFault fault = .ok passed ↔ fault = none := by
  cases fault <;> simp [withoutFault]

/-! ### Parsing -/

@[simp]
theorem parseExecutionLock_eq_some {expected : Option String} {parsed : ExecutionLockInfo} :
    parseExecutionLock lock expected = some parsed
      ↔ lock = parsed ∧ ParsesAsLock lock ∧ expected.all (lock.taskId = ·) = true := by
  unfold parseExecutionLock
  split_ifs with h
  · simp [h]
  · simp only [false_iff]
    rintro ⟨-, hparses⟩
    exact h hparses

theorem parseExecutionLockQuarantine_eq_some {expected : Option String}
    {parsed : ExecutionLockQuarantineInfo} :
    parseExecutionLockQuarantine quarantine expected = some parsed
      ↔ quarantine = parsed ∧ (parseExecutionLockQuarantine quarantine expected).isSome := by
  unfold parseExecutionLockQuarantine
  split_ifs <;> simp

theorem parseExecutionLockActiveAdoptionAudit_eq_some {audit parsed : ExecutionLockActiveAdoptionAudit} :
    parseExecutionLockActiveAdoptionAudit audit = some parsed
      ↔ audit = parsed ∧ (parseExecutionLockActiveAdoptionAudit audit).isSome := by
  unfold parseExecutionLockActiveAdoptionAudit
  split_ifs <;> simp

theorem parseExecutionLockEvidenceRefs_eq_some {refs parsed : List String} :
    parseExecutionLockEvidenceRefs refs = some parsed
      ↔ refs = parsed ∧ (parseExecutionLockEvidenceRefs refs).isSome := by
  unfold parseExecutionLockEvidenceRefs
  split_ifs <;> simp

theorem parseExecutionLockActiveRow_ok {parsed : ExecutionLockInfo} :
    parseExecutionLockActiveRow lock = .ok parsed ↔ lock = parsed ∧ ParsesAsLock lock := by
  simp [parseExecutionLockActiveRow]

/-! ### Rows -/

theorem loadExecutionLockActiveRow_ok {found : Option ExecutionLockInfo} :
    loadExecutionLockActiveRow tables taskId = .ok found
      ↔ found = selectRow (·.taskId) taskId tables.active ∧ ∀ row, found = some row → ParsesAsLock row := by
  unfold loadExecutionLockActiveRow
  cases hselect : selectRow (·.taskId) taskId tables.active with
  | none =>
      simp only [Except.ok.injEq]
      constructor
      · rintro rfl
        simp
      · rintro ⟨rfl, -⟩
        rfl
  | some row =>
      simp only [map_eq_ok, parseExecutionLockActiveRow_ok]
      constructor
      · rintro ⟨parsed, ⟨rfl, hparses⟩, rfl⟩
        refine ⟨rfl, ?_⟩
        rintro other ⟨⟩
        exact hparses
      · rintro ⟨rfl, hparses⟩
        exact ⟨row, ⟨rfl, hparses row rfl⟩, rfl⟩

structure ReadableQuarantine (tables : ExecutionLockTables) (lock : ExecutionLockInfo)
    (quarantine : ExecutionLockQuarantineInfo) : Prop where
  parses : (parseExecutionLockQuarantine quarantine (some quarantine.lock.taskId)).isSome
  lock_eq : quarantine.lock = lock
  audited : ∃ event, tables.quarantineAudit.find? (isCurrentGenerationAudit quarantine) = some event
    ∧ (parseExecutionLockQuarantineAudit event).isSome
  chain : assertExecutionLockActiveQuarantineAuditChain tables quarantine = .ok ()

theorem parseExecutionLockQuarantineRow_ok {active : Option ExecutionLockInfo}
    {row parsed : ExecutionLockQuarantineInfo} :
    parseExecutionLockQuarantineRow active row = .ok parsed
      ↔ row = parsed ∧ (parseExecutionLockQuarantine row (some row.lock.taskId)).isSome
        ∧ active = some row.lock := by
  unfold parseExecutionLockQuarantineRow
  rw [requireSome_eq_ok, Option.filter_eq_some_iff, parseExecutionLockQuarantine_eq_some]
  constructor
  · rintro ⟨⟨rfl, hparses⟩, hactive⟩
    exact ⟨rfl, hparses, by simpa using hactive⟩
  · rintro ⟨rfl, hparses, hactive⟩
    exact ⟨⟨rfl, hparses⟩, by simpa using hactive⟩

theorem loadExecutionLockQuarantineForLock_ok {found : Option ExecutionLockQuarantineInfo} :
    loadExecutionLockQuarantineForLock tables lock = .ok found
      ↔ found = selectRow (·.lock.taskId) lock.taskId tables.quarantine
        ∧ ∀ row, found = some row → ReadableQuarantine tables lock row := by
  unfold loadExecutionLockQuarantineForLock
  cases hselect : selectRow (·.lock.taskId) lock.taskId tables.quarantine with
  | none =>
      simp only [Except.ok.injEq]
      constructor
      · rintro rfl
        simp
      · rintro ⟨rfl, -⟩
        rfl
  | some row =>
      simp only [bind_eq_ok, parseExecutionLockQuarantineRow_ok, requireSome_eq_ok, pure_eq_ok]
      constructor
      · rintro ⟨parsed, ⟨rfl, hparses, hlock⟩, event, haudit, ⟨⟩, hchain, rfl⟩
        obtain ⟨event, hfind, hevent⟩ := Option.bind_eq_some_iff.mp haudit
        refine ⟨rfl, ?_⟩
        rintro other ⟨⟩
        refine ⟨hparses, (Option.some.inj hlock).symm, ⟨event, hfind, ?_⟩, hchain⟩
        exact Option.isSome_of_mem hevent
      · rintro ⟨rfl, hreadable⟩
        obtain ⟨hparses, hlock, ⟨event, hfind, hevent⟩, hchain⟩ := hreadable row rfl
        obtain ⟨parsed, hparsed⟩ := Option.isSome_iff_exists.mp hevent
        exact ⟨row, ⟨rfl, hparses, by rw [hlock]⟩, parsed, Option.bind_eq_some_iff.mpr
          ⟨event, hfind, hparsed⟩, (), hchain, rfl⟩

structure LoadedTask (tables : ExecutionLockTables) (taskId : String)
    (current : ExecutionLockCurrent) : Prop where
  lock : current.lock = selectRow (·.taskId) taskId tables.active
  parses : ∀ lock, current.lock = some lock → ParsesAsLock lock
  quarantine : current.quarantine = match current.lock with
    | some _ => selectRow (·.lock.taskId) taskId tables.quarantine
    | none => none
  readable : ∀ lock, current.lock = some lock → ∀ quarantine, current.quarantine = some quarantine →
    ReadableQuarantine tables lock quarantine

theorem reconcileExecutionLockProjectionForTask_ok {current : ExecutionLockCurrent} :
    reconcileExecutionLockProjectionForTask host tables taskId = .ok current
      ↔ LoadedTask tables taskId current ∧ host.reconcileFault taskId = none := by
  unfold reconcileExecutionLockProjectionForTask
  simp only [bind_eq_ok, loadExecutionLockActiveRow_ok]
  constructor
  · rintro ⟨found, ⟨hfound, hparses⟩, hrest⟩
    cases found with
    | none =>
        simp only [bind_eq_ok, withoutFault_eq_ok, pure_eq_ok] at hrest
        obtain ⟨quarantine, rfl, -, hfault, rfl⟩ := hrest
        exact ⟨⟨hfound, hparses, rfl, fun lock hlock => by cases hlock⟩, hfault⟩
    | some row =>
        simp only [bind_eq_ok, withoutFault_eq_ok, pure_eq_ok] at hrest
        obtain ⟨quarantine, hquarantine, -, hfault, rfl⟩ := hrest
        have htask : row.taskId = taskId := key_of_selectRow hfound.symm
        obtain ⟨hselect, hreadable⟩ := loadExecutionLockQuarantineForLock_ok.mp hquarantine
        refine ⟨⟨hfound, hparses, by rw [hselect, htask], ?_⟩, hfault⟩
        rintro lock ⟨⟩ row hrow
        exact hreadable row hrow
  · rintro ⟨⟨hlock, hparses, hquarantine, hreadable⟩, hfault⟩
    obtain ⟨found, quarantine⟩ := current
    refine ⟨found, ⟨hlock, hparses⟩, ?_⟩
    cases found with
    | none =>
        simp only [bind_eq_ok, withoutFault_eq_ok, pure_eq_ok]
        exact ⟨none, rfl, (), hfault, congrArg _ hquarantine.symm⟩
    | some row =>
        have htask : row.taskId = taskId := key_of_selectRow hlock.symm
        simp only [bind_eq_ok, withoutFault_eq_ok, pure_eq_ok]
        refine ⟨quarantine, loadExecutionLockQuarantineForLock_ok.mpr ⟨?_, hreadable row rfl⟩, (), hfault,
          rfl⟩
        rw [htask]
        exact hquarantine

namespace LoadedTask

variable {current : ExecutionLockCurrent}

theorem lock_mem (hloaded : LoadedTask tables taskId current) (hlock : current.lock = some lock) :
    lock ∈ tables.active :=
  mem_of_selectRow (hloaded.lock.symm.trans hlock)

theorem lock_taskId (hloaded : LoadedTask tables taskId current) (hlock : current.lock = some lock) :
    lock.taskId = taskId :=
  key_of_selectRow (hloaded.lock.symm.trans hlock)

theorem quarantine_eq (hloaded : LoadedTask tables taskId current) (hlock : current.lock = some lock) :
    current.quarantine = selectRow (·.lock.taskId) taskId tables.quarantine := by
  rw [hloaded.quarantine, hlock]

theorem quarantine_mem (hloaded : LoadedTask tables taskId current) (hlock : current.lock = some lock)
    (hquarantine : current.quarantine = some quarantine) : quarantine ∈ tables.quarantine :=
  mem_of_selectRow ((hloaded.quarantine_eq hlock).symm.trans hquarantine)

theorem quarantine_lock (hloaded : LoadedTask tables taskId current) (hlock : current.lock = some lock)
    (hquarantine : current.quarantine = some quarantine) : quarantine.lock = lock :=
  (hloaded.readable lock hlock quarantine hquarantine).lock_eq

end LoadedTask

@[simp]
theorem executionLockForExactGeneration_eq_some {active : Option ExecutionLockInfo}
    {expected canonical : ExecutionLockInfo} :
    executionLockForExactGeneration active expected = some canonical
      ↔ active = some expected ∧ canonical = expected := by
  unfold executionLockForExactGeneration
  rw [Option.filter_eq_some_iff]
  constructor
  · rintro ⟨hactive, hsame⟩
    obtain ⟨-, rfl⟩ : _ ∧ canonical = expected := by simpa using hsame
    exact ⟨hactive, rfl⟩
  · rintro ⟨hactive, rfl⟩
    exact ⟨hactive, by simp [executionLockGenerationEquals]⟩

/-! ### Owners -/

structure ExactLiveOwner (options : ExecutionLockOptions) (lock : ExecutionLockInfo) : Prop where
  identity : lock.toExecutionLockRuntimeIdentity = options.runtimeIdentity
  pid : options.ownerPid = .finite lock.pid
  alive : options.livenessProbe lock.toExecutionLockOwnerIdentity options.runtimeIdentity = .alive
  valid : validExecutionLockIdentity options.runtimeIdentity

structure RetirableLock (options : ExecutionLockOptions) (lock : ExecutionLockInfo) (nowMs : Int) :
    Prop where
  expired : lock.renewedAt + lock.leaseDurationMs ≤ nowMs
  dead : options.livenessProbe lock.toExecutionLockOwnerIdentity options.runtimeIdentity = .dead
  valid : validExecutionLockIdentity options.runtimeIdentity

theorem resolveExecutionLockIdentity_ok {identity : ExecutionLockRuntimeIdentity} :
    resolveExecutionLockIdentity options = .ok identity
      ↔ options.runtimeIdentity = identity ∧ validExecutionLockIdentity options.runtimeIdentity := by
  unfold resolveExecutionLockIdentity
  split_ifs with h <;> simp [h]

theorem assertExactLiveExecutionLockOwner_ok {passed : Unit} :
    assertExactLiveExecutionLockOwner options lock = .ok passed ↔ ExactLiveOwner options lock := by
  unfold assertExactLiveExecutionLockOwner
  simp only [bind_eq_ok, resolveExecutionLockIdentity_ok, require_eq_ok]
  constructor
  · rintro ⟨identity, ⟨rfl, hvalid⟩, howner⟩
    by_cases hexact : JsNumber.finite lock.pid = options.ownerPid
        ∧ lock.toExecutionLockRuntimeIdentity = options.runtimeIdentity
    · have halive : options.livenessProbe lock.toExecutionLockOwnerIdentity options.runtimeIdentity
          = .alive := by simpa [hexact] using howner
      exact ⟨hexact.2, hexact.1.symm, halive, hvalid⟩
    · simp [hexact] at howner
  · rintro ⟨hidentity, hpid, halive, hvalid⟩
    refine ⟨_, ⟨rfl, hvalid⟩, ?_⟩
    simp [hidentity, hpid, halive]

theorem staleExecutionLockCanRetire_ok {nowMs : Int} :
    staleExecutionLockCanRetire options lock nowMs = .ok true ↔ RetirableLock options lock nowMs := by
  unfold staleExecutionLockCanRetire
  split_ifs with hheld
  · simp only [pure_eq_ok, Bool.false_eq_true, false_iff]
    rintro ⟨hexpired, -⟩
    omega
  · simp only [bind_eq_ok, resolveExecutionLockIdentity_ok]
    constructor
    · rintro ⟨identity, ⟨rfl, hvalid⟩, hstate⟩
      split_ifs at hstate with hdead
      · exact ⟨by omega, hdead, hvalid⟩
    · rintro ⟨hexpired, hdead, hvalid⟩
      refine ⟨_, ⟨rfl, hvalid⟩, ?_⟩
      rw [if_pos hdead, pure_eq_ok]

end Deckent.ExecutionLock
