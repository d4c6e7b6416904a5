import Deckent.Proof.ExecutionLockAcquire

/-!
# What the other operations do

Each operation that succeeds has loaded its task, passed its guards, and made one of a few changes to
the tables. Nothing else is unfolded by the proofs about runs.
-/

namespace Deckent.ExecutionLock

variable {options : ExecutionLockOptions} {host : ExecutionLockHost} {tables next : ExecutionLockTables}
  {lock : ExecutionLockInfo} {taskId ownerId : String}

/-! ### Statements -/

theorem updateExecutionLockActiveRow_ok :
    updateExecutionLockActiveRow tables lock = .ok next
      ↔ (∃ row ∈ tables.active, executionLockGenerationEquals row lock = true)
        ∧ next = { tables with active := replaceRow (·.taskId) lock tables.active } := by
  simp only [updateExecutionLockActiveRow, requireActiveRow, bind_eq_ok, require_eq_ok, List.any_eq_true,
    pure_eq_ok]
  constructor
  · rintro ⟨-, hrow, rfl⟩
    exact ⟨hrow, rfl⟩
  · rintro ⟨hrow, rfl⟩
    exact ⟨(), hrow, rfl⟩

theorem advancesExecutionLock_iff {previous candidate : ExecutionLockInfo} :
    advancesExecutionLock previous candidate = true
      ↔ candidate.ownerId ≠ previous.ownerId
        ∧ candidate.fencingToken.epoch = previous.fencingToken.epoch
        ∧ previous.fencingToken.counter < candidate.fencingToken.counter
        ∧ candidate.fencingToken.nonce ≠ previous.fencingToken.nonce := by
  simp [advancesExecutionLock, and_assoc]

def NewGeneration (tables : ExecutionLockTables) (previous candidate : ExecutionLockInfo) : Prop :=
  ∀ other ∈ tables.active, other = previous
    ∨ (other.ownerId ≠ candidate.ownerId ∧ other.fencingToken ≠ candidate.fencingToken)

theorem transferExecutionLockActiveRow_ok {previous candidate : ExecutionLockInfo} :
    transferExecutionLockActiveRow tables previous candidate = .ok next
      ↔ previous ∈ tables.active ∧ advancesExecutionLock previous candidate = true
        ∧ NewGeneration tables previous candidate
        ∧ next = { tables with active := replaceRow (·.taskId) candidate tables.active } := by
  simp only [transferExecutionLockActiveRow, NewGeneration, bind_eq_ok, require_eq_ok,
    List.contains_iff_mem, Bool.and_eq_true, List.all_eq_true, decide_eq_true_eq, pure_eq_ok]
  constructor
  · rintro ⟨-, hmem, -, ⟨hadvances, hnew⟩, rfl⟩
    exact ⟨hmem, hadvances, hnew, rfl⟩
  · rintro ⟨hmem, hadvances, hnew, rfl⟩
    exact ⟨(), hmem, (), ⟨hadvances, hnew⟩, rfl⟩

variable {quarantine : ExecutionLockQuarantineInfo}

def NewQuarantine (tables : ExecutionLockTables) (quarantine : ExecutionLockQuarantineInfo) : Prop :=
  ∀ other ∈ tables.quarantine, other.lock.taskId ≠ quarantine.lock.taskId
    ∧ other.quarantineId ≠ quarantine.quarantineId ∧ other.lock.ownerId ≠ quarantine.lock.ownerId
    ∧ other.lock.fencingToken ≠ quarantine.lock.fencingToken

theorem insertExecutionLockQuarantineRow_ok :
    insertExecutionLockQuarantineRow tables quarantine = .ok next
      ↔ NewQuarantine tables quarantine
        ∧ next = { tables with quarantine := tables.quarantine ++ [quarantine] } := by
  simp only [insertExecutionLockQuarantineRow, NewQuarantine, bind_eq_ok, require_eq_ok,
    List.all_eq_true, decide_eq_true_eq, pure_eq_ok]
  constructor
  · rintro ⟨-, hnew, rfl⟩
    exact ⟨hnew, rfl⟩
  · rintro ⟨hnew, rfl⟩
    exact ⟨(), hnew, rfl⟩

def NewAudit (tables : ExecutionLockTables) (event : ExecutionLockQuarantineAuditEvent) : Prop :=
  ∀ other ∈ tables.quarantineAudit, auditsConflict event other = false

theorem appendExecutionLockQuarantineAudit_ok {event : ExecutionLockQuarantineAuditEvent} :
    appendExecutionLockQuarantineAudit tables event = .ok next
      ↔ NewAudit tables event
        ∧ next = { tables with quarantineAudit := tables.quarantineAudit ++ [event] } := by
  simp only [appendExecutionLockQuarantineAudit, NewAudit, bind_eq_ok, require_eq_ok, pure_eq_ok,
    Bool.not_eq_true', List.any_eq_false, Bool.not_eq_true]
  constructor
  · rintro ⟨-, hnew, rfl⟩
    exact ⟨hnew, rfl⟩
  · rintro ⟨hnew, rfl⟩
    exact ⟨(), hnew, rfl⟩

theorem transitionExecutionLockQuarantineRow_ok {previous candidate : ExecutionLockQuarantineInfo} :
    transitionExecutionLockQuarantineRow tables previous candidate = .ok next
      ↔ (previous.state = .inFlight ∧ previous ∈ tables.quarantine)
        ∧ next = { tables with quarantine := replaceRow (·.lock.taskId) candidate tables.quarantine } := by
  simp only [transitionExecutionLockQuarantineRow, requireQuarantineRow, bind_eq_ok, require_eq_ok,
    decide_eq_true_eq, pure_eq_ok]
  constructor
  · rintro ⟨-, hrow, rfl⟩
    exact ⟨hrow, rfl⟩
  · rintro ⟨hrow, rfl⟩
    exact ⟨(), hrow, rfl⟩

theorem resumeExecutionLockQuarantineRow_ok {previous candidate : ExecutionLockQuarantineInfo}
    (hresume : resumeExecutionLockQuarantineRow tables previous candidate = .ok next) :
    previous.state = .inFlight ∧ previous ∈ tables.quarantine
      ∧ next = { tables with quarantine := replaceRow (·.lock.taskId) candidate tables.quarantine } := by
  simp only [resumeExecutionLockQuarantineRow, requireQuarantineRow, bind_eq_ok, require_eq_ok,
    decide_eq_true_eq, pure_eq_ok] at hresume
  obtain ⟨-, ⟨hstate, hmem⟩, -, -, rfl⟩ := hresume
  exact ⟨hstate, hmem, rfl⟩

theorem deleteExecutionLockQuarantineRow_ok :
    deleteExecutionLockQuarantineRow tables quarantine = .ok next
      ↔ quarantine ∈ tables.quarantine
        ∧ next = {
          tables with
          quarantine := deleteRow (·.lock.taskId) quarantine.lock.taskId tables.quarantine } := by
  simp only [deleteExecutionLockQuarantineRow, bind_eq_ok, require_eq_ok, List.contains_iff_mem,
    pure_eq_ok]
  constructor
  · rintro ⟨-, hmem, rfl⟩
    exact ⟨hmem, rfl⟩
  · rintro ⟨hmem, rfl⟩
    exact ⟨(), hmem, rfl⟩

/-! ### Renewing and releasing -/

def ExecutionLockInfo.renew (lock : ExecutionLockInfo) (nowMs : Int) : ExecutionLockInfo :=
  { lock with renewedAt := max nowMs lock.renewedAt }

def ExecutionLockQuarantineInfo.around (quarantine : ExecutionLockQuarantineInfo)
    (lock : ExecutionLockInfo) : ExecutionLockQuarantineInfo :=
  { quarantine with lock := lock }

structure Renews (options : ExecutionLockOptions) (tables next : ExecutionLockTables) (taskId : String)
    (current : ExecutionLockCurrent) (existing : ExecutionLockInfo) (nowMs : Int) : Prop where
  now : executionLockNow options = .ok nowMs
  loaded : LoadedTask tables taskId current
  lock : current.lock = some existing
  owner : ExactLiveOwner options existing
  state : ∀ quarantine, current.quarantine = some quarantine → quarantine.state = .inFlight
  expires : isSafeInteger ((existing.renew nowMs).renewedAt + existing.leaseDurationMs) = true
    ∧ canonicalExecutionLockTimestamp ((existing.renew nowMs).renewedAt + existing.leaseDurationMs)
      = true
  next_eq : next = {
    tables with
    active := replaceRow (·.taskId) (existing.renew nowMs) tables.active
    quarantine := match current.quarantine with
      | some quarantine =>
          replaceRow (·.lock.taskId) (quarantine.around (existing.renew nowMs)) tables.quarantine
      | none => tables.quarantine }

theorem renewExecutionLock_ok
    (hrenew : renewExecutionLock options host tables taskId ownerId = .ok (lock, next)) :
    ∃ current existing nowMs, Renews options tables next taskId current existing nowMs
      ∧ existing.ownerId = ownerId ∧ lock = existing.renew nowMs := by
  simp only [renewExecutionLock, bind_eq_ok, require_eq_ok, requireSome_eq_ok,
    Option.filter_eq_some_iff, assertExactLiveExecutionLockOwner_ok,
    reconcileExecutionLockProjectionForTask_ok, decide_eq_true_eq] at hrenew
  obtain ⟨nowMs, hnow, current, ⟨hloaded, -⟩, existing, ⟨hlock, howner⟩, -, hlive, -, hstate, -, hexpires,
    updated, hupdated, hrest⟩ := hrenew
  obtain ⟨-, rfl⟩ := updateExecutionLockActiveRow_ok.mp hupdated
  have hinflight : ∀ quarantine, current.quarantine = some quarantine →
      quarantine.state = .inFlight := by
    intro quarantine hquarantine
    rw [hquarantine] at hstate
    cases hcase : quarantine.state with
    | inFlight => rfl
    | quarantined => simp [hcase] at hstate
  refine ⟨current, existing, nowMs, ?_, howner, ?_⟩
  · refine ⟨hnow, hloaded, hlock, hlive, hinflight, hexpires, ?_⟩
    cases hquarantine : current.quarantine with
    | none =>
        simp only [hquarantine, bind_eq_ok, pure_eq_ok, Prod.mk.injEq] at hrest
        obtain ⟨_, rfl, -, rfl⟩ := hrest
        rfl
    | some quarantine =>
        simp only [hquarantine, bind_eq_ok, pure_eq_ok, Prod.mk.injEq,
          transitionExecutionLockQuarantineRow_ok] at hrest
        obtain ⟨_, ⟨-, rfl⟩, -, rfl⟩ := hrest
        rfl
  · cases hquarantine : current.quarantine with
    | none =>
        simp only [hquarantine, bind_eq_ok, pure_eq_ok, Prod.mk.injEq] at hrest
        obtain ⟨_, -, rfl, -⟩ := hrest
        rfl
    | some quarantine =>
        simp only [hquarantine, bind_eq_ok, pure_eq_ok, Prod.mk.injEq] at hrest
        obtain ⟨_, -, rfl, -⟩ := hrest
        rfl

/-- The active row of a lock is gone. -/
def ExecutionLockTables.drop (tables : ExecutionLockTables) (lock : ExecutionLockInfo) :
    ExecutionLockTables :=
  { tables with active := deleteRow (·.taskId) lock.taskId tables.active }

theorem releaseExecutionLock_ok {released : Bool}
    (hrelease : releaseExecutionLock options host tables taskId ownerId = .ok (released, next)) :
    (released = false ∧ next = tables ∧ selectRow (·.taskId) taskId tables.active = none)
      ∨ (released = true ∧ ∃ current existing, LoadedTask tables taskId current
        ∧ current.lock = some existing ∧ existing.ownerId = ownerId ∧ current.quarantine = none
        ∧ ExactLiveOwner options existing ∧ next = tables.drop existing) := by
  simp only [releaseExecutionLock, bind_eq_ok, reconcileExecutionLockProjectionForTask_ok] at hrelease
  obtain ⟨current, ⟨hloaded, -⟩, hrest⟩ := hrelease
  cases hlock : current.lock with
  | none =>
      simp only [hlock, pure_eq_ok, Prod.mk.injEq] at hrest
      obtain ⟨rfl, rfl⟩ := hrest
      exact .inl ⟨rfl, rfl, hloaded.lock.symm.trans hlock⟩
  | some existing =>
      simp only [hlock, bind_eq_ok, require_eq_ok, decide_eq_true_eq] at hrest
      obtain ⟨-, howner, hrest⟩ := hrest
      cases hquarantine : current.quarantine with
      | some quarantine =>
          simp only [hquarantine] at hrest
          exact absurd hrest throw_ne_ok
      | none =>
          simp only [hquarantine, bind_eq_ok, assertExactLiveExecutionLockOwner_ok,
            deleteExecutionLockActiveRow_ok, pure_eq_ok, Prod.mk.injEq] at hrest
          obtain ⟨-, hlive, _, ⟨-, rfl⟩, rfl, rfl⟩ := hrest
          exact .inr ⟨rfl, current, existing, hloaded, hlock, howner, hquarantine, hlive, rfl⟩

theorem compensateExecutionLock_ok {compensated : Bool}
    (hcompensate : compensateExecutionLock tables lock = .ok (compensated, next)) :
    (compensated = false ∧ next = tables)
      ∨ (compensated = true ∧ ∃ canonical ∈ tables.active,
        executionLockGenerationEquals canonical lock = true
        ∧ selectRow (·.lock.taskId) canonical.taskId tables.quarantine = none
        ∧ next = tables.drop canonical) := by
  simp only [compensateExecutionLock, bind_eq_ok, loadExecutionLockActiveRow_ok] at hcompensate
  obtain ⟨found, ⟨hfound, -⟩, hrest⟩ := hcompensate
  cases found with
  | none =>
      simp only [pure_eq_ok, Prod.mk.injEq] at hrest
      exact .inl ⟨hrest.1.symm, hrest.2.symm⟩
  | some canonical =>
      simp only at hrest
      split_ifs at hrest with hsame
      · simp only [pure_eq_ok, Prod.mk.injEq] at hrest
        exact .inl ⟨hrest.1.symm, hrest.2.symm⟩
      · simp only [bind_eq_ok, loadExecutionLockQuarantineForLock_ok] at hrest
        obtain ⟨quarantine, ⟨hselect, -⟩, hrest⟩ := hrest
        cases quarantine with
        | some quarantine =>
            simp only [pure_eq_ok, Prod.mk.injEq] at hrest
            exact .inl ⟨hrest.1.symm, hrest.2.symm⟩
        | none =>
            simp only [bind_eq_ok, deleteExecutionLockActiveRow_ok, pure_eq_ok, Prod.mk.injEq] at hrest
            obtain ⟨_, ⟨-, rfl⟩, rfl, rfl⟩ := hrest
            push Not at hsame
            refine .inr ⟨rfl, canonical, mem_of_selectRow hfound.symm, ?_, hselect.symm, rfl⟩
            exact executionLockGenerationEquals_iff.mpr
              ⟨key_of_selectRow hfound.symm, hsame.1, hsame.2⟩

/-! ### Boundaries -/

theorem normalizeExecutionLockHandle_ok {normalized : ExecutionLockInfo} :
    normalizeExecutionLockHandle lock = .ok normalized ↔ lock = normalized ∧ ParsesAsLock lock := by
  simp [normalizeExecutionLockHandle]

theorem normalizeExecutionLockEvidenceRefs_ok {refs normalized : List String} :
    normalizeExecutionLockEvidenceRefs refs taskId = .ok normalized
      ↔ refs = normalized ∧ (parseExecutionLockEvidenceRefs refs).isSome := by
  unfold normalizeExecutionLockEvidenceRefs
  rw [requireSome_eq_ok, parseExecutionLockEvidenceRefs_eq_some]

structure HoldsExactly (options : ExecutionLockOptions) (tables : ExecutionLockTables)
    (exactLock : ExecutionLockInfo) (current : ExecutionLockCurrent) (nowMs : Int) : Prop where
  now : executionLockNow options = .ok nowMs
  loaded : LoadedTask tables exactLock.taskId current
  lock : current.lock = some exactLock
  owner : ExactLiveOwner options exactLock

def recordAudit (action : ExecutionLockAuditAction) (quarantine : ExecutionLockQuarantineInfo)
    (occurredAt : Int) (eventId : RandomUuid) : ExecutionLockQuarantineAuditEvent :=
  createExecutionLockQuarantineAudit action quarantine (.quarantine quarantine) occurredAt eventId

structure Enters (tables next : ExecutionLockTables) (quarantine : ExecutionLockQuarantineInfo)
    (event : ExecutionLockQuarantineAuditEvent) : Prop where
  new : NewQuarantine tables quarantine
  audit : NewAudit tables event
  evidence : (parseExecutionLockEvidenceRefs quarantine.evidenceRefs).isSome
  next_eq : next = {
    tables with
    quarantine := tables.quarantine ++ [quarantine]
    quarantineAudit := tables.quarantineAudit ++ [event] }

def boundaryRecord (quarantineId : String) (lock : ExecutionLockInfo) (evidenceRefs : List String)
    (nowMs : Int) : ExecutionLockQuarantineInfo where
  quarantineId := quarantineId
  lock := lock
  state := .inFlight
  reason := .irreversibleBoundary
  evidenceRefs := evidenceRefs
  enteredAt := max nowMs lock.renewedAt
  quarantinedAt := none

theorem beginExecutionLockIrreversibleBoundary_ok
    {request : ExecutionLockIrreversibleBoundaryRequest}
    (hbegin : beginExecutionLockIrreversibleBoundary options host tables lock request
      = .ok (quarantine, next)) :
    ∃ current nowMs, HoldsExactly options tables lock current nowMs
      ∧ request.quarantineId.all isExecutionLockUuid = true
      ∧ ((current.quarantine = some quarantine ∧ quarantine.state = .inFlight ∧ next = tables)
        ∨ (current.quarantine = none
          ∧ quarantine = boundaryRecord (request.quarantineId.getD host.quarantineId.text) lock
            request.evidenceRefs nowMs
          ∧ Enters tables next quarantine
            (recordAudit .boundaryEntered quarantine quarantine.enteredAt host.eventId))) := by
  simp only [beginExecutionLockIrreversibleBoundary, bind_eq_ok, normalizeExecutionLockHandle_ok,
    require_eq_ok, normalizeExecutionLockEvidenceRefs_ok, reconcileExecutionLockProjectionForTask_ok,
    requireSome_eq_ok, executionLockForExactGeneration_eq_some, assertExactLiveExecutionLockOwner_ok]
    at hbegin
  obtain ⟨_, ⟨rfl, -⟩, -, hid, _, ⟨rfl, hevidence⟩, nowMs, hnow, current, ⟨hloaded, -⟩, _,
    ⟨hlock, rfl⟩, -, hlive, hrest⟩ := hbegin
  refine ⟨current, nowMs, ⟨hnow, hloaded, hlock, hlive⟩, hid, ?_⟩
  cases hquarantine : current.quarantine with
  | some existing =>
      simp only [hquarantine] at hrest
      split_ifs at hrest with hreplay
      · simp only [pure_eq_ok, Prod.mk.injEq] at hrest
        obtain ⟨rfl, rfl⟩ := hrest
        exact .inl ⟨rfl, hreplay.1, rfl⟩
  | none =>
      simp only [hquarantine, bind_eq_ok, insertExecutionLockQuarantineRow_ok,
        appendExecutionLockQuarantineAudit_ok, pure_eq_ok, Prod.mk.injEq] at hrest
      obtain ⟨_, ⟨hnew, rfl⟩, _, ⟨haudit, rfl⟩, rfl, rfl⟩ := hrest
      exact .inr ⟨rfl, rfl, hnew, haudit, hevidence, rfl⟩

def quarantinedRecord (quarantineId : String) (lock : ExecutionLockInfo)
    (reason : ExecutionLockQuarantineReason) (evidenceRefs : List String) (enteredAt : Int)
    (timestamp : Int) : ExecutionLockQuarantineInfo where
  quarantineId := quarantineId
  lock := lock
  state := .quarantined
  reason := reason
  evidenceRefs := evidenceRefs
  enteredAt := enteredAt
  quarantinedAt := some timestamp

theorem quarantineExecutionLock_ok {request : ExecutionLockQuarantineRequest}
    (hquarantined : quarantineExecutionLock options host tables lock request
      = .ok (quarantine, next)) :
    ∃ current nowMs, HoldsExactly options tables lock current nowMs
      ∧ request.reason ≠ .irreversibleBoundary
      ∧ ((current.quarantine = some quarantine ∧ quarantine.state = .quarantined ∧ next = tables)
        ∨ (∃ existing evidenceRefs, current.quarantine = some existing ∧ existing.state = .inFlight
          ∧ quarantine = quarantinedRecord existing.quarantineId lock request.reason evidenceRefs
            existing.enteredAt (max nowMs existing.enteredAt)
          ∧ (parseExecutionLockEvidenceRefs evidenceRefs).isSome
          ∧ NewAudit tables
            (recordAudit .quarantined quarantine (max nowMs existing.enteredAt) host.eventId)
          ∧ next = {
            tables with
            quarantine := replaceRow (·.lock.taskId) quarantine tables.quarantine
            quarantineAudit := tables.quarantineAudit
              ++ [recordAudit .quarantined quarantine (max nowMs existing.enteredAt) host.eventId] })
        ∨ (∃ evidenceRefs, current.quarantine = none
          ∧ quarantine = quarantinedRecord host.quarantineId.text lock request.reason evidenceRefs
            (max nowMs lock.renewedAt) (max nowMs lock.renewedAt)
          ∧ Enters tables next quarantine
            (recordAudit .quarantined quarantine quarantine.enteredAt host.eventId))) := by
  simp only [quarantineExecutionLock, bind_eq_ok, normalizeExecutionLockHandle_ok, require_eq_ok,
    normalizeExecutionLockEvidenceRefs_ok, reconcileExecutionLockProjectionForTask_ok,
    requireSome_eq_ok, executionLockForExactGeneration_eq_some, assertExactLiveExecutionLockOwner_ok,
    decide_eq_true_eq] at hquarantined
  obtain ⟨_, ⟨rfl, -⟩, -, ⟨hreason, -⟩, _, ⟨rfl, -⟩, nowMs, hnow, current, ⟨hloaded, -⟩, _,
    ⟨hlock, rfl⟩, -, hlive, hrest⟩ := hquarantined
  refine ⟨current, nowMs, ⟨hnow, hloaded, hlock, hlive⟩, hreason, ?_⟩
  cases hquarantine : current.quarantine with
  | some existing =>
      simp only [hquarantine] at hrest
      split_ifs at hrest with hstate
      · simp only [pure_eq_ok, Prod.mk.injEq] at hrest
        obtain ⟨rfl, rfl⟩ := hrest
        exact .inl ⟨rfl, hstate, rfl⟩
      · simp only [bind_eq_ok, normalizeExecutionLockEvidenceRefs_ok,
          appendExecutionLockQuarantineAudit_ok, transitionExecutionLockQuarantineRow_ok, pure_eq_ok,
          Prod.mk.injEq] at hrest
        obtain ⟨_, ⟨rfl, hevidence⟩, _, ⟨haudit, rfl⟩, _, ⟨⟨hinflight, -⟩, rfl⟩, rfl, rfl⟩ := hrest
        exact .inr (.inl ⟨existing, _, rfl, hinflight, rfl, hevidence, haudit, rfl⟩)
  | none =>
      simp only [hquarantine, bind_eq_ok, normalizeExecutionLockEvidenceRefs_ok,
        insertExecutionLockQuarantineRow_ok, appendExecutionLockQuarantineAudit_ok, pure_eq_ok,
        Prod.mk.injEq] at hrest
      obtain ⟨_, ⟨rfl, hevidence⟩, _, ⟨hnew, rfl⟩, _, ⟨haudit, rfl⟩, rfl, rfl⟩ := hrest
      exact .inr (.inr ⟨_, rfl, rfl, hnew, haudit, hevidence, rfl⟩)

end Deckent.ExecutionLock
