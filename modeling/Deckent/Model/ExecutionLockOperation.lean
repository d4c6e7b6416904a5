import Mathlib.Logic.Relation
import Deckent.Model.ExecutionLock

/-!
# Operations of the execution-lock authority
Each operation is the body of one immediate transaction: from the tables it makes a result and the next
tables, or an error. Acquiring a lock has a second transaction, which takes the lock back where its
projection could not be published.
-/

namespace Deckent.ExecutionLock

section Operations

variable (options : ExecutionLockOptions) (host : ExecutionLockHost) (tables : ExecutionLockTables)

/-! ### Inspection -/

inductive ExecutionLockInspection where
  | absent
  | held (lock : ExecutionLockInfo)
  | quarantined (lock : ExecutionLockInfo) (quarantine : ExecutionLockQuarantineInfo)
  | malformed
  deriving DecidableEq

def checkExecutionLock (taskId : String) : ExecutionLockInspection :=
  match reconcileExecutionLockProjectionForTask host tables taskId with
  | .error _ => .malformed
  | .ok ⟨some lock, some quarantine⟩ => .quarantined lock quarantine
  | .ok ⟨some lock, none⟩ => .held lock
  | .ok ⟨none, _⟩ => .absent

def ExecutionLockInspection.lock? : ExecutionLockInspection → Option ExecutionLockInfo
  | held lock => some lock
  | quarantined lock _ => some lock
  | absent | malformed => none

def assertExecutionLockAuthority (lock : ExecutionLockInfo) : Attempt Unit := do
  let inspected := checkExecutionLock host tables lock.taskId
  let lost := (lockError
    s!"Execution authority fencing generation is no longer current for task {lock.taskId}" lock.taskId
    .authorityLost).ownedBy (inspected.lock?.map (·.ownerId))
  match inspected with
  | .held current =>
      require (current.ownerId = lock.ownerId ∧ current.fencingToken = lock.fencingToken) lost
  | .quarantined current quarantine => do
      require (current.ownerId = lock.ownerId ∧ current.fencingToken = lock.fencingToken
          ∧ quarantine.state = .inFlight) lost
      assertExactLiveExecutionLockOwner options current
  | .absent | .malformed => .error lost

/-! ### Acquiring -/

/-- Retire a lock whose lease has expired and whose owner is dead. A lock under a quarantine stays. The
quarantine is loaded where the caller does not know it. -/
def retireCanonicalExecutionLockIfDead (lock : ExecutionLockInfo) (nowMs : Int)
    (knownQuarantine : Option (Option ExecutionLockQuarantineInfo)) :
    Attempt (Option ExecutionLockTables) := do
  let quarantine ← match knownQuarantine with
    | some known => pure known
    | none => loadExecutionLockQuarantineForLock tables lock
  match quarantine with
  | some quarantine =>
      throw ((lockError
        s!"Execution authority is protected by a durable {quarantine.state.text} boundary for task {lock.taskId}"
        lock.taskId .quarantined).recoveredBy (some lock))
  | none =>
      if !(← staleExecutionLockCanRetire options lock nowMs) then
        return none
      let tables ← deleteExecutionLockActiveRow tables lock
      withoutFault (host.unlinkFault lock.taskId)
      return some tables

def retireOrFail (lock : ExecutionLockInfo) (nowMs : Int)
    (knownQuarantine : Option (Option ExecutionLockQuarantineInfo)) (message taskId : String)
    (localReason : ExecutionLockFailureReason) : Attempt ExecutionLockTables := do
  match ← retireCanonicalExecutionLockIfDead options host tables lock nowMs knownQuarantine with
  | some tables => return tables
  | none =>
      let reason ← heldExecutionLockReason options lock localReason
      throw ((lockError message taskId reason).ownedBy (some lock.ownerId))

def retireTaskLocks (nowMs : Int) (quarantines : List ExecutionLockQuarantineInfo) :
    ExecutionLockTables → List ExecutionLockInfo → Attempt ExecutionLockTables
  | tables, [] => return tables
  | tables, candidate :: rest =>
      if candidate.taskId = projectMaintenanceLockTaskId then
        retireTaskLocks nowMs quarantines tables rest
      else do
        let tables ← retireOrFail options host tables candidate nowMs
          (some (quarantines.reverse.find? (·.lock.taskId = candidate.taskId)))
          s!"Project has active execution authority: {candidate.taskId}" candidate.taskId .projectActive
        retireTaskLocks nowMs quarantines tables rest

/-- The locks that exclude the acquired one are retired; the lock of the task itself is what is left to
be retired. -/
def clearConflictingLocks (taskId : String) (actor : ExecutionLockActor) (nowMs : Int) :
    Attempt (ExecutionLockTables × Option ExecutionLockInfo) :=
  if actor = .maintenance then do
    let active ← reconcileExecutionLockProjections host tables
    let quarantines ← loadExecutionLockQuarantineRows tables active
    let tables ← retireTaskLocks options host nowMs quarantines tables active
    return (tables, active.find? (·.taskId = taskId))
  else do
    let maintenance ←
      reconcileExecutionLockProjectionForTask host tables projectMaintenanceLockTaskId
    let tables ← match maintenance.lock with
      | some lock =>
          retireOrFail options host tables lock nowMs (some maintenance.quarantine)
            "Project maintenance authority is held" taskId .maintenanceHeld
      | none => pure tables
    let current ← reconcileExecutionLockProjectionForTask host tables taskId
    return (tables, current.lock)

def acquireExecutionLock (taskId : String) (actor : ExecutionLockActor) :
    Attempt (ExecutionLockInfo × ExecutionLockTables) := do
  let validated ← validateExecutionLockAcquireInput options taskId actor
  let (tables, existing) ← clearConflictingLocks options host tables taskId actor validated.nowMs
  let tables ← match existing with
    | some existing =>
        retireOrFail options host tables existing validated.nowMs none
          s!"Execution authority is held for task {taskId}" taskId .held
    | none => pure tables
  let (fencingToken, tables) ← allocateExecutionLockFencingToken host tables
  let candidate : ExecutionLockInfo := {
    validated.identity with
    pid := validated.ownerPid
    taskId := taskId
    actor := actor
    ownerId := host.ownerId.text
    fencingToken := fencingToken
    acquiredAt := validated.nowMs
    renewedAt := validated.nowMs
    leaseDurationMs := validated.leaseDurationMs }
  let tables ← insertExecutionLockActiveRow tables candidate
  return (candidate, tables)

/-- The transaction of `acquireExecutionLock` that follows when the projection was not published. -/
def compensateExecutionLock (lock : ExecutionLockInfo) : Attempt (Bool × ExecutionLockTables) := do
  match ← loadExecutionLockActiveRow tables lock.taskId with
  | none => return (false, tables)
  | some canonical =>
      if canonical.ownerId ≠ lock.ownerId ∨ canonical.fencingToken ≠ lock.fencingToken then
        return (false, tables)
      match ← loadExecutionLockQuarantineForLock tables canonical with
      | some _ => return (false, tables)
      | none =>
          let tables ← deleteExecutionLockActiveRow tables canonical
          return (true, tables)

/-! ### Renewing and releasing -/

def renewExecutionLock (taskId ownerId : String) :
    Attempt (ExecutionLockInfo × ExecutionLockTables) := do
  let nowMs ← executionLockNow options
  let current ← reconcileExecutionLockProjectionForTask host tables taskId
  let existing ← requireSome (current.lock.filter (·.ownerId = ownerId))
    ((lockError s!"Execution authority ownership lost for task {taskId}" taskId .ownershipLost).ownedBy
      (current.lock.map (·.ownerId)))
  assertExactLiveExecutionLockOwner options existing
  require (current.quarantine.all (·.state ≠ .quarantined))
    ((lockError s!"Quarantined execution authority cannot renew task {taskId}" taskId
      .quarantined).recoveredBy (some existing))
  let renewedAt := max nowMs existing.renewedAt
  require (isSafeInteger (renewedAt + existing.leaseDurationMs)
      ∧ canonicalExecutionLockTimestamp (renewedAt + existing.leaseDurationMs))
    (lockError s!"Execution authority renewal is outside clock range for task {taskId}" taskId
      .invalidInput)
  let candidate : ExecutionLockInfo := { existing with renewedAt := renewedAt }
  let tables ← updateExecutionLockActiveRow tables candidate
  let tables ← match current.quarantine with
    | some quarantine =>
        transitionExecutionLockQuarantineRow tables quarantine { quarantine with lock := candidate }
    | none => pure tables
  return (candidate, tables)

def releaseExecutionLock (taskId ownerId : String) : Attempt (Bool × ExecutionLockTables) := do
  let current ← reconcileExecutionLockProjectionForTask host tables taskId
  match current.lock with
  | none => return (false, tables)
  | some existing =>
      require (existing.ownerId = ownerId)
        ((lockError s!"Execution authority ownership lost for task {taskId}" taskId
          .ownershipLost).ownedBy (some existing.ownerId))
      match current.quarantine with
      | some quarantine =>
          throw ((lockError
            s!"Execution authority has a durable {quarantine.state.text} boundary and requires exact completion or recovery for task {taskId}"
            taskId .quarantined).recoveredBy (some existing))
      | none =>
          assertExactLiveExecutionLockOwner options existing
          let tables ← deleteExecutionLockActiveRow tables existing
          return (true, tables)

/-! ### Boundaries -/

structure ExecutionLockIrreversibleBoundaryRequest where
  evidenceRefs : List String
  quarantineId : Option String

def beginExecutionLockIrreversibleBoundary (exactLock : ExecutionLockInfo)
    (request : ExecutionLockIrreversibleBoundaryRequest) :
    Attempt (ExecutionLockQuarantineInfo × ExecutionLockTables) := do
  let expected ← normalizeExecutionLockHandle exactLock
  require (request.quarantineId.all isExecutionLockUuid)
    (lockError s!"Execution boundary id is invalid for task {expected.taskId}" expected.taskId
      .invalidInput)
  let evidenceRefs ← normalizeExecutionLockEvidenceRefs request.evidenceRefs expected.taskId
  let nowMs ← executionLockNow options
  let current ← reconcileExecutionLockProjectionForTask host tables expected.taskId
  let canonical ← requireSome (executionLockForExactGeneration current.lock expected)
    (lockError s!"Execution boundary ownership lost for task {expected.taskId}" expected.taskId
      .ownershipLost)
  assertExactLiveExecutionLockOwner options canonical
  match current.quarantine with
  | some existing =>
      if existing.state = .inFlight ∧ request.quarantineId.all (existing.quarantineId = ·)
          ∧ existing.evidenceRefs = evidenceRefs then
        return (existing, tables)
      throw ((if existing.state = .inFlight then
          lockError s!"Execution boundary replay conflicts for task {expected.taskId}" expected.taskId
            .mutationConflict
        else lockError s!"Execution generation is already quarantined for task {expected.taskId}"
          expected.taskId .quarantined).recoveredBy (some canonical))
  | none =>
      let enteredAt := max nowMs canonical.renewedAt
      let candidate : ExecutionLockQuarantineInfo := {
        quarantineId := request.quarantineId.getD host.quarantineId.text
        lock := canonical
        state := .inFlight
        reason := .irreversibleBoundary
        evidenceRefs := evidenceRefs
        enteredAt := enteredAt
        quarantinedAt := none }
      let tables ← insertExecutionLockQuarantineRow tables candidate
      let tables ← appendExecutionLockQuarantineAudit tables
        (createExecutionLockQuarantineAudit .boundaryEntered candidate (.quarantine candidate) enteredAt
          host.eventId)
      return (candidate, tables)

structure ExecutionLockQuarantineRequest where
  reason : ExecutionLockQuarantineReason
  evidenceRefs : List String

def quarantineExecutionLock (exactLock : ExecutionLockInfo) (request : ExecutionLockQuarantineRequest) :
    Attempt (ExecutionLockQuarantineInfo × ExecutionLockTables) := do
  let expected ← normalizeExecutionLockHandle exactLock
  require (request.reason ≠ .irreversibleBoundary ∧ request.reason ≠ .legacyV2Active)
    (lockError s!"Execution quarantine reason is invalid for task {expected.taskId}" expected.taskId
      .invalidInput)
  let requestedEvidence ← normalizeExecutionLockEvidenceRefs request.evidenceRefs expected.taskId
  let nowMs ← executionLockNow options
  let current ← reconcileExecutionLockProjectionForTask host tables expected.taskId
  let canonical ← requireSome (executionLockForExactGeneration current.lock expected)
    (lockError s!"Execution quarantine ownership lost for task {expected.taskId}" expected.taskId
      .ownershipLost)
  assertExactLiveExecutionLockOwner options canonical
  match current.quarantine with
  | some existing =>
      if existing.state = .quarantined then
        return (existing, tables)
      let timestamp := max nowMs existing.enteredAt
      let evidenceRefs ← normalizeExecutionLockEvidenceRefs
        (sortBy compareCodePoint (existing.evidenceRefs ++ requestedEvidence).dedup) canonical.taskId
      let candidate : ExecutionLockQuarantineInfo := {
        quarantineId := existing.quarantineId
        lock := canonical
        state := .quarantined
        reason := request.reason
        evidenceRefs := evidenceRefs
        enteredAt := existing.enteredAt
        quarantinedAt := some timestamp }
      let tables ← appendExecutionLockQuarantineAudit tables
        (createExecutionLockQuarantineAudit .quarantined candidate (.quarantine candidate) timestamp
          host.eventId)
      let tables ← transitionExecutionLockQuarantineRow tables existing candidate
      return (candidate, tables)
  | none =>
      let timestamp := max nowMs canonical.renewedAt
      let evidenceRefs ← normalizeExecutionLockEvidenceRefs
        (sortBy compareCodePoint requestedEvidence.dedup) canonical.taskId
      let candidate : ExecutionLockQuarantineInfo := {
        quarantineId := host.quarantineId.text
        lock := canonical
        state := .quarantined
        reason := request.reason
        evidenceRefs := evidenceRefs
        enteredAt := timestamp
        quarantinedAt := some timestamp }
      let tables ← insertExecutionLockQuarantineRow tables candidate
      let tables ← appendExecutionLockQuarantineAudit tables
        (createExecutionLockQuarantineAudit .quarantined candidate (.quarantine candidate) timestamp
          host.eventId)
      return (candidate, tables)

/-! ### Completions -/

def completionOf (event : ExecutionLockQuarantineAuditEvent) :
    Option ExecutionLockBoundaryCompletion :=
  match event.payload with
  | .completion payload => some payload
  | _ => none

def readCompletedExecutionLockBoundaryFromDb (quarantineId : String) :
    Attempt (Option ExecutionLockQuarantineAuditEvent) := do
  let events ← loadExecutionLockQuarantineAuditChain tables quarantineId
  if events = [] then
    return none
  let lineage? := executionLockBoundaryAuditLineage events quarantineId
  let completed := events.filter (·.action = .completed)
  let taskId := ((completed.head?.map (·.taskId)).orElse
    fun _ => lineage?.map (·.boundary.taskId)).getD "unknown"
  let broken := lockError
    s!"Execution boundary terminal audit chain is invalid for task {taskId}" taskId .malformed
  let lineage ← requireSome lineage? broken
  let latestBoundaryAt := (lineage.boundary :: lineage.resumes).foldl
    (fun latest candidate =>
      if textBefore latest candidate.occurredAt then candidate.occurredAt else latest)
    lineage.boundary.occurredAt
  let event ← match completed with
    | [event] => pure event
    | _ => throw broken
  require (events.length = 2 + lineage.resumes.length
      ∧ event.taskId = lineage.boundary.taskId
      ∧ event.ownerId = lineage.currentLock.ownerId
      ∧ event.fencingToken = lineage.currentLock.fencingToken
      ∧ (completionOf event).any (fun payload =>
        payload.quarantineId = quarantineId ∧ event.occurredAt = payload.completedAt)
      ∧ ¬ textBefore event.occurredAt latestBoundaryAt)
    broken
  require (tables.quarantine.all (·.quarantineId ≠ quarantineId))
    (lockError s!"Completed execution boundary remains active for task {event.taskId}" event.taskId
      .malformed)
  let active ← loadExecutionLockActiveRow tables event.taskId
  require (active.all fun active =>
      active.ownerId ≠ event.ownerId ∨ active.fencingToken ≠ event.fencingToken)
    (lockError
      s!"Completed execution boundary retains its fencing generation for task {event.taskId}"
      event.taskId .malformed)
  return some event

def readCompletedExecutionLockBoundary (quarantineId : String) :
    Attempt (Option ExecutionLockQuarantineAuditEvent) := do
  require (isExecutionLockUuid quarantineId)
    (lockError "Execution boundary id is invalid" "unknown" .invalidInput)
  readCompletedExecutionLockBoundaryFromDb tables quarantineId

structure ExecutionLockBoundaryCompletionResult where
  completed : ExecutionLockQuarantineInfo
  audit : ExecutionLockQuarantineAuditEvent

def completedExecutionLockBoundaryResultFromDb (quarantineId : String) :
    Attempt (Option ExecutionLockBoundaryCompletionResult) := do
  match ← readCompletedExecutionLockBoundaryFromDb tables quarantineId with
  | none => return none
  | some audit =>
      let events ← loadExecutionLockQuarantineAuditChain tables quarantineId
      let completed := (executionLockBoundaryAuditLineage events quarantineId).bind fun lineage =>
        match lineage.resumes, lineage.boundary.payload with
        | [], .quarantine completed =>
            if completed.state = .inFlight ∧ completed.reason = .irreversibleBoundary then
              some completed
            else none
        | _, _ => none
      let completed ← requireSome completed
        (lockError s!"Execution boundary terminal payload is invalid for task {audit.taskId}"
          audit.taskId .malformed)
      return some ⟨completed, audit⟩

structure ExecutionLockNoChangeCompletionRequest where
  quarantineId : String
  boundaryEvidenceRefs : List String
  completionEvidenceRefs : List String

def completeExecutionLockNoChangeBoundary (exactLock : ExecutionLockInfo)
    (request : ExecutionLockNoChangeCompletionRequest) :
    Attempt (ExecutionLockBoundaryCompletionResult × ExecutionLockTables) := do
  let expected ← normalizeExecutionLockHandle exactLock
  require (isExecutionLockUuid request.quarantineId)
    (lockError s!"Execution no-change boundary id is invalid for task {expected.taskId}"
      expected.taskId .invalidInput)
  let boundaryEvidenceRefs ←
    normalizeExecutionLockEvidenceRefs request.boundaryEvidenceRefs expected.taskId
  let completionEvidenceRefs ←
    normalizeExecutionLockEvidenceRefs request.completionEvidenceRefs expected.taskId
  require (boundaryEvidenceRefs ≠ [] ∧ completionEvidenceRefs ≠ [])
    (lockError s!"Execution no-change boundary requires durable evidence for task {expected.taskId}"
      expected.taskId .invalidInput)
  let nowMs ← executionLockNow options
  match ← completedExecutionLockBoundaryResultFromDb tables request.quarantineId with
  | some existing =>
      require (existing.completed.lock = expected
          ∧ existing.completed.evidenceRefs = boundaryEvidenceRefs
          ∧ (completionOf existing.audit).any (·.evidenceRefs = completionEvidenceRefs))
        (lockError s!"Execution no-change boundary replay conflicts for task {expected.taskId}"
          expected.taskId .mutationConflict)
      return (existing, tables)
  | none =>
      let current ← reconcileExecutionLockProjectionForTask host tables expected.taskId
      let canonical ← requireSome
        ((executionLockForExactGeneration current.lock expected).filter fun _ =>
          current.quarantine.isNone)
        ((lockError
          s!"Exact unbounded execution generation is unavailable for no-change completion of task {expected.taskId}"
          expected.taskId
          (if current.quarantine.isSome then .quarantined else .ownershipLost)).recoveredBy current.lock)
      assertExactLiveExecutionLockOwner options canonical
      let terminalAt := max nowMs canonical.renewedAt
      let boundary : ExecutionLockQuarantineInfo := {
        quarantineId := request.quarantineId
        lock := canonical
        state := .inFlight
        reason := .irreversibleBoundary
        evidenceRefs := boundaryEvidenceRefs
        enteredAt := terminalAt
        quarantinedAt := none }
      let completion : ExecutionLockBoundaryCompletion := {
        quarantineId := boundary.quarantineId
        fencingToken := canonical.fencingToken
        evidenceRefs := completionEvidenceRefs
        completedAt := terminalAt }
      let completionAudit := createExecutionLockQuarantineAudit .completed boundary
        (.completion completion) terminalAt host.completionEventId
      let tables ← insertExecutionLockQuarantineRow tables boundary
      let tables ← appendExecutionLockQuarantineAudit tables
        (createExecutionLockQuarantineAudit .boundaryEntered boundary (.quarantine boundary) terminalAt
          host.eventId)
      let tables ← appendExecutionLockQuarantineAudit tables completionAudit
      let tables ← deleteExecutionLockQuarantineRow tables boundary
      let tables ← deleteExecutionLockActiveRow tables canonical
      return (⟨boundary, completionAudit⟩, tables)

structure ExecutionLockBoundaryCompletionRequest where
  quarantineId : String
  evidenceRefs : List String

def completeExecutionLockIrreversibleBoundary (exactLock : ExecutionLockInfo)
    (request : ExecutionLockBoundaryCompletionRequest) :
    Attempt (ExecutionLockBoundaryCompletionResult × ExecutionLockTables) := do
  let expected ← normalizeExecutionLockHandle exactLock
  require (isExecutionLockUuid request.quarantineId)
    (lockError s!"Execution boundary completion id is invalid for task {expected.taskId}"
      expected.taskId .invalidInput)
  let evidenceRefs ← normalizeExecutionLockEvidenceRefs request.evidenceRefs expected.taskId
  require (evidenceRefs ≠ [])
    (lockError s!"Execution boundary completion evidence is required for task {expected.taskId}"
      expected.taskId .invalidInput)
  let nowMs ← executionLockNow options
  let current ← reconcileExecutionLockProjectionForTask host tables expected.taskId
  let canonical? := executionLockForExactGeneration current.lock expected
  let unavailable := (lockError
    s!"Exact in-flight execution boundary is unavailable for task {expected.taskId}" expected.taskId
    (if canonical?.isSome && current.quarantine.any (·.state = .quarantined) then .quarantined
      else .ownershipLost)).ownedBy (canonical?.map (·.ownerId))
  let canonical ← requireSome canonical? unavailable
  let quarantine ← requireSome
    (current.quarantine.filter fun quarantine =>
      quarantine.quarantineId = request.quarantineId ∧ quarantine.state = .inFlight)
    unavailable
  assertExactLiveExecutionLockOwner options canonical
  let completedAt := max nowMs quarantine.enteredAt
  let completion : ExecutionLockBoundaryCompletion := {
    quarantineId := quarantine.quarantineId
    fencingToken := canonical.fencingToken
    evidenceRefs := evidenceRefs
    completedAt := completedAt }
  let audit := createExecutionLockQuarantineAudit .completed quarantine (.completion completion)
    completedAt host.eventId
  let tables ← appendExecutionLockQuarantineAudit tables audit
  let tables ← deleteExecutionLockQuarantineRow tables quarantine
  let tables ← deleteExecutionLockActiveRow tables canonical
  return (⟨quarantine, audit⟩, tables)

/-! ### Recovery -/

def normalizeExecutionLockRecoveryAttestation (value : ExecutionLockRecoveryAttestation)
    (quarantine : ExecutionLockQuarantineInfo) (nowMs : Int) :
    Attempt ExecutionLockRecoveryAttestation := do
  let taskId := quarantine.lock.taskId
  require (value.quarantineId = quarantine.quarantineId
      ∧ validBoundedExecutionLockText value.operatorId maxExecutionLockRecoveryOperatorBytes
      ∧ isExecutionLockIdentity value.operatorId
      ∧ validBoundedExecutionLockText value.justification maxExecutionLockRecoveryJustificationBytes
      ∧ canonicalExecutionLockTimestamp value.attestedAt)
    (lockError s!"Execution lock recovery attestation is invalid for task {taskId}" taskId
      .invalidInput)
  require ((parseExecutionLockFencingToken value.fencingToken).isSome
      ∧ value.fencingToken = quarantine.lock.fencingToken
      ∧ (parseExecutionLockEvidenceRefs value.evidenceRefs).isSome
      ∧ value.evidenceRefs ≠ []
      ∧ quarantine.quarantinedAt.getD quarantine.enteredAt ≤ value.attestedAt
      ∧ nowMs - maxExecutionLockRecoveryAttestationAgeMs ≤ value.attestedAt
      ∧ value.attestedAt ≤ nowMs + maxExecutionLockRecoveryFutureSkewMs)
    (lockError s!"Execution lock recovery attestation is stale or mismatched for task {taskId}" taskId
      .invalidInput)
  return value

structure ExecutionLockRecoveryResult where
  recovered : ExecutionLockQuarantineInfo
  audit : ExecutionLockQuarantineAuditEvent

/-- The verifier gets the attestation and the quarantine, whose digest the quarantine determines. -/
def recoverQuarantinedExecutionLock (exactLock : ExecutionLockInfo)
    (attestation : ExecutionLockRecoveryAttestation)
    (recoveryAttestationVerifier :
      ExecutionLockRecoveryAttestation → ExecutionLockQuarantineInfo → Bool) :
    Attempt (ExecutionLockRecoveryResult × ExecutionLockTables) := do
  let expected ← normalizeExecutionLockHandle exactLock
  let nowMs ← executionLockNow options
  let current ← reconcileExecutionLockProjectionForTask host tables expected.taskId
  let canonical? := executionLockForExactGeneration current.lock expected
  let unavailable := (lockError
    s!"Exact execution quarantine is unavailable for task {expected.taskId}" expected.taskId
    .ownershipLost).ownedBy (canonical?.map (·.ownerId))
  let canonical ← requireSome canonical? unavailable
  let quarantine ← requireSome current.quarantine unavailable
  let attestation ← normalizeExecutionLockRecoveryAttestation attestation quarantine nowMs
  require (recoveryAttestationVerifier attestation quarantine)
    (lockError s!"Execution quarantine recovery authority was not verified for task {expected.taskId}"
      expected.taskId .invalidInput)
  let audit := createExecutionLockQuarantineAudit .recovered quarantine (.recovery attestation)
    attestation.attestedAt host.eventId
  let tables ← appendExecutionLockQuarantineAudit tables audit
  let tables ← deleteExecutionLockQuarantineRow tables quarantine
  let tables ← deleteExecutionLockActiveRow tables canonical
  return (⟨quarantine, audit⟩, tables)

/-! ### Resuming -/

structure ExecutionLockBoundaryResumeResult where
  previous : ExecutionLockQuarantineInfo
  resumed : ExecutionLockQuarantineInfo
  audit : ExecutionLockQuarantineAuditEvent

def resumeEvidence (event : ExecutionLockQuarantineAuditEvent) : Option (List String) :=
  match event.payload with
  | .resume payload => some payload.evidenceRefs
  | _ => none

def succeedExecutionLock (validated : ExecutionLockAcquireInput) (previous : ExecutionLockInfo)
    (fencingToken : ExecutionLockFencingToken) (since : Int) : ExecutionLockInfo where
  toExecutionLockRuntimeIdentity := validated.identity
  pid := validated.ownerPid
  taskId := previous.taskId
  actor := previous.actor
  ownerId := host.ownerId.text
  fencingToken := fencingToken
  acquiredAt := since
  renewedAt := since
  leaseDurationMs := validated.leaseDurationMs

def resumeExecutionLockIrreversibleBoundary (exactQuarantine : ExecutionLockQuarantineInfo)
    (evidenceRefs : List String) :
    Attempt (ExecutionLockBoundaryResumeResult × ExecutionLockTables) := do
  let expected ← normalizeExecutionLockQuarantineHandle exactQuarantine
  let taskId := expected.lock.taskId
  require (expected.state = .inFlight ∧ expected.reason = .irreversibleBoundary)
    ((lockError s!"Only an in-flight execution boundary can resume for task {taskId}" taskId
      .quarantined).recoveredBy (some expected.lock))
  let evidenceRefs ← normalizeExecutionLockEvidenceRefs evidenceRefs taskId
  require (evidenceRefs ≠ [])
    (lockError s!"Execution boundary resume evidence is required for task {taskId}" taskId
      .invalidInput)
  let validated ← validateExecutionLockAcquireInput options taskId expected.lock.actor
  let current ← reconcileExecutionLockProjectionForTask host tables taskId
  let previousLock? := executionLockForExactGeneration current.lock expected.lock
  let unavailable := (lockError
    s!"Exact in-flight execution boundary is unavailable for resume of task {taskId}" taskId
    (if previousLock?.isSome && current.quarantine.any (·.state = .quarantined) then .quarantined
      else .ownershipLost)).recoveredBy current.lock
  let previousLock ← requireSome previousLock? unavailable
  let previous ← requireSome (current.quarantine.filter (· = expected)) unavailable
  require (← staleExecutionLockCanRetire options previousLock validated.nowMs)
    ((lockError s!"Execution boundary owner lease is still active for task {taskId}" taskId
      .held).recoveredBy (some previousLock))
  let events ← loadExecutionLockQuarantineAuditChain tables previous.quarantineId
  let lineage ← requireSome
    ((executionLockBoundaryAuditLineage events previous.quarantineId).filter fun lineage =>
      executionLockIsExactRenewalOf lineage.currentLock previousLock)
    (lockError s!"Execution boundary resume lineage is invalid for task {taskId}" taskId .malformed)
  require (lineage.resumes.all fun candidate => resumeEvidence candidate = some evidenceRefs)
    ((lockError s!"Execution boundary resume evidence lineage conflicts for task {taskId}" taskId
      .mutationConflict).recoveredBy (some previousLock))
  require (lineage.resumes.length < maxExecutionLockBoundaryResumes)
    (lockError s!"Execution boundary resume limit is exhausted for task {taskId}" taskId
      .mutationConflict)
  let resumedAt := max validated.nowMs (max previousLock.renewedAt previous.enteredAt)
  let (fencingToken, tables) ← allocateExecutionLockFencingToken host tables
  let resumedLock := succeedExecutionLock host validated previousLock fencingToken resumedAt
  assertExecutionLockFencingProgression previousLock.fencingToken resumedLock.fencingToken taskId
  let resumed : ExecutionLockQuarantineInfo := { previous with lock := resumedLock }
  let attestation : ExecutionLockBoundaryResumeAttestation := {
    quarantineId := previous.quarantineId
    previousLock := previousLock
    resumedLock := resumedLock
    evidenceRefs := evidenceRefs
    resumedAt := resumedAt }
  let audit := createExecutionLockQuarantineAudit .resumed resumed (.resume attestation) resumedAt
    host.eventId
  let tables ← appendExecutionLockQuarantineAudit tables audit
  let tables ← transferExecutionLockActiveRow tables previousLock resumedLock
  let tables ← resumeExecutionLockQuarantineRow tables previous resumed
  return (⟨previous, resumed, audit⟩, tables)

/-! ### Adoption -/

/-- The loop of `loadExecutionLockActiveAdoptionLineage`: from the current lock back to the first
adoption, which the list then begins with. -/
def followAdoptions (taskId : String) :
    Nat → ExecutionLockInfo → List ExecutionLockActiveAdoptionAudit →
      Attempt (List ExecutionLockActiveAdoptionAudit)
  | remaining, cursor, lineage =>
      match tables.activeAdoptionAudit.find? fun row =>
        executionLockGenerationEquals row.adoptedLock cursor with
      | none => .ok lineage
      | some row => do
          let audit ← requireSome (parseExecutionLockActiveAdoptionAudit row)
            (lockError s!"Execution active adoption audit row is invalid: {row.eventId}"
              row.previousLock.taskId .malformed)
          require (audit.adoptedLock = cursor)
            (lockError s!"Execution active adoption lineage is invalid for task {taskId}" taskId
              .malformed)
          match remaining with
          | 0 => .error (lockError
              s!"Execution active adoption lineage exceeds its durable limit for task {taskId}" taskId
              .malformed)
          | remaining + 1 => followAdoptions taskId remaining audit.previousLock (audit :: lineage)

def loadExecutionLockActiveAdoptionLineage (current : ExecutionLockInfo) :
    Attempt (List ExecutionLockActiveAdoptionAudit) :=
  followAdoptions tables current.taskId maxExecutionLockActiveAdoptions current []

def loadExecutionLockActiveAdoptionForPrevious (previous : ExecutionLockInfo) :
    Attempt (Option ExecutionLockActiveAdoptionAudit) :=
  match tables.activeAdoptionAudit.find? fun row =>
    executionLockGenerationEquals row.previousLock previous with
  | none => .ok none
  | some row =>
      some <$> requireSome (parseExecutionLockActiveAdoptionAudit row)
        (lockError s!"Execution active adoption audit row is invalid: {row.eventId}"
          row.previousLock.taskId .malformed)

structure ExecutionLockActiveAdoptionResolution where
  previous : ExecutionLockInfo
  adopted : ExecutionLockInfo
  audit : ExecutionLockActiveAdoptionAudit
  lineage : List ExecutionLockActiveAdoptionAudit
  deriving DecidableEq

def requireAdoptionEvidence (evidenceRefs : List String) (taskId : String) : Attempt (List String) := do
  let evidenceRefs ← normalizeExecutionLockEvidenceRefs evidenceRefs taskId
  require (evidenceRefs ≠ [])
    (lockError s!"Execution active adoption evidence is required for task {taskId}" taskId
      .invalidInput)
  return evidenceRefs

def readExecutionLockActiveAdoption (exactAdoptedLock : ExecutionLockInfo)
    (evidenceRefs : List String) : Attempt (Option ExecutionLockActiveAdoptionResolution) := do
  let expected ← normalizeExecutionLockHandle exactAdoptedLock
  let evidenceRefs ← requireAdoptionEvidence evidenceRefs expected.taskId
  let current ← loadExecutionLockActiveRow tables expected.taskId
  let canonical ← requireSome (executionLockForExactGeneration current expected)
    ((lockError
      s!"Exact adopted execution generation is not canonical for task {expected.taskId}" expected.taskId
      .ownershipLost).recoveredBy current)
  let quarantine ← loadExecutionLockQuarantineForLock tables canonical
  require quarantine.isNone
    ((lockError
      s!"Quarantined execution generation is not an active adoption for task {expected.taskId}"
      expected.taskId .quarantined).recoveredBy (some canonical))
  let lineage ← loadExecutionLockActiveAdoptionLineage tables canonical
  match lineage.getLast? with
  | none => return none
  | some audit =>
      require (audit.adoptedLock = canonical
          ∧ lineage.all fun candidate => candidate.evidenceRefs = evidenceRefs)
        ((lockError s!"Execution active adoption evidence conflicts for task {expected.taskId}"
          expected.taskId .mutationConflict).recoveredBy (some canonical))
      return some ⟨audit.previousLock, canonical, audit, lineage⟩

structure ExecutionLockActiveAdoptionResult where
  previous : ExecutionLockInfo
  adopted : ExecutionLockInfo
  audit : ExecutionLockActiveAdoptionAudit

def replayExecutionLockAdoption (expected : ExecutionLockInfo) (evidenceRefs : List String) :
    Attempt (Option ExecutionLockActiveAdoptionResult) := do
  let current ← reconcileExecutionLockProjectionForTask host tables expected.taskId
  match ← loadExecutionLockActiveAdoptionForPrevious tables expected with
  | none => return none
  | some existingAudit =>
      require (existingAudit.previousLock = expected ∧ existingAudit.evidenceRefs = evidenceRefs
          ∧ current.quarantine.isNone ∧ current.lock = some existingAudit.adoptedLock)
        ((lockError s!"Execution active adoption replay conflicts for task {expected.taskId}"
          expected.taskId
          (if current.quarantine.isSome then .quarantined else .mutationConflict)).recoveredBy
            current.lock)
      return some ⟨expected, existingAudit.adoptedLock, existingAudit⟩

def adoptExecutionLockActiveGeneration (exactLock : ExecutionLockInfo) (evidenceRefs : List String) :
    Attempt (ExecutionLockActiveAdoptionResult × ExecutionLockTables) := do
  let expected ← normalizeExecutionLockHandle exactLock
  let taskId := expected.taskId
  let evidenceRefs ← requireAdoptionEvidence evidenceRefs taskId
  let validated ← validateExecutionLockAcquireInput options taskId expected.actor
  match ← replayExecutionLockAdoption host tables expected evidenceRefs with
  | some replay => return (replay, tables)
  | none =>
      let current ← reconcileExecutionLockProjectionForTask host tables taskId
      let previous ← requireSome
        ((executionLockForExactGeneration current.lock expected).filter fun _ =>
          current.quarantine.isNone)
        ((lockError
          s!"Exact unquarantined execution generation is unavailable for adoption of task {taskId}" taskId
          (if current.quarantine.isSome then .quarantined else .ownershipLost)).recoveredBy current.lock)
      let priorLineage ← loadExecutionLockActiveAdoptionLineage tables previous
      require (priorLineage.length < maxExecutionLockActiveAdoptions)
        (lockError s!"Execution active adoption limit is exhausted for task {taskId}" taskId
          .mutationConflict)
      require (priorLineage.all fun candidate => candidate.evidenceRefs = evidenceRefs)
        ((lockError s!"Execution active adoption evidence lineage conflicts for task {taskId}" taskId
          .mutationConflict).recoveredBy (some previous))
      require (← staleExecutionLockCanRetire options previous validated.nowMs)
        ((lockError s!"Execution active owner lease is still held for task {taskId}" taskId
          .held).recoveredBy (some previous))
      let adoptedAt := max validated.nowMs previous.renewedAt
      let (fencingToken, tables) ← allocateExecutionLockFencingToken host tables
      let adopted := succeedExecutionLock host validated previous fencingToken adoptedAt
      assertExecutionLockFencingProgression previous.fencingToken adopted.fencingToken taskId
      let audit : ExecutionLockActiveAdoptionAudit := {
        eventId := host.eventId.text
        previousLock := previous
        adoptedLock := adopted
        evidenceRefs := evidenceRefs
        adoptedAt := adoptedAt }
      let tables ← appendExecutionLockActiveAdoptionAudit tables audit
      let tables ← transferExecutionLockActiveRow tables previous adopted
      return (⟨previous, adopted, audit⟩, tables)

end Operations

end Deckent.ExecutionLock

/-! ### Runs of the execution-lock authority

Any number of processes call the operations in any order. Each call is one transaction under the
options of its caller: any clock, any runtime identity and any probe that takes an owner for dead only
if it has terminated, and for alive only if it has not. Random values do not repeat. A call that fails
changes nothing.

The generations that were granted and the acquisitions whose projection is still being published are
recorded along the run. -/

namespace Deckent.ExecutionLock

inductive ExecutionLockOperation where
  | acquire (taskId : String) (actor : ExecutionLockActor)
  | compensate (lock : ExecutionLockInfo)
  | renew (taskId ownerId : String)
  | release (taskId ownerId : String)
  | beginBoundary (lock : ExecutionLockInfo) (request : ExecutionLockIrreversibleBoundaryRequest)
  | quarantine (lock : ExecutionLockInfo) (request : ExecutionLockQuarantineRequest)
  | completeNoChange (lock : ExecutionLockInfo) (request : ExecutionLockNoChangeCompletionRequest)
  | complete (lock : ExecutionLockInfo) (request : ExecutionLockBoundaryCompletionRequest)
  | recover (lock : ExecutionLockInfo) (attestation : ExecutionLockRecoveryAttestation)
      (verifier : ExecutionLockRecoveryAttestation → ExecutionLockQuarantineInfo → Bool)
  | resume (quarantine : ExecutionLockQuarantineInfo) (evidenceRefs : List String)
  | adopt (lock : ExecutionLockInfo) (evidenceRefs : List String)

/-- The tables that an operation commits. -/
def ExecutionLockOperation.perform (options : ExecutionLockOptions) (host : ExecutionLockHost)
    (tables : ExecutionLockTables) : ExecutionLockOperation → Attempt ExecutionLockTables
  | acquire taskId actor => Prod.snd <$> acquireExecutionLock options host tables taskId actor
  | compensate lock => Prod.snd <$> compensateExecutionLock tables lock
  | renew taskId ownerId => Prod.snd <$> renewExecutionLock options host tables taskId ownerId
  | release taskId ownerId => Prod.snd <$> releaseExecutionLock options host tables taskId ownerId
  | beginBoundary lock request =>
      Prod.snd <$> beginExecutionLockIrreversibleBoundary options host tables lock request
  | quarantine lock request => Prod.snd <$> quarantineExecutionLock options host tables lock request
  | completeNoChange lock request =>
      Prod.snd <$> completeExecutionLockNoChangeBoundary options host tables lock request
  | complete lock request =>
      Prod.snd <$> completeExecutionLockIrreversibleBoundary options host tables lock request
  | recover lock attestation verifier =>
      Prod.snd <$> recoverQuarantinedExecutionLock options host tables lock attestation verifier
  | resume exactQuarantine evidenceRefs =>
      Prod.snd <$>
        resumeExecutionLockIrreversibleBoundary options host tables exactQuarantine evidenceRefs
  | adopt lock evidenceRefs =>
      Prod.snd <$> adoptExecutionLockActiveGeneration options host tables lock evidenceRefs

structure ExecutionLockWorld where
  tables : ExecutionLockTables
  granted : List ExecutionLockInfo
  publishing : List ExecutionLockInfo
  terminated : List ExecutionLockOwnerIdentity

def ExecutionLockWorld.initial (authorityEpoch : String) : ExecutionLockWorld where
  tables := initializeExecutionLockDatabase authorityEpoch
  granted := []
  publishing := []
  terminated := []

def newlyGranted (tables next : ExecutionLockTables) : List ExecutionLockInfo :=
  next.active.filter fun lock => tables.fencingCounter < lock.fencingToken.counter

def publishingAfter (publishing granted : List ExecutionLockInfo) :
    ExecutionLockOperation → List ExecutionLockInfo
  | .acquire _ _ => publishing ++ granted
  | .compensate lock => publishing.erase lock
  | _ => publishing

def ExecutionLockWorld.commit (world : ExecutionLockWorld) (operation : ExecutionLockOperation)
    (next : ExecutionLockTables) : ExecutionLockWorld where
  tables := next
  granted := world.granted ++ newlyGranted world.tables next
  publishing := publishingAfter world.publishing (newlyGranted world.tables next) operation
  terminated := world.terminated

structure TruthfulProbe (terminated : List ExecutionLockOwnerIdentity)
    (options : ExecutionLockOptions) : Prop where
  dead : ∀ owner identity, options.livenessProbe owner identity = .dead → owner ∈ terminated
  alive : ∀ owner identity, options.livenessProbe owner identity = .alive → owner ∉ terminated

structure FreshDraws (world : ExecutionLockWorld) (host : ExecutionLockHost) : Prop where
  ownerId : ∀ lock ∈ world.granted, lock.ownerId ≠ host.ownerId.text
  quarantineId : ∀ event ∈ world.tables.quarantineAudit, event.quarantineId ≠ host.quarantineId.text

inductive ExecutionLockEvent where
  | call (options : ExecutionLockOptions) (host : ExecutionLockHost)
      (operation : ExecutionLockOperation)
  | published (lock : ExecutionLockInfo)
  | terminated (owner : ExecutionLockOwnerIdentity)

inductive ExecutionLockWorld.Step (world : ExecutionLockWorld) :
    ExecutionLockEvent → ExecutionLockWorld → Prop where
  | call (options : ExecutionLockOptions) (host : ExecutionLockHost)
      (operation : ExecutionLockOperation) (next : ExecutionLockTables)
      (hprobe : TruthfulProbe world.terminated options) (hfresh : FreshDraws world host)
      -- Only the acquisition that is still publishing a lock compensates it.
      (hpublishing : ∀ lock, operation = .compensate lock → lock ∈ world.publishing)
      (hperform : operation.perform options host world.tables = .ok next) :
      Step world (.call options host operation) (world.commit operation next)
  | published (lock : ExecutionLockInfo) :
      Step world (.published lock) { world with publishing := world.publishing.erase lock }
  | terminated (owner : ExecutionLockOwnerIdentity) :
      Step world (.terminated owner) { world with terminated := owner :: world.terminated }

def ExecutionLockWorld.Leads : ExecutionLockWorld → ExecutionLockWorld → Prop :=
  Relation.ReflTransGen fun world next => ∃ event, world.Step event next

end Deckent.ExecutionLock
