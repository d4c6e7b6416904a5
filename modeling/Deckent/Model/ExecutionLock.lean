import Deckent.Lib.KeyedRows
import Deckent.Model.ExecutionLockRecord

/-!
# The execution-lock authority

The canonical state is a database: a counter for fencing tokens, the active lock of each task, the
quarantine of each task, and two append-only audits. An operation is one immediate transaction. It
loads what it needs, and a row or an audit chain that does not parse makes it fail as malformed; a
constraint that a statement violates makes it fail closed. A transaction that fails changes nothing.

Each task also has a projection, a file that repeats its active lock. Reconciling the projections
writes files only, so an operation takes from the host just whether it failed. The random values of an
operation come from the host as well. A row's columns repeat the record in its payload, so a row is its
record.
-/

namespace Deckent.ExecutionLock

/-! ### Errors -/

inductive ExecutionLockFailureReason where
  | held
  | maintenanceHeld
  | projectActive
  | malformed
  | foreignHost
  | livenessUnknown
  | ownershipLost
  | authorityLost
  | authorityEpochMismatch
  | quarantined
  | mutationConflict
  | invalidInput
  deriving DecidableEq

structure ExecutionLockError where
  message : String
  taskId : String
  reason : ExecutionLockFailureReason
  conflictingOwnerId : Option String
  recoveryLock : Option ExecutionLockInfo
  deriving DecidableEq

def lockError (message taskId : String) (reason : ExecutionLockFailureReason) : ExecutionLockError where
  message := message
  taskId := taskId
  reason := reason
  conflictingOwnerId := none
  recoveryLock := none

def ExecutionLockError.ownedBy (error : ExecutionLockError) (ownerId : Option String) :
    ExecutionLockError :=
  { error with conflictingOwnerId := ownerId }

def ExecutionLockError.recoveredBy (error : ExecutionLockError) (lock : Option ExecutionLockInfo) :
    ExecutionLockError :=
  { error with
    conflictingOwnerId := lock.map (·.ownerId)
    recoveryLock := lock }

def failedClosed : ExecutionLockError :=
  lockError "Execution lock mutation authority failed closed" "unknown" .malformed

abbrev Attempt (α : Type) := Except ExecutionLockError α

def require (holds : Bool) (error : ExecutionLockError) : Attempt Unit :=
  if holds then .ok () else .error error

def requireSome {α : Type} (value : Option α) (error : ExecutionLockError) : Attempt α :=
  match value with
  | some value => .ok value
  | none => .error error

def withoutFault (fault : Option ExecutionLockError) : Attempt Unit :=
  match fault with
  | some error => .error error
  | none => .ok ()

/-! ### Tables -/

structure ExecutionLockTables where
  authorityEpoch : String
  fencingCounter : Nat
  active : List ExecutionLockInfo
  quarantine : List ExecutionLockQuarantineInfo
  quarantineAudit : List ExecutionLockQuarantineAuditEvent
  activeAdoptionAudit : List ExecutionLockActiveAdoptionAudit
  deriving DecidableEq

def initializeExecutionLockDatabase (authorityEpoch : String) : ExecutionLockTables where
  authorityEpoch := authorityEpoch
  fencingCounter := 0
  active := []
  quarantine := []
  quarantineAudit := []
  activeAdoptionAudit := []

/-- A value of `randomUUID()`. -/
structure RandomUuid where
  text : String
  isUuid : isExecutionLockUuid text = true

/-- A value of `randomBytes(16).toString('hex')`. -/
structure RandomNonce where
  text : String
  isNonce : isExecutionLockNonce text = true

structure ExecutionLockOptions where
  now : JsNumber
  leaseDurationMs : Option JsNumber
  ownerPid : JsNumber
  runtimeIdentity : ExecutionLockRuntimeIdentity
  livenessProbe : ExecutionLockOwnerIdentity → ExecutionLockRuntimeIdentity → ExecutionLockProcessState

structure ExecutionLockHost where
  ownerId : RandomUuid
  nonce : RandomNonce
  quarantineId : RandomUuid
  eventId : RandomUuid
  completionEventId : RandomUuid
  /-- Reconciling the projection of one task. -/
  reconcileFault : String → Option ExecutionLockError
  /-- Reconciling all projections. -/
  scanFault : Option ExecutionLockError
  /-- Removing the projection of a lock that is retired. -/
  unlinkFault : String → Option ExecutionLockError

section Operations

variable (options : ExecutionLockOptions) (host : ExecutionLockHost) (tables : ExecutionLockTables)

/-! ### Options -/

def executionLockNow : Attempt Int :=
  requireSome (options.now.toSafeInteger?.filter canonicalExecutionLockTimestamp)
    (lockError "Execution lock clock is outside the supported range" "unknown" .invalidInput)

def resolveExecutionLockIdentity : Attempt ExecutionLockRuntimeIdentity :=
  if validExecutionLockIdentity options.runtimeIdentity then .ok options.runtimeIdentity
  else .error (lockError "Execution lock runtime identity is invalid" "unknown" .invalidInput)

structure ExecutionLockAcquireInput where
  nowMs : Int
  leaseDurationMs : Int
  identity : ExecutionLockRuntimeIdentity
  ownerPid : Int

def validateExecutionLockAcquireInput (taskId : String) (actor : ExecutionLockActor) :
    Attempt ExecutionLockAcquireInput := do
  let maintenancePair := taskId = projectMaintenanceLockTaskId ∧ actor = .maintenance
  let taskPair := taskId ≠ projectMaintenanceLockTaskId ∧ actor ≠ .maintenance
  require (taskId ≠ "" ∧ taskId.utf8ByteSize ≤ maxExecutionLockTaskIdBytes
      ∧ (maintenancePair ∨ taskPair))
    (lockError "Execution lock task/actor authority is invalid"
      (if taskId = "" then "unknown" else taskId) .invalidInput)
  let nowMs ← executionLockNow options
  let lease := options.leaseDurationMs.getD (.finite defaultExecutionLockLeaseMs)
  let leaseDurationMs ← requireSome
    (lease.toSafeInteger?.filter fun value =>
      0 < value ∧ value ≤ maxExecutionLockLeaseMs ∧ isSafeInteger (nowMs + value)
        ∧ canonicalExecutionLockTimestamp (nowMs + value))
    (lockError s!"Execution lock lease is invalid for task {taskId}" taskId .invalidInput)
  let ownerPid ← requireSome (options.ownerPid.toSafeInteger?.filter fun pid => 0 < pid)
    (lockError s!"Execution lock owner PID is invalid for task {taskId}" taskId .invalidInput)
  let identity ← resolveExecutionLockIdentity options
  return ⟨nowMs, leaseDurationMs, identity, ownerPid⟩

def unretiredReason : ExecutionLockProcessState → ExecutionLockFailureReason
  | .foreignHost => .foreignHost
  | .unknown => .livenessUnknown
  | .alive | .dead => .held

def staleExecutionLockCanRetire (lock : ExecutionLockInfo) (nowMs : Int) : Attempt Bool := do
  if nowMs < lock.renewedAt + lock.leaseDurationMs then
    return false
  let localIdentity ← resolveExecutionLockIdentity options
  let state := options.livenessProbe lock.toExecutionLockOwnerIdentity localIdentity
  if state = .dead then
    return true
  throw ((lockError s!"Expired execution lock owner is {state.text} for task {lock.taskId}" lock.taskId
    (unretiredReason state)).ownedBy (some lock.ownerId))

def assertExactLiveExecutionLockOwner (lock : ExecutionLockInfo) : Attempt Unit := do
  let runtimeIdentity ← resolveExecutionLockIdentity options
  let exactRuntime : Bool := .finite lock.pid = options.ownerPid
    ∧ lock.toExecutionLockRuntimeIdentity = runtimeIdentity
  let state :=
    if exactRuntime then options.livenessProbe lock.toExecutionLockOwnerIdentity runtimeIdentity
    else .foreignHost
  require (exactRuntime ∧ state = .alive)
    ((lockError s!"Irreversible execution boundary owner is not the exact live runtime for task {lock.taskId}"
      lock.taskId
      (match state with
        | .foreignHost => .foreignHost
        | .unknown => .livenessUnknown
        | .alive | .dead => .authorityLost)).ownedBy (some lock.ownerId))

def heldExecutionLockReason (lock : ExecutionLockInfo) (localReason : ExecutionLockFailureReason) :
    Attempt ExecutionLockFailureReason := do
  let localIdentity ← resolveExecutionLockIdentity options
  return if lock.hostInstanceId ≠ localIdentity.hostInstanceId
      ∨ lock.bootSessionId ≠ localIdentity.bootSessionId then .foreignHost
    else localReason

/-! ### Handles -/

def normalizeExecutionLockHandle (value : ExecutionLockInfo) : Attempt ExecutionLockInfo :=
  requireSome (parseExecutionLock value (some value.taskId))
    (lockError "Execution lock exact-generation handle is invalid" value.taskId .invalidInput)

def normalizeExecutionLockQuarantineHandle (value : ExecutionLockQuarantineInfo) :
    Attempt ExecutionLockQuarantineInfo :=
  requireSome (parseExecutionLockQuarantine value (some value.lock.taskId))
    (lockError "Execution quarantine exact-generation handle is invalid" value.lock.taskId .invalidInput)

def normalizeExecutionLockEvidenceRefs (value : List String) (taskId : String) :
    Attempt (List String) :=
  requireSome (parseExecutionLockEvidenceRefs value)
    (lockError s!"Execution lock evidence is invalid for task {taskId}" taskId .invalidInput)

def executionLockForExactGeneration (active : Option ExecutionLockInfo) (expected : ExecutionLockInfo) :
    Option ExecutionLockInfo :=
  active.filter fun candidate => executionLockGenerationEquals candidate expected ∧ candidate = expected

/-! ### Loading -/

def compareBytes (left right : String) : Int :=
  if left < right then -1 else if right < left then 1 else 0

def compareTexts (left right : Int) : Int :=
  if textBefore left right then -1 else if textBefore right left then 1 else 0

def parseExecutionLockActiveRow (row : ExecutionLockInfo) : Attempt ExecutionLockInfo :=
  requireSome (parseExecutionLock row (some row.taskId))
    (lockError s!"Canonical execution authority row is invalid for task {row.taskId}" row.taskId
      .malformed)

def loadExecutionLockActiveRow (taskId : String) : Attempt (Option ExecutionLockInfo) :=
  match selectRow (·.taskId) taskId tables.active with
  | none => .ok none
  | some row => some <$> parseExecutionLockActiveRow row

def loadExecutionLockActiveRows : Attempt (List ExecutionLockInfo) :=
  (sortBy (fun left right => compareBytes left.taskId right.taskId) tables.active).mapM
    parseExecutionLockActiveRow

def parseExecutionLockQuarantineAuditRow (row : ExecutionLockQuarantineAuditEvent) :
    Attempt ExecutionLockQuarantineAuditEvent :=
  requireSome (parseExecutionLockQuarantineAudit row)
    (lockError s!"Execution lock quarantine audit row is invalid: {row.eventId}" row.taskId .malformed)

def loadExecutionLockQuarantineAuditChain (quarantineId : String) :
    Attempt (List ExecutionLockQuarantineAuditEvent) := do
  let rows := (sortBy
    (fun left right => thenBy (compareNumber left.fencingToken.counter right.fencingToken.counter)
      (thenBy (compareTexts left.occurredAt right.occurredAt)
        (compareBytes left.eventId right.eventId)))
    (tables.quarantineAudit.filter (·.quarantineId = quarantineId))).take
      (maxExecutionLockBoundaryResumes + 4)
  require (rows.length ≤ maxExecutionLockBoundaryResumes + 3)
    (lockError "Execution boundary resume chain exceeds its durable limit"
      ((rows.head?.map (·.taskId)).getD "unknown") .malformed)
  rows.mapM parseExecutionLockQuarantineAuditRow

structure ExecutionLockBoundaryAuditLineage where
  boundary : ExecutionLockQuarantineAuditEvent
  resumes : List ExecutionLockQuarantineAuditEvent
  currentLock : ExecutionLockInfo

def followResumes (quarantineId taskId : String) (currentLock : ExecutionLockInfo) (previousAt : Int) :
    List ExecutionLockQuarantineAuditEvent → Option ExecutionLockInfo
  | [] => some currentLock
  | event :: rest =>
      match event.payload with
      | .resume payload =>
          if event.quarantineId = quarantineId
              ∧ event.taskId = taskId
              ∧ executionLockIsExactRenewalOf currentLock payload.previousLock
              ∧ ¬ textBefore payload.resumedAt previousAt
              ∧ event.occurredAt = payload.resumedAt
              ∧ event.ownerId = payload.resumedLock.ownerId
              ∧ event.fencingToken = payload.resumedLock.fencingToken then
            followResumes quarantineId taskId payload.resumedLock event.occurredAt rest
          else none
      | _ => none

def executionLockBoundaryAuditLineage (events : List ExecutionLockQuarantineAuditEvent)
    (quarantineId : String) : Option ExecutionLockBoundaryAuditLineage := do
  let resumes := events.filter (·.action = .resumed)
  match events.filter (·.action = .boundaryEntered) with
  | [boundary] =>
      match boundary.payload with
      | .quarantine entered =>
          if resumes.length ≤ maxExecutionLockBoundaryResumes
              ∧ entered.quarantineId = quarantineId
              ∧ entered.state = .inFlight
              ∧ entered.reason = .irreversibleBoundary then
            let orderedResumes := sortBy
              (fun left right =>
                thenBy (compareNumber left.fencingToken.counter right.fencingToken.counter)
                  (compareCodePoint left.eventId right.eventId)) resumes
            let currentLock ← followResumes quarantineId boundary.taskId entered.lock
              boundary.occurredAt orderedResumes
            return ⟨boundary, orderedResumes, currentLock⟩
          else none
      | _ => none
  | _ => none

def isDirectQuarantine (quarantine : ExecutionLockQuarantineInfo) :
    List ExecutionLockQuarantineAuditEvent → Bool
  | [only] =>
      quarantine.state = .quarantined && only.action = .quarantined
        && quarantine.lock.acquiredAt ≤ quarantine.enteredAt
        && only.payload = .quarantine quarantine
  | _ => false

def endsAtQuarantine (quarantine : ExecutionLockQuarantineInfo)
    (lineage : ExecutionLockBoundaryAuditLineage) :
    List ExecutionLockQuarantineAuditEvent → Bool
  | [] => quarantine.state = .inFlight
  | [audit] =>
      quarantine.state = .quarantined && audit.action = .quarantined
        && audit.payload = .quarantine quarantine
        && !textBefore audit.occurredAt lineage.boundary.occurredAt
  | _ => false

def assertExecutionLockActiveQuarantineAuditChain (quarantine : ExecutionLockQuarantineInfo) :
    Attempt Unit := do
  let taskId := quarantine.lock.taskId
  let events ← loadExecutionLockQuarantineAuditChain tables quarantine.quarantineId
  match executionLockBoundaryAuditLineage events quarantine.quarantineId with
  | none =>
      require (isDirectQuarantine quarantine events)
        (lockError s!"Execution quarantine audit chain is invalid for task {taskId}" taskId .malformed)
  | some lineage =>
      let nonLineage := events.filter fun event =>
        event.action ≠ .boundaryEntered ∧ event.action ≠ .resumed
      require (executionLockIsExactRenewalOf lineage.currentLock quarantine.lock
          && endsAtQuarantine quarantine lineage nonLineage)
        (lockError
          s!"Execution quarantine audit chain does not end at current authority for task {taskId}" taskId
          .malformed)

def isCurrentGenerationAudit (quarantine : ExecutionLockQuarantineInfo)
    (event : ExecutionLockQuarantineAuditEvent) : Bool :=
  event.quarantineId = quarantine.quarantineId
    && (match quarantine.state with
      | .inFlight => event.action = .boundaryEntered || event.action = .resumed
      | .quarantined => event.action = .quarantined)
    && event.ownerId = quarantine.lock.ownerId
    && event.fencingToken = quarantine.lock.fencingToken

def parseExecutionLockQuarantineRow (activeLock : Option ExecutionLockInfo)
    (row : ExecutionLockQuarantineInfo) : Attempt ExecutionLockQuarantineInfo :=
  requireSome
    ((parseExecutionLockQuarantine row (some row.lock.taskId)).filter fun quarantine =>
      activeLock = some quarantine.lock)
    (lockError s!"Canonical execution quarantine row is invalid for task {row.lock.taskId}"
      row.lock.taskId .malformed)

def loadExecutionLockQuarantineForLock (lock : ExecutionLockInfo) :
    Attempt (Option ExecutionLockQuarantineInfo) :=
  match selectRow (·.lock.taskId) lock.taskId tables.quarantine with
  | none => .ok none
  | some row => do
      let quarantine ← parseExecutionLockQuarantineRow (some lock) row
      let _ ← requireSome
        ((tables.quarantineAudit.find? (isCurrentGenerationAudit quarantine)).bind
          parseExecutionLockQuarantineAudit)
        (lockError
          s!"Execution quarantine has no durable current-generation audit for task {lock.taskId}"
          lock.taskId .malformed)
      assertExecutionLockActiveQuarantineAuditChain tables quarantine
      return some quarantine

def loadExecutionLockQuarantineRows (active : List ExecutionLockInfo) :
    Attempt (List ExecutionLockQuarantineInfo) := do
  let rows := sortBy (fun left right => compareBytes left.lock.taskId right.lock.taskId) tables.quarantine
  let quarantines ← rows.mapM fun row =>
    parseExecutionLockQuarantineRow (selectRow (·.taskId) row.lock.taskId active) row
  let audits ← (quarantines.flatMap fun quarantine =>
    tables.quarantineAudit.filter (isCurrentGenerationAudit quarantine)).mapM
      parseExecutionLockQuarantineAuditRow
  quarantines.forM fun quarantine => do
    let audit := audits.reverse.find? (·.quarantineId = quarantine.quarantineId)
    require (audit.any fun audit =>
        isCurrentGenerationAudit quarantine audit ∧ audit.taskId = quarantine.lock.taskId)
      (lockError
        s!"Execution quarantine has no durable current-generation audit for task {quarantine.lock.taskId}"
        quarantine.lock.taskId .malformed)
    assertExecutionLockActiveQuarantineAuditChain tables quarantine
  return quarantines

def reconcileExecutionLockProjections : Attempt (List ExecutionLockInfo) := do
  let active ← loadExecutionLockActiveRows tables
  let _ ← loadExecutionLockQuarantineRows tables active
  withoutFault host.scanFault
  return active

structure ExecutionLockCurrent where
  lock : Option ExecutionLockInfo
  quarantine : Option ExecutionLockQuarantineInfo

def reconcileExecutionLockProjectionForTask (taskId : String) : Attempt ExecutionLockCurrent := do
  let lock ← loadExecutionLockActiveRow tables taskId
  let quarantine ← match lock with
    | some lock => loadExecutionLockQuarantineForLock tables lock
    | none => pure none
  withoutFault (host.reconcileFault taskId)
  return ⟨lock, quarantine⟩

/-! ### Statements -/

def allocateExecutionLockFencingToken : Attempt (ExecutionLockFencingToken × ExecutionLockTables) := do
  require (tables.fencingCounter < 9007199254740991 ∧ isExecutionLockUuid tables.authorityEpoch)
    (lockError "Execution lock fencing token space is exhausted" "unknown" .mutationConflict)
  return (⟨tables.authorityEpoch, tables.fencingCounter + 1, host.nonce.text⟩,
    { tables with fencingCounter := tables.fencingCounter + 1 })

def insertExecutionLockActiveRow (lock : ExecutionLockInfo) : Attempt ExecutionLockTables := do
  require (tables.active.all fun other => other.taskId ≠ lock.taskId ∧ other.ownerId ≠ lock.ownerId
      ∧ other.fencingToken ≠ lock.fencingToken)
    failedClosed
  return { tables with active := tables.active ++ [lock] }

def requireActiveRow (lock : ExecutionLockInfo) (error : ExecutionLockError) : Attempt Unit :=
  require (tables.active.any fun row => executionLockGenerationEquals row lock) error

def updateExecutionLockActiveRow (lock : ExecutionLockInfo) : Attempt ExecutionLockTables := do
  requireActiveRow tables lock
    (lockError s!"Canonical execution authority ownership lost for task {lock.taskId}" lock.taskId
      .ownershipLost)
  return { tables with active := replaceRow (·.taskId) lock tables.active }

def advancesExecutionLock (previous candidate : ExecutionLockInfo) : Bool :=
  candidate.ownerId ≠ previous.ownerId
    && candidate.fencingToken.epoch = previous.fencingToken.epoch
    && previous.fencingToken.counter < candidate.fencingToken.counter
    && candidate.fencingToken.nonce ≠ previous.fencingToken.nonce

def transferExecutionLockActiveRow (previous candidate : ExecutionLockInfo) :
    Attempt ExecutionLockTables := do
  require (tables.active.contains previous)
    (lockError s!"Canonical execution authority transfer lost exact ownership for task {previous.taskId}"
      previous.taskId .ownershipLost)
  require (advancesExecutionLock previous candidate
      && tables.active.all fun other => other = previous
        ∨ (other.ownerId ≠ candidate.ownerId ∧ other.fencingToken ≠ candidate.fencingToken))
    failedClosed
  return { tables with active := replaceRow (·.taskId) candidate tables.active }

def deleteExecutionLockActiveRow (lock : ExecutionLockInfo) : Attempt ExecutionLockTables := do
  requireActiveRow tables lock
    (lockError s!"Canonical execution authority ownership lost for task {lock.taskId}" lock.taskId
      .ownershipLost)
  return { tables with active := deleteRow (·.taskId) lock.taskId tables.active }

def insertExecutionLockQuarantineRow (quarantine : ExecutionLockQuarantineInfo) :
    Attempt ExecutionLockTables := do
  require (tables.quarantine.all fun other => other.lock.taskId ≠ quarantine.lock.taskId
      ∧ other.quarantineId ≠ quarantine.quarantineId ∧ other.lock.ownerId ≠ quarantine.lock.ownerId
      ∧ other.lock.fencingToken ≠ quarantine.lock.fencingToken)
    failedClosed
  return { tables with quarantine := tables.quarantine ++ [quarantine] }

def auditsConflict (event other : ExecutionLockQuarantineAuditEvent) : Bool :=
  other.eventId = event.eventId
    || (other.quarantineId = event.quarantineId
      && match event.action with
        | .boundaryEntered => other.action = .boundaryEntered
        | .quarantined => other.action = .quarantined
        | .resumed => other.action = .resumed && other.fencingToken = event.fencingToken
        | .completed | .recovered => other.action = .completed || other.action = .recovered)

def appendExecutionLockQuarantineAudit (event : ExecutionLockQuarantineAuditEvent) :
    Attempt ExecutionLockTables := do
  require (!tables.quarantineAudit.any (auditsConflict event)) failedClosed
  return { tables with quarantineAudit := tables.quarantineAudit ++ [event] }

def requireQuarantineRow (previous : ExecutionLockQuarantineInfo) (error : ExecutionLockError) :
    Attempt Unit :=
  require (previous.state = .inFlight ∧ previous ∈ tables.quarantine) error

def transitionExecutionLockQuarantineRow (previous candidate : ExecutionLockQuarantineInfo) :
    Attempt ExecutionLockTables := do
  requireQuarantineRow tables previous
    (lockError s!"Execution quarantine transition lost exact authority for task {previous.lock.taskId}"
      previous.lock.taskId .ownershipLost)
  return { tables with quarantine := replaceRow (·.lock.taskId) candidate tables.quarantine }

def resumeExecutionLockQuarantineRow (previous candidate : ExecutionLockQuarantineInfo) :
    Attempt ExecutionLockTables := do
  requireQuarantineRow tables previous
    (lockError s!"Execution boundary resume lost exact authority for task {previous.lock.taskId}"
      previous.lock.taskId .ownershipLost)
  require (advancesExecutionLock previous.lock candidate.lock
      && tables.quarantine.all fun other => other = previous
        ∨ (other.lock.ownerId ≠ candidate.lock.ownerId
          ∧ other.lock.fencingToken ≠ candidate.lock.fencingToken))
    failedClosed
  return { tables with quarantine := replaceRow (·.lock.taskId) candidate tables.quarantine }

def deleteExecutionLockQuarantineRow (quarantine : ExecutionLockQuarantineInfo) :
    Attempt ExecutionLockTables := do
  require (tables.quarantine.contains quarantine)
    (lockError s!"Execution quarantine generation changed for task {quarantine.lock.taskId}"
      quarantine.lock.taskId .ownershipLost)
  return { tables with quarantine := deleteRow (·.lock.taskId) quarantine.lock.taskId tables.quarantine }

def appendExecutionLockActiveAdoptionAudit (audit : ExecutionLockActiveAdoptionAudit) :
    Attempt ExecutionLockTables := do
  -- The trigger wants the previous generation active and without a quarantine.
  require (tables.active.any (executionLockGenerationEquals · audit.previousLock)
      && tables.quarantine.all (·.lock.taskId ≠ audit.previousLock.taskId)
      && advancesExecutionLock audit.previousLock audit.adoptedLock
      && tables.activeAdoptionAudit.all fun other => other.eventId ≠ audit.eventId
        ∧ !executionLockGenerationEquals other.previousLock audit.previousLock
        ∧ !executionLockGenerationEquals other.adoptedLock audit.adoptedLock)
    failedClosed
  return { tables with activeAdoptionAudit := tables.activeAdoptionAudit ++ [audit] }

def createExecutionLockQuarantineAudit (action : ExecutionLockAuditAction)
    (quarantine : ExecutionLockQuarantineInfo) (payload : ExecutionLockAuditPayload) (occurredAt : Int)
    (eventId : RandomUuid) : ExecutionLockQuarantineAuditEvent where
  eventId := eventId.text
  action := action
  quarantineId := quarantine.quarantineId
  taskId := quarantine.lock.taskId
  ownerId := quarantine.lock.ownerId
  fencingToken := quarantine.lock.fencingToken
  occurredAt := occurredAt
  payload := payload

def assertExecutionLockFencingProgression (previous candidate : ExecutionLockFencingToken)
    (taskId : String) : Attempt Unit := do
  require ((parseExecutionLockFencingToken previous).isSome
      && (parseExecutionLockFencingToken candidate).isSome)
    (lockError "Execution lock fencing progression contains an invalid token" taskId .invalidInput)
  require (previous.epoch = candidate.epoch)
    (lockError "Execution lock fencing epochs are not comparable" taskId .authorityEpochMismatch)
  require (previous.counter < candidate.counter)
    (lockError "Execution lock fencing counter did not advance" taskId .authorityLost)

end Operations

end Deckent.ExecutionLock
