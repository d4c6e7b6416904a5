import Deckent.Model.Js

/-!
# Records of the execution-lock authority

A lock names its task, the runtime that holds it, its fencing token and its lease. A quarantine is a
durable boundary around one lock. Every transition of a quarantine and every adoption of a lock leaves
an audit record, and a reader parses each record again before it uses it.

A canonical timestamp is the text of an instant, so it is kept as the milliseconds of that instant. Two
texts are compared as texts: a year outside 0 to 9999 has a sign and six digits, and `+` and `-` come
before every digit.
-/

namespace Deckent.ExecutionLock

/-! ### Limits -/

def projectMaintenanceLockTaskId : String := "__deckent_project_maintenance__"
def defaultExecutionLockLeaseMs : Int := 30000
def maxExecutionLockLeaseMs : Int := 86400000
def maxExecutionLockTaskIdBytes : Nat := 512
def maxExecutionLockIdentityBytes : Nat := 128
def maxExecutionLockRecoveryOperatorBytes : Nat := 128
def maxExecutionLockRecoveryJustificationBytes : Nat := 2048
def maxExecutionLockEvidenceRefs : Nat := 16
def maxExecutionLockEvidenceRefBytes : Nat := 1024
def maxExecutionLockEvidenceTotalBytes : Nat := 8192
def maxExecutionLockBoundaryResumes : Nat := 1024
def maxExecutionLockActiveAdoptions : Nat := 1024
def maxExecutionLockRecoveryAttestationAgeMs : Int := 15 * 60 * 1000
def maxExecutionLockRecoveryFutureSkewMs : Int := 60 * 1000

/-! ### Texts -/

def isLowerHex (c : Char) : Bool := c.isDigit || ('a' ≤ c && c ≤ 'f')

def isHex (c : Char) : Bool := isLowerHex c || ('A' ≤ c && c ≤ 'F')

/-- `EXECUTION_LOCK_UUID_PATTERN`. -/
def isExecutionLockUuid (text : String) : Bool :=
  text.length = 36 && text.toList.zipIdx.all fun (c, position) =>
    if [8, 13, 18, 23].contains position then c = '-'
    else if position = 14 then '1' ≤ c && c ≤ '8'
    else if position = 19 then "89abAB".toList.contains c
    else isHex c

def isExecutionLockNonce (text : String) : Bool := text.length = 32 && text.toList.all isLowerHex

def isExecutionLockIdentity (text : String) : Bool :=
  1 ≤ text.length && text.length ≤ 128
    && text.toList.all fun c => c.isAlphanum || "._:-".toList.contains c

def isControl (c : Char) : Bool := c.toNat ≤ 0x1F || c.toNat = 0x7F

def validBoundedExecutionLockText (value : String) (maxBytes : Nat) : Bool :=
  value ≠ "" && value = trim value && !value.toList.any isControl && value.utf8ByteSize ≤ maxBytes

/-- The loop of `parseExecutionLockEvidenceRefs`, after a last entry and a total of bytes. -/
def evidenceRefsFollow (last : Option String) (totalBytes : Nat) : List String → Bool
  | [] => true
  | candidate :: rest =>
      let totalBytes' := totalBytes + candidate.utf8ByteSize
      validBoundedExecutionLockText candidate maxExecutionLockEvidenceRefBytes
        && last.all (fun ref => utf16 ref < utf16 candidate)
        && totalBytes' ≤ maxExecutionLockEvidenceTotalBytes
        && evidenceRefsFollow (some candidate) totalBytes' rest

def parseExecutionLockEvidenceRefs (value : List String) : Option (List String) :=
  if value.length ≤ maxExecutionLockEvidenceRefs ∧ evidenceRefsFollow none 0 value then some value
  else none

/-! ### Instants -/

def canonicalExecutionLockTimestamp (instant : Int) : Bool :=
  -8640000000000000 ≤ instant && instant ≤ 8640000000000000

def yearOf (instant : Int) : Int :=
  let day := instant / 86400000 + 719468
  let era := day / 146097
  let dayOfEra := day - era * 146097
  let yearOfEra := (dayOfEra - dayOfEra / 1460 + dayOfEra / 36524 - dayOfEra / 146096) / 365
  let dayOfYear := dayOfEra - (365 * yearOfEra + yearOfEra / 4 - yearOfEra / 100)
  -- The years of this count begin in March.
  yearOfEra + era * 400 + if (5 * dayOfYear + 2) / 153 < 10 then 0 else 1

def yearSign (instant : Int) : Nat :=
  if 253402300800000 ≤ instant then 0 else if instant < -62167219200000 then 1 else 2

def textBefore (left right : Int) : Bool :=
  if yearSign left ≠ yearSign right then yearSign left < yearSign right
  else if yearSign left = 1 ∧ yearOf left ≠ yearOf right then yearOf right < yearOf left
  else left < right

/-! ### Locks -/

inductive ExecutionLockActor where
  | dispatch
  | settlement
  | maintenance
  deriving DecidableEq

inductive ExecutionLockProcessState where
  | alive
  | dead
  | unknown
  | foreignHost
  deriving DecidableEq

def ExecutionLockProcessState.text : ExecutionLockProcessState → String
  | alive => "alive"
  | dead => "dead"
  | unknown => "unknown"
  | foreignHost => "foreign-host"

structure ExecutionLockRuntimeIdentity where
  hostInstanceId : String
  bootSessionId : String
  processSessionId : String
  deriving DecidableEq

structure ExecutionLockOwnerIdentity extends ExecutionLockRuntimeIdentity where
  pid : Int
  deriving DecidableEq

structure ExecutionLockFencingToken where
  epoch : String
  counter : Nat
  nonce : String
  deriving DecidableEq

structure ExecutionLockInfo extends ExecutionLockOwnerIdentity where
  taskId : String
  actor : ExecutionLockActor
  ownerId : String
  fencingToken : ExecutionLockFencingToken
  acquiredAt : Int
  renewedAt : Int
  leaseDurationMs : Int
  deriving DecidableEq

def isSafeInteger (value : Int) : Bool := value.natAbs < 2 ^ 53

def validExecutionLockIdentity (identity : ExecutionLockRuntimeIdentity) : Bool :=
  [identity.hostInstanceId, identity.bootSessionId, identity.processSessionId].all fun value =>
    value.utf8ByteSize ≤ maxExecutionLockIdentityBytes && isExecutionLockIdentity value

def parseExecutionLockFencingToken (token : ExecutionLockFencingToken) :
    Option ExecutionLockFencingToken :=
  if isExecutionLockUuid token.epoch ∧ isSafeInteger token.counter ∧ 0 < token.counter
      ∧ isExecutionLockNonce token.nonce then some token
  else none

/-- What `parseExecutionLock` tests. -/
structure ParsesAsLock (lock : ExecutionLockInfo) : Prop where
  taskId : lock.taskId ≠ "" ∧ lock.taskId.utf8ByteSize ≤ maxExecutionLockTaskIdBytes
  actor : lock.taskId = projectMaintenanceLockTaskId ↔ lock.actor = .maintenance
  ownerId : isExecutionLockUuid lock.ownerId
  pid : isSafeInteger lock.pid ∧ 0 < lock.pid
  identity : validExecutionLockIdentity lock.toExecutionLockRuntimeIdentity
  fencingToken : (parseExecutionLockFencingToken lock.fencingToken).isSome
  acquiredAt : canonicalExecutionLockTimestamp lock.acquiredAt
  renewedAt : canonicalExecutionLockTimestamp lock.renewedAt
  lease : isSafeInteger lock.leaseDurationMs ∧ 0 < lock.leaseDurationMs
    ∧ lock.leaseDurationMs ≤ maxExecutionLockLeaseMs
  renewed : lock.acquiredAt ≤ lock.renewedAt
  expires : isSafeInteger (lock.renewedAt + lock.leaseDurationMs)
    ∧ canonicalExecutionLockTimestamp (lock.renewedAt + lock.leaseDurationMs)

instance (lock : ExecutionLockInfo) : Decidable (ParsesAsLock lock) :=
  decidable_of_iff
    ((lock.taskId ≠ "" ∧ lock.taskId.utf8ByteSize ≤ maxExecutionLockTaskIdBytes)
      ∧ (lock.taskId = projectMaintenanceLockTaskId ↔ lock.actor = .maintenance)
      ∧ isExecutionLockUuid lock.ownerId ∧ (isSafeInteger lock.pid ∧ 0 < lock.pid)
      ∧ validExecutionLockIdentity lock.toExecutionLockRuntimeIdentity
      ∧ (parseExecutionLockFencingToken lock.fencingToken).isSome
      ∧ canonicalExecutionLockTimestamp lock.acquiredAt
      ∧ canonicalExecutionLockTimestamp lock.renewedAt
      ∧ (isSafeInteger lock.leaseDurationMs ∧ 0 < lock.leaseDurationMs
        ∧ lock.leaseDurationMs ≤ maxExecutionLockLeaseMs)
      ∧ lock.acquiredAt ≤ lock.renewedAt
      ∧ (isSafeInteger (lock.renewedAt + lock.leaseDurationMs)
        ∧ canonicalExecutionLockTimestamp (lock.renewedAt + lock.leaseDurationMs)))
    ⟨fun ⟨h1, h2, h3, h4, h5, h6, h7, h8, h9, h10, h11⟩ => ⟨h1, h2, h3, h4, h5, h6, h7, h8, h9, h10, h11⟩,
      fun ⟨h1, h2, h3, h4, h5, h6, h7, h8, h9, h10, h11⟩ => ⟨h1, h2, h3, h4, h5, h6, h7, h8, h9, h10, h11⟩⟩

def parseExecutionLock (lock : ExecutionLockInfo) (expectedTaskId : Option String) :
    Option ExecutionLockInfo :=
  if ParsesAsLock lock ∧ expectedTaskId.all (lock.taskId = ·) then some lock else none

def executionLockGenerationEquals (left right : ExecutionLockInfo) : Bool :=
  left.taskId = right.taskId && left.ownerId = right.ownerId && left.fencingToken = right.fencingToken

def executionLockIsExactRenewalOf (previous candidate : ExecutionLockInfo) : Bool :=
  previous.taskId = candidate.taskId
    && previous.actor = candidate.actor
    && previous.ownerId = candidate.ownerId
    && previous.toExecutionLockOwnerIdentity = candidate.toExecutionLockOwnerIdentity
    && previous.fencingToken = candidate.fencingToken
    && previous.acquiredAt = candidate.acquiredAt
    && previous.leaseDurationMs = candidate.leaseDurationMs
    && previous.renewedAt ≤ candidate.renewedAt

/-! ### Quarantines -/

inductive ExecutionLockQuarantineReason where
  | irreversibleBoundary
  | partialMutation
  | heartbeatFault
  | releaseFault
  | authorityUncertain
  | legacyV2Active
  deriving DecidableEq

inductive ExecutionLockQuarantineState where
  | inFlight
  | quarantined
  deriving DecidableEq

def ExecutionLockQuarantineState.text : ExecutionLockQuarantineState → String
  | inFlight => "in-flight"
  | quarantined => "quarantined"

structure ExecutionLockQuarantineInfo where
  quarantineId : String
  lock : ExecutionLockInfo
  state : ExecutionLockQuarantineState
  reason : ExecutionLockQuarantineReason
  evidenceRefs : List String
  enteredAt : Int
  quarantinedAt : Option Int
  deriving DecidableEq

def quarantineStateMatches (quarantine : ExecutionLockQuarantineInfo) : Bool :=
  match quarantine.state, quarantine.quarantinedAt with
  | .inFlight, quarantinedAt => quarantine.reason = .irreversibleBoundary ∧ quarantinedAt = none
  | .quarantined, some quarantinedAt =>
      quarantine.reason ≠ .irreversibleBoundary ∧ canonicalExecutionLockTimestamp quarantinedAt
        ∧ quarantine.enteredAt ≤ quarantinedAt
  | .quarantined, none => false

def parseExecutionLockQuarantine (quarantine : ExecutionLockQuarantineInfo)
    (expectedTaskId : Option String) : Option ExecutionLockQuarantineInfo :=
  if isExecutionLockUuid quarantine.quarantineId
      ∧ canonicalExecutionLockTimestamp quarantine.enteredAt
      ∧ (parseExecutionLock quarantine.lock expectedTaskId).isSome
      ∧ (parseExecutionLockEvidenceRefs quarantine.evidenceRefs).isSome
      ∧ quarantineStateMatches quarantine
  then some quarantine else none

/-! ### Audits -/

structure ExecutionLockBoundaryCompletion where
  quarantineId : String
  fencingToken : ExecutionLockFencingToken
  evidenceRefs : List String
  completedAt : Int
  deriving DecidableEq

structure ExecutionLockBoundaryResumeAttestation where
  quarantineId : String
  previousLock : ExecutionLockInfo
  resumedLock : ExecutionLockInfo
  evidenceRefs : List String
  resumedAt : Int
  deriving DecidableEq

structure ExecutionLockRecoveryAttestation where
  quarantineId : String
  fencingToken : ExecutionLockFencingToken
  operatorId : String
  justification : String
  evidenceRefs : List String
  attestedAt : Int
  deriving DecidableEq

structure ExecutionLockActiveAdoptionAudit where
  eventId : String
  previousLock : ExecutionLockInfo
  adoptedLock : ExecutionLockInfo
  evidenceRefs : List String
  adoptedAt : Int
  deriving DecidableEq

inductive ExecutionLockAuditAction where
  | boundaryEntered
  | resumed
  | quarantined
  | completed
  | recovered
  deriving DecidableEq

inductive ExecutionLockAuditPayload where
  | quarantine (payload : ExecutionLockQuarantineInfo)
  | resume (payload : ExecutionLockBoundaryResumeAttestation)
  | completion (payload : ExecutionLockBoundaryCompletion)
  | recovery (payload : ExecutionLockRecoveryAttestation)
  deriving DecidableEq

structure ExecutionLockQuarantineAuditEvent where
  eventId : String
  action : ExecutionLockAuditAction
  quarantineId : String
  taskId : String
  ownerId : String
  fencingToken : ExecutionLockFencingToken
  occurredAt : Int
  payload : ExecutionLockAuditPayload
  deriving DecidableEq

def parsesAsSuccession (previousLock nextLock : ExecutionLockInfo) (evidenceRefs : List String)
    (occurredAt : Int) : Bool :=
  (parseExecutionLock previousLock none).isSome
    && (parseExecutionLock nextLock none).isSome
    && (parseExecutionLockEvidenceRefs evidenceRefs).isSome
    && evidenceRefs ≠ []
    && previousLock.taskId = nextLock.taskId
    && previousLock.actor = nextLock.actor
    && previousLock.ownerId ≠ nextLock.ownerId
    && previousLock.fencingToken.epoch = nextLock.fencingToken.epoch
    && previousLock.fencingToken.counter < nextLock.fencingToken.counter
    && previousLock.fencingToken.nonce ≠ nextLock.fencingToken.nonce
    && nextLock.acquiredAt = occurredAt
    && nextLock.renewedAt = occurredAt
    && previousLock.renewedAt ≤ occurredAt

def parseExecutionLockBoundaryCompletion (completion : ExecutionLockBoundaryCompletion) :
    Option ExecutionLockBoundaryCompletion :=
  if isExecutionLockUuid completion.quarantineId
      ∧ canonicalExecutionLockTimestamp completion.completedAt
      ∧ (parseExecutionLockFencingToken completion.fencingToken).isSome
      ∧ (parseExecutionLockEvidenceRefs completion.evidenceRefs).isSome
      ∧ completion.evidenceRefs ≠ [] then some completion
  else none

def parseExecutionLockBoundaryResumeAttestation
    (attestation : ExecutionLockBoundaryResumeAttestation) :
    Option ExecutionLockBoundaryResumeAttestation :=
  if isExecutionLockUuid attestation.quarantineId
      ∧ canonicalExecutionLockTimestamp attestation.resumedAt
      ∧ parsesAsSuccession attestation.previousLock attestation.resumedLock attestation.evidenceRefs
        attestation.resumedAt then some attestation
  else none

def parseExecutionLockActiveAdoptionAudit (audit : ExecutionLockActiveAdoptionAudit) :
    Option ExecutionLockActiveAdoptionAudit :=
  if isExecutionLockUuid audit.eventId
      ∧ canonicalExecutionLockTimestamp audit.adoptedAt
      ∧ parsesAsSuccession audit.previousLock audit.adoptedLock audit.evidenceRefs audit.adoptedAt
  then some audit else none

def parseExecutionLockRecoveryAttestationPayload (attestation : ExecutionLockRecoveryAttestation) :
    Option ExecutionLockRecoveryAttestation :=
  if isExecutionLockUuid attestation.quarantineId
      ∧ validBoundedExecutionLockText attestation.operatorId maxExecutionLockRecoveryOperatorBytes
      ∧ isExecutionLockIdentity attestation.operatorId
      ∧ validBoundedExecutionLockText attestation.justification
        maxExecutionLockRecoveryJustificationBytes
      ∧ canonicalExecutionLockTimestamp attestation.attestedAt
      ∧ (parseExecutionLockFencingToken attestation.fencingToken).isSome
      ∧ (parseExecutionLockEvidenceRefs attestation.evidenceRefs).isSome
      ∧ attestation.evidenceRefs ≠ [] then some attestation
  else none

/-- The tests of `parseExecutionLockQuarantineAudit` that depend on the action. -/
def auditPayloadMatches (event : ExecutionLockQuarantineAuditEvent) : Bool :=
  match event.action, event.payload with
  | .boundaryEntered, .quarantine payload =>
      (parseExecutionLockQuarantine payload event.taskId).isSome
        && payload.quarantineId = event.quarantineId
        && payload.lock.ownerId = event.ownerId
        && payload.lock.fencingToken = event.fencingToken
        && payload.state = .inFlight
        && payload.lock.acquiredAt ≤ payload.enteredAt
  | .quarantined, .quarantine payload =>
      (parseExecutionLockQuarantine payload event.taskId).isSome
        && payload.quarantineId = event.quarantineId
        && payload.lock.ownerId = event.ownerId
        && payload.lock.fencingToken = event.fencingToken
        && payload.state = .quarantined
  | .resumed, .resume payload =>
      (parseExecutionLockBoundaryResumeAttestation payload).isSome
        && payload.quarantineId = event.quarantineId
        && payload.resumedLock.taskId = event.taskId
        && payload.resumedLock.ownerId = event.ownerId
        && payload.resumedLock.fencingToken = event.fencingToken
  | .completed, .completion payload =>
      (parseExecutionLockBoundaryCompletion payload).isSome
        && payload.quarantineId = event.quarantineId
        && payload.fencingToken = event.fencingToken
  | .recovered, .recovery payload =>
      (parseExecutionLockRecoveryAttestationPayload payload).isSome
        && payload.quarantineId = event.quarantineId
        && payload.fencingToken = event.fencingToken
  | _, _ => false

def parseExecutionLockQuarantineAudit (event : ExecutionLockQuarantineAuditEvent) :
    Option ExecutionLockQuarantineAuditEvent :=
  if isExecutionLockUuid event.eventId
      ∧ isExecutionLockUuid event.quarantineId
      ∧ event.taskId ≠ "" ∧ event.taskId.utf8ByteSize ≤ maxExecutionLockTaskIdBytes
      ∧ isExecutionLockUuid event.ownerId
      ∧ canonicalExecutionLockTimestamp event.occurredAt
      ∧ (parseExecutionLockFencingToken event.fencingToken).isSome
      ∧ auditPayloadMatches event then some event
  else none

end Deckent.ExecutionLock
