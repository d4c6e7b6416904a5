import Mathlib.Algebra.Order.Field.Rat
import Deckent.Lib.Sha256
import Deckent.Model.CanonicalJson

/-!
# What is true of a provider's limits

A snapshot tells what remains in each window of a provider's quota, and a policy tells how much of it must
be left. A reservation asks for an amount in each window, and its events tell what has become of it.

Numbers are rationals, so that none of them is infinite or `NaN`, and a time is kept in milliseconds, or as
`none` where its text is no canonical timestamp.
-/

namespace Deckent.ProviderLimit

abbrev Timestamp := Option Int

/-! ### Names -/

inductive ProviderLimitUnit where
  | percent
  | requests
  | tokens
  | credits
  | usd
  deriving DecidableEq

inductive ProviderLimitWindowKind where
  | session
  | weekAll
  | weekModel
  | rateWindow
  | billingWindow
  | custom
  deriving DecidableEq

inductive ProviderLimitSourceKind where
  | providerCli
  | providerApi
  | httpHeaders
  | historicalTranscript
  | localRuntime
  | operator
  deriving DecidableEq

inductive ProviderLimitDecision where
  | allow
  | hold
  deriving DecidableEq

inductive ProviderLimitPressure where
  | ok
  | warn
  | block
  | unknown
  deriving DecidableEq

inductive ProviderLimitReasonCode where
  | none
  | sourceUnknown
  | sourceUnavailable
  | incompleteWindows
  | thresholdBlock
  | thresholdObserved
  | remainingFloor
  | evidenceNotYetValid
  | evidenceExpired
  deriving DecidableEq

inductive InvocationEvidenceState where
  | known
  | unknown
  | stale
  | unavailable
  deriving DecidableEq

inductive InvocationAuthMode where
  | subscription
  | api
  | hybrid
  | local
  | unknown
  deriving DecidableEq

def InvocationAuthMode.text : InvocationAuthMode → String
  | subscription => "subscription"
  | api => "api"
  | hybrid => "hybrid"
  | «local» => "local"
  | unknown => "unknown"

inductive InvocationTransport where
  | cli
  | api
  | http
  | localRuntime
  deriving DecidableEq

def InvocationTransport.text : InvocationTransport → String
  | cli => "cli"
  | api => "api"
  | http => "http"
  | localRuntime => "local-runtime"

inductive InvocationExecutionBackend where
  | hostSubprocess
  | docker
  | tmux
  | api
  | inProcess
  | unknown
  deriving DecidableEq

/-! ### Records -/

structure ProviderLimitResetEvidence where
  isKnown : Bool
  at? : Option Timestamp
  displayRefHash : Option String
  deriving DecidableEq

structure ProviderLimitWindow where
  windowId : String
  kind : ProviderLimitWindowKind
  model : Option String
  unit : ProviderLimitUnit
  consumed : Option ℚ
  remaining : Option ℚ
  limit : Option ℚ
  reset : ProviderLimitResetEvidence
  deriving DecidableEq

structure MinimumRemaining where
  percent : Option ℚ
  requests : Option ℚ
  tokens : Option ℚ
  credits : Option ℚ
  usd : Option ℚ
  deriving DecidableEq

def MinimumRemaining.floor? (floors : MinimumRemaining) : ProviderLimitUnit → Option ℚ
  | .percent => floors.percent
  | .requests => floors.requests
  | .tokens => floors.tokens
  | .credits => floors.credits
  | .usd => floors.usd

inductive RatioEnforcement where
  | enforce
  | observeOnly
  deriving DecidableEq

structure ProviderLimitPolicy where
  policyRef : String
  ratioEnforcement : Option RatioEnforcement
  warnAtRatio : ℚ
  blockAtRatio : ℚ
  minimumRemaining : MinimumRemaining
  deriving DecidableEq

structure ProviderLimitBackend where
  transport : InvocationTransport
  executionBackend : InvocationExecutionBackend
  endpointRefHash : Option String
  deriving DecidableEq

structure ProviderLimitSnapshotQuery where
  tenantId : String
  provider : String
  accountRefHash : Option String
  quotaScopeRefHash : String
  authMode : InvocationAuthMode
  deriving DecidableEq

inductive SourceAuthority where
  | authoritative
  | advisory
  deriving DecidableEq

structure ProviderLimitSource where
  kind : ProviderLimitSourceKind
  authority : SourceAuthority
  operatorApprovalRef : Option String
  evidenceRef : String
  fetchedAt : Timestamp
  expiresAt : Timestamp
  incorporatedReservationEventRefs : List String
  deriving DecidableEq

structure ProviderLimitResult extends ProviderLimitSnapshotQuery where
  schemaVersion : Nat
  limitResultId : String
  idempotencyKey : String
  projectId : String
  backend : ProviderLimitBackend
  state : InvocationEvidenceState
  decision : ProviderLimitDecision
  pressure : ProviderLimitPressure
  reasonCode : ProviderLimitReasonCode
  requiredWindowIds : List String
  windows : List ProviderLimitWindow
  policy : ProviderLimitPolicy
  source : ProviderLimitSource
  evidenceRefs : List String
  deriving DecidableEq

structure WindowAmount where
  windowId : String
  unit : ProviderLimitUnit
  amount : ℚ
  deriving DecidableEq

structure ProviderLimitReservationRequest extends ProviderLimitSnapshotQuery where
  projectId : String
  reservationId : String
  idempotencyKey : String
  runId : String
  taskId : Option String
  callId : String
  attemptId : String
  fenceTokenHash : String
  receiptRef : String
  reachabilityEvidenceRef : String
  model : String
  backend : ProviderLimitBackend
  estimates : List WindowAmount
  estimateEvidenceRefs : List String
  leaseExpiresAt : Timestamp
  requestedAt : Timestamp
  deriving DecidableEq

inductive ProviderLimitReservationReason where
  | allowed
  | snapshotMissing
  | snapshotNotUsable
  | windowMissing
  | unitMismatch
  | modelMismatch
  | estimateScopeMismatch
  | leaseOutlivesSnapshot
  | policyBlock
  | insufficientRemaining
  deriving DecidableEq

structure ProviderLimitReservation extends ProviderLimitReservationRequest where
  snapshotEvidenceRef : Option String
  decision : ProviderLimitDecision
  reasonCode : ProviderLimitReservationReason
  effectiveRemaining : List (String × ℚ)
  appliedPolicy : ProviderLimitPolicy
  deriving DecidableEq

inductive ReservationEventType where
  | dispatched
  | consumed
  | released
  deriving DecidableEq

structure ProviderLimitReservationEvent where
  eventId : String
  type : ReservationEventType
  occurredAt : Timestamp
  fenceTokenHash : String
  evidenceRef : String
  terminationEvidenceRef : Option String
  terminationAuthorityRef : Option String
  actual : Option (List WindowAmount)
  deriving DecidableEq

/-! ### Checks -/

inductive ProviderLimitStoreErrorCode where
  | idempotencyConflict
  | integrityFailure
  | logicalWinnerExists
  | reservationNotFound
  | reservationSettled
  deriving DecidableEq

inductive ProviderLimitError where
  | truth (message : String)
  | store (code : ProviderLimitStoreErrorCode) (message : String) (evidenceRef : Option String)
  | sqlite (message : String)

structure TruthHost where
  runtime : JsonRuntime
  sha256 : String → String
  /-- `String.prototype.normalize('NFC')`. -/
  nfc : String → String
  /-- Whether `getLegacyModelMigration` finds the model. -/
  isLegacyModel : String → Bool

def require (condition : Bool) (message : String) : Except ProviderLimitError Unit :=
  if condition then .ok () else .error (.truth message)

def assertIdentity (name value : String) : Except ProviderLimitError Unit :=
  require (value ≠ "" && value = trim value) (name ++ " is required")

def assertIsoTimestamp (name : String) (value : Timestamp) : Except ProviderLimitError Int :=
  match value with
  | some time => .ok time
  | none => .error (.truth (name ++ " must be a canonical ISO timestamp"))

def isLowerAlpha (c : Char) : Bool := 'a' ≤ c && c ≤ 'z'

def isDecimal (c : Char) : Bool := '0' ≤ c && c ≤ '9'

def isAsciiAlnum (c : Char) : Bool := isLowerAlpha c || ('A' ≤ c && c ≤ 'Z') || isDecimal c

/-- `/^[a-z][a-z0-9-]{0,63}$/u`. -/
def isProviderId (text : String) : Bool :=
  match text.toList with
  | [] => false
  | first :: rest =>
      isLowerAlpha first && rest.length ≤ 63
        && rest.all fun c => isLowerAlpha c || isDecimal c || c = '-'

/-- `/^[a-z][a-z0-9._-]{2,95}$/u`. -/
def isWindowId (text : String) : Bool :=
  match text.toList with
  | [] => false
  | first :: rest =>
      isLowerAlpha first && 2 ≤ rest.length && rest.length ≤ 95
        && rest.all fun c => isLowerAlpha c || isDecimal c || c = '.' || c = '_' || c = '-'

/-- What `/^[a-z][a-z0-9-]*:/u` leaves of the text. -/
def afterScheme (text : String) : Option (List Char) :=
  match text.toList with
  | [] => none
  | first :: rest =>
      match rest.dropWhile fun c => isLowerAlpha c || isDecimal c || c = '-' with
      | ':' :: token => if isLowerAlpha first then some token else none
      | _ => none

def sha256Scheme : List Char := "sha256:".toList

def isOpaqueToken (token : List Char) : Bool :=
  8 ≤ token.length && token.length ≤ 160
    && token.all fun c => isAsciiAlnum c || c = '.' || c = '_' || c = '-'

def isContentAddress (token : List Char) : Bool :=
  token.take sha256Scheme.length = sha256Scheme
    && isSha256Text (String.ofList (token.drop sha256Scheme.length))

def hasAuthority : List Char → Bool
  | ':' :: '/' :: '/' :: _ => true
  | _ :: rest => hasAuthority rest
  | [] => false

def isOpaqueEvidenceRef (text : String) : Bool :=
  (utf16 text).length ≤ 192 && !hasAuthority text.toList
    && (afterScheme text).any fun token => isOpaqueToken token || isContentAddress token

def assertOpaqueSha256 (name : String) (value : Option String) (required : Bool) :
    Except ProviderLimitError Unit :=
  match value with
  | none => require (!required) (name ++ " is required for live proof")
  | some digest => require (isSha256Text digest) (name ++ " must be a SHA-256 digest")

def assertOpaqueEvidenceRef (name : String) (value : Option String) (required : Bool) :
    Except ProviderLimitError Unit :=
  match value with
  | none => require (!required) (name ++ " is required")
  | some ref => require (isOpaqueEvidenceRef ref) (name ++ " must be an opaque durable reference")

def assertWindowIdentity (windowId : String) : Except ProviderLimitError Unit :=
  require (isWindowId windowId) "Invalid provider limit window id"

def assertAll {α : Type} (check : α → Except ProviderLimitError Unit) :
    List α → Except ProviderLimitError Unit
  | [] => .ok ()
  | a :: rest => do
      check a
      assertAll check rest

section Assert

variable (host : TruthHost)

def requireNonEmpty (name value : String) : Except ProviderLimitError Unit :=
  require (value ≠ "" && value = trim value && value = host.nfc value
      && value.toList.all fun c => 0x20 ≤ c.toNat && c.toNat ≠ 0x7F)
    (name ++ " must be a non-empty canonical value")

def assertCanonicalModelApiId (model : String) : Except ProviderLimitError Unit := do
  requireNonEmpty host "model" model
  require ((utf16 model).length ≤ 256 && model.toList.all fun c => !isJsSpace c)
    "model must be a bounded exact API identity"
  require (!host.isLegacyModel model) s!"Legacy model alias is not a wire identity: {model}"

def assertCanonicalProviderId (provider : String) : Except ProviderLimitError Unit := do
  requireNonEmpty host "provider" provider
  require (isProviderId provider) "provider must be a canonical provider id"

def assertBackend (backend : ProviderLimitBackend) : Except ProviderLimitError Unit :=
  assertOpaqueSha256 "provider limit endpointRefHash" backend.endpointRefHash false

def textOrNull (value : Option String) : Json := (value.map Json.string).getD .null

def deriveProviderQuotaScopeRefHash (scope : ProviderLimitSnapshotQuery)
    (backend : ProviderLimitBackend) : String :=
  host.sha256 (host.runtime.stringify (.object [
    ("tenantId", .string scope.tenantId),
    ("provider", .string scope.provider),
    ("accountRefHash", textOrNull scope.accountRefHash),
    ("authMode", .string scope.authMode.text),
    ("transport", .string backend.transport.text),
    ("endpointRefHash", textOrNull backend.endpointRefHash)]))

def assertQuotaScope (scope : ProviderLimitSnapshotQuery) (backend : ProviderLimitBackend) :
    Except ProviderLimitError Unit := do
  assertOpaqueSha256 "quotaScopeRefHash" (some scope.quotaScopeRefHash) true
  require (scope.quotaScopeRefHash = deriveProviderQuotaScopeRefHash host scope backend)
    "Provider quota scope does not match its canonical account/endpoint identity"

def assertEstimate (estimate : WindowAmount) : Except ProviderLimitError Unit := do
  assertWindowIdentity estimate.windowId
  require (0 < estimate.amount) "Provider limit reservation amount must be positive"

def assertAmounts (check : WindowAmount → Except ProviderLimitError Unit) (duplicate : String) :
    List WindowAmount → List String → Except ProviderLimitError Unit
  | [], _ => .ok ()
  | amount :: rest, seen => do
      check amount
      require (!seen.contains amount.windowId) duplicate
      assertAmounts check duplicate rest (amount.windowId :: seen)

def assertProviderLimitReservationRequest (request : ProviderLimitReservationRequest) :
    Except ProviderLimitError Unit := do
  assertIdentity "tenantId" request.tenantId
  assertIdentity "projectId" request.projectId
  assertCanonicalProviderId host request.provider
  assertCanonicalModelApiId host request.model
  assertOpaqueSha256 "accountRefHash" request.accountRefHash (request.authMode ≠ .local)
  assertBackend request.backend
  assertQuotaScope host request.toProviderLimitSnapshotQuery request.backend
  assertIdentity "provider limit reservationId" request.reservationId
  assertIdentity "provider limit idempotencyKey" request.idempotencyKey
  assertIdentity "provider limit runId" request.runId
  assertAll (assertIdentity "provider limit taskId") request.taskId.toList
  assertIdentity "provider limit callId" request.callId
  assertIdentity "provider limit attemptId" request.attemptId
  assertOpaqueSha256 "provider limit fenceTokenHash" (some request.fenceTokenHash) true
  assertOpaqueEvidenceRef "provider limit receiptRef" (some request.receiptRef) true
  assertOpaqueEvidenceRef "provider limit reachabilityEvidenceRef"
    (some request.reachabilityEvidenceRef) true
  require (request.estimateEvidenceRefs ≠ []) "Provider limit reservation requires estimate evidence"
  assertAll (fun ref => assertOpaqueEvidenceRef "provider limit estimate evidenceRef" (some ref) true)
    request.estimateEvidenceRefs
  let requestedAt ← assertIsoTimestamp "provider limit requestedAt" request.requestedAt
  let leaseExpiresAt ← assertIsoTimestamp "provider limit leaseExpiresAt" request.leaseExpiresAt
  require (requestedAt < leaseExpiresAt) "Provider limit reservation lease is invalid"
  require (request.estimates ≠ []) "Provider limit reservation requires estimates"
  assertAmounts assertEstimate "Duplicate provider limit reservation window" request.estimates []

def assertFloor (floor : ℚ) : Except ProviderLimitError Unit :=
  require (0 ≤ floor) "Invalid provider limit remaining floor"

def MinimumRemaining.values (floors : MinimumRemaining) : List ℚ :=
  [floors.percent, floors.requests, floors.tokens, floors.credits, floors.usd].filterMap id

def assertPolicy (policy : ProviderLimitPolicy) : Except ProviderLimitError Unit := do
  assertOpaqueEvidenceRef "limit policyRef" (some policy.policyRef) true
  require (0 ≤ policy.warnAtRatio && policy.warnAtRatio < policy.blockAtRatio
      && policy.blockAtRatio ≤ 1) "Invalid provider limit policy thresholds"
  assertAll assertFloor policy.minimumRemaining.values

def assertRemaining (estimates : List WindowAmount) (entry : String × ℚ) :
    Except ProviderLimitError Unit :=
  require (estimates.any (·.windowId = entry.1) && 0 ≤ entry.2)
    "Provider limit reservation effective remaining is invalid"

def ProviderLimitReservation.covers (reservation : ProviderLimitReservation) (estimate : WindowAmount) :
    Bool :=
  (reservation.effectiveRemaining.lookup estimate.windowId).any (estimate.amount ≤ ·)

def assertProviderLimitReservation (reservation : ProviderLimitReservation) :
    Except ProviderLimitError Unit := do
  assertProviderLimitReservationRequest host reservation.toProviderLimitReservationRequest
  assertAll (fun ref => assertOpaqueEvidenceRef "provider limit snapshot evidenceRef" (some ref) true)
    reservation.snapshotEvidenceRef.toList
  assertPolicy reservation.appliedPolicy
  require (reservation.decision = .allow ↔ reservation.reasonCode = .allowed)
    "Provider limit reservation decision is inconsistent"
  require (reservation.reasonCode = .snapshotMissing ↔ reservation.snapshotEvidenceRef = none)
    "Provider limit reservation snapshot evidence is inconsistent"
  assertAll (assertRemaining reservation.estimates) reservation.effectiveRemaining
  require (reservation.decision ≠ .allow || reservation.estimates.all reservation.covers)
    "Allowed provider limit reservation exceeds effective remaining"

def assertActual (actual : WindowAmount) : Except ProviderLimitError Unit := do
  assertWindowIdentity actual.windowId
  require (0 ≤ actual.amount) "Actual provider limit usage must be non-negative"

def ProviderLimitReservationEvent.lacksTermination (event : ProviderLimitReservationEvent) : Bool :=
  event.terminationEvidenceRef.isNone && event.terminationAuthorityRef.isNone

def assertTermination (event : ProviderLimitReservationEvent) : Except ProviderLimitError Unit :=
  if event.type = .released then do
    assertOpaqueEvidenceRef "provider limit terminationEvidenceRef"
      (some (event.terminationEvidenceRef.getD "")) true
    assertOpaqueEvidenceRef "provider limit terminationAuthorityRef"
      (some (event.terminationAuthorityRef.getD "")) true
  else
    require event.lacksTermination
      "Consumed provider limit reservation cannot carry termination evidence"

def assertProviderLimitReservationEvent (event : ProviderLimitReservationEvent) :
    Except ProviderLimitError Unit := do
  assertIdentity "provider limit reservation eventId" event.eventId
  let _ ← assertIsoTimestamp "provider limit reservation occurredAt" event.occurredAt
  assertOpaqueSha256 "provider limit event fenceTokenHash" (some event.fenceTokenHash) true
  assertOpaqueEvidenceRef "provider limit event evidenceRef" (some event.evidenceRef) true
  require (event.type ≠ .released || event.actual.isNone)
    "Released provider limit reservation cannot carry actual usage"
  require (event.type ≠ .dispatched || event.actual.isNone && event.lacksTermination)
    "Dispatched provider limit reservation cannot carry settlement evidence"
  assertTermination event
  require (event.type ≠ .consumed || event.actual.any (· ≠ []))
    "Consumed provider limit reservation requires actual usage"
  assertAmounts assertActual "Duplicate actual provider limit window" (event.actual.getD []) []

/-! ### Windows -/

def assertFiniteNonNegative (name : String) (value : Option ℚ) : Except ProviderLimitError Unit :=
  require (value.all (0 ≤ ·)) (name ++ " must be null or a finite non-negative number")

def ProviderLimitWindow.completed (window : ProviderLimitWindow) : ProviderLimitWindow :=
  match window.consumed, window.remaining, window.limit with
  | some consumed, none, some limit => { window with remaining := some (max 0 (limit - consumed)) }
  | none, some remaining, some limit => { window with consumed := some (max 0 (limit - remaining)) }
  | some consumed, some remaining, none => { window with limit := some (consumed + remaining) }
  | _, _, _ => window

def ProviderLimitWindow.isConsistent (window : ProviderLimitWindow) : Bool :=
  match window.consumed, window.remaining, window.limit with
  | some consumed, some remaining, some limit =>
      |consumed + remaining - limit| ≤ max (1 / 10 ^ 9) (limit / 10 ^ 6)
  | _, _, _ => true

def assertReset (reset : ProviderLimitResetEvidence) : Except ProviderLimitError Unit :=
  match reset.isKnown, reset.at? with
  | true, none => .error (.truth "Known reset evidence requires an ISO timestamp")
  | true, some time => (assertIsoTimestamp "provider limit reset" time).map fun _ => ()
  | false, at? => require at?.isNone "Unknown reset evidence cannot carry a timestamp"

def normalizeWindow (input : ProviderLimitWindow) : Except ProviderLimitError ProviderLimitWindow := do
  assertWindowIdentity input.windowId
  require (input.kind ≠ .weekModel || input.model.isSome)
    "Model-specific provider limit windows require an exact model API ID"
  assertAll (assertCanonicalModelApiId host) input.model.toList
  assertFiniteNonNegative "consumed" input.consumed
  assertFiniteNonNegative "remaining" input.remaining
  assertFiniteNonNegative "limit" input.limit
  assertOpaqueSha256 "reset displayRefHash" input.reset.displayRefHash false
  assertReset input.reset
  let window := input.completed
  require window.isConsistent "Provider limit window values are inconsistent"
  require (input.unit ≠ .percent || window.limit.all (· = 100))
    "Percent windows must use a 100-point limit"
  return window

def isComplete (window : ProviderLimitWindow) : Bool :=
  window.consumed.isSome && window.remaining.isSome && window.limit.any (0 < ·)

structure WindowEvaluation where
  state : InvocationEvidenceState
  decision : ProviderLimitDecision
  pressure : ProviderLimitPressure
  reasonCode : ProviderLimitReasonCode
  deriving DecidableEq

/-- The loop of `evaluateKnownWindows` over the required windows. -/
def evaluateRequired (policy : ProviderLimitPolicy) :
    List ProviderLimitWindow → ProviderLimitPressure → WindowEvaluation
  | [], pressure =>
      ⟨.known, .allow, pressure, if pressure = .block then .thresholdObserved else .none⟩
  | window :: rest, pressure =>
      let remaining := window.remaining.getD 0
      let ratio := window.consumed.getD 0 / window.limit.getD 1
      if (policy.minimumRemaining.floor? window.unit).any (remaining ≤ ·) then
        ⟨.known, .hold, .block, .remainingFloor⟩
      else if policy.blockAtRatio ≤ ratio then
        if policy.ratioEnforcement.getD .enforce = .enforce then
          ⟨.known, .hold, .block, .thresholdBlock⟩
        else evaluateRequired policy rest .block
      else evaluateRequired policy rest
        (if policy.warnAtRatio ≤ ratio && pressure ≠ .block then .warn else pressure)

def findWindow (windows : List ProviderLimitWindow) (windowId : String) : Option ProviderLimitWindow :=
  windows.reverse.find? (·.windowId = windowId)

def evaluateKnownWindows (windows : List ProviderLimitWindow) (requiredWindowIds : List String)
    (policy : ProviderLimitPolicy) : WindowEvaluation :=
  if requiredWindowIds = [] || requiredWindowIds.any (fun id => !(findWindow windows id).any isComplete)
  then ⟨.unknown, .hold, .unknown, .incompleteWindows⟩
  else evaluateRequired policy (requiredWindowIds.filterMap (findWindow windows)) .ok

/-! ### Snapshots -/

def ProviderLimitResult.expected (result : ProviderLimitResult) : WindowEvaluation :=
  match result.state with
  | .stale => ⟨.stale, .hold, .unknown, .evidenceExpired⟩
  | .unavailable => ⟨.unavailable, .hold, .unknown, .sourceUnavailable⟩
  | state =>
      if state = .known ∧ result.source.authority = .authoritative then
        evaluateKnownWindows result.windows result.requiredWindowIds result.policy
      else ⟨.unknown, .hold, .unknown,
        match result.reasonCode with
        | .incompleteWindows => .incompleteWindows
        | .evidenceNotYetValid => .evidenceNotYetValid
        | _ => .sourceUnknown⟩

def ProviderLimitResult.evaluation (result : ProviderLimitResult) : WindowEvaluation :=
  ⟨result.state, result.decision, result.pressure, result.reasonCode⟩

def ProviderLimitResult.endsBeforeResets (result : ProviderLimitResult) (expiresAt : Int) : Bool :=
  result.windows.all fun window =>
    !(result.requiredWindowIds.contains window.windowId && window.reset.isKnown)
      || ((window.reset.at?.getD none).all (expiresAt ≤ ·))

def normalizeWindows : List ProviderLimitWindow → Except ProviderLimitError (List ProviderLimitWindow)
  | [] => .ok []
  | window :: rest => do
      let first ← normalizeWindow host window
      let others ← normalizeWindows rest
      return first :: others

/-- The checks on the source of a snapshot. -/
def assertSource (result : ProviderLimitResult) : Except ProviderLimitError Unit := do
  require (!(result.state = .known && (result.authMode = .unknown
      || result.backend.executionBackend = .unknown)))
    "Known provider limit evidence requires exact auth and execution backend"
  require (!(result.state = .known && result.backend.transport ≠ .cli
      && result.backend.endpointRefHash.isNone))
    "Known non-CLI limit evidence requires an endpoint scope"
  assertOpaqueEvidenceRef "provider limit operatorApprovalRef" result.source.operatorApprovalRef false
  require (!(result.source.kind = .operator && result.source.authority = .authoritative
      && result.source.operatorApprovalRef.isNone))
    "Authoritative operator limit evidence requires owner approval provenance"
  require (!(result.source.kind ≠ .operator && result.source.operatorApprovalRef.isSome))
    "Only operator limit evidence may carry owner approval provenance"
  require (!(result.source.kind = .historicalTranscript && result.source.authority ≠ .advisory))
    "Historical transcript evidence is advisory only"
  assertOpaqueEvidenceRef "limit source evidenceRef" (some result.source.evidenceRef) true
  assertAll (fun ref => assertOpaqueEvidenceRef "limit evidenceRef" (some ref) true) result.evidenceRefs
  assertAll (fun ref => assertOpaqueEvidenceRef "incorporated reservation eventRef" (some ref) true)
    result.source.incorporatedReservationEventRefs
  require (decide result.source.incorporatedReservationEventRefs.Nodup)
    "Duplicate incorporated reservation eventRef"

def assertProviderLimitResult (result : ProviderLimitResult) : Except ProviderLimitError Unit := do
  require (result.schemaVersion = 1) "Unsupported provider limit schema"
  assertIdentity "limitResultId" result.limitResultId
  assertIdentity "tenantId" result.tenantId
  assertIdentity "projectId" result.projectId
  assertIdentity "provider limit idempotencyKey" result.idempotencyKey
  assertCanonicalProviderId host result.provider
  assertOpaqueSha256 "accountRefHash" result.accountRefHash (result.authMode ≠ .local)
  assertBackend result.backend
  assertQuotaScope host result.toProviderLimitSnapshotQuery result.backend
  assertSource result
  assertPolicy result.policy
  let fetchedAt ← assertIsoTimestamp "provider limit fetchedAt" result.source.fetchedAt
  let expiresAt ← assertIsoTimestamp "provider limit expiresAt" result.source.expiresAt
  require (fetchedAt < expiresAt) "Provider limit source timestamps are invalid"
  require (decide result.requiredWindowIds.Nodup) "Duplicate required provider limit window id"
  assertAll assertWindowIdentity result.requiredWindowIds
  let windows ← normalizeWindows host result.windows
  require (decide (windows.map (·.windowId)).Nodup) "Duplicate provider limit window id"
  require (result.endsBeforeResets expiresAt)
    "Provider limit evidence cannot outlive a required window reset"
  require (windows = result.windows) "Provider limit windows must be persisted in normalized form"
  require (result.evaluation = result.expected)
    "Provider limit decision is inconsistent with durable evidence"

def ProviderLimitResult.evaluated (result : ProviderLimitResult) (evaluation : WindowEvaluation) :
    ProviderLimitResult :=
  { result with
    state := evaluation.state
    decision := evaluation.decision
    pressure := evaluation.pressure
    reasonCode := evaluation.reasonCode }

def applyProviderLimitPolicy (result : ProviderLimitResult) (policy : ProviderLimitPolicy) :
    Except ProviderLimitError ProviderLimitResult := do
  assertProviderLimitResult host result
  assertPolicy policy
  if result.state ≠ .known ∨ result.source.authority ≠ .authoritative then
    return { result with policy := policy }
  else
    let projected := { result.evaluated
      (evaluateKnownWindows result.windows result.requiredWindowIds policy) with policy := policy }
    assertProviderLimitResult host projected
    return projected

/-- `Date.parse` of a timestamp that has passed its check. -/
def Timestamp.ms (time : Timestamp) : Int := time.getD 0

def materializeProviderLimitResult (result : ProviderLimitResult) (now : Int) :
    Except ProviderLimitError ProviderLimitResult := do
  assertProviderLimitResult host result
  if now < Timestamp.ms result.source.fetchedAt then
    return result.evaluated ⟨.unknown, .hold, .unknown, .evidenceNotYetValid⟩
  else if now < Timestamp.ms result.source.expiresAt then return result
  else return result.evaluated ⟨.stale, .hold, .unknown, .evidenceExpired⟩

end Assert

end Deckent.ProviderLimit
