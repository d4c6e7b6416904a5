import Deckent.Model.RunFlowStore

/-!
# Start attempts

Before a run is started, the store reserves a generation of its flow for the start. The journal keeps
every state that a generation went through, a row of identities binds the generation to its attempt id
and to the idempotency key of its tenant, and a later generation has a recovery manifest that names the
settlement of the one before it. Four operations write these tables, each in one transaction.

The tables are lists of rows in the order of their insertion. The serialised form of a record stands for
the record itself. The clock's parser and the two hashes are parameters.
-/

namespace Deckent.RunFlow

/-! ### Records -/

inductive StartAttemptState where
  | prepared
  | processSpawned
  | admitted
  | completed
  | failed
  | cancelled
  | blocked
  | unknown
  deriving DecidableEq

def StartAttemptState.text : StartAttemptState → String
  | prepared => "PREPARED"
  | processSpawned => "PROCESS_SPAWNED"
  | admitted => "ADMITTED"
  | completed => "COMPLETED"
  | failed => "FAILED"
  | cancelled => "CANCELLED"
  | blocked => "BLOCKED"
  | unknown => "UNKNOWN"

def isTerminalStartAttemptState : StartAttemptState → Bool
  | .completed | .failed | .cancelled | .blocked | .unknown => true
  | .prepared | .processSpawned | .admitted => false

inductive IdentityEvidence where
  | verified
  | unavailable
  deriving DecidableEq

structure StartAttemptProcessIdentity where
  pid : JsNumber
  startToken : Option String
  evidence : IdentityEvidence
  deriving DecidableEq

structure StartAttemptOwner where
  process : StartAttemptProcessIdentity
  ownerNonce : String
  leaseUntil : String
  deriving DecidableEq

structure StartAttemptLineage where
  tenantId : String
  projectId : String
  actor : ActorContext
  origin : RequestOrigin
  correlationId : String
  idempotencyKey : String
  parentPlanLineageHash : String
  parentCorrelationId : String
  authorizationAuthority : String
  causationId : Option String := none
  sourceId : Option String := none
  deriving DecidableEq

structure StartAttemptSettlement where
  state : StartAttemptState
  code : String
  detail : Option String := none
  settledAt : String
  deriving DecidableEq

structure StartAttemptRecord where
  flowId : String
  revision : JsNumber
  planDigest : String
  generation : Nat
  attemptId : String
  state : StartAttemptState
  createdAt : String
  updatedAt : String
  lineage : StartAttemptLineage
  owner : StartAttemptOwner
  process : Option StartAttemptProcessIdentity := none
  handle : Option RunHandle := none
  settlement : Option StartAttemptSettlement := none
  deriving DecidableEq

structure RunFlowRecoveryManifest where
  flowId : String
  generation : Nat
  attemptId : String
  predecessorGeneration : Nat
  predecessorAttemptId : String
  predecessorState : StartAttemptState
  predecessorSettlement : StartAttemptSettlement
  recordedAt : String
  deriving DecidableEq

/-! ### Tables -/

/-- A row of `run_flow_start_attempt_identities`. -/
structure StartAttemptIdentityRow where
  flowId : String
  generation : Nat
  attemptId : String
  revision : JsNumber
  planDigest : String
  tenantId : String
  correlationId : String
  idempotencyKey : String
  lineageHash : String
  createdAt : String
  deriving DecidableEq

/-- A row of `run_flow_start_attempt_journal`. The columns that repeat a field of the record and that no
query reads are left out. -/
structure StartAttemptJournalRow where
  flowId : String
  generation : Nat
  sequence : Nat
  attemptId : String
  payload : StartAttemptRecord
  deriving DecidableEq

/-- A row of `run_flow_recovery_manifests`. -/
structure RecoveryManifestRow where
  flowId : String
  generation : Nat
  attemptId : String
  payload : RunFlowRecoveryManifest
  recordedAt : String
  deriving DecidableEq

/-- A row of `run_flow_records` of kind `handle`, as an admission writes it. -/
structure HandleRow where
  flowId : String
  ordinal : Nat
  revision : JsNumber
  planDigest : String
  handle : RunHandle
  startedAt : String
  pid : JsNumber
  startToken : Option String
  gitBase : Option String
  deriving DecidableEq

structure StartAttemptTables where
  identities : List StartAttemptIdentityRow := []
  journal : List StartAttemptJournalRow := []
  manifests : List RecoveryManifestRow := []
  handles : List HandleRow := []

/-- What the tables take from outside. -/
structure HostFunctions where
  /-- `Date.parse`, in milliseconds; `none` is `NaN`. -/
  dateParse : String → Option Int
  /-- `startAttemptLineageHash`. -/
  lineageHash : StartAttemptLineage → String
  /-- `hashPayload` on settlements. -/
  settlementHash : StartAttemptSettlement → String

/-! ### Inputs -/

structure ExpectedPrevious where
  generation : JsNumber
  attemptId : String
  deriving DecidableEq

structure PrepareStartAttemptInput where
  flowId : String
  revision : JsNumber
  planDigest : String
  attemptId : String
  preparedAt : String
  lineage : StartAttemptLineage
  owner : StartAttemptOwner
  expectedPrevious : Option ExpectedPrevious := none

structure StartAttemptCas where
  flowId : String
  revision : JsNumber
  planDigest : String
  generation : JsNumber
  attemptId : String
  ownerNonce : String

structure RecordStartAttemptProcessInput extends StartAttemptCas where
  process : StartAttemptProcessIdentity
  spawnedAt : String

structure AdmitStartAttemptInput extends StartAttemptCas where
  process : StartAttemptProcessIdentity
  handle : RunHandle
  admittedAt : String
  gitBase : Option String := none

inductive SettlementAuthority where
  | ownerCapability
  | effectUnknown
  | processRecovery (observedAt : String)
  | preparerRecovery (observedAt : String)
  deriving DecidableEq

structure SettleStartAttemptInput extends StartAttemptCas where
  settlement : StartAttemptSettlement
  authority : SettlementAuthority

structure StartAttemptResult where
  applied : Bool
  attempt : StartAttemptRecord
  deriving DecidableEq

/-! ### Checks of the inputs -/

def refusal (code : RunFlowStoreErrorCode) (message : String) : RunFlowStoreError :=
  { code := code, message := "run-flow-store: " ++ message, canonicalCommitState := .notCommitted }

def check (holds : Bool) (code : RunFlowStoreErrorCode) (message : String) :
    Except RunFlowStoreError Unit :=
  if holds then .ok () else .error (refusal code message)

def assertNonEmptyBounded (value label : String) : Except RunFlowStoreError Unit :=
  check (trim value ≠ "" ∧ (utf16 value).length ≤ 4096) .canonicalWriteFailed
    (label ++ " must be non-empty and at most 4096 characters")

def assertTimestamp (host : HostFunctions) (value label : String) : Except RunFlowStoreError Unit :=
  check (trim value ≠ "" ∧ (host.dateParse value).isSome) .canonicalWriteFailed
    (label ++ " must be an ISO-8601 timestamp")

def assertRevision (revision : JsNumber) : Except RunFlowStoreError Unit :=
  check revision.isPositiveSafeInteger .canonicalWriteFailed
    "start-attempt revision must be a positive safe integer"

def assertStartAttemptCas (cas : StartAttemptCas) : Except RunFlowStoreError Unit := do
  assertNonEmptyBounded cas.flowId "start-attempt flowId"
  assertNonEmptyBounded cas.planDigest "start-attempt planDigest"
  assertNonEmptyBounded cas.attemptId "start-attempt attemptId"
  assertNonEmptyBounded cas.ownerNonce "start-attempt ownerNonce"
  assertRevision cas.revision
  check cas.generation.isPositiveSafeInteger .canonicalWriteFailed
    "start-attempt generation must be a positive safe integer"

def assertProcessIdentity (identity : StartAttemptProcessIdentity) (label : String) :
    Except RunFlowStoreError Unit := do
  check identity.pid.isPositiveSafeInteger .canonicalWriteFailed
    (label ++ " pid must be a positive safe integer")
  match identity.evidence, identity.startToken with
  | .verified, none =>
      .error (refusal .canonicalWriteFailed
        (label ++ " verified identity requires a start token"))
  | .verified, some startToken => assertNonEmptyBounded startToken (label ++ " startToken")
  | .unavailable, some _ =>
      .error (refusal .canonicalWriteFailed
        (label ++ " unavailable identity must carry a null start token"))
  | .unavailable, none => .ok ()

def assertStartAttemptOwner (host : HostFunctions) (owner : StartAttemptOwner) :
    Except RunFlowStoreError Unit := do
  assertProcessIdentity owner.process "start-attempt owner"
  assertNonEmptyBounded owner.ownerNonce "start-attempt ownerNonce"
  assertTimestamp host owner.leaseUntil "start-attempt leaseUntil"

def assertOptional (value : Option String) (label : String) : Except RunFlowStoreError Unit :=
  match value with
  | some value => assertNonEmptyBounded value label
  | none => .ok ()

def assertStartAttemptLineage (lineage : StartAttemptLineage) : Except RunFlowStoreError Unit := do
  assertNonEmptyBounded lineage.tenantId "start-attempt tenantId"
  assertNonEmptyBounded lineage.projectId "start-attempt projectId"
  assertNonEmptyBounded lineage.correlationId "start-attempt correlationId"
  assertNonEmptyBounded lineage.idempotencyKey "start-attempt idempotencyKey"
  assertNonEmptyBounded lineage.parentPlanLineageHash "start-attempt parentPlanLineageHash"
  assertNonEmptyBounded lineage.parentCorrelationId "start-attempt parentCorrelationId"
  assertNonEmptyBounded lineage.authorizationAuthority "start-attempt authorizationAuthority"
  assertNonEmptyBounded lineage.actor.id "start-attempt actor.id"
  assertOptional lineage.causationId "start-attempt causationId"
  assertOptional lineage.sourceId "start-attempt sourceId"

/-! ### Queries -/

namespace StartAttemptTables

def latestBySequence (rows : List StartAttemptJournalRow) : Option StartAttemptRecord :=
  (sortBy (fun a b => compareNumber b.sequence a.sequence) rows).head?.map
    StartAttemptJournalRow.payload

def startAttemptByGenerationInDb (tables : StartAttemptTables) (flowId : String) (generation : Nat) :
    Option StartAttemptRecord :=
  latestBySequence (tables.journal.filter fun row =>
    row.flowId = flowId && row.generation = generation)

def latestStartAttemptInDb (tables : StartAttemptTables) (flowId : String) :
    Option StartAttemptRecord :=
  (sortBy
      (fun a b => thenBy (compareNumber b.generation a.generation)
        (compareNumber b.sequence a.sequence))
    (tables.journal.filter fun row => row.flowId = flowId)).head?.map StartAttemptJournalRow.payload

def startAttemptByIdInDb (tables : StartAttemptTables) (attemptId : String) :
    Option StartAttemptRecord :=
  latestBySequence (tables.journal.filter fun row => row.attemptId = attemptId)

def startAttemptByIdempotencyInDb (tables : StartAttemptTables) (tenantId idempotencyKey : String) :
    Option StartAttemptRecord :=
  (tables.identities.find? fun identity =>
      identity.tenantId = tenantId && identity.idempotencyKey = idempotencyKey).bind
    fun identity => tables.startAttemptByGenerationInDb identity.flowId identity.generation

/-- The test of a manifest by itself. What the types of its fields exclude is left out. -/
def isWellFormedManifest (host : HostFunctions) (row : RecoveryManifestRow) : Bool :=
  let manifest := row.payload
  let settlement := manifest.predecessorSettlement
  manifest.flowId = row.flowId
    && manifest.generation = row.generation
    && manifest.attemptId = row.attemptId
    && manifest.recordedAt = row.recordedAt
    && (JsNumber.finite manifest.generation).isSafeInteger
    && 1 < manifest.generation
    && (JsNumber.finite manifest.predecessorGeneration).isSafeInteger
    && manifest.predecessorGeneration = manifest.generation - 1
    && trim manifest.predecessorAttemptId ≠ ""
    && isTerminalStartAttemptState manifest.predecessorState
    && settlement.state = manifest.predecessorState
    && trim settlement.code ≠ ""
    && (host.dateParse settlement.settledAt).isSome
    && (host.dateParse manifest.recordedAt).isSome

def bindsManifest (host : HostFunctions) (tables : StartAttemptTables)
    (manifest : RunFlowRecoveryManifest) (flowId : String) (generation : Nat) : Bool :=
  let currentIdentity := tables.identities.find? fun identity =>
    identity.flowId = flowId && identity.generation = generation
  currentIdentity.map StartAttemptIdentityRow.attemptId = some manifest.attemptId
    && (tables.startAttemptByGenerationInDb manifest.flowId manifest.predecessorGeneration).any
      fun predecessor =>
        predecessor.attemptId = manifest.predecessorAttemptId
          && predecessor.state = manifest.predecessorState
          && predecessor.settlement.any fun settlement =>
            host.settlementHash settlement = host.settlementHash manifest.predecessorSettlement

def recoveryManifestForGenerationInDb (host : HostFunctions) (tables : StartAttemptTables)
    (flowId : String) (generation : Nat) :
    Except RunFlowStoreError (Option RunFlowRecoveryManifest) :=
  match tables.manifests.find? fun row => row.flowId = flowId && row.generation = generation with
  | none => .ok none
  | some row => do
      check (isWellFormedManifest host row) .corruptRecord
        ("recovery manifest for flow '" ++ flowId ++ "' generation " ++ toString generation
          ++ " is structurally invalid")
      check (tables.bindsManifest host row.payload flowId generation)
        .startAttemptRecoveryManifestConflict
        ("recovery manifest binding conflicts with canonical attempt authority for flow '" ++ flowId
          ++ "' generation " ++ toString generation)
      .ok (some row.payload)

def requireRecoveryManifestForAttemptInDb (host : HostFunctions) (tables : StartAttemptTables)
    (attempt : StartAttemptRecord) : Except RunFlowStoreError Unit := do
  match ← tables.recoveryManifestForGenerationInDb host attempt.flowId attempt.generation with
  | none =>
      .error (refusal .startAttemptRecoveryManifestMissing
        ("generation " ++ toString attempt.generation ++ " for flow '" ++ attempt.flowId
          ++ "' has no durable recovery manifest"))
  | some manifest =>
      check (manifest.attemptId = attempt.attemptId) .startAttemptRecoveryManifestConflict
        ("recovery manifest does not bind attempt '" ++ attempt.attemptId ++ "'")

def requireFence (host : HostFunctions) (tables : StartAttemptTables) (attempt : StartAttemptRecord) :
    Except RunFlowStoreError Unit :=
  if 1 < attempt.generation then tables.requireRecoveryManifestForAttemptInDb host attempt else .ok ()

def assertAttemptMatches (actual : Option StartAttemptRecord) (expected : StartAttemptCas) :
    Except RunFlowStoreError StartAttemptRecord :=
  match actual with
  | none =>
      .error (refusal .startAttemptNotFound
        ("start attempt '" ++ expected.attemptId ++ "' was not found"))
  | some actual => do
      check (actual.flowId = expected.flowId
          && actual.revision = expected.revision
          && actual.planDigest = expected.planDigest
          && JsNumber.finite actual.generation = expected.generation
          && actual.attemptId = expected.attemptId
          && actual.owner.ownerNonce = expected.ownerNonce)
        .startAttemptCasMismatch
        ("start attempt '" ++ expected.attemptId ++ "' does not match its expected exact-plan CAS")
      .ok actual

def assertLatestAttemptGeneration (host : HostFunctions) (tables : StartAttemptTables)
    (expected : StartAttemptCas) : Except RunFlowStoreError StartAttemptRecord := do
  let byId ← assertAttemptMatches (tables.startAttemptByIdInDb expected.attemptId) expected
  -- the generations of `byId` and `expected` agree here
  check ((tables.latestStartAttemptInDb expected.flowId).any fun latest =>
      JsNumber.finite latest.generation = expected.generation && latest.attemptId = expected.attemptId)
    .startAttemptCasMismatch
    ("generation " ++ toString byId.generation ++ " is no longer current for flow '"
      ++ expected.flowId ++ "'")
  tables.requireFence host byId
  .ok byId

/-! ### Writes -/

def insertIdentity (tables : StartAttemptTables) (row : StartAttemptIdentityRow) (failure : String) :
    Except RunFlowStoreError StartAttemptTables := do
  check (0 < row.generation
      && tables.identities.all fun other =>
        (other.flowId ≠ row.flowId || other.generation ≠ row.generation)
          && other.attemptId ≠ row.attemptId
          && (other.tenantId ≠ row.tenantId || other.idempotencyKey ≠ row.idempotencyKey))
    .canonicalWriteFailed failure
  .ok { tables with identities := tables.identities ++ [row] }

/-- The constraints of the manifest table. -/
def insertManifest (tables : StartAttemptTables) (manifest : RunFlowRecoveryManifest)
    (failure : String) : Except RunFlowStoreError StartAttemptTables := do
  check (1 < manifest.generation
      && (tables.manifests.all fun other =>
        (other.flowId ≠ manifest.flowId || other.generation ≠ manifest.generation)
          && other.attemptId ≠ manifest.attemptId)
      && tables.identities.any fun identity =>
        identity.flowId = manifest.flowId && identity.generation = manifest.generation
          && identity.attemptId = manifest.attemptId)
    .canonicalWriteFailed failure
  .ok { tables with manifests := tables.manifests ++ [{
    flowId := manifest.flowId
    generation := manifest.generation
    attemptId := manifest.attemptId
    payload := manifest
    recordedAt := manifest.recordedAt }] }

def journalHead (tables : StartAttemptTables) (flowId : String) (generation : Nat) : Nat :=
  ((tables.journal.filter fun row => row.flowId = flowId && row.generation = generation).map
    StartAttemptJournalRow.sequence).foldl max 0

def appendStartAttemptState (tables : StartAttemptTables) (record : StartAttemptRecord) :
    StartAttemptTables :=
  { tables with journal := tables.journal ++ [{
    flowId := record.flowId
    generation := record.generation
    sequence := tables.journalHead record.flowId record.generation + 1
    attemptId := record.attemptId
    payload := record }] }

def appendHandle (tables : StartAttemptTables) (input : AdmitStartAttemptInput) :
    StartAttemptTables :=
  let head := ((tables.handles.filter fun row => row.flowId = input.flowId).map
    HandleRow.ordinal).foldl max 0
  { tables with handles := tables.handles ++ [{
    flowId := input.flowId
    ordinal := head + 1
    revision := input.revision
    planDigest := input.planDigest
    handle := input.handle
    startedAt := input.admittedAt
    pid := input.process.pid
    startToken := input.process.startToken
    gitBase := input.gitBase }] }

end StartAttemptTables

/-! ### The four operations -/

section Operations

variable (host : HostFunctions)

def replayPrepared (tables : StartAttemptTables) (input : PrepareStartAttemptInput)
    (replay : StartAttemptRecord) (binding : String) :
    Except RunFlowStoreError (StartAttemptResult × StartAttemptTables) := do
  check (replay.flowId = input.flowId
      && replay.revision = input.revision
      && replay.planDigest = input.planDigest
      && host.lineageHash replay.lineage = host.lineageHash input.lineage)
    .startAttemptIdConflict binding
  tables.requireFence host replay
  .ok ({ applied := false, attempt := replay }, tables)

/-- `Date.parse(left) < Date.parse(right)`. -/
def HostFunctions.before (left right : String) : Bool :=
  match host.dateParse left, host.dateParse right with
  | some left, some right => left < right
  | _, _ => false

/-- The generation that a new attempt gets, and the manifest that fences it. -/
def nextGeneration (input : PrepareStartAttemptInput) (previous : Option StartAttemptRecord) :
    Except RunFlowStoreError (Nat × Option RunFlowRecoveryManifest) :=
  match previous with
  | none => do
      check input.expectedPrevious.isNone .startAttemptCasMismatch
        ("flow '" ++ input.flowId ++ "' has no predecessor for the supplied retry CAS")
      .ok (1, none)
  | some previous => do
      check (input.expectedPrevious.any fun expected =>
          expected.generation = .finite previous.generation
            && expected.attemptId = previous.attemptId)
        .startAttemptCasMismatch ("the predecessor CAS moved for flow '" ++ input.flowId ++ "'")
      check (isTerminalStartAttemptState previous.state) .startAttemptStateConflict
        ("flow '" ++ input.flowId ++ "' already has active attempt '" ++ previous.attemptId ++ "' in "
          ++ previous.state.text)
      match previous.settlement with
      | none =>
          .error (refusal .startAttemptRecoveryManifestConflict
            ("terminal predecessor '" ++ previous.attemptId ++ "' has no canonical settlement"))
      | some settlement => do
          check (!host.before input.preparedAt previous.updatedAt)
            .startAttemptRecoveryManifestConflict
            ("recovery generation timestamp precedes terminal predecessor '" ++ previous.attemptId
              ++ "'")
          .ok (previous.generation + 1, some {
            flowId := input.flowId
            generation := previous.generation + 1
            attemptId := input.attemptId
            predecessorGeneration := previous.generation
            predecessorAttemptId := previous.attemptId
            predecessorState := previous.state
            predecessorSettlement := settlement
            recordedAt := input.preparedAt })

/-- The insertion of a new generation. -/
def insertGeneration (tables : StartAttemptTables) (input : PrepareStartAttemptInput)
    (generation : Nat) (recoveryManifest : Option RunFlowRecoveryManifest) :
    Except RunFlowStoreError (StartAttemptResult × StartAttemptTables) := do
  let failure := "failed to prepare a start attempt for flow '" ++ input.flowId ++ "'"
  let tables ← tables.insertIdentity {
    flowId := input.flowId
    generation := generation
    attemptId := input.attemptId
    revision := input.revision
    planDigest := input.planDigest
    tenantId := input.lineage.tenantId
    correlationId := input.lineage.correlationId
    idempotencyKey := input.lineage.idempotencyKey
    lineageHash := host.lineageHash input.lineage
    createdAt := input.preparedAt } failure
  let tables ← match recoveryManifest with
    | some manifest => tables.insertManifest manifest failure
    | none => .ok tables
  let attempt := {
    flowId := input.flowId
    revision := input.revision
    planDigest := input.planDigest
    generation := generation
    attemptId := input.attemptId
    state := .prepared
    createdAt := input.preparedAt
    updatedAt := input.preparedAt
    lineage := input.lineage
    owner := input.owner }
  .ok ({ applied := true, attempt := attempt }, tables.appendStartAttemptState attempt)

/-- Reserve the next generation of a flow. -/
def prepareStartAttempt (input : PrepareStartAttemptInput) (tables : StartAttemptTables) :
    Except RunFlowStoreError (StartAttemptResult × StartAttemptTables) := do
  assertNonEmptyBounded input.flowId "start-attempt flowId"
  assertNonEmptyBounded input.planDigest "start-attempt planDigest"
  assertNonEmptyBounded input.attemptId "start-attempt attemptId"
  assertTimestamp host input.preparedAt "start-attempt preparedAt"
  assertStartAttemptLineage input.lineage
  assertStartAttemptOwner host input.owner
  assertRevision input.revision
  match tables.startAttemptByIdempotencyInDb input.lineage.tenantId input.lineage.idempotencyKey with
  | some replay =>
      replayPrepared host tables input replay ("idempotencyKey '" ++ input.lineage.idempotencyKey
        ++ "' is already bound to another exact-plan authority")
  | none =>
      match tables.startAttemptByIdInDb input.attemptId with
      | some replay =>
          replayPrepared host tables input replay ("attemptId '" ++ input.attemptId
            ++ "' is already bound to another exact-plan CAS")
      | none => do
          let (generation, recoveryManifest) ←
            nextGeneration host input (tables.latestStartAttemptInDb input.flowId)
          insertGeneration host tables input generation recoveryManifest

/-- Record the birth of the process of a prepared attempt. -/
def recordStartAttemptProcessSpawned (input : RecordStartAttemptProcessInput)
    (tables : StartAttemptTables) :
    Except RunFlowStoreError (StartAttemptResult × StartAttemptTables) := do
  assertStartAttemptCas input.toStartAttemptCas
  assertTimestamp host input.spawnedAt "start-attempt spawnedAt"
  assertProcessIdentity input.process "start-attempt process"
  let current ← tables.assertLatestAttemptGeneration host input.toStartAttemptCas
  if current.state = .processSpawned then
    check (current.process = some input.process) .startAttemptStateConflict
      ("attempt '" ++ input.attemptId ++ "' already recorded another process generation")
    .ok ({ applied := false, attempt := current }, tables)
  else do
    check (current.state = .prepared) .startAttemptStateConflict
      ("attempt '" ++ input.attemptId ++ "' cannot enter PROCESS_SPAWNED from " ++ current.state.text)
    check (!host.before current.owner.leaseUntil input.spawnedAt) .startAttemptStateConflict
      ("attempt '" ++ input.attemptId
        ++ "' preparer lease expired before process birth was recorded")
    let attempt := { current with
      state := .processSpawned
      process := some input.process
      updatedAt := input.spawnedAt }
    .ok ({ applied := true, attempt := attempt }, tables.appendStartAttemptState attempt)

/-- Admit a spawned attempt and publish its handle. -/
def admitStartAttempt (input : AdmitStartAttemptInput) (tables : StartAttemptTables) :
    Except RunFlowStoreError (StartAttemptResult × StartAttemptTables) := do
  assertStartAttemptCas input.toStartAttemptCas
  assertTimestamp host input.admittedAt "start-attempt admittedAt"
  assertProcessIdentity input.process "start-attempt process"
  check (input.handle.flowId = input.flowId) .startAttemptCasMismatch
    ("run handle flowId does not match attempt '" ++ input.attemptId ++ "'")
  let current ← tables.assertLatestAttemptGeneration host input.toStartAttemptCas
  if current.state = .admitted then
    check (current.process = some input.process && current.handle = some input.handle)
      .startAttemptStateConflict
      ("attempt '" ++ input.attemptId ++ "' already admitted different authority")
    .ok ({ applied := false, attempt := current }, tables)
  else do
    check (current.state = .processSpawned && current.process = some input.process)
      .startAttemptStateConflict
      ("attempt '" ++ input.attemptId ++ "' is not owned by the supplied spawned process")
    let attempt := { current with
      state := .admitted
      handle := some input.handle
      updatedAt := input.admittedAt }
    .ok ({ applied := true, attempt := attempt },
      (tables.appendStartAttemptState attempt).appendHandle input)

def checkRecovery (authority : SettlementAuthority) (state : StartAttemptState) :
    Except RunFlowStoreError Unit :=
  match authority with
  | .processRecovery observedAt | .preparerRecovery observedAt => do
      assertTimestamp host observedAt "start-attempt recovery observedAt"
      check (state = .failed || state = .unknown) .canonicalWriteFailed
        "process recovery may settle only FAILED or UNKNOWN"
  | .ownerCapability | .effectUnknown => .ok ()

def checkAuthority (authority : SettlementAuthority) (attemptId : String)
    (current : StartAttemptRecord) : Except RunFlowStoreError Unit :=
  match authority with
  | .ownerCapability => .ok ()
  | .effectUnknown =>
      check (current.state = .prepared) .startAttemptStateConflict
        ("effect-unknown settlement requires PREPARED, found " ++ current.state.text)
  | .processRecovery _ =>
      check current.process.isSome .startAttemptStateConflict
        ("process recovery requires a recorded process for attempt '" ++ attemptId ++ "'")
  | .preparerRecovery _ =>
      check (current.state = .prepared) .startAttemptStateConflict
        ("preparer recovery requires PREPARED, found " ++ current.state.text)

/-- Settle the current attempt of a flow. -/
def settleStartAttempt (input : SettleStartAttemptInput) (tables : StartAttemptTables) :
    Except RunFlowStoreError (StartAttemptResult × StartAttemptTables) := do
  assertStartAttemptCas input.toStartAttemptCas
  assertTimestamp host input.settlement.settledAt "start-attempt settledAt"
  assertNonEmptyBounded input.settlement.code "start-attempt settlement code"
  check (isTerminalStartAttemptState input.settlement.state) .canonicalWriteFailed
    "start-attempt settlement must be terminal"
  checkRecovery host input.authority input.settlement.state
  let current ← tables.assertLatestAttemptGeneration host input.toStartAttemptCas
  checkAuthority input.authority input.attemptId current
  if isTerminalStartAttemptState current.state then
    check (current.settlement = some input.settlement) .startAttemptStateConflict
      ("attempt '" ++ input.attemptId ++ "' is already terminal as " ++ current.state.text)
    .ok ({ applied := false, attempt := current }, tables)
  else do
    check (input.settlement.state ≠ .completed || current.state = .admitted)
      .startAttemptStateConflict
      ("attempt '" ++ input.attemptId ++ "' cannot complete before ADMITTED")
    let attempt := { current with
      state := input.settlement.state
      settlement := some input.settlement
      updatedAt := input.settlement.settledAt }
    .ok ({ applied := true, attempt := attempt }, tables.appendStartAttemptState attempt)

end Operations

/-! ### Runs -/

inductive StartAttemptCall where
  | prepare (input : PrepareStartAttemptInput)
  | spawned (input : RecordStartAttemptProcessInput)
  /-- The compatibility projection that follows an admission may fail. -/
  | admission (input : AdmitStartAttemptInput) (projected : Bool)
  | settle (input : SettleStartAttemptInput)

def StartAttemptCall.transaction (host : HostFunctions) (call : StartAttemptCall)
    (tables : StartAttemptTables) :
    Except RunFlowStoreError (StartAttemptResult × StartAttemptTables) :=
  match call with
  | .prepare input => prepareStartAttempt host input tables
  | .spawned input => recordStartAttemptProcessSpawned host input tables
  | .admission input _ => admitStartAttempt host input tables
  | .settle input => settleStartAttempt host input tables

/-- What a call returns once its transaction has committed. -/
def StartAttemptCall.project (call : StartAttemptCall) (result : StartAttemptResult) :
    Except RunFlowStoreError StartAttemptResult :=
  match call with
  | .admission _ false =>
      if result.applied then
        .error {
          code := .projectionUncertain
          message := "run-flow-store: canonical handle mutation committed but compatibility "
            ++ "projection is uncertain"
          canonicalCommitState := .committed }
      else .ok result
  | _ => .ok result

def StartAttemptCall.perform (host : HostFunctions) (call : StartAttemptCall)
    (tables : StartAttemptTables) : Except RunFlowStoreError StartAttemptResult × StartAttemptTables :=
  match call.transaction host tables with
  | .error error => (.error error, tables)
  | .ok (result, next) => (call.project result, next)

def runStartAttempts (host : HostFunctions) (calls : List StartAttemptCall)
    (tables : StartAttemptTables) : StartAttemptTables :=
  calls.foldl (fun tables call => (call.perform host tables).2) tables

end Deckent.RunFlow
