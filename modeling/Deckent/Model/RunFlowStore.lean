import Deckent.Lib.OrderedMap
import Deckent.Lib.OrderedSet
import Deckent.Model.Js
import Deckent.Model.RunFlow

/-!
# The event tables of the run-flow store

The canonical store keeps the events of every flow under ascending sequences, and for every command id
that was committed a row with the hash and the range of its batch. A batch is appended in one
transaction, against the head that its writer expects; a batch whose command id is known is not
appended but answered with the events stored under it.

The rows are kept per flow. The serialised form of an event stands for the event itself, and the hash
of a batch is a parameter.
-/

namespace Deckent.RunFlow

inductive RunFlowStoreErrorCode where
  | schemaUnsupported
  | journalModeTransitionBusy
  | journalModeConfigurationFailed
  | canonicalConflict
  | idempotencyConflict
  | canonicalWriteFailed
  | projectionUncertain
  | corruptRecord
  | startAttemptNotFound
  | startAttemptCasMismatch
  | startAttemptIdConflict
  | startAttemptStateConflict
  | startAttemptRecoveryManifestMissing
  | startAttemptRecoveryManifestConflict
  deriving DecidableEq

inductive CanonicalCommitState where
  | notCommitted
  | committed
  deriving DecidableEq

structure RunFlowStoreError where
  code : RunFlowStoreErrorCode
  message : String
  canonicalCommitState : CanonicalCommitState
  deriving DecidableEq

/-- A row of `run_flow_records` of kind `event`. -/
structure EventRow where
  sequence : Nat
  event : RunFlowEvent
  deriving DecidableEq

/-- A row of `run_flow_commands`. -/
structure CommandRow where
  payloadHash : String
  firstSequence : Nat
  lastSequence : Nat
  eventCount : Nat
  deriving DecidableEq

/-- The rows of one flow. -/
structure FlowTable where
  events : List EventRow := []
  commands : OrderedMap String CommandRow := .empty

structure AppendFlowEventsResult where
  applied : Bool
  events : List RunFlowEvent
  firstSequence : Nat
  lastSequence : Nat

def readFlowEventHead (table : FlowTable) : Nat :=
  (table.events.map EventRow.sequence).foldl max 0

def selectEvents (table : FlowTable) (selected : Nat → Bool) : List RunFlowEvent :=
  (sortBy (fun a b => compareNumber a.sequence b.sequence)
    (table.events.filter fun row => selected row.sequence)).map EventRow.event

def readFlowEvents (table : FlowTable) (afterSequence limit : Nat) : List RunFlowEvent :=
  (selectEvents table fun sequence => afterSequence < sequence).take limit

/-- The generator between two of its pages: `cursor` is the sequence of the last event it yielded. -/
structure FlowEventIterator where
  cursor : Nat := 0
  yielded : List RunFlowEvent := []
  returned : Bool := false

/-- One turn of the loop of `iterateFlowEvents`, for a positive page size. -/
def FlowEventIterator.readPage (pageSize : Nat) (table : FlowTable) (iterator : FlowEventIterator) :
    FlowEventIterator :=
  if iterator.returned then iterator
  else
    let page := readFlowEvents table iterator.cursor pageSize
    { cursor := page.foldl (fun _ event => event.sequence.getD 0) iterator.cursor
      yielded := iterator.yielded ++ page
      returned := page.length < pageSize }

def eventBatchHash (hashPayload : List RunFlowEvent → String) (events : List RunFlowEvent) : String :=
  hashPayload (events.map fun event => { event with timestamp := "", sequence := none })

def batchCommandIds (events : List RunFlowEvent) : OrderedSet String :=
  OrderedSet.ofList (events.filterMap RunFlowEvent.commandId)

/-- The checks before the transaction, and the command id that the batch carries. -/
def checkEventBatch (flowId : String) (events : List RunFlowEvent) :
    Except RunFlowStoreError (Option String) :=
  let commandIds := batchCommandIds events
  if events = [] then
    .error {
      code := .canonicalWriteFailed
      message := "run-flow-store: an event batch must contain at least one event"
      canonicalCommitState := .notCommitted }
  else if events.any fun event => event.flowId ≠ flowId then
    .error {
      code := .canonicalWriteFailed
      message := "run-flow-store: event batch contains a flowId different from '" ++ flowId ++ "'"
      canonicalCommitState := .notCommitted }
  else if 1 < commandIds.size
      ∨ commandIds.size = 1 ∧ events.any (fun event => event.commandId = none) then
    .error {
      code := .canonicalWriteFailed
      message := "run-flow-store: every event in a batch must carry the same commandId or all omit it"
      canonicalCommitState := .notCommitted }
  else .ok commandIds.members.head?

def replayEventBatch (table : FlowTable) (commandId : String) (existing : CommandRow)
    (payloadHash : String) (events : List RunFlowEvent) :
    Except RunFlowStoreError AppendFlowEventsResult :=
  if existing.payloadHash ≠ payloadHash ∨ existing.eventCount ≠ events.length then
    .error {
      code := .idempotencyConflict
      message := "run-flow-store: commandId '" ++ commandId
        ++ "' was already committed with a different event batch"
      canonicalCommitState := .notCommitted }
  else
    .ok {
      applied := false
      events := selectEvents table fun sequence =>
        existing.firstSequence ≤ sequence && sequence ≤ existing.lastSequence
      firstSequence := existing.firstSequence
      lastSequence := existing.lastSequence }

def assignSequences (head : Nat) (events : List RunFlowEvent) : List EventRow :=
  events.mapIdx fun index event =>
    { sequence := head + index + 1, event := { event with sequence := some (head + index + 1) } }

def recordCommand (table : FlowTable) (commandId : Option String) (row : CommandRow) :
    OrderedMap String CommandRow :=
  match commandId with
  | some commandId => table.commands.set commandId row
  | none => table.commands

/-- The insertion of a batch whose command id is not known. -/
def insertEventBatch (table : FlowTable) (flowId : String) (commandId : Option String)
    (payloadHash : String) (events : List RunFlowEvent) (expectedLastSequence : Option Nat) :
    Except RunFlowStoreError (AppendFlowEventsResult × FlowTable) :=
  let head := readFlowEventHead table
  if expectedLastSequence.any fun expected => head ≠ expected then
    .error {
      code := .canonicalConflict
      message := "run-flow-store: flow '" ++ flowId ++ "' head moved from expected "
        ++ toString (expectedLastSequence.getD 0) ++ " to " ++ toString head
      canonicalCommitState := .notCommitted }
  else
    let assigned := assignSequences head events
    let row := {
      payloadHash := payloadHash
      firstSequence := head + 1
      lastSequence := head + events.length
      eventCount := events.length }
    .ok ({
      applied := true
      events := assigned.map EventRow.event
      firstSequence := head + 1
      lastSequence := head + events.length },
    { events := table.events ++ assigned, commands := recordCommand table commandId row })

def appendFlowEvents (hashPayload : List RunFlowEvent → String) (flowId : String)
    (events : List RunFlowEvent) (expectedLastSequence : Option Nat) (table : FlowTable) :
    Except RunFlowStoreError (AppendFlowEventsResult × FlowTable) :=
  match checkEventBatch flowId events with
  | .error error => .error error
  | .ok none =>
      let payloadHash := eventBatchHash hashPayload events
      insertEventBatch table flowId none payloadHash events expectedLastSequence
  | .ok (some commandId) =>
      let payloadHash := eventBatchHash hashPayload events
      match table.commands.get? commandId with
      | some existing =>
          (replayEventBatch table commandId existing payloadHash events).map fun result =>
            (result, table)
      | none =>
          insertEventBatch table flowId (some commandId) payloadHash events expectedLastSequence

end Deckent.RunFlow
