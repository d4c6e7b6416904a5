import Deckent.Lib.Interleaving
import Deckent.Model.RunFlowStore

/-!
# The run-flow coordinator

A coordinator keeps, for the flows it has touched, the context that their events fold to, the command
ids among them and the sequence up to which it has read. A command is reduced on that cache and appended
against its sequence; after a conflict the cache is refreshed and the command is tried once more. The
supersession sweep reads every flow, looks at each candidate again and aborts it.

Several coordinators share one store, and each transaction of the store is a step of its own. A
coordinator is therefore modelled by the place its code has reached. What the tables other than those of
the events answer, the clock and the failures of the disk are given with each step.
-/

namespace Deckent.RunFlow

/-! ### Commands -/

def runFlowEventTextMaxLength : Nat := 4096

def truncatedSuffix : String := "…[truncated]"

def takeUtf16 : Nat → List Char → List Char
  | _, [] => []
  | limit, c :: rest =>
      if (utf16Units c).length ≤ limit then c :: takeUtf16 (limit - (utf16Units c).length) rest
      else []

def truncateRunFlowEventText (value : String) : String :=
  if (utf16 value).length ≤ runFlowEventTextMaxLength then value
  else
    String.ofList (takeUtf16 (runFlowEventTextMaxLength - (utf16 truncatedSuffix).length) value.toList)
      ++ truncatedSuffix

structure AbortFlowCommand where
  flowId : String
  reason : Option String := none
  supersededBy : Option String := none
  commandId : Option String := none
  deriving DecidableEq

inductive RunFlowCommand where
  | proposeFlow (proposal : RunProposal) (commandId : Option String)
  | recordPreview (preview : PlanPreview) (commandId : Option String)
  | grantApproval (flowId : String) (revision : Int) (planDigest : String) (approvedBy : ActorContext)
      (commandId : Option String)
  | rejectApproval (flowId : String) (revision : Int) (reason commandId : Option String)
  | requestStart (flowId : String) (revision : Int) (planDigest : String) (commandId : Option String)
  | recordRunStarted (handle : RunHandle) (commandId : Option String)
  | recordCompletion (flowId : String) (summary commandId : Option String)
  | recordRunFailure (flowId error : String) (commandId : Option String)
  | recordRunPaused (flowId reason : String) (resumeCommand commandId : Option String)
  | abortFlow (command : AbortFlowCommand)
  deriving DecidableEq

namespace RunFlowCommand

def flowId : RunFlowCommand → String
  | proposeFlow proposal _ => proposal.flowId
  | recordPreview preview _ => preview.flowId
  | grantApproval flowId _ _ _ _ => flowId
  | rejectApproval flowId _ _ _ => flowId
  | requestStart flowId _ _ _ => flowId
  | recordRunStarted handle _ => handle.flowId
  | recordCompletion flowId _ _ => flowId
  | recordRunFailure flowId _ _ => flowId
  | recordRunPaused flowId _ _ _ => flowId
  | abortFlow command => command.flowId

def commandId : RunFlowCommand → Option String
  | proposeFlow _ commandId => commandId
  | recordPreview _ commandId => commandId
  | grantApproval _ _ _ _ commandId => commandId
  | rejectApproval _ _ _ commandId => commandId
  | requestStart _ _ _ commandId => commandId
  | recordRunStarted _ commandId => commandId
  | recordCompletion _ _ commandId => commandId
  | recordRunFailure _ _ commandId => commandId
  | recordRunPaused _ _ _ commandId => commandId
  | abortFlow command => command.commandId

def payloads : RunFlowCommand → List RunFlowPayload
  | proposeFlow proposal _ => [.proposalSubmitted proposal, .previewStarted proposal.revision]
  | recordPreview preview _ => [.previewReady preview]
  | grantApproval _ revision planDigest approvedBy _ =>
      [.approvalGranted revision planDigest approvedBy]
  | rejectApproval _ revision reason _ => [.approvalRejected revision reason]
  | requestStart _ revision planDigest _ => [.startRequested revision planDigest]
  | recordRunStarted handle _ => [.runStarted handle]
  | recordCompletion _ summary _ => [.runCompleted summary]
  | recordRunFailure _ error _ => [.runFailed (truncateRunFlowEventText error)]
  | recordRunPaused _ reason resumeCommand _ => [.runPaused reason resumeCommand]
  | abortFlow command => [.flowAborted command.reason command.supersededBy]

def buildEvents (command : RunFlowCommand) (now : Nat → String) : List RunFlowEvent :=
  command.payloads.mapIdx fun index payload =>
    { flowId := command.flowId
      timestamp := now index
      commandId := command.commandId
      payload := payload }

end RunFlowCommand

/-! ### Errors and results -/

inductive CoordinatorError where
  | invalidTransition (source : RunFlowTransitionError)
  | nonContiguous (flowId : String) (expected : Nat) (observed : Option Nat)
  | appendFailed (flowId eventType : String) (cause : RunFlowStoreError)
  | flowNotFound (flowId : String)
  | store (source : RunFlowStoreError)
  | config (message : String)
  deriving DecidableEq

def CoordinatorError.message : CoordinatorError → String
  | invalidTransition source => source.message
  | nonContiguous flowId expected observed =>
      "run-flow-coordinator: flow '" ++ flowId ++ "' has a non-contiguous canonical event sequence "
        ++ "(expected " ++ toString expected ++ ", observed "
        ++ (observed.map toString).getD "undefined" ++ ")"
  | appendFailed flowId eventType cause =>
      "run-flow-coordinator: failed to append '" ++ eventType ++ "' event for flow '" ++ flowId ++ "': "
        ++ cause.message
  | flowNotFound flowId =>
      "run-flow-coordinator: no flow found for id '" ++ flowId ++ "' "
        ++ "(no live in-memory state, no durable event log, and no legacy "
        ++ "approved-snapshot/run-handle record to rehydrate from)"
  | store source => source.message
  | config message => message

inductive Outcome where
  | applied (context : RunFlowContext) (sequence : Nat)
  | duplicateCommand (context : RunFlowContext)
  | found (context : RunFlowContext)
  | threw (error : CoordinatorError)
  deriving DecidableEq

def Outcome.result : Outcome → Except CoordinatorError RunFlowContext
  | applied context _ => .ok context
  | duplicateCommand context => .ok context
  | found context => .ok context
  | threw error => .error error

/-! ### Rehydration -/

structure FlowState where
  context : RunFlowContext
  commandIds : OrderedSet String
  headSequence : Nat

def FlowState.initial : FlowState :=
  { context := createInitialRunFlowContext, commandIds := ∅, headSequence := 0 }

def addCommandId (commandIds : OrderedSet String) : Option String → OrderedSet String
  | some commandId => commandIds.add commandId
  | none => commandIds

/-- One page of `foldFromDisk`. -/
def foldPage (flowId : String) : FlowState → List RunFlowEvent → Except CoordinatorError FlowState
  | state, [] => .ok state
  | state, event :: rest =>
      if event.sequence ≠ some (state.headSequence + 1) then
        .error (.nonContiguous flowId (state.headSequence + 1) event.sequence)
      else
        match reduceRunFlow state.context event with
        | .error error => .error (.invalidTransition error)
        | .ok context =>
            foldPage flowId {
              context := context
              commandIds := addCommandId state.commandIds event.commandId
              headSequence := state.headSequence + 1 } rest

def rehydrationPageSize : Nat := 1000

/-- The `flows` map of a coordinator. -/
abbrev FlowCache := String → Option FlowState

structure StoredApprovedSnapshot where
  snapshot : ApprovedPlanSnapshot
  sprintId : String
  proposal : Option RunProposal := none

structure StoredRunHandleRecord where
  handle : RunHandle
  startedAt : String

/-- The context of a flow that left a snapshot or a handle but no events. -/
def deriveLegacyContext (flowId : String) (stored : Option StoredApprovedSnapshot)
    (handleRecord : Option StoredRunHandleRecord) : Option RunFlowContext :=
  match stored, handleRecord with
  | none, none => none
  | stored, some record =>
      some {
        state := .detachedRunning
        flowId := some flowId
        approvedSnapshot := stored.map StoredApprovedSnapshot.snapshot
        proposal := stored.bind StoredApprovedSnapshot.proposal
        handle := some record.handle
        updatedAt := some record.startedAt }
  | some stored, none =>
      some {
        state := .approved
        flowId := some flowId
        approvedSnapshot := some stored.snapshot
        proposal := stored.proposal
        updatedAt := some stored.snapshot.approvedAt }

/-! ### One call -/

/-- The tables that commands write, and the sprint ids handed to the config floor. -/
structure RunFlowStore where
  flows : String → FlowTable
  retiredSprintIds : List String

def RunFlowStore.empty : RunFlowStore := { flows := fun _ => {}, retiredSprintIds := [] }

def RunFlowStore.write (store : RunFlowStore) (flowId : String) (table : FlowTable) : RunFlowStore :=
  { store with flows := Function.update store.flows flowId table }

def RunFlowStore.updateLastSprintId (store : RunFlowStore) (sprintId : String) : RunFlowStore :=
  { store with retiredSprintIds := store.retiredSprintIds ++ [sprintId] }

inductive Fault where
  | notCommitted (code : RunFlowStoreErrorCode) (message : String)
  | projection
  deriving DecidableEq

def Fault.error : Fault → RunFlowStoreError
  | notCommitted code message =>
      { code := code, message := message, canonicalCommitState := .notCommitted }
  | projection => {
      code := .projectionUncertain
      message := "run-flow-store: canonical event mutation committed but compatibility projection is "
        ++ "uncertain"
      canonicalCommitState := .committed }

structure Answer where
  now : Nat → String := fun _ => ""
  fault : Option Fault := none
  flowIds : List String := []
  snapshot : Option StoredApprovedSnapshot := none
  handle : Option StoredRunHandleRecord := none
  sourceKey : Option String := none

/-- A command under way. `abortFlow` also carries the sprint that it retires. -/
structure Job where
  command : RunFlowCommand
  retiredSprintId : Option String := none

inductive Goal where
  | getFlow
  | beforeAbort (command : AbortFlowCommand)
  | attempt (job : Job) (retriedAfterConflict : Bool)
  | retry (job : Job)
  | duplicate (job : Job)
  | surface (error : CoordinatorError)

/-- The place that a call has reached. -/
inductive Call where
  | ensureFlowLoaded (flowId : String) (goal : Goal)
  | probeHead (flowId : String) (cached : FlowState) (goal : Goal)
  | foldFromDisk (flowId : String) (state : FlowState) (goal : Goal)
  | loaded (flowId : String) (flow : FlowState) (goal : Goal)
  | loadApprovedSnapshot (command : AbortFlowCommand)
  | append (job : Job) (retriedAfterConflict : Bool) (flow : FlowState) (events : List RunFlowEvent)
      (context : RunFlowContext)
  | retireSprint (sprintId : String) (outcome : Outcome)
  | lookup (flowId : String)
  | legacySnapshot (flowId : String)
  | legacyHandle (flowId : String) (stored : Option StoredApprovedSnapshot)
  | ended (outcome : Outcome)

def beginCommand : RunFlowCommand → Call
  | .abortFlow command => .ensureFlowLoaded command.flowId (.beforeAbort command)
  | command => .ensureFlowLoaded command.flowId (.attempt { command := command } false)

def beginGetFlow (flows : FlowCache) (flowId : String) : Call :=
  if (flows flowId).isSome then .ensureFlowLoaded flowId .getFlow else .lookup flowId

/-- The end of `runCommand`; `abortFlow` goes on to the config floor. -/
def finish (job : Job) (outcome : Outcome) : Call :=
  match job.retiredSprintId, outcome.result with
  | some sprintId, .ok context =>
      if context.state = .cancelled then .retireSprint sprintId outcome else .ended outcome
  | _, _ => .ended outcome

/-- The part of `attempt` between the load and the append. -/
def reduceCommand (job : Job) (retriedAfterConflict : Bool) (flow : FlowState) (now : Nat → String) :
    Call :=
  if job.command.commandId.any fun commandId => commandId ∈ flow.commandIds then
    finish job (.duplicateCommand flow.context)
  else
    let events := job.command.buildEvents now
    match replay reduceRunFlow flow.context events with
    | .error error => .ended (.threw (.invalidTransition error))
    | .ok context => .append job retriedAfterConflict flow events context

def afterLoad (flow : FlowState) (now : Nat → String) : Goal → Call
  | .getFlow => .ended (.found flow.context)
  | .beforeAbort command =>
      if flow.context.state = .approved then .loadApprovedSnapshot command
      else .ensureFlowLoaded command.flowId (.attempt { command := .abortFlow command } false)
  | .attempt job retriedAfterConflict => reduceCommand job retriedAfterConflict flow now
  | .retry job => .ensureFlowLoaded job.command.flowId (.attempt job true)
  | .duplicate job => finish job (.duplicateCommand flow.context)
  | .surface error => .ended (.threw error)

def lastEventType (events : List RunFlowEvent) : String :=
  (events.getLast?.map fun event => event.payload.type).getD ""

def afterAppendError (job : Job) (retriedAfterConflict : Bool) (flow : FlowState)
    (events : List RunFlowEvent) (error : RunFlowStoreError) : Call :=
  let flowId := job.command.flowId
  let failure := CoordinatorError.appendFailed flowId (lastEventType events) error
  if error.code = .canonicalConflict ∧ ¬ retriedAfterConflict then
    .foldFromDisk flowId flow (.retry job)
  else if error.canonicalCommitState = .committed then .foldFromDisk flowId flow (.surface failure)
  else .ended (.threw failure)

section Step

variable (hashPayload : List RunFlowEvent → String)

/-- The append of a command, and what follows it. -/
def stepAppend (answer : Answer) (store : RunFlowStore) (flows : FlowCache) (job : Job)
    (retriedAfterConflict : Bool) (flow : FlowState) (events : List RunFlowEvent)
    (context : RunFlowContext) : RunFlowStore × FlowCache × Call :=
  let flowId := job.command.flowId
  match answer.fault with
  | some (.notCommitted code message) =>
      (store, flows, afterAppendError job retriedAfterConflict flow events
        (Fault.notCommitted code message).error)
  | fault =>
      match appendFlowEvents hashPayload flowId events (some flow.headSequence)
        (store.flows flowId) with
      | .error error => (store, flows, afterAppendError job retriedAfterConflict flow events error)
      | .ok (result, table) =>
          if ¬ result.applied then (store, flows, .foldFromDisk flowId flow (.duplicate job))
          else if fault = some .projection then
            (store.write flowId table, flows,
              afterAppendError job retriedAfterConflict flow events Fault.projection.error)
          else
            let advanced := {
              context := context
              commandIds := addCommandId flow.commandIds job.command.commandId
              headSequence := result.lastSequence }
            (store.write flowId table, Function.update flows flowId (some advanced),
              finish job (.applied context result.lastSequence))

def stepFold (store : RunFlowStore) (flows : FlowCache) (flowId : String) (state : FlowState)
    (goal : Goal) : FlowCache × Call :=
  let page := readFlowEvents (store.flows flowId) state.headSequence rehydrationPageSize
  match foldPage flowId state page with
  | .error error => (flows, .ended (.threw error))
  | .ok state =>
      if page.length < rehydrationPageSize then
        (Function.update flows flowId (some state), .loaded flowId state goal)
      else (flows, .foldFromDisk flowId state goal)

/-- The next step of a call that has not ended. -/
def Call.step (answer : Answer) (store : RunFlowStore) (flows : FlowCache) :
    Call → Option (RunFlowStore × FlowCache × Call)
  | .ensureFlowLoaded flowId goal =>
      match flows flowId with
      | none => some (store, flows, .foldFromDisk flowId .initial goal)
      | some cached =>
          if isTerminalRunFlowState cached.context.state then
            some (store, flows, .loaded flowId cached goal)
          else some (store, flows, .probeHead flowId cached goal)
  | .probeHead flowId cached goal =>
      match answer.fault with
      | some fault => some (store, flows, .ended (.threw (.store fault.error)))
      | none =>
          if readFlowEventHead (store.flows flowId) ≤ cached.headSequence then
            some (store, flows, .loaded flowId cached goal)
          else some (store, flows, .foldFromDisk flowId cached goal)
  | .foldFromDisk flowId state goal =>
      match answer.fault with
      | some fault => some (store, flows, .ended (.threw (.store fault.error)))
      | none => some (store, stepFold store flows flowId state goal)
  | .loaded _ flow goal => some (store, flows, afterLoad flow answer.now goal)
  | .loadApprovedSnapshot command =>
      match answer.fault with
      | some fault => some (store, flows, .ended (.threw (.store fault.error)))
      | none =>
          let job := {
            command := .abortFlow command
            retiredSprintId := answer.snapshot.map StoredApprovedSnapshot.sprintId }
          some (store, flows, .ensureFlowLoaded command.flowId (.attempt job false))
  | .append job retriedAfterConflict flow events context =>
      some (stepAppend hashPayload answer store flows job retriedAfterConflict flow events context)
  | .retireSprint sprintId outcome =>
      match answer.fault with
      | some fault => some (store, flows, .ended (.threw (.config fault.error.message)))
      | none => some (store.updateLastSprintId sprintId, flows, .ended outcome)
  | .lookup flowId =>
      match answer.fault with
      | some fault => some (store, flows, .ended (.threw (.store fault.error)))
      | none =>
          if 0 < readFlowEventHead (store.flows flowId) then
            some (store, flows, .ensureFlowLoaded flowId .getFlow)
          else some (store, flows, .legacySnapshot flowId)
  | .legacySnapshot flowId =>
      match answer.fault with
      | some fault => some (store, flows, .ended (.threw (.store fault.error)))
      | none => some (store, flows, .legacyHandle flowId answer.snapshot)
  | .legacyHandle flowId stored =>
      match answer.fault with
      | some fault => some (store, flows, .ended (.threw (.store fault.error)))
      | none =>
          match deriveLegacyContext flowId stored answer.handle with
          | some context => some (store, flows, .ended (.found context))
          | none => some (store, flows, .ended (.threw (.flowNotFound flowId)))
  | .ended _ => none

/-! ### The supersession sweep -/

def supersedableState : RunFlowState := .awaitingApproval

structure PendingFlow where
  flowId : String
  updatedAt : String
  sourceKey : String

structure SupersededFlowEntry where
  flowId : String
  supersededBy : String
  sourceKey : String
  updatedAt : Option String
  deriving DecidableEq

structure SupersededRetireFailure where
  flowId : String
  detail : String
  deriving DecidableEq

structure RetireSupersededReport where
  superseded : List SupersededFlowEntry
  retired : List String
  failures : List SupersededRetireFailure
  applied : Bool
  deriving DecidableEq

def isNewer (candidate incumbent : PendingFlow) : Bool :=
  if candidate.updatedAt ≠ incumbent.updatedAt then
    0 < compareCodePoint candidate.updatedAt incumbent.updatedAt
  else 0 < compareCodePoint candidate.flowId incumbent.flowId

def supersededOf : List PendingFlow → List SupersededFlowEntry
  | [] => []
  | [_] => []
  | first :: rest =>
      let survivor := rest.foldl
        (fun newest candidate => if isNewer candidate newest then candidate else newest) first
      ((first :: rest).filter fun candidate => candidate.flowId ≠ survivor.flowId).map fun candidate =>
        { flowId := candidate.flowId
          supersededBy := survivor.flowId
          sourceKey := candidate.sourceKey
          updatedAt := if candidate.updatedAt ≠ "" then some candidate.updatedAt else none }

def computeSupersededFlows (pending : List PendingFlow) : List SupersededFlowEntry :=
  sortBy (fun a b => compareCodePoint a.flowId b.flowId)
    ((OrderedMap.groupBy PendingFlow.sourceKey id pending).values.flatMap supersededOf)

structure Scan where
  apply : Bool
  rest : List String
  pending : List PendingFlow

structure Sweep where
  superseded : List SupersededFlowEntry
  rest : List SupersededFlowEntry
  retired : List String
  failures : List SupersededRetireFailure

inductive Caller where
  | client
  | scan (scan : Scan) (flowId : String)
  | recheck (sweep : Sweep) (entry : SupersededFlowEntry)
  | retire (sweep : Sweep) (entry : SupersededFlowEntry)

inductive Result where
  | call (outcome : Outcome)
  | report (report : RetireSupersededReport)

inductive Activity where
  | idle (last : Option Result)
  | calling (caller : Caller) (call : Call)
  | listing (apply : Bool)
  | keying (scan : Scan) (flowId : String) (context : RunFlowContext)

structure Coordinator where
  flows : FlowCache
  activity : Activity

def Coordinator.initial : Coordinator := { flows := fun _ => none, activity := .idle none }

def supersedeCommand (entry : SupersededFlowEntry) : AbortFlowCommand :=
  { flowId := entry.flowId
    supersededBy := some entry.supersededBy
    commandId := some ("superseded-" ++ entry.flowId ++ "-by-" ++ entry.supersededBy) }

def nextEntry (flows : FlowCache) (sweep : Sweep) : Activity :=
  match sweep.rest with
  | [] =>
      .idle (some (.report {
        superseded := sweep.superseded
        retired := sweep.retired
        failures := sweep.failures
        applied := true }))
  | entry :: rest =>
      .calling (.recheck { sweep with rest := rest } entry) (beginGetFlow flows entry.flowId)

def nextScan (flows : FlowCache) (scan : Scan) : Activity :=
  match scan.rest with
  | flowId :: rest => .calling (.scan { scan with rest := rest } flowId) (beginGetFlow flows flowId)
  | [] =>
      let superseded := computeSupersededFlows scan.pending
      if scan.apply then
        nextEntry flows { superseded := superseded, rest := superseded, retired := [], failures := [] }
      else
        .idle (some (.report {
          superseded := superseded
          retired := []
          failures := []
          applied := false }))

def Sweep.fail (sweep : Sweep) (entry : SupersededFlowEntry) (detail : String) : Sweep :=
  { sweep with failures := sweep.failures ++ [{ flowId := entry.flowId, detail := detail }] }

def Sweep.retire (sweep : Sweep) (entry : SupersededFlowEntry) : Sweep :=
  { sweep with retired := sweep.retired ++ [entry.flowId] }

/-- What follows the end of a call. -/
def resume (flows : FlowCache) (outcome : Outcome) : Caller → Activity
  | .client => .idle (some (.call outcome))
  | .scan scan flowId =>
      match outcome.result with
      | .ok context =>
          if context.state = supersedableState then .keying scan flowId context
          else nextScan flows scan
      | .error _ => nextScan flows scan
  | .recheck sweep entry =>
      match outcome.result with
      | .ok current =>
          if current.state = supersedableState then
            .calling (.retire sweep entry) (beginCommand (.abortFlow (supersedeCommand entry)))
          else
            nextEntry flows (sweep.fail entry ("state moved to " ++ current.state.text
              ++ " after the scan — left untouched"))
      | .error error => nextEntry flows (sweep.fail entry error.message)
  | .retire sweep entry =>
      match outcome.result with
      | .ok _ => nextEntry flows (sweep.retire entry)
      | .error error => nextEntry flows (sweep.fail entry error.message)

/-! ### Coordinators over one store -/

inductive Operation where
  | command (command : RunFlowCommand)
  | getFlow (flowId : String)
  | retireSupersededFlows (apply : Bool)

inductive Action where
  | invoke (operation : Operation)
  | proceed (answer : Answer)
  | restart

def invoke (flows : FlowCache) : Operation → Activity
  | .command command => .calling .client (beginCommand command)
  | .getFlow flowId => .calling .client (beginGetFlow flows flowId)
  | .retireSupersededFlows apply => .listing apply

def stepActivity (answer : Answer) (store : RunFlowStore) (flows : FlowCache) :
    Activity → Option (RunFlowStore × Coordinator)
  | .idle _ => none
  | .calling caller (.ended outcome) =>
      some (store, { flows := flows, activity := resume flows outcome caller })
  | .calling caller call =>
      (call.step hashPayload answer store flows).map fun (store, flows, call) =>
        (store, { flows := flows, activity := .calling caller call })
  | .listing apply =>
      match answer.fault with
      | some fault =>
          some (store, {
            flows := flows
            activity := .idle (some (.call (.threw (.store fault.error)))) })
      | none =>
          let scan := { apply := apply, rest := answer.flowIds, pending := [] }
          some (store, { flows := flows, activity := nextScan flows scan })
  | .keying scan flowId context =>
      -- a record that cannot be read has no key
      match if answer.fault.isSome then none else answer.sourceKey with
      | none => some (store, { flows := flows, activity := nextScan flows scan })
      | some sourceKey =>
          let entry := {
            flowId := flowId
            updatedAt := context.updatedAt.getD ""
            sourceKey := sourceKey }
          let scan := { scan with pending := scan.pending ++ [entry] }
          some (store, { flows := flows, activity := nextScan flows scan })

/-- One step of a coordinator. A restart loses the cache and the call under way. -/
def Coordinator.step (action : Action) (store : RunFlowStore) (coordinator : Coordinator) :
    Option (RunFlowStore × Coordinator) :=
  match action with
  | .invoke operation =>
      match coordinator.activity with
      | .idle _ =>
          some (store, { coordinator with activity := invoke coordinator.flows operation })
      | _ => none
  | .proceed answer => stepActivity hashPayload answer store coordinator.flows coordinator.activity
  | .restart => some (store, .initial)

end Step

def initialSystem (ι : Type) : Processes ι RunFlowStore Coordinator :=
  { shared := .empty, memory := fun _ => .initial }

end Deckent.RunFlow
