import Deckent.Model.Js

/-!
# Run flows

The contract of a run flow and the pure reducer that takes a context and an event to the next context.
An event that cannot apply to the state of the context is refused with a transition error; a conflict
of revision or digest is no refusal but moves the flow to `BLOCKED`.

An event is an envelope with a payload. Of a plan preview only the members that the reducer reads are
kept.
-/

namespace Deckent.RunFlow

inductive RunFlowState where
  | collecting
  | proposalReady
  | previewing
  | awaitingApproval
  | approved
  | starting
  | detachedRunning
  | completed
  | failed
  | cancelled
  | blocked
  deriving DecidableEq

def RunFlowState.text : RunFlowState → String
  | collecting => "COLLECTING"
  | proposalReady => "PROPOSAL_READY"
  | previewing => "PREVIEWING"
  | awaitingApproval => "AWAITING_APPROVAL"
  | approved => "APPROVED"
  | starting => "STARTING"
  | detachedRunning => "DETACHED_RUNNING"
  | completed => "COMPLETED"
  | failed => "FAILED"
  | cancelled => "CANCELLED"
  | blocked => "BLOCKED"

def isTerminalRunFlowState : RunFlowState → Bool
  | .completed | .failed | .cancelled | .blocked => true
  | _ => false

inductive RunFlowCancelReason where
  | rejected
  | aborted
  | superseded
  deriving DecidableEq

inductive RequestOrigin where
  | cli
  | mcp
  | chat
  | autonomous
  | webhook
  | scheduled
  | api
  | ide
  deriving DecidableEq

inductive IdentityClass where
  | local
  | oidc
  | workload
  | connector
  | service
  deriving DecidableEq

inductive Assurance where
  | unverified
  | osUser
  | tokenParsed
  | tokenVerified
  deriving DecidableEq

structure ActorContext where
  id : String
  role : Option String := none
  tenantId : Option String := none
  identityClass : Option IdentityClass := none
  assurance : Option Assurance := none
  provenance : Option RequestOrigin := none
  deriving DecidableEq

structure RunProposal where
  flowId : String
  tenant : String
  project : String
  actor : ActorContext
  origin : RequestOrigin
  revision : Int
  intentSummary : String
  deriving DecidableEq

structure PlanPreview where
  flowId : String
  revision : Int
  planDigest : String
  deriving DecidableEq

structure ApprovedPlanSnapshot where
  flowId : String
  revision : Int
  planDigest : String
  approvedBy : ActorContext
  approvedAt : String
  deriving DecidableEq

structure RunHandle where
  flowId : String
  jobId : String
  logRef : String
  deriving DecidableEq

inductive RunFlowPayload where
  | proposalSubmitted (proposal : RunProposal)
  | previewStarted (revision : Int)
  | previewReady (preview : PlanPreview)
  | approvalGranted (revision : Int) (planDigest : String) (approvedBy : ActorContext)
  | approvalRejected (revision : Int) (reason : Option String)
  | startRequested (revision : Int) (planDigest : String)
  | runStarted (handle : RunHandle)
  | runCompleted (summary : Option String)
  | runPaused (reason : String) (resumeCommand : Option String)
  | runFailed (error : String)
  | flowAborted (reason : Option String) (supersededBy : Option String)
  deriving DecidableEq

/-- The `type` of an event. -/
def RunFlowPayload.type : RunFlowPayload → String
  | proposalSubmitted _ => "PROPOSAL_SUBMITTED"
  | previewStarted _ => "PREVIEW_STARTED"
  | previewReady _ => "PREVIEW_READY"
  | approvalGranted _ _ _ => "APPROVAL_GRANTED"
  | approvalRejected _ _ => "APPROVAL_REJECTED"
  | startRequested _ _ => "START_REQUESTED"
  | runStarted _ => "RUN_STARTED"
  | runCompleted _ => "RUN_COMPLETED"
  | runPaused _ _ => "RUN_PAUSED"
  | runFailed _ => "RUN_FAILED"
  | flowAborted _ _ => "FLOW_ABORTED"

def runFlowEventSchemaVersion : Int := 1

structure RunFlowEvent where
  schemaVersion : Int := runFlowEventSchemaVersion
  flowId : String
  timestamp : String
  commandId : Option String := none
  sequence : Option Nat := none
  payload : RunFlowPayload
  deriving DecidableEq

structure RunFlowContext where
  state : RunFlowState
  flowId : Option String := none
  proposal : Option RunProposal := none
  preview : Option PlanPreview := none
  approvedSnapshot : Option ApprovedPlanSnapshot := none
  handle : Option RunHandle := none
  cancelReason : Option RunFlowCancelReason := none
  supersededBy : Option String := none
  blockedReason : Option String := none
  failureReason : Option String := none
  updatedAt : Option String := none
  deriving DecidableEq

def createInitialRunFlowContext : RunFlowContext := { state := .collecting }

structure RunFlowTransitionError where
  flowId : Option String
  fromState : RunFlowState
  eventType : String
  message : String
  deriving DecidableEq

/-! ### The reducer -/

def withCommandId (message : String) (event : RunFlowEvent) : String :=
  match event.commandId with
  | some commandId => message ++ " [commandId=" ++ commandId ++ "]"
  | none => message

def fail (context : RunFlowContext) (event : RunFlowEvent) (detail : String) :
    Except RunFlowTransitionError RunFlowContext :=
  .error {
    flowId := context.flowId
    fromState := context.state
    eventType := event.payload.type
    message := withCommandId ("run-flow: cannot apply '" ++ event.payload.type ++ "' to state '"
      ++ context.state.text ++ "' (flowId=" ++ context.flowId.getD "<unset>" ++ "): " ++ detail) event }

def matchesRevisionDigest (revision : Int) (planDigest : String) (againstRevision : Int)
    (againstDigest : String) : Bool :=
  againstRevision = revision && againstDigest = planDigest

def block (context : RunFlowContext) (event : RunFlowEvent) (reason : String) : RunFlowContext :=
  { context with
    state := .blocked
    blockedReason := some reason
    updatedAt := some event.timestamp }

def reduceProposalSubmitted (context : RunFlowContext) (event : RunFlowEvent)
    (proposal : RunProposal) : Except RunFlowTransitionError RunFlowContext :=
  if context.state ≠ .collecting then fail context event "expected state 'COLLECTING'"
  else if proposal.flowId ≠ event.flowId then
    fail context event "proposal.flowId does not match event.flowId envelope"
  else
    .ok { context with
      state := .proposalReady
      flowId := some event.flowId
      proposal := some proposal
      updatedAt := some event.timestamp }

def reducePreviewStarted (context : RunFlowContext) (event : RunFlowEvent) (revision : Int) :
    Except RunFlowTransitionError RunFlowContext :=
  if context.state ≠ .proposalReady then fail context event "expected state 'PROPOSAL_READY'"
  else
    match context.proposal with
    | none => fail context event "missing proposal on context"
    | some proposal =>
        if proposal.revision ≠ revision then
          fail context event ("revision " ++ toString revision ++ " does not match proposal revision "
            ++ toString proposal.revision)
        else .ok { context with state := .previewing, updatedAt := some event.timestamp }

def reducePreviewReady (context : RunFlowContext) (event : RunFlowEvent) (preview : PlanPreview) :
    Except RunFlowTransitionError RunFlowContext :=
  if context.state ≠ .previewing then fail context event "expected state 'PREVIEWING'"
  else if preview.flowId ≠ event.flowId then
    fail context event "preview.flowId does not match event.flowId envelope"
  else
    .ok { context with
      state := .awaitingApproval
      preview := some preview
      updatedAt := some event.timestamp }

def replayOrBlock (context : RunFlowContext) (event : RunFlowEvent) (revision : Int)
    (planDigest : String) (conflict : String) : RunFlowContext :=
  if context.approvedSnapshot.any fun snapshot =>
      matchesRevisionDigest revision planDigest snapshot.revision snapshot.planDigest then context
  else block context event (withCommandId conflict event)

def reduceApprovalGranted (context : RunFlowContext) (event : RunFlowEvent) (revision : Int)
    (planDigest : String) (approvedBy : ActorContext) :
    Except RunFlowTransitionError RunFlowContext :=
  if context.state = .awaitingApproval then
    match context.preview with
    | none => fail context event "missing preview on context"
    | some preview =>
        if matchesRevisionDigest revision planDigest preview.revision preview.planDigest then
          .ok { context with
            state := .approved
            -- the flow id is set before a preview is
            approvedSnapshot := some {
              flowId := context.flowId.getD ""
              revision := revision
              planDigest := planDigest
              approvedBy := approvedBy
              approvedAt := event.timestamp }
            updatedAt := some event.timestamp }
        else
          .ok (block context event (withCommandId ("approval targets revision=" ++ toString revision
            ++ "/digest=" ++ planDigest ++ ", but the live preview is revision="
            ++ toString preview.revision ++ "/digest=" ++ preview.planDigest) event))
  else if context.state = .approved then
    .ok (replayOrBlock context event revision planDigest
      ("duplicate APPROVAL_GRANTED with a revision/digest that does not match the already-approved "
        ++ "snapshot"))
  else fail context event "expected state 'AWAITING_APPROVAL' or 'APPROVED'"

def reduceApprovalRejected (context : RunFlowContext) (event : RunFlowEvent) :
    Except RunFlowTransitionError RunFlowContext :=
  if context.state ≠ .awaitingApproval then fail context event "expected state 'AWAITING_APPROVAL'"
  else
    .ok { context with
      state := .cancelled
      cancelReason := some .rejected
      updatedAt := some event.timestamp }

def reduceStartRequested (context : RunFlowContext) (event : RunFlowEvent) (revision : Int)
    (planDigest : String) : Except RunFlowTransitionError RunFlowContext :=
  if context.state = .approved then
    match context.approvedSnapshot with
    | none => fail context event "missing approvedSnapshot on context"
    | some snapshot =>
        if matchesRevisionDigest revision planDigest snapshot.revision snapshot.planDigest then
          .ok { context with state := .starting, updatedAt := some event.timestamp }
        else
          .ok (block context event (withCommandId ("start targets revision=" ++ toString revision
            ++ "/digest=" ++ planDigest ++ ", but the approved snapshot is revision="
            ++ toString snapshot.revision ++ "/digest=" ++ snapshot.planDigest) event))
  else if context.state = .starting ∨ context.state = .detachedRunning then
    .ok (replayOrBlock context event revision planDigest
      "duplicate START_REQUESTED with a revision/digest that does not match the approved snapshot")
  else fail context event "expected state 'APPROVED', 'STARTING' or 'DETACHED_RUNNING'"

def reduceRunStarted (context : RunFlowContext) (event : RunFlowEvent) (handle : RunHandle) :
    Except RunFlowTransitionError RunFlowContext :=
  if context.state = .starting then
    .ok { context with
      state := .detachedRunning
      handle := some handle
      updatedAt := some event.timestamp }
  else if context.state = .detachedRunning ∧ context.handle.map RunHandle.jobId = some handle.jobId then
    .ok context
  else fail context event "expected state 'STARTING'"

def reduceRunCompleted (context : RunFlowContext) (event : RunFlowEvent) :
    Except RunFlowTransitionError RunFlowContext :=
  if context.state ≠ .detachedRunning then fail context event "expected state 'DETACHED_RUNNING'"
  else .ok { context with state := .completed, updatedAt := some event.timestamp }

def reduceRunPaused (context : RunFlowContext) (event : RunFlowEvent) (reason : String)
    (resumeCommand : Option String) : Except RunFlowTransitionError RunFlowContext :=
  if context.state ≠ .detachedRunning ∧ context.state ≠ .starting then
    fail context event "expected state 'STARTING' or 'DETACHED_RUNNING'"
  else
    let recovery := match truthy resumeCommand with
      | some command => " Resume: " ++ command
      | none => ""
    .ok (block context event (reason ++ recovery))

def reduceRunFailed (context : RunFlowContext) (event : RunFlowEvent) (error : String) :
    Except RunFlowTransitionError RunFlowContext :=
  if context.state ≠ .detachedRunning ∧ context.state ≠ .starting then
    fail context event "expected state 'STARTING' or 'DETACHED_RUNNING'"
  else
    .ok { context with
      state := .failed
      failureReason := some error
      updatedAt := some event.timestamp }

def reduceFlowAborted (context : RunFlowContext) (event : RunFlowEvent)
    (supersededBy : Option String) : Except RunFlowTransitionError RunFlowContext :=
  match supersededBy with
  | some survivor =>
      if survivor = event.flowId then
        fail context event "supersededBy names the flow itself — a flow cannot supersede itself"
      else
        .ok { context with
          state := .cancelled
          cancelReason := some .superseded
          supersededBy := some survivor
          updatedAt := some event.timestamp }
  | none =>
      .ok { context with
        state := .cancelled
        cancelReason := some .aborted
        updatedAt := some event.timestamp }

/-- The next context, or the error of a transition that no circumstance allows. -/
def reduceRunFlow (context : RunFlowContext) (event : RunFlowEvent) :
    Except RunFlowTransitionError RunFlowContext :=
  if event.schemaVersion ≠ runFlowEventSchemaVersion then
    fail context event ("unsupported event schemaVersion " ++ toString event.schemaVersion)
  else if context.flowId.any fun flowId => event.flowId ≠ flowId then
    fail context event ("event.flowId '" ++ event.flowId ++ "' does not match context.flowId '"
      ++ context.flowId.getD "" ++ "'")
  else if isTerminalRunFlowState context.state then
    fail context event "state is terminal — no further transitions are ever accepted"
  else
    match event.payload with
    | .proposalSubmitted proposal => reduceProposalSubmitted context event proposal
    | .previewStarted revision => reducePreviewStarted context event revision
    | .previewReady preview => reducePreviewReady context event preview
    | .approvalGranted revision planDigest approvedBy =>
        reduceApprovalGranted context event revision planDigest approvedBy
    | .approvalRejected _ _ => reduceApprovalRejected context event
    | .startRequested revision planDigest => reduceStartRequested context event revision planDigest
    | .runStarted handle => reduceRunStarted context event handle
    | .runCompleted _ => reduceRunCompleted context event
    | .runPaused reason resumeCommand => reduceRunPaused context event reason resumeCommand
    | .runFailed error => reduceRunFailed context event error
    | .flowAborted _ supersededBy => reduceFlowAborted context event supersededBy

end Deckent.RunFlow
