import Deckent.Proof.RunFlowTransition

/-!
# A flow runs the plan that was approved

From the approval on, a flow holds a proposal, a preview and an approved snapshot of one revision and
one digest, and its log holds the approval, and from the start on the start after it, under the same
key. Two payloads are taken over unchecked: the revision of a preview is not compared with the
proposal, and the flow id of a handle is not compared with the envelope. The invariant holds along
every log that hands in neither.
-/

namespace Deckent.RunFlow

variable {context next : RunFlowContext} {event : RunFlowEvent} {events : List RunFlowEvent}

def RunFlowState.isApproved : RunFlowState → Bool
  | approved | starting | detachedRunning | completed => true
  | _ => false

def RunFlowState.isStarted : RunFlowState → Bool
  | starting | detachedRunning | completed => true
  | _ => false

def ApprovedPlanSnapshot.IsGrant (snapshot : ApprovedPlanSnapshot) (event : RunFlowEvent) : Prop :=
  event.payload = .approvalGranted snapshot.revision snapshot.planDigest snapshot.approvedBy

def ApprovedPlanSnapshot.IsStart (snapshot : ApprovedPlanSnapshot) (event : RunFlowEvent) : Prop :=
  event.payload = .startRequested snapshot.revision snapshot.planDigest

def ApprovedPlanSnapshot.Recorded (snapshot : ApprovedPlanSnapshot) (state : RunFlowState)
    (events : List RunFlowEvent) : Prop :=
  ∃ grant, snapshot.IsGrant grant ∧ List.Sublist [grant] events
    ∧ (state.isStarted = true →
      ∃ start, snapshot.IsStart start ∧ List.Sublist [grant, start] events)

structure RunsApprovedPlan (events : List RunFlowEvent) (context : RunFlowContext)
    (proposal : RunProposal) (preview : PlanPreview) (snapshot : ApprovedPlanSnapshot) : Prop where
  hproposal : context.proposal = some proposal
  hpreview : context.preview = some preview
  hsnapshot : context.approvedSnapshot = some snapshot
  approvedRevision : snapshot.revision = preview.revision
  approvedDigest : snapshot.planDigest = preview.planDigest
  previewRevision : preview.revision = proposal.revision
  recorded : snapshot.Recorded context.state events

structure OwnPayloads (context : RunFlowContext) : Prop where
  proposal : ∀ proposal ∈ context.proposal, context.flowId = some proposal.flowId
  preview : ∀ preview ∈ context.preview, context.flowId = some preview.flowId
  snapshot : ∀ snapshot ∈ context.approvedSnapshot, context.flowId = some snapshot.flowId
  handle : ∀ handle ∈ context.handle, context.flowId = some handle.flowId

/-- What a log promises of the context it leads to. -/
structure SoundFlow (events : List RunFlowEvent) (context : RunFlowContext) : Prop where
  plan : context.state.isApproved = true →
    ∃ proposal preview snapshot, RunsApprovedPlan events context proposal preview snapshot
  own : OwnPayloads context

/-- The preview is one of the proposal's revision, and the handle of a started run is of its flow. -/
def CarriesOwnPlan (context : RunFlowContext) (event : RunFlowEvent) : Prop :=
  match event.payload with
  | .previewReady preview => ∀ proposal ∈ context.proposal, preview.revision = proposal.revision
  | .runStarted handle => context.state = .starting → handle.flowId = event.flowId
  | _ => True

instance : Decidable (CarriesOwnPlan context event) := by
  unfold CarriesOwnPlan
  split <;> infer_instance

/-! ### The invariant -/

structure FlowInvariant (events : List RunFlowEvent) (context : RunFlowContext) : Prop where
  collecting : context.state = .collecting → context = createInitialRunFlowContext
  proposed : context.state = .proposalReady ∨ context.state = .previewing →
    ∃ proposal, context.proposal = some proposal
  previewed : ∀ preview ∈ context.preview,
    ∃ proposal, context.proposal = some proposal ∧ preview.revision = proposal.revision
  approved : context.state.isApproved = true →
    ∃ preview snapshot, context.preview = some preview ∧ context.approvedSnapshot = some snapshot
      ∧ snapshot.revision = preview.revision ∧ snapshot.planDigest = preview.planDigest
      ∧ snapshot.Recorded context.state events
  own : OwnPayloads context

theorem FlowInvariant.soundFlow (hinvariant : FlowInvariant events context) :
    SoundFlow events context := by
  constructor
  · intro hstate
    obtain ⟨preview, snapshot, hpreview, hsnapshot, hrevision, hdigest, hrecorded⟩ :=
      hinvariant.approved hstate
    obtain ⟨proposal, hproposal, hpreviewRevision⟩ := hinvariant.previewed preview hpreview
    exact ⟨proposal, preview, snapshot, hproposal, hpreview, hsnapshot, hrevision, hdigest,
      hpreviewRevision, hrecorded⟩
  · exact hinvariant.own

theorem flowInvariant_initial : FlowInvariant [] createInitialRunFlowContext where
  collecting := fun _ => rfl
  proposed := by simp [createInitialRunFlowContext]
  previewed := by simp [createInitialRunFlowContext]
  approved := by simp [createInitialRunFlowContext, RunFlowState.isApproved]
  own := by constructor <;> simp [createInitialRunFlowContext]

/-! ### What the log records -/

variable {snapshot : ApprovedPlanSnapshot} {state later : RunFlowState}

theorem ApprovedPlanSnapshot.Recorded.concat (hrecorded : snapshot.Recorded state events)
    (hlater : later.isStarted = true → state.isStarted = true) :
    snapshot.Recorded later (events ++ [event]) := by
  obtain ⟨grant, hgrant, hmem, hstarted⟩ := hrecorded
  refine ⟨grant, hgrant, hmem.trans (List.sublist_append_left _ _), ?_⟩
  intro hstate
  obtain ⟨start, hstart, hsublist⟩ := hstarted (hlater hstate)
  exact ⟨start, hstart, hsublist.trans (List.sublist_append_left _ _)⟩

theorem ApprovedPlanSnapshot.Recorded.concat_start (hrecorded : snapshot.Recorded state events)
    (hstart : snapshot.IsStart event) : snapshot.Recorded later (events ++ [event]) := by
  obtain ⟨grant, hgrant, hmem, -⟩ := hrecorded
  refine ⟨grant, hgrant, hmem.trans (List.sublist_append_left _ _), ?_⟩
  intro _
  exact ⟨event, hstart, hmem.append (List.Sublist.refl [event])⟩

theorem ApprovedPlanSnapshot.recorded_concat_grant (hgrant : snapshot.IsGrant event) :
    snapshot.Recorded .approved (events ++ [event]) := by
  refine ⟨event, hgrant, List.sublist_append_right _ _, ?_⟩
  simp [RunFlowState.isStarted]

/-! ### The invariant is kept -/

theorem FlowInvariant.mono (hinvariant : FlowInvariant events context) :
    FlowInvariant (events ++ [event]) context where
  collecting := hinvariant.collecting
  proposed := hinvariant.proposed
  previewed := hinvariant.previewed
  own := hinvariant.own
  approved := by
    intro hstate
    obtain ⟨preview, snapshot, hpreview, hsnapshot, hrevision, hdigest, hrecorded⟩ :=
      hinvariant.approved hstate
    exact ⟨preview, snapshot, hpreview, hsnapshot, hrevision, hdigest, hrecorded.concat id⟩

theorem flowInvariant_move (hinvariant : FlowInvariant events context)
    (hadmits : Admits context event) (hcarries : CarriesOwnPlan context event)
    (hmove : Move event context next) : FlowInvariant (events ++ [event]) next := by
  have hown := hinvariant.own
  cases hmove with
  | propose proposal hpayload hstate hflow =>
      obtain rfl := hinvariant.collecting hstate
      constructor
      case own => constructor <;> simp [createInitialRunFlowContext, hflow]
      all_goals simp [createInitialRunFlowContext, RunFlowState.isApproved]
  | previewStart proposal hpayload hstate hproposal =>
      constructor
      case previewed => exact hinvariant.previewed
      case own => exact ⟨hown.proposal, hown.preview, hown.snapshot, hown.handle⟩
      all_goals simp [hproposal, RunFlowState.isApproved]
  | previewReady preview hpayload hstate hflow =>
      obtain ⟨proposal, hproposal⟩ := hinvariant.proposed (.inr hstate)
      have hflowId := hown.proposal proposal hproposal
      have hevent := hadmits.flowId _ hflowId
      have hrevision : preview.revision = proposal.revision := by
        unfold CarriesOwnPlan at hcarries
        rw [hpayload] at hcarries
        exact hcarries proposal hproposal
      constructor
      case previewed => simpa [hproposal] using hrevision
      case own =>
        refine ⟨hown.proposal, ?_, hown.snapshot, hown.handle⟩
        simp [hflowId, hflow, hevent]
      all_goals simp [RunFlowState.isApproved]
  | approve preview approvedBy hpayload hstate hpreview =>
      have hflowId := hown.preview preview hpreview
      constructor
      case previewed => exact hinvariant.previewed
      case approved =>
        intro _
        refine ⟨preview, _, hpreview, rfl, rfl, rfl, ?_⟩
        exact ApprovedPlanSnapshot.recorded_concat_grant hpayload
      case own =>
        refine ⟨hown.proposal, hown.preview, ?_, hown.handle⟩
        simp [hflowId]
      all_goals simp
  | start snapshot hpayload hstate hsnapshot =>
      obtain ⟨preview, snapshot', hpreview, hsnapshot', hrevision, hdigest, hrecorded⟩ :=
        hinvariant.approved (by rw [hstate]; rfl)
      obtain rfl : snapshot = snapshot' := by simpa [hsnapshot] using hsnapshot'
      constructor
      case previewed => exact hinvariant.previewed
      case approved =>
        intro _
        exact ⟨preview, snapshot, hpreview, hsnapshot, hrevision, hdigest,
          hrecorded.concat_start hpayload⟩
      case own => exact ⟨hown.proposal, hown.preview, hown.snapshot, hown.handle⟩
      all_goals simp
  | runStart handle hpayload hstate =>
      obtain ⟨preview, snapshot, hpreview, hsnapshot, hrevision, hdigest, hrecorded⟩ :=
        hinvariant.approved (by rw [hstate]; rfl)
      have hflowId := hown.preview preview hpreview
      have hhandle : handle.flowId = event.flowId := by
        unfold CarriesOwnPlan at hcarries
        rw [hpayload] at hcarries
        exact hcarries hstate
      constructor
      case previewed => exact hinvariant.previewed
      case approved =>
        intro _
        refine ⟨preview, snapshot, hpreview, hsnapshot, hrevision, hdigest, hrecorded.concat ?_⟩
        intro _
        rw [hstate]
        rfl
      case own =>
        refine ⟨hown.proposal, hown.preview, hown.snapshot, ?_⟩
        simp [hflowId, hhandle, hadmits.flowId _ hflowId]
      all_goals simp
  | complete hstate =>
      obtain ⟨preview, snapshot, hpreview, hsnapshot, hrevision, hdigest, hrecorded⟩ :=
        hinvariant.approved (by rw [hstate]; rfl)
      constructor
      case previewed => exact hinvariant.previewed
      case approved =>
        intro _
        refine ⟨preview, snapshot, hpreview, hsnapshot, hrevision, hdigest, hrecorded.concat ?_⟩
        intro _
        rw [hstate]
        rfl
      case own => exact ⟨hown.proposal, hown.preview, hown.snapshot, hown.handle⟩
      all_goals simp
  | replayed _ => exact hinvariant.mono
  | halt state cancelReason supersededBy blockedReason failureReason hterminal =>
      constructor
      case previewed => exact hinvariant.previewed
      case own => exact ⟨hown.proposal, hown.preview, hown.snapshot, hown.handle⟩
      all_goals rcases hterminal with rfl | rfl | rfl <;> simp [RunFlowState.isApproved]

/-- Along a log whose previews and handles belong to the flow, every context runs the approved plan. -/
theorem soundFlow_of_replay
    (hreplay : replay reduceRunFlow createInitialRunFlowContext events = .ok context)
    (halong : Along reduceRunFlow CarriesOwnPlan createInitialRunFlowContext events) :
    SoundFlow events context := by
  suffices hinvariant : Along reduceRunFlow CarriesOwnPlan createInitialRunFlowContext events →
      FlowInvariant events context by
    exact (hinvariant halong).soundFlow
  apply replay_induction _ _ hreplay
  · intro _
    exact flowInvariant_initial
  · intro before current event next hbefore hinvariant hreduce halong
    obtain ⟨halong, hcarries⟩ := along_concat.mp halong
    exact flowInvariant_move (hinvariant halong) (admits_of_reduce hreduce)
      (hcarries current hbefore) (move_of_reduce hreduce)

/-! ### A run of one flow -/

def eventOf (payload : RunFlowPayload) : RunFlowEvent :=
  { flowId := "f", timestamp := "2026-07-11T00:00:00.000Z", payload := payload }

/-- From the proposal to the end, with a preview of some revision, a handle of some flow, and each
command delivered twice where the flow accepts it. -/
def deliveredRun (previewRevision : Int) (handleFlow : String) : List RunFlowEvent :=
  let operator : ActorContext := { id := "operator" }
  let handle : RunHandle := { flowId := handleFlow, jobId := "job", logRef := "log" }
  [ eventOf (.proposalSubmitted {
      flowId := "f"
      tenant := "local"
      project := "p"
      actor := operator
      origin := .cli
      revision := 1
      intentSummary := "ship" }),
    eventOf (.previewStarted 1),
    eventOf (.previewReady { flowId := "f", revision := previewRevision, planDigest := "d" }),
    eventOf (.approvalGranted previewRevision "d" operator),
    eventOf (.approvalGranted previewRevision "d" operator),
    eventOf (.startRequested previewRevision "d"),
    eventOf (.startRequested previewRevision "d"),
    eventOf (.runStarted handle),
    eventOf (.runStarted handle),
    eventOf (.runCompleted none) ]

theorem soundFlow_of_replay_deliveredRun :
    ∃ context, replay reduceRunFlow createInitialRunFlowContext (deliveredRun 1 "f") = .ok context
      ∧ context.state = .completed ∧ SoundFlow (deliveredRun 1 "f") context := by
  obtain ⟨context, hreplay, hstate⟩ : ∃ context,
      replay reduceRunFlow createInitialRunFlowContext (deliveredRun 1 "f") = .ok context
        ∧ context.state = .completed :=
    ⟨_, rfl, rfl⟩
  exact ⟨context, hreplay, hstate, soundFlow_of_replay hreplay (by decide +kernel)⟩

/-- A preview of revision 2 under a proposal of revision 1 is approved, and the handle of another flow
is taken over. -/
theorem not_soundFlow_deliveredRun :
    (∃ context,
      replay reduceRunFlow createInitialRunFlowContext ((deliveredRun 2 "f").take 4) = .ok context
        ∧ ¬ SoundFlow ((deliveredRun 2 "f").take 4) context)
      ∧ ∃ context,
        replay reduceRunFlow createInitialRunFlowContext ((deliveredRun 1 "g").take 8) = .ok context
          ∧ ¬ SoundFlow ((deliveredRun 1 "g").take 8) context := by
  constructor
  · refine ⟨_, rfl, ?_⟩
    intro hsound
    obtain ⟨proposal, preview, snapshot, hplan⟩ := hsound.plan rfl
    have hproposal := hplan.hproposal
    have hpreview := hplan.hpreview
    cases hproposal
    cases hpreview
    exact absurd hplan.previewRevision (by decide)
  · refine ⟨_, rfl, ?_⟩
    intro hsound
    exact absurd (hsound.own.handle _ rfl) (by decide)

end Deckent.RunFlow
