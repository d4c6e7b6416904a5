import Deckent.Lib.EventLog
import Deckent.Model.RunFlow

/-!
# What an accepted event does to a run flow

Every accepted event makes one of nine moves. The moves along the happy path write one payload each, a
replay changes nothing, and every other accepted event halts the flow: it only writes the terminal
state and its reasons.
-/

namespace Deckent.RunFlow

variable {context next : RunFlowContext} {event : RunFlowEvent}

/-- The moves of a run flow under an event. -/
inductive Move (event : RunFlowEvent) (context : RunFlowContext) : RunFlowContext → Prop
  | propose (proposal : RunProposal) (hpayload : event.payload = .proposalSubmitted proposal)
      (hstate : context.state = .collecting) (hflow : proposal.flowId = event.flowId) :
      Move event context { context with
        state := .proposalReady
        flowId := some event.flowId
        proposal := some proposal
        updatedAt := some event.timestamp }
  | previewStart (proposal : RunProposal) (hpayload : event.payload = .previewStarted proposal.revision)
      (hstate : context.state = .proposalReady) (hproposal : context.proposal = some proposal) :
      Move event context { context with state := .previewing, updatedAt := some event.timestamp }
  | previewReady (preview : PlanPreview) (hpayload : event.payload = .previewReady preview)
      (hstate : context.state = .previewing) (hflow : preview.flowId = event.flowId) :
      Move event context { context with
        state := .awaitingApproval
        preview := some preview
        updatedAt := some event.timestamp }
  | approve (preview : PlanPreview) (approvedBy : ActorContext)
      (hpayload : event.payload = .approvalGranted preview.revision preview.planDigest approvedBy)
      (hstate : context.state = .awaitingApproval) (hpreview : context.preview = some preview) :
      Move event context { context with
        state := .approved
        approvedSnapshot := some {
          flowId := context.flowId.getD ""
          revision := preview.revision
          planDigest := preview.planDigest
          approvedBy := approvedBy
          approvedAt := event.timestamp }
        updatedAt := some event.timestamp }
  | start (snapshot : ApprovedPlanSnapshot)
      (hpayload : event.payload = .startRequested snapshot.revision snapshot.planDigest)
      (hstate : context.state = .approved) (hsnapshot : context.approvedSnapshot = some snapshot) :
      Move event context { context with state := .starting, updatedAt := some event.timestamp }
  | runStart (handle : RunHandle) (hpayload : event.payload = .runStarted handle)
      (hstate : context.state = .starting) :
      Move event context { context with
        state := .detachedRunning
        handle := some handle
        updatedAt := some event.timestamp }
  | complete (hstate : context.state = .detachedRunning) :
      Move event context { context with state := .completed, updatedAt := some event.timestamp }
  | replayed (hstate : context.state = .approved ∨ context.state = .starting
      ∨ context.state = .detachedRunning) : Move event context context
  | halt (state : RunFlowState) (cancelReason : Option RunFlowCancelReason)
      (supersededBy blockedReason failureReason : Option String)
      (hterminal : state = .cancelled ∨ state = .blocked ∨ state = .failed) :
      Move event context { context with
        state := state
        cancelReason := cancelReason
        supersededBy := supersededBy
        blockedReason := blockedReason
        failureReason := failureReason
        updatedAt := some event.timestamp }

theorem fail_ne_ok (detail : String) : fail context event detail ≠ .ok next := by
  simp [fail]

theorem matchesRevisionDigest_iff {revision againstRevision : Int}
    {planDigest againstDigest : String} :
    matchesRevisionDigest revision planDigest againstRevision againstDigest = true
      ↔ revision = againstRevision ∧ planDigest = againstDigest := by
  simp only [matchesRevisionDigest, Bool.and_eq_true, decide_eq_true_eq]
  constructor
  · rintro ⟨hrevision, hdigest⟩
    exact ⟨hrevision.symm, hdigest.symm⟩
  · rintro ⟨hrevision, hdigest⟩
    exact ⟨hrevision.symm, hdigest.symm⟩

theorem move_block (reason : String) : Move event context (block context event reason) := by
  apply Move.halt
  simp

theorem move_replayOrBlock (revision : Int) (planDigest conflict : String)
    (hstate : context.state = .approved ∨ context.state = .starting
      ∨ context.state = .detachedRunning) :
    Move event context (replayOrBlock context event revision planDigest conflict) := by
  unfold replayOrBlock
  split
  · exact .replayed hstate
  · apply move_block

/-! ### The handlers -/

theorem move_reduceProposalSubmitted {proposal : RunProposal}
    (hpayload : event.payload = .proposalSubmitted proposal)
    (hreduce : reduceProposalSubmitted context event proposal = .ok next) :
    Move event context next := by
  unfold reduceProposalSubmitted at hreduce
  split at hreduce
  · exact absurd hreduce (fail_ne_ok _)
  · split at hreduce
    · exact absurd hreduce (fail_ne_ok _)
    · obtain rfl := Except.ok.inj hreduce
      apply Move.propose proposal hpayload <;> simp_all

theorem move_reducePreviewStarted {revision : Int}
    (hpayload : event.payload = .previewStarted revision)
    (hreduce : reducePreviewStarted context event revision = .ok next) :
    Move event context next := by
  unfold reducePreviewStarted at hreduce
  split at hreduce
  · exact absurd hreduce (fail_ne_ok _)
  · split at hreduce
    · exact absurd hreduce (fail_ne_ok _)
    · split at hreduce
      · exact absurd hreduce (fail_ne_ok _)
      · obtain rfl := Except.ok.inj hreduce
        rename_i proposal hproposal hrevision
        apply Move.previewStart proposal <;> simp_all

theorem move_reducePreviewReady {preview : PlanPreview}
    (hpayload : event.payload = .previewReady preview)
    (hreduce : reducePreviewReady context event preview = .ok next) :
    Move event context next := by
  unfold reducePreviewReady at hreduce
  split at hreduce
  · exact absurd hreduce (fail_ne_ok _)
  · split at hreduce
    · exact absurd hreduce (fail_ne_ok _)
    · obtain rfl := Except.ok.inj hreduce
      apply Move.previewReady preview hpayload <;> simp_all

theorem move_reduceApprovalGranted {revision : Int} {planDigest : String}
    {approvedBy : ActorContext}
    (hpayload : event.payload = .approvalGranted revision planDigest approvedBy)
    (hreduce : reduceApprovalGranted context event revision planDigest approvedBy = .ok next) :
    Move event context next := by
  unfold reduceApprovalGranted at hreduce
  split at hreduce
  · next hstate =>
    split at hreduce
    · exact absurd hreduce (fail_ne_ok _)
    · next preview hpreview =>
      split at hreduce
      · next hmatches =>
        obtain ⟨rfl, rfl⟩ := matchesRevisionDigest_iff.mp hmatches
        obtain rfl := Except.ok.inj hreduce
        exact .approve preview approvedBy hpayload hstate hpreview
      · obtain rfl := Except.ok.inj hreduce
        apply move_block
  · split at hreduce
    · next hstate =>
      obtain rfl := Except.ok.inj hreduce
      apply move_replayOrBlock
      exact .inl hstate
    · exact absurd hreduce (fail_ne_ok _)

theorem move_reduceApprovalRejected (hreduce : reduceApprovalRejected context event = .ok next) :
    Move event context next := by
  unfold reduceApprovalRejected at hreduce
  split at hreduce
  · exact absurd hreduce (fail_ne_ok _)
  · obtain rfl := Except.ok.inj hreduce
    apply Move.halt
    simp

theorem move_reduceStartRequested {revision : Int} {planDigest : String}
    (hpayload : event.payload = .startRequested revision planDigest)
    (hreduce : reduceStartRequested context event revision planDigest = .ok next) :
    Move event context next := by
  unfold reduceStartRequested at hreduce
  split at hreduce
  · next hstate =>
    split at hreduce
    · exact absurd hreduce (fail_ne_ok _)
    · next snapshot hsnapshot =>
      split at hreduce
      · next hmatches =>
        obtain ⟨rfl, rfl⟩ := matchesRevisionDigest_iff.mp hmatches
        obtain rfl := Except.ok.inj hreduce
        exact .start snapshot hpayload hstate hsnapshot
      · obtain rfl := Except.ok.inj hreduce
        apply move_block
  · split at hreduce
    · next hstate =>
      obtain rfl := Except.ok.inj hreduce
      apply move_replayOrBlock
      exact .inr hstate
    · exact absurd hreduce (fail_ne_ok _)

theorem move_reduceRunStarted {handle : RunHandle} (hpayload : event.payload = .runStarted handle)
    (hreduce : reduceRunStarted context event handle = .ok next) : Move event context next := by
  unfold reduceRunStarted at hreduce
  split at hreduce
  · next hstate =>
    obtain rfl := Except.ok.inj hreduce
    exact .runStart handle hpayload hstate
  · split at hreduce
    · next hstate =>
      obtain rfl := Except.ok.inj hreduce
      exact .replayed (.inr (.inr hstate.1))
    · exact absurd hreduce (fail_ne_ok _)

theorem move_reduceRunCompleted (hreduce : reduceRunCompleted context event = .ok next) :
    Move event context next := by
  unfold reduceRunCompleted at hreduce
  split at hreduce
  · exact absurd hreduce (fail_ne_ok _)
  · next hstate =>
    obtain rfl := Except.ok.inj hreduce
    exact .complete (not_not.mp hstate)

theorem move_reduceRunPaused {reason : String} {resumeCommand : Option String}
    (hreduce : reduceRunPaused context event reason resumeCommand = .ok next) :
    Move event context next := by
  unfold reduceRunPaused at hreduce
  split at hreduce
  · exact absurd hreduce (fail_ne_ok _)
  · obtain rfl := Except.ok.inj hreduce
    apply move_block

theorem move_reduceRunFailed {error : String}
    (hreduce : reduceRunFailed context event error = .ok next) : Move event context next := by
  unfold reduceRunFailed at hreduce
  split at hreduce
  · exact absurd hreduce (fail_ne_ok _)
  · obtain rfl := Except.ok.inj hreduce
    apply Move.halt
    simp

theorem move_reduceFlowAborted {supersededBy : Option String}
    (hreduce : reduceFlowAborted context event supersededBy = .ok next) :
    Move event context next := by
  unfold reduceFlowAborted at hreduce
  split at hreduce
  · split at hreduce
    · exact absurd hreduce (fail_ne_ok _)
    · obtain rfl := Except.ok.inj hreduce
      apply Move.halt
      simp
  · obtain rfl := Except.ok.inj hreduce
    apply Move.halt
    simp

/-! ### The reducer -/

structure Admits (context : RunFlowContext) (event : RunFlowEvent) : Prop where
  schemaVersion : event.schemaVersion = runFlowEventSchemaVersion
  flowId : ∀ flowId ∈ context.flowId, event.flowId = flowId
  live : isTerminalRunFlowState context.state = false

theorem admits_of_reduce (hreduce : reduceRunFlow context event = .ok next) :
    Admits context event := by
  unfold reduceRunFlow at hreduce
  split at hreduce
  · exact absurd hreduce (fail_ne_ok _)
  · next hversion =>
    split at hreduce
    · exact absurd hreduce (fail_ne_ok _)
    · next hflow =>
      split at hreduce
      · exact absurd hreduce (fail_ne_ok _)
      · next hlive =>
        constructor
        · exact not_not.mp hversion
        · intro flowId hflowId
          by_contra hne
          apply hflow
          simp_all
        · simpa using hlive

/-- An accepted event makes one of the moves. -/
theorem move_of_reduce (hreduce : reduceRunFlow context event = .ok next) :
    Move event context next := by
  have hadmits := admits_of_reduce hreduce
  unfold reduceRunFlow at hreduce
  rw [if_neg (not_not.mpr hadmits.schemaVersion), if_neg, if_neg (by simp [hadmits.live])] at hreduce
  · cases hpayload : event.payload with
    | proposalSubmitted proposal =>
        rw [hpayload] at hreduce
        exact move_reduceProposalSubmitted hpayload hreduce
    | previewStarted revision =>
        rw [hpayload] at hreduce
        exact move_reducePreviewStarted hpayload hreduce
    | previewReady preview =>
        rw [hpayload] at hreduce
        exact move_reducePreviewReady hpayload hreduce
    | approvalGranted revision planDigest approvedBy =>
        rw [hpayload] at hreduce
        exact move_reduceApprovalGranted hpayload hreduce
    | approvalRejected revision reason =>
        rw [hpayload] at hreduce
        exact move_reduceApprovalRejected hreduce
    | startRequested revision planDigest =>
        rw [hpayload] at hreduce
        exact move_reduceStartRequested hpayload hreduce
    | runStarted handle =>
        rw [hpayload] at hreduce
        exact move_reduceRunStarted hpayload hreduce
    | runCompleted summary =>
        rw [hpayload] at hreduce
        exact move_reduceRunCompleted hreduce
    | runPaused reason resumeCommand =>
        rw [hpayload] at hreduce
        exact move_reduceRunPaused hreduce
    | runFailed error =>
        rw [hpayload] at hreduce
        exact move_reduceRunFailed hreduce
    | flowAborted reason supersededBy =>
        rw [hpayload] at hreduce
        exact move_reduceFlowAborted hreduce
  · cases hflow : context.flowId with
    | none => simp
    | some flowId => simp [hadmits.flowId flowId hflow]

/-! ### The approval gate -/

def RunFlowState.isDecided : RunFlowState → Bool
  | collecting | proposalReady | previewing | awaitingApproval => false
  | _ => true

theorem awaiting_of_reduce (hstate : context.state = .awaitingApproval)
    (hreduce : reduceRunFlow context event = .ok next) :
    next.state.isDecided = true ∧ ((∃ revision planDigest approvedBy,
        event.payload = .approvalGranted revision planDigest approvedBy)
      ∨ isTerminalRunFlowState next.state = true) := by
  cases move_of_reduce hreduce with
  | approve preview approvedBy hpayload _ _ => exact ⟨rfl, .inl ⟨_, _, _, hpayload⟩⟩
  | halt state _ _ _ _ hterminal => rcases hterminal with rfl | rfl | rfl <;> exact ⟨rfl, .inr rfl⟩
  | replayed hreplayed => simp [hstate] at hreplayed
  | _ => simp_all

theorem isDecided_of_reduce (hstate : context.state.isDecided = true)
    (hreduce : reduceRunFlow context event = .ok next) : next.state.isDecided = true := by
  cases move_of_reduce hreduce with
  | halt state _ _ _ _ hterminal => rcases hterminal with rfl | rfl | rfl <;> rfl
  | replayed _ => exact hstate
  | propose _ _ hstate' _ | previewStart _ _ hstate' _ | previewReady _ _ hstate' _ =>
      rw [hstate'] at hstate
      simp [RunFlowState.isDecided] at hstate
  | _ => rfl

theorem isDecided_of_replay {events : List RunFlowEvent} (hstate : context.state.isDecided = true)
    (hreplay : replay reduceRunFlow context events = .ok next) : next.state.isDecided = true := by
  apply replay_induction _ _ hreplay
  · exact hstate
  · intro _ _ _ _ _ hdecided hreduce
    exact isDecided_of_reduce hdecided hreduce

end Deckent.RunFlow
