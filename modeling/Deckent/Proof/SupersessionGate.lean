import Deckent.Proof.RunFlowCoordinator

/-!
# The abort of a superseded flow

The sweep looks at a flow, finds it waiting for its approval and then aborts it by a command of its own.
While the look and the append are apart, other coordinators commit. If none of them approves the flow,
it stays parked: it waits or it is closed. On a parked flow the abort is accepted only while the flow
waits.
-/

namespace Deckent.RunFlow

variable {hashPayload : List RunFlowEvent → String} {store store' : RunFlowStore}
  {flows flows' : FlowCache} {log more : List RunFlowEvent} {flowId : String}

/-! ### Parked flows -/

def RunFlowPayload.isApproval : RunFlowPayload → Bool
  | approvalGranted _ _ _ => true
  | _ => false

def Waits (log : List RunFlowEvent) : Prop :=
  ∃ context, replay reduceRunFlow createInitialRunFlowContext log = .ok context
    ∧ context.state = .awaitingApproval

def Parked (log : List RunFlowEvent) : Prop :=
  ∃ context, replay reduceRunFlow createInitialRunFlowContext log = .ok context
    ∧ (context.state = .awaitingApproval ∨ isTerminalRunFlowState context.state = true)

theorem Parked.waits (hparked : Parked log) {event : RunFlowEvent}
    (hreplays : Replays (log ++ [event])) : Waits log := by
  obtain ⟨context, hcontext, hstate⟩ := hparked
  obtain ⟨next, hnext⟩ := hreplays
  obtain ⟨middle, hmiddle, hreduce⟩ := replay_concat_ok.mp hnext
  obtain rfl : middle = context := by simpa [hcontext] using hmiddle.symm
  refine ⟨middle, hcontext, hstate.resolve_right ?_⟩
  rw [(admits_of_reduce hreduce).live]
  simp

theorem Parked.append (hparked : Parked log) (hreplays : Replays (log ++ more))
    (hquiet : ∀ event ∈ more, event.payload.isApproval = false) : Parked (log ++ more) := by
  induction more generalizing log with
  | nil => rwa [List.append_nil]
  | cons event rest ih =>
      have hsplit : log ++ event :: rest = (log ++ [event]) ++ rest := by simp
      rw [hsplit] at hreplays ⊢
      obtain ⟨final, hfinal⟩ := hreplays
      obtain ⟨next, hnext⟩ := replay_of_append hfinal
      obtain ⟨context, hcontext, hwaiting⟩ := hparked.waits ⟨next, hnext⟩
      obtain ⟨middle, hmiddle, hreduce⟩ := replay_concat_ok.mp hnext
      obtain rfl : middle = context := by simpa [hcontext] using hmiddle.symm
      apply ih _ ⟨final, hfinal⟩
      · intro other hother
        exact hquiet other (List.mem_cons_of_mem _ hother)
      · refine ⟨next, hnext, .inr ?_⟩
        rcases (awaiting_of_reduce hwaiting hreduce).2 with ⟨_, _, _, hpayload⟩ | hterminal
        · have happroval := hquiet event List.mem_cons_self
          simp [hpayload, RunFlowPayload.isApproval] at happroval
        · exact hterminal

/-! ### Marks of the sweep -/

def isSweepId (flowId commandId : String) : Bool :=
  ("superseded-" ++ flowId ++ "-by-").toList.isPrefixOf commandId.toList

def isSweepEvent (flowId : String) (event : RunFlowEvent) : Bool :=
  event.commandId.any (isSweepId flowId)

def Swept (flowId : String) (log : List RunFlowEvent) : Prop :=
  ∃ event ∈ log, isSweepEvent flowId event = true

theorem Swept.mono {later : List RunFlowEvent} (hswept : Swept flowId log) (hgrows : log <+: later) :
    Swept flowId later := by
  obtain ⟨event, hevent, hmark⟩ := hswept
  exact ⟨event, hgrows.subset hevent, hmark⟩

theorem isSweepId_supersede (entry : SupersededFlowEntry) :
    isSweepId entry.flowId ("superseded-" ++ entry.flowId ++ "-by-" ++ entry.supersededBy) = true := by
  have hsplit : ("superseded-" ++ entry.flowId ++ "-by-" ++ entry.supersededBy).toList
      = ("superseded-" ++ entry.flowId ++ "-by-").toList ++ entry.supersededBy.toList :=
    String.toList_append
  unfold isSweepId
  rw [hsplit, List.isPrefixOf_iff_prefix]
  apply List.prefix_append

theorem swept_of_commandId {entry : SupersededFlowEntry}
    (hcommitted : ∃ event ∈ log, event.commandId = (supersedeCommand entry).commandId) :
    Swept entry.flowId log := by
  obtain ⟨event, hevent, hcarries⟩ := hcommitted
  refine ⟨event, hevent, ?_⟩
  unfold isSweepEvent
  rw [hcarries]
  exact isSweepId_supersede entry

/-! ### What a call appends -/

theorem exists_of_mem_assigned {head : Nat} {events : List RunFlowEvent} {event : RunFlowEvent}
    (hevent : event ∈ (assignSequences head events).map EventRow.event) :
    ∃ original ∈ events, ∃ sequence, event = { original with sequence := sequence } := by
  obtain ⟨row, hrow, rfl⟩ := List.mem_map.mp hevent
  unfold assignSequences at hrow
  obtain ⟨index, hindex, rfl⟩ := List.mem_mapIdx.mp hrow
  exact ⟨events[index], List.getElem_mem hindex, _, rfl⟩

structure Appends (store store' : RunFlowStore) (command : RunFlowCommand) (now : Nat → String) :
    Prop where
  others : ∀ flowId, flowId ≠ command.flowId → store'.log flowId = store.log flowId
  log : store'.log command.flowId = store.log command.flowId
    ++ (assignSequences (store.log command.flowId).length (command.buildEvents now)).map EventRow.event

theorem Committed.appends {job : Job} {flow : FlowState} {now : Nat → String}
    {context : RunFlowContext} {lastSequence : Nat} {table : FlowTable}
    (hcommitted : Committed store job flow (job.command.buildEvents now) context lastSequence table) :
    Appends store (store.write job.command.flowId table) job.command now where
  others := by
    intro flowId hflowId
    rw [RunFlowStore.log_write, if_neg hflowId]
  log := by rw [RunFlowStore.log_write, if_pos rfl, hcommitted.log]

theorem log_of_callStep {answer : Answer} (hstore : store.Consistent) (hflows : flows.Sound store)
    {call call' : Call} (hcall : call.Sound store flows)
    (hstep : CallStep hashPayload answer store flows call store' flows' call') :
    (∀ flowId, store'.log flowId = store.log flowId)
      ∨ ∃ job retried flow now context,
        call = .append job retried flow (job.command.buildEvents now) context
          ∧ Appends store store' job.command now := by
  cases hstep with
  | uncertain job retried flow batch context result table hcommit hresult
  | committed job retried flow batch context result table hcommit hresult =>
      have hcommitted := committed_of_commitOf hstore hflows hcall hcommit hresult
      obtain ⟨now, rfl⟩ := hcall.2.1
      exact .inr ⟨job, retried, flow, now, context, rfl, hcommitted.appends⟩
  | _ => exact .inl fun _ => rfl

/-! ### The abort under way -/

section Abort

variable {answer : Answer} {call call' : Call} {command : RunFlowCommand}
  {entry : SupersededFlowEntry} {swept swept' : Prop}

def Goal.Runs (command : RunFlowCommand) : Goal → Prop
  | .getFlow => False
  | .beforeAbort abort => RunFlowCommand.abortFlow abort = command
  | .attempt job _ | .retry job | .duplicate job => job.command = command
  | .surface _ => True

def Call.Runs (command : RunFlowCommand) : Call → Prop
  | .ensureFlowLoaded _ goal | .probeHead _ _ goal | .foldFromDisk _ _ goal | .loaded _ _ goal =>
      goal.Runs command
  | .loadApprovedSnapshot abort => RunFlowCommand.abortFlow abort = command
  | .append job _ _ _ _ => job.command = command
  | .retireSprint _ _ | .ended _ => True
  | _ => False

theorem runs_finish (job : Job) (outcome : Outcome) : (finish job outcome).Runs command := by
  unfold finish
  split
  · split <;> trivial
  · trivial

theorem runs_afterAppendError {job : Job} (retried : Bool) (flow : FlowState)
    (batch : List RunFlowEvent) (error : RunFlowStoreError) (hjob : job.command = command) :
    (afterAppendError job retried flow batch error).Runs command := by
  unfold afterAppendError
  simp only
  split
  · exact hjob
  · split <;> trivial

theorem runs_afterLoad (flow : FlowState) (now : Nat → String) {goal : Goal}
    (hgoal : goal.Runs command) : (afterLoad flow now goal).Runs command := by
  cases goal with
  | getFlow => exact False.elim hgoal
  | beforeAbort abort =>
      rw [afterLoad]
      split <;> exact hgoal
  | attempt job retried =>
      rw [afterLoad]
      unfold reduceCommand
      split
      · apply runs_finish
      · simp only
        split
        · trivial
        · exact hgoal
  | retry job => exact hgoal
  | duplicate job => apply runs_finish
  | surface error => trivial

theorem runs_step (hruns : call.Runs command)
    (hstep : CallStep hashPayload answer store flows call store' flows' call') :
    call'.Runs command := by
  cases hstep with
  | fault | unfoldable | retireSprint => trivial
  | proceed flowId goal flow now => exact runs_afterLoad flow now hruns
  | refused job retried flow batch context error =>
      exact runs_afterAppendError retried flow batch error hruns
  | uncertain job retried flow batch context result table _ _ =>
      exact runs_afterAppendError retried flow batch _ hruns
  | committed job retried flow batch context result table _ _ => apply runs_finish
  | present | absent | legacySnapshot | derived | missing => exact False.elim hruns
  | _ => exact hruns

/-- An outcome that did not throw shows that the flow was swept. -/
def Outcome.Claims (swept : Prop) (outcome : Outcome) : Prop :=
  ∀ context, outcome.result = .ok context → swept

def Goal.Claims (swept : Prop) : Goal → Prop
  | .duplicate _ => swept
  | _ => True

def Call.Claims (swept : Prop) : Call → Prop
  | .ensureFlowLoaded _ goal | .probeHead _ _ goal | .foldFromDisk _ _ goal | .loaded _ _ goal =>
      goal.Claims swept
  | .retireSprint _ outcome | .ended outcome => outcome.Claims swept
  | _ => True

theorem Call.Claims.imp (hclaims : call.Claims swept) (himp : swept → swept') :
    call.Claims swept' := by
  have hgoal : ∀ goal : Goal, goal.Claims swept → goal.Claims swept' := by
    intro goal hgoal
    cases goal with
    | duplicate job => exact himp hgoal
    | _ => trivial
  cases call with
  | ensureFlowLoaded flowId goal => exact hgoal goal hclaims
  | probeHead flowId cached goal => exact hgoal goal hclaims
  | foldFromDisk flowId state goal => exact hgoal goal hclaims
  | loaded flowId flow goal => exact hgoal goal hclaims
  | retireSprint _ outcome | ended outcome =>
      exact fun context hresult => himp (hclaims context hresult)
  | _ => trivial

theorem claims_threw (error : CoordinatorError) : (Call.ended (.threw error)).Claims swept := by
  intro context hresult
  simp [Outcome.result] at hresult

theorem claims_finish (job : Job) (outcome : Outcome) (hswept : swept) :
    (finish job outcome).Claims swept := by
  unfold finish
  split
  · split <;> exact fun _ _ => hswept
  · exact fun _ _ => hswept

theorem claims_afterAppendError (job : Job) (retried : Bool) (flow : FlowState)
    (batch : List RunFlowEvent) (error : RunFlowStoreError) :
    (afterAppendError job retried flow batch error).Claims swept := by
  unfold afterAppendError
  simp only
  split
  · trivial
  · split
    · trivial
    · apply claims_threw

theorem claims_afterLoad {flow : FlowState} {now : Nat → String} {goal : Goal}
    (hruns : goal.Runs command)
    (hknown : ∀ job retried, goal = .attempt job retried →
      ∀ commandId ∈ flow.commandIds, command.commandId = some commandId → swept)
    (hclaims : goal.Claims swept) : (afterLoad flow now goal).Claims swept := by
  cases goal with
  | getFlow => exact False.elim hruns
  | beforeAbort abort =>
      rw [afterLoad]
      split <;> trivial
  | attempt job retried =>
      obtain rfl : job.command = command := hruns
      rw [afterLoad]
      unfold reduceCommand
      split
      · next hcontains =>
        obtain ⟨commandId, hcommandId, hmem⟩ := (Option.any_eq_true _ _).mp hcontains
        have hmem : commandId ∈ flow.commandIds := of_decide_eq_true hmem
        exact claims_finish job _ (hknown job retried rfl commandId hmem hcommandId)
      · simp only
        split
        · apply claims_threw
        · trivial
  | retry job => trivial
  | duplicate job => exact claims_finish job _ hclaims
  | surface error => apply claims_threw

theorem swept_of_appends {now : Nat → String}
    (happends : Appends store store' (.abortFlow (supersedeCommand entry)) now) :
    Swept entry.flowId (store'.log entry.flowId) := by
  apply swept_of_commandId
  have hlog := happends.log
  rw [show (RunFlowCommand.abortFlow (supersedeCommand entry)).flowId = entry.flowId from rfl] at hlog
  rw [hlog]
  exact ⟨_, List.mem_append_right _ List.mem_cons_self, rfl⟩

theorem claims_step (hstore : store.Consistent) (hflows : flows.Sound store)
    (hcall : call.Sound store flows) (hruns : call.Runs (.abortFlow (supersedeCommand entry)))
    (hclaims : call.Claims (Swept entry.flowId (store.log entry.flowId)))
    (hstep : CallStep hashPayload answer store flows call store' flows' call') :
    call'.Claims (Swept entry.flowId (store'.log entry.flowId)) := by
  cases hstep with
  | fault | unfoldable | missing => apply claims_threw
  | proceed flowId goal flow now =>
      apply claims_afterLoad hruns _ hclaims
      rintro job retried rfl commandId hmem hcommandId
      have hjob : job.command = .abortFlow (supersedeCommand entry) := hruns
      have hflowId : job.command.flowId = flowId := hcall.2
      obtain rfl : entry.flowId = flowId := by
        rw [← hflowId, hjob]
        rfl
      apply swept_of_commandId
      obtain ⟨event, hevent, hcarries⟩ := ((hflows _ _ hcall.1).commandIds commandId).mp hmem
      exact ⟨event, List.mem_of_mem_take hevent, hcarries.trans hcommandId.symm⟩
  | refused job retried flow batch context error => apply claims_afterAppendError
  | known job retried flow batch context result table hcommit hresult =>
      have hjob : job.command = .abortFlow (supersedeCommand entry) := hruns
      rcases appendFlowEvents_cases hstore hflows hcall hcommit with
        ⟨-, commandId, row, hcommandId, hrow⟩ | ⟨happlied, -⟩
      · rw [hjob] at hcommandId hrow
        obtain ⟨before, batch, after, hbatch⟩ := (hstore _).batches commandId row hrow
        obtain ⟨event, hevent⟩ := List.exists_mem_of_ne_nil _ hbatch.nonempty
        apply swept_of_commandId
        refine ⟨event, ?_, (hbatch.carries event hevent).trans hcommandId.symm⟩
        have hsplit : store.log entry.flowId = before ++ batch ++ after := hbatch.split
        rw [hsplit]
        exact List.mem_append_left _ (List.mem_append_right _ hevent)
      · simp [hresult] at happlied
  | uncertain job retried flow batch context result table hcommit hresult =>
      apply claims_afterAppendError
  | committed job retried flow batch context result table hcommit hresult =>
      apply claims_finish
      have hjob : job.command = .abortFlow (supersedeCommand entry) := hruns
      have hcommitted := committed_of_commitOf hstore hflows hcall hcommit hresult
      obtain ⟨now, rfl⟩ := hcall.2.1
      have happends := hcommitted.appends
      rw [hjob] at happends ⊢
      exact swept_of_appends happends
  | present | absent | legacySnapshot | derived => exact False.elim hruns
  | _ => exact hclaims

structure Call.Retires (store : RunFlowStore) (entry : SupersededFlowEntry) (call : Call) : Prop where
  runs : call.Runs (.abortFlow (supersedeCommand entry))
  claims : call.Claims (Swept entry.flowId (store.log entry.flowId))
  parked : (∀ outcome, call ≠ .ended outcome) → Parked (store.log entry.flowId)

theorem retires_beginCommand (hparked : Parked (store.log entry.flowId)) :
    (beginCommand (.abortFlow (supersedeCommand entry))).Retires store entry :=
  ⟨rfl, trivial, fun _ => hparked⟩

theorem not_approval_of_supersede {now : Nat → String} {head : Nat} {event : RunFlowEvent}
    (hevent : event ∈ (assignSequences head
      ((RunFlowCommand.abortFlow (supersedeCommand entry)).buildEvents now)).map EventRow.event) :
    event.payload.isApproval = false := by
  obtain ⟨original, horiginal, sequence, rfl⟩ := exists_of_mem_assigned hevent
  rw [List.mem_singleton.mp horiginal]
  rfl

theorem retires_step (hstore : store.Consistent) (hflows : flows.Sound store)
    (hcall : call.Sound store flows) (hretires : call.Retires store entry)
    (hended : ∀ outcome, call ≠ .ended outcome)
    (hstep : CallStep hashPayload answer store flows call store' flows' call') :
    call'.Retires store' entry := by
  have hkept := kept_step hstore hflows hcall hstep
  refine ⟨runs_step hretires.runs hstep,
    claims_step hstore hflows hcall hretires.runs hretires.claims hstep, ?_⟩
  intro _
  have hparked := hretires.parked hended
  rcases log_of_callStep hstore hflows hcall hstep with hsame | ⟨job, retried, flow, now, context, rfl, happends⟩
  · rwa [hsame]
  · have hruns := hretires.runs
    have hjob : job.command = .abortFlow (supersedeCommand entry) := hruns
    rw [hjob] at happends
    have hlog := happends.log
    have hreplays := (hkept.consistent entry.flowId).replays
    change Replays (store'.log entry.flowId) at hreplays
    change store'.log entry.flowId = _ at hlog
    rw [hlog] at hreplays ⊢
    exact hparked.append hreplays fun event hevent => not_approval_of_supersede hevent

theorem waits_of_retires (hstore : store.Consistent) (hflows : flows.Sound store)
    (hcall : call.Sound store flows) (hretires : call.Retires store entry)
    (hstep : CallStep hashPayload answer store flows call store' flows' call')
    (hgrew : store'.log entry.flowId ≠ store.log entry.flowId) :
    Waits (store.log entry.flowId)
      ∧ ∃ event, store'.log entry.flowId = store.log entry.flowId ++ [event] := by
  have hkept := kept_step hstore hflows hcall hstep
  rcases log_of_callStep hstore hflows hcall hstep with hsame | ⟨job, retried, flow, now, context, rfl, happends⟩
  · exact absurd (hsame _) hgrew
  · have hruns := hretires.runs
    have hjob : job.command = .abortFlow (supersedeCommand entry) := hruns
    rw [hjob] at happends
    have hlog := happends.log
    have hreplays := (hkept.consistent entry.flowId).replays
    change Replays (store'.log entry.flowId) at hreplays
    change store'.log entry.flowId = store.log entry.flowId ++ [_] at hlog
    rw [hlog] at hreplays
    exact ⟨(hretires.parked (by simp)).waits hreplays, _, hlog⟩

end Abort

/-! ### The look before the abort -/

section Recheck

variable {answer : Answer} {call call' : Call} {parked : Prop} {state : FlowState}

def Call.Rechecks (flowId : String) (parked : Prop) : Call → Prop
  | .ensureFlowLoaded target goal | .probeHead target _ goal | .foldFromDisk target _ goal =>
      target = flowId ∧ goal = .getFlow
  | .loaded target flow goal =>
      target = flowId ∧ goal = .getFlow ∧ (flow.context.state = supersedableState → parked)
  | .lookup target | .legacySnapshot target | .legacyHandle target _ => target = flowId
  | .ended outcome => ∀ context, outcome.result = .ok context → context.state = supersedableState → parked
  | _ => False

theorem rechecks_beginGetFlow : (beginGetFlow flows flowId).Rechecks flowId parked := by
  unfold beginGetFlow
  split
  · exact ⟨rfl, rfl⟩
  · rfl

theorem parked_of_whole (hreplica : Replica log state) (hwhole : log.length ≤ state.headSequence)
    (hstate : state.context.state = supersedableState) : Parked log := by
  refine ⟨state.context, ?_, .inl hstate⟩
  have htake := hreplica.folds.replay_take
  rwa [List.take_of_length_le hwhole] at htake

theorem deriveLegacyContext_ne {stored : Option StoredApprovedSnapshot}
    {handle : Option StoredRunHandleRecord} {context : RunFlowContext}
    (hderived : deriveLegacyContext flowId stored handle = some context) :
    context.state ≠ supersedableState := by
  unfold deriveLegacyContext at hderived
  split at hderived
  · simp at hderived
  · cases hderived
    simp [supersedableState]
  · cases hderived
    simp [supersedableState]

theorem rechecks_step (hstore : store.Consistent) (hflows : flows.Sound store)
    (hcall : call.Sound store flows)
    (hrechecks : call.Rechecks flowId (Parked (store.log flowId)))
    (hstep : CallStep hashPayload answer store flows call store' flows' call') :
    call'.Rechecks flowId (Parked (store'.log flowId)) := by
  cases hstep with
  | fault | unfoldable | missing =>
      intro context hresult
      simp [Outcome.result] at hresult
  | closed target goal cached hcached hterminal =>
      refine ⟨hrechecks.1, hrechecks.2, ?_⟩
      intro hstate
      simp [hstate, supersedableState, isTerminalRunFlowState] at hterminal
  | current target goal cached hhead =>
      obtain ⟨rfl, hgoal⟩ := hrechecks
      rw [(hstore target).sequenced.head] at hhead
      exact ⟨rfl, hgoal, parked_of_whole (hflows _ _ hcall.1) hhead⟩
  | lastPage target goal state state' hfold hshort =>
      obtain ⟨rfl, hgoal⟩ := hrechecks
      exact ⟨rfl, hgoal, parked_of_whole (replica_of_foldPage hstore hcall.1 hfold)
        (length_le_of_short hstore hcall.1 hfold hshort)⟩
  | proceed target goal flow now =>
      obtain ⟨rfl, rfl, hparked⟩ := hrechecks
      rintro context ⟨⟩ hstate
      exact hparked hstate
  | present target => exact ⟨hrechecks, rfl⟩
  | derived target stored handle context hderived =>
      rintro _ ⟨⟩ hstate
      exact absurd hstate (deriveLegacyContext_ne hderived)
  | snapshot | refused | known | uncertain | committed | retireSprint => exact False.elim hrechecks
  | _ => exact hrechecks

end Recheck

end Deckent.RunFlow
