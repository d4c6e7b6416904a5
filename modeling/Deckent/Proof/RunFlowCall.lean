import Deckent.Model.RunFlowCoordinator

/-!
# The steps of a call and of a coordinator

What a call can do in one step, said once: which store and cache it leaves and which place it reaches.
Every fact about runs is a case analysis of this relation and of the one that lifts it to a coordinator.
-/

namespace Deckent.RunFlow

variable (hashPayload : List RunFlowEvent → String) (answer : Answer) (store : RunFlowStore)
  (flows : FlowCache)

def nextPage (flowId : String) (state : FlowState) : List RunFlowEvent :=
  readFlowEvents (store.flows flowId) state.headSequence rehydrationPageSize

def commitOf (job : Job) (flow : FlowState) (batch : List RunFlowEvent) :
    Except RunFlowStoreError (AppendFlowEventsResult × FlowTable) :=
  appendFlowEvents hashPayload job.command.flowId batch (some flow.headSequence)
    (store.flows job.command.flowId)

inductive CallStep : Call → RunFlowStore → FlowCache → Call → Prop
  | fault (call : Call) (error : CoordinatorError) (hfault : answer.fault ≠ none) :
      CallStep call store flows (.ended (.threw error))
  | miss (flowId : String) (goal : Goal) (hmiss : flows flowId = none) :
      CallStep (.ensureFlowLoaded flowId goal) store flows (.foldFromDisk flowId .initial goal)
  | closed (flowId : String) (goal : Goal) (cached : FlowState) (hcached : flows flowId = some cached)
      (hterminal : isTerminalRunFlowState cached.context.state = true) :
      CallStep (.ensureFlowLoaded flowId goal) store flows (.loaded flowId cached goal)
  | probe (flowId : String) (goal : Goal) (cached : FlowState) (hcached : flows flowId = some cached) :
      CallStep (.ensureFlowLoaded flowId goal) store flows (.probeHead flowId cached goal)
  | current (flowId : String) (goal : Goal) (cached : FlowState)
      (hhead : readFlowEventHead (store.flows flowId) ≤ cached.headSequence) :
      CallStep (.probeHead flowId cached goal) store flows (.loaded flowId cached goal)
  | stale (flowId : String) (goal : Goal) (cached : FlowState) :
      CallStep (.probeHead flowId cached goal) store flows (.foldFromDisk flowId cached goal)
  | unfoldable (flowId : String) (goal : Goal) (state : FlowState) (error : CoordinatorError)
      (hfold : foldPage flowId state (nextPage store flowId state) = .error error) :
      CallStep (.foldFromDisk flowId state goal) store flows (.ended (.threw error))
  | page (flowId : String) (goal : Goal) (state state' : FlowState)
      (hfold : foldPage flowId state (nextPage store flowId state) = .ok state') :
      CallStep (.foldFromDisk flowId state goal) store flows (.foldFromDisk flowId state' goal)
  | lastPage (flowId : String) (goal : Goal) (state state' : FlowState)
      (hfold : foldPage flowId state (nextPage store flowId state) = .ok state')
      (hshort : (nextPage store flowId state).length < rehydrationPageSize) :
      CallStep (.foldFromDisk flowId state goal) store (Function.update flows flowId (some state'))
        (.loaded flowId state' goal)
  | proceed (flowId : String) (goal : Goal) (flow : FlowState) (now : Nat → String) :
      CallStep (.loaded flowId flow goal) store flows (afterLoad flow now goal)
  | snapshot (command : AbortFlowCommand) (retiredSprintId : Option String) :
      CallStep (.loadApprovedSnapshot command) store flows
        (.ensureFlowLoaded command.flowId
          (.attempt { command := .abortFlow command, retiredSprintId := retiredSprintId } false))
  | refused (job : Job) (retried : Bool) (flow : FlowState) (batch : List RunFlowEvent)
      (context : RunFlowContext) (error : RunFlowStoreError) :
      CallStep (.append job retried flow batch context) store flows
        (afterAppendError job retried flow batch error)
  | known (job : Job) (retried : Bool) (flow : FlowState) (batch : List RunFlowEvent)
      (context : RunFlowContext) (result : AppendFlowEventsResult) (table : FlowTable)
      (hcommit : commitOf hashPayload store job flow batch = .ok (result, table))
      (hresult : result.applied = false) :
      CallStep (.append job retried flow batch context) store flows
        (.foldFromDisk job.command.flowId flow (.duplicate job))
  | uncertain (job : Job) (retried : Bool) (flow : FlowState) (batch : List RunFlowEvent)
      (context : RunFlowContext) (result : AppendFlowEventsResult) (table : FlowTable)
      (hcommit : commitOf hashPayload store job flow batch = .ok (result, table))
      (hresult : result.applied = true) :
      CallStep (.append job retried flow batch context) (store.write job.command.flowId table) flows
        (afterAppendError job retried flow batch Fault.projection.error)
  | committed (job : Job) (retried : Bool) (flow : FlowState) (batch : List RunFlowEvent)
      (context : RunFlowContext) (result : AppendFlowEventsResult) (table : FlowTable)
      (hcommit : commitOf hashPayload store job flow batch = .ok (result, table))
      (hresult : result.applied = true) :
      CallStep (.append job retried flow batch context) (store.write job.command.flowId table)
        (Function.update flows job.command.flowId (some {
          context := context
          commandIds := addCommandId flow.commandIds job.command.commandId
          headSequence := result.lastSequence }))
        (finish job (.applied context result.lastSequence))
  | retireSprint (sprintId : String) (outcome : Outcome) :
      CallStep (.retireSprint sprintId outcome) (store.updateLastSprintId sprintId) flows
        (.ended outcome)
  | present (flowId : String) :
      CallStep (.lookup flowId) store flows (.ensureFlowLoaded flowId .getFlow)
  | absent (flowId : String) : CallStep (.lookup flowId) store flows (.legacySnapshot flowId)
  | legacySnapshot (flowId : String) (stored : Option StoredApprovedSnapshot) :
      CallStep (.legacySnapshot flowId) store flows (.legacyHandle flowId stored)
  | derived (flowId : String) (stored : Option StoredApprovedSnapshot)
      (handle : Option StoredRunHandleRecord) (context : RunFlowContext)
      (hderived : deriveLegacyContext flowId stored handle = some context) :
      CallStep (.legacyHandle flowId stored) store flows (.ended (.found context))
  | missing (flowId : String) (stored : Option StoredApprovedSnapshot) :
      CallStep (.legacyHandle flowId stored) store flows (.ended (.threw (.flowNotFound flowId)))

variable {hashPayload answer store flows} {store' : RunFlowStore} {flows' : FlowCache}

theorem callStep_stepFold {flowId : String} {state : FlowState} {goal : Goal} {call' : Call}
    (hstep : stepFold store flows flowId state goal = (flows', call')) :
    CallStep hashPayload answer store flows (.foldFromDisk flowId state goal) store flows' call' := by
  unfold stepFold at hstep
  simp only at hstep
  split at hstep
  · next error hfold =>
    cases hstep
    exact .unfoldable flowId goal state error hfold
  · next state' hfold =>
    split at hstep
    · next hshort =>
      cases hstep
      exact .lastPage flowId goal state state' hfold hshort
    · cases hstep
      exact .page flowId goal state state' hfold

theorem callStep_stepAppend {job : Job} {retried : Bool} {flow : FlowState}
    {batch : List RunFlowEvent} {context : RunFlowContext} {call' : Call}
    (hstep : stepAppend hashPayload answer store flows job retried flow batch context
      = (store', flows', call')) :
    CallStep hashPayload answer store flows (.append job retried flow batch context) store' flows'
      call' := by
  unfold stepAppend at hstep
  simp only at hstep
  split at hstep
  · cases hstep
    exact .refused job retried flow batch context _
  · split at hstep
    · next error _ =>
      cases hstep
      exact .refused job retried flow batch context error
    · next result table hcommit =>
      split at hstep
      · next hresult =>
        cases hstep
        exact .known job retried flow batch context result table hcommit (by simpa using hresult)
      · next hresult =>
        have happlied : result.applied = true := by simpa using hresult
        split at hstep
        · cases hstep
          exact .uncertain job retried flow batch context result table hcommit happlied
        · cases hstep
          exact .committed job retried flow batch context result table hcommit happlied

/-- A step of a call is one of these. -/
theorem callStep_of_step {call call' : Call}
    (hstep : call.step hashPayload answer store flows = some (store', flows', call')) :
    CallStep hashPayload answer store flows call store' flows' call' := by
  cases call with
  | ensureFlowLoaded flowId goal =>
      rw [Call.step] at hstep
      split at hstep
      · next hmiss =>
        cases hstep
        exact .miss flowId goal hmiss
      · next cached hcached =>
        split at hstep
        · next hterminal =>
          cases hstep
          exact .closed flowId goal cached hcached hterminal
        · cases hstep
          exact .probe flowId goal cached hcached
  | probeHead flowId cached goal =>
      rw [Call.step] at hstep
      split at hstep
      · next hfault =>
        cases hstep
        exact .fault _ _ (by simp [hfault])
      · split at hstep
        · next hhead =>
          cases hstep
          exact .current flowId goal cached hhead
        · cases hstep
          exact .stale flowId goal cached
  | foldFromDisk flowId state goal =>
      rw [Call.step] at hstep
      split at hstep
      · next hfault =>
        cases hstep
        exact .fault _ _ (by simp [hfault])
      · obtain ⟨rfl, hfold⟩ := Prod.mk.inj (Option.some.inj hstep)
        exact callStep_stepFold hfold
  | loaded flowId flow goal =>
      cases hstep
      exact .proceed flowId goal flow answer.now
  | loadApprovedSnapshot command =>
      rw [Call.step] at hstep
      split at hstep
      · next hfault =>
        cases hstep
        exact .fault _ _ (by simp [hfault])
      · cases hstep
        exact .snapshot command _
  | append job retried flow batch context => exact callStep_stepAppend (Option.some.inj hstep)
  | retireSprint sprintId outcome =>
      rw [Call.step] at hstep
      split at hstep
      · next hfault =>
        cases hstep
        exact .fault _ _ (by simp [hfault])
      · cases hstep
        exact .retireSprint sprintId outcome
  | lookup flowId =>
      rw [Call.step] at hstep
      split at hstep
      · next hfault =>
        cases hstep
        exact .fault _ _ (by simp [hfault])
      · split at hstep
        · cases hstep
          exact .present flowId
        · cases hstep
          exact .absent flowId
  | legacySnapshot flowId =>
      rw [Call.step] at hstep
      split at hstep
      · next hfault =>
        cases hstep
        exact .fault _ _ (by simp [hfault])
      · cases hstep
        exact .legacySnapshot flowId _
  | legacyHandle flowId stored =>
      rw [Call.step] at hstep
      split at hstep
      · next hfault =>
        cases hstep
        exact .fault _ _ (by simp [hfault])
      · split at hstep
        · next context hderived =>
          cases hstep
          exact .derived flowId stored answer.handle context hderived
        · cases hstep
          exact .missing flowId stored
  | ended outcome => simp [Call.step] at hstep

/-! ### The steps of a coordinator -/

/-- The call under way. -/
def Activity.call? : Activity → Option Call
  | .calling _ call => some call
  | _ => none

def Call.hasEnded : Call → Bool
  | .ended _ => true
  | _ => false

inductive CoordinatorStep (hashPayload : List RunFlowEvent → String) (store : RunFlowStore)
    (coordinator : Coordinator) : Action → RunFlowStore → Coordinator → Prop
  | invoke (operation : Operation) (last : Option Result) (hidle : coordinator.activity = .idle last) :
      CoordinatorStep hashPayload store coordinator (.invoke operation) store
        { flows := coordinator.flows, activity := invoke coordinator.flows operation }
  | restart : CoordinatorStep hashPayload store coordinator .restart store .initial
  | call (answer : Answer) (caller : Caller) (call call' : Call) (store' : RunFlowStore)
      (flows' : FlowCache) (hcalling : coordinator.activity = .calling caller call)
      (hended : call.hasEnded = false)
      (hcall : CallStep hashPayload answer store coordinator.flows call store' flows' call') :
      CoordinatorStep hashPayload store coordinator (.proceed answer) store'
        { flows := flows', activity := .calling caller call' }
  | resume (answer : Answer) (caller : Caller) (outcome : Outcome)
      (hcalling : coordinator.activity = .calling caller (.ended outcome)) :
      CoordinatorStep hashPayload store coordinator (.proceed answer) store
        { flows := coordinator.flows, activity := resume coordinator.flows outcome caller }
  | listingFailed (answer : Answer) (apply : Bool) (error : CoordinatorError)
      (hlisting : coordinator.activity = .listing apply) :
      CoordinatorStep hashPayload store coordinator (.proceed answer) store
        { flows := coordinator.flows, activity := .idle (some (.call (.threw error))) }
  | listing (answer : Answer) (apply : Bool) (scan : Scan)
      (hlisting : coordinator.activity = .listing apply) :
      CoordinatorStep hashPayload store coordinator (.proceed answer) store
        { flows := coordinator.flows, activity := nextScan coordinator.flows scan }
  | keying (answer : Answer) (scan scan' : Scan) (flowId : String) (context : RunFlowContext)
      (hkeying : coordinator.activity = .keying scan flowId context) :
      CoordinatorStep hashPayload store coordinator (.proceed answer) store
        { flows := coordinator.flows, activity := nextScan coordinator.flows scan' }

/-- A step of a coordinator is one of these. -/
theorem coordinatorStep_of_step {action : Action} {coordinator coordinator' : Coordinator}
    (hstep : Coordinator.step hashPayload action store coordinator = some (store', coordinator')) :
    CoordinatorStep hashPayload store coordinator action store' coordinator' := by
  obtain ⟨flows, activity⟩ := coordinator
  cases action with
  | invoke operation =>
      cases activity with
      | idle last =>
          cases hstep
          exact .invoke operation last rfl
      | _ => simp [Coordinator.step] at hstep
  | restart =>
      cases hstep
      exact .restart
  | proceed answer =>
      rw [Coordinator.step] at hstep
      cases activity with
      | idle last => simp [stepActivity] at hstep
      | calling caller call =>
          cases hended : call.hasEnded with
          | true =>
              cases call with
              | ended outcome =>
                  cases hstep
                  exact .resume answer caller outcome rfl
              | _ => simp [Call.hasEnded] at hended
          | false =>
              have hcallStep : (call.step hashPayload answer store flows).map
                  (fun next => (next.1, Coordinator.mk next.2.1 (.calling caller next.2.2)))
                  = some (store', coordinator') := by
                cases call with
                | ended outcome => simp [Call.hasEnded] at hended
                | _ => exact hstep
              rw [Option.map_eq_some_iff] at hcallStep
              obtain ⟨⟨next, flows', call'⟩, hcall, hnext⟩ := hcallStep
              cases hnext
              exact .call answer caller call call' next flows' rfl hended (callStep_of_step hcall)
      | listing apply =>
          rw [stepActivity] at hstep
          split at hstep
          · cases hstep
            exact .listingFailed answer apply _ rfl
          · cases hstep
            exact .listing answer apply _ rfl
      | keying scan flowId context =>
          rw [stepActivity] at hstep
          split at hstep
          · cases hstep
            exact .keying answer scan scan flowId context rfl
          · cases hstep
            exact .keying answer scan _ flowId context rfl

end Deckent.RunFlow
