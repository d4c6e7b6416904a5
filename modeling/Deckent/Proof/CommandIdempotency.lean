import Deckent.Proof.RunFlowCoordinator

/-!
# A command id is used once

A command id that is in the log of a flow names one batch there. A call that starts under it later
never reaches an append: whatever it loads has seen the id. The call ends as a no-op unless the store
fails under it.
-/

namespace Deckent.RunFlow

variable {hashPayload : List RunFlowEvent → String} {store store' : RunFlowStore}
  {flows flows' : FlowCache} {command : RunFlowCommand} {commandId : String}

def CommittedId (log : List RunFlowEvent) (commandId : String) : Prop :=
  ∃ event ∈ log, event.commandId = some commandId

def Outcome.IsNoOp (outcome : Outcome) : Prop :=
  ∃ context, outcome = .duplicateCommand context

def Goal.Serves (command : RunFlowCommand) : Goal → Prop
  | .beforeAbort abort => RunFlowCommand.abortFlow abort = command
  | .attempt job _ => job.command = command
  | _ => False

def Call.Uses (command : RunFlowCommand) (commandId : String) : Call → Prop
  | .ensureFlowLoaded flowId goal | .probeHead flowId _ goal | .foldFromDisk flowId _ goal =>
      flowId = command.flowId ∧ goal.Serves command
  | .loaded flowId flow goal =>
      flowId = command.flowId ∧ goal.Serves command ∧ commandId ∈ flow.commandIds
  | .loadApprovedSnapshot abort => RunFlowCommand.abortFlow abort = command
  | .retireSprint _ outcome | .ended outcome => outcome.IsNoOp
  | _ => False

theorem uses_beginCommand (command : RunFlowCommand) (commandId : String) :
    (beginCommand command).Uses command commandId := by
  cases command <;> exact ⟨rfl, rfl⟩

theorem uses_finish (job : Job) (context : RunFlowContext) :
    (finish job (.duplicateCommand context)).Uses command commandId := by
  unfold finish
  split
  · split <;> exact ⟨context, rfl⟩
  · exact ⟨context, rfl⟩

theorem uses_afterLoad {flow : FlowState} {now : Nat → String} {goal : Goal}
    (hcommand : command.commandId = some commandId) (hgoal : goal.Serves command)
    (hknown : commandId ∈ flow.commandIds) : (afterLoad flow now goal).Uses command commandId := by
  cases goal with
  | beforeAbort abort =>
      obtain rfl : RunFlowCommand.abortFlow abort = command := hgoal
      rw [afterLoad]
      split
      · rfl
      · exact ⟨rfl, rfl⟩
  | attempt job retried =>
      obtain rfl : job.command = command := hgoal
      rw [afterLoad, reduceCommand, if_pos (by simp [hcommand, hknown])]
      apply uses_finish
  | getFlow | retry job | duplicate job | surface error => exact False.elim hgoal

theorem Replica.knows {log : List RunFlowEvent} {state : FlowState} (hreplica : Replica log state)
    (hwhole : log.length ≤ state.headSequence) (hcommitted : CommittedId log commandId) :
    commandId ∈ state.commandIds := by
  rw [hreplica.commandIds, List.take_of_length_le hwhole]
  exact hcommitted

theorem uses_step {answer : Answer} {call call' : Call} (hstore : store.Consistent)
    (hflows : flows.Sound store) (hcall : call.Sound store flows)
    (hcommand : command.commandId = some commandId)
    (hcommitted : CommittedId (store.log command.flowId) commandId)
    (huses : call.Uses command commandId)
    (hstep : CallStep hashPayload answer store flows call store' flows' call') :
    call'.Uses command commandId
      ∨ answer.fault ≠ none ∧ ∃ error, call' = .ended (.threw error) := by
  cases hstep with
  | fault call error hfault => exact .inr ⟨hfault, error, rfl⟩
  | closed flowId goal cached hcached hterminal =>
      obtain ⟨rfl, hgoal⟩ := huses
      have hreplica := hflows _ _ hcached
      have hwhole := hreplica.whole_of_terminal (hstore _).replays hterminal
      exact .inl ⟨rfl, hgoal, hreplica.knows hwhole.ge hcommitted⟩
  | current flowId goal cached hhead =>
      obtain ⟨rfl, hgoal⟩ := huses
      rw [(hstore command.flowId).sequenced.head] at hhead
      exact .inl ⟨rfl, hgoal, (hflows _ _ hcall.1).knows hhead hcommitted⟩
  | unfoldable flowId goal state error hfold =>
      obtain ⟨state', hstate', -⟩ := foldPage_nextPage hstore hcall.1
      rw [hstate'] at hfold
      simp at hfold
  | lastPage flowId goal state state' hfold hshort =>
      obtain ⟨rfl, hgoal⟩ := huses
      have hreplica := replica_of_foldPage hstore hcall.1 hfold
      have hwhole := length_le_of_short hstore hcall.1 hfold hshort
      exact .inl ⟨rfl, hgoal, hreplica.knows hwhole hcommitted⟩
  | proceed flowId goal flow now =>
      obtain ⟨rfl, hgoal, hknown⟩ := huses
      exact .inl (uses_afterLoad hcommand hgoal hknown)
  | snapshot abort retiredSprintId =>
      obtain rfl : RunFlowCommand.abortFlow abort = command := huses
      exact .inl ⟨rfl, rfl⟩
  | miss | probe | stale | page | retireSprint => exact .inl huses
  | refused | known | uncertain | committed | present | absent | legacySnapshot | derived | missing =>
      exact False.elim huses

/-! ### Runs -/

variable {ι : Type} [DecidableEq ι] {turns during : List (ι × Action)}
  {system final : Processes ι RunFlowStore Coordinator} {i : ι}

def Action.isProceed : Action → Bool
  | .proceed _ => true
  | _ => false

def GoesOn (i : ι) (system : Processes ι RunFlowStore Coordinator) (turn : ι × Action) : Prop :=
  turn.1 = i → turn.2.isProceed = true ∧ (system.memory i).activity.call?.all fun call => !call.hasEnded

instance (i : ι) (system : Processes ι RunFlowStore Coordinator) (turn : ι × Action) :
    Decidable (GoesOn i system turn) :=
  inferInstanceAs (Decidable (_ → _))

def Failed (i : ι) (turns : List (ι × Action)) : Prop :=
  ∃ answer, (i, .proceed answer) ∈ turns ∧ answer.fault ≠ none

theorem step_call {action : Action} {coordinator coordinator' : Coordinator} {call : Call}
    (hcall : coordinator.activity.call? = some call) (hended : call.hasEnded = false)
    (hproceed : action.isProceed = true)
    (hstep : CoordinatorStep hashPayload store coordinator action store' coordinator') :
    ∃ answer flows' call', action = .proceed answer
      ∧ CallStep hashPayload answer store coordinator.flows call store' flows' call'
      ∧ coordinator'.activity.call? = some call' := by
  cases hstep with
  | invoke | restart => simp [Action.isProceed] at hproceed
  | call answer caller found call' _ flows' hcalling _ hcallStep =>
      rw [hcalling] at hcall
      obtain rfl := Option.some.inj hcall
      exact ⟨answer, flows', call', rfl, hcallStep, rfl⟩
  | resume answer caller outcome hcalling =>
      rw [hcalling] at hcall
      obtain rfl := Option.some.inj hcall
      simp [Call.hasEnded] at hended
  | listingFailed _ _ _ hcase | listing _ _ _ hcase | keying _ _ _ _ _ hcase =>
      rw [hcase] at hcall
      simp [Activity.call?] at hcall

/-- A call that begins under a committed id stays clear of the append while it goes on. -/
theorem uses_of_run
    (hrun : replay (Processes.act (Coordinator.step hashPayload)) (initialSystem ι) turns
      = .ok system)
    (hbegin : (system.memory i).activity.call? = some (beginCommand command))
    (hcommand : command.commandId = some commandId)
    (hcommitted : CommittedId (system.shared.log command.flowId) commandId)
    (hduring : replay (Processes.act (Coordinator.step hashPayload)) system during = .ok final)
    (hgoesOn : Along (Processes.act (Coordinator.step hashPayload)) (GoesOn i) system during) :
    ∃ call, (final.memory i).activity.call? = some call
      ∧ (call.Uses command commandId ∨ Failed i during ∧ ∃ error, call = .ended (.threw error)) := by
  suffices hgeneral : Along (Processes.act (Coordinator.step hashPayload)) (GoesOn i) system during →
      Extends system.shared final.shared
        ∧ ∃ call, (final.memory i).activity.call? = some call
          ∧ (call.Uses command commandId ∨ Failed i during ∧ ∃ error, call = .ended (.threw error)) by
    exact (hgeneral hgoesOn).2
  apply replay_induction _ _ hduring
  · intro _
    exact ⟨Extends.refl _, _, hbegin, .inl (uses_beginCommand command commandId)⟩
  · intro before current turn next hbefore hcurrent hstep halong
    obtain ⟨halong, hturn⟩ := along_concat.mp halong
    obtain ⟨hextends, call, hcall, hstands⟩ := hcurrent halong
    have hsound := sound_of_run (replay_append_ok.mpr ⟨system, hrun, hbefore⟩)
    have hgrows := extends_of_step hstep hsound
    refine ⟨fun flowId => (hextends flowId).trans (hgrows flowId), ?_⟩
    obtain ⟨memory, hact, hmemory⟩ := Processes.act_ok.mp hstep
    by_cases hi : turn.1 = i
    · obtain ⟨hproceed, hnotEnded⟩ := hturn current hbefore hi
      rw [hi] at hact hmemory
      have hended : call.hasEnded = false := by simpa [hcall] using hnotEnded
      obtain ⟨answer, flows', call', haction, hcallStep, hcall'⟩ :=
        step_call hcall hended hproceed (coordinatorStep_of_step hact)
      refine ⟨call', by rwa [hmemory, Function.update_self], ?_⟩
      rcases hstands with huses | ⟨-, error, rfl⟩
      · have hactivity := (hsound.2 i).2
        have hcallSound : call.Sound current.shared (current.memory i).flows := by
          cases hcase : (current.memory i).activity with
          | calling caller found =>
              rw [hcase] at hcall hactivity
              obtain rfl := Option.some.inj hcall
              exact hactivity
          | _ => simp [hcase, Activity.call?] at hcall
        obtain ⟨event, hevent, hcarries⟩ := hcommitted
        have hcommitted' : CommittedId (current.shared.log command.flowId) commandId :=
          ⟨event, (hextends command.flowId).subset hevent, hcarries⟩
        rcases uses_step hsound.1 (hsound.2 i).1 hcallSound hcommand hcommitted' huses
          hcallStep with huses' | ⟨hfault, herror⟩
        · exact .inl huses'
        · right
          refine ⟨⟨answer, ?_, hfault⟩, herror⟩
          rw [List.mem_append, List.mem_singleton]
          right
          rw [← hi, ← haction]
      · simp [Call.hasEnded] at hended
    · refine ⟨call, by rwa [hmemory, Function.update_of_ne (Ne.symm hi)], ?_⟩
      rcases hstands with huses | ⟨⟨answer, hanswer, hfault⟩, herror⟩
      · exact .inl huses
      · exact .inr ⟨⟨answer, List.mem_append_left _ hanswer, hfault⟩, herror⟩

/-- The log of a flow: sequences without gaps, events that replay, and one batch for every command id. -/
structure OneLog (table : FlowTable) : Prop where
  sequences : table.events.map EventRow.sequence = List.range' 1 table.events.length
  stamped : ∀ row ∈ table.events, row.event.sequence = some row.sequence
  replays : Replays table.log
  oneBatch : ∀ commandId, CommittedId table.log commandId → ∃ row before batch after,
    table.commands.get? commandId = some row ∧ IsBatch table.log commandId row before batch after

theorem FlowTable.Consistent.oneLog {table : FlowTable} (hconsistent : table.Consistent) :
    OneLog table where
  sequences := by
    rw [hconsistent.sequenced.sequences]
    simp [FlowTable.log]
  stamped := by
    intro row hrow
    obtain ⟨index, hindex⟩ := List.mem_iff_getElem?.mp hrow
    obtain ⟨hsequence, hevent⟩ := hconsistent.sequenced.row hindex
    rw [hevent, hsequence]
  replays := hconsistent.replays
  oneBatch := by
    rintro commandId ⟨event, hevent, hcarries⟩
    obtain ⟨row, hrow⟩ := hconsistent.recorded event hevent commandId hcarries
    obtain ⟨before, batch, after, hbatch⟩ := hconsistent.batches commandId row hrow
    exact ⟨row, before, batch, after, hrow, hbatch⟩

/-- Coordinators that share a store keep one log for each flow, their caches are replicas of it, and a
later call under a command id of the log ends as a no-op unless the store fails under it. -/
theorem coordinators_keep_one_log
    (hrun : replay (Processes.act (Coordinator.step hashPayload)) (initialSystem ι) turns
      = .ok system) :
    (∀ flowId, OneLog (system.shared.flows flowId))
      ∧ (∀ i flowId state, (system.memory i).flows flowId = some state →
        FoldsTo reduceRunFlow createInitialRunFlowContext (system.shared.log flowId)
          state.headSequence state.context)
      ∧ ∀ i command commandId, (system.memory i).activity.call? = some (beginCommand command) →
        command.commandId = some commandId →
        CommittedId (system.shared.log command.flowId) commandId →
        ∀ during final,
          replay (Processes.act (Coordinator.step hashPayload)) system during = .ok final →
          Along (Processes.act (Coordinator.step hashPayload)) (GoesOn i) system during →
          ∀ outcome, (final.memory i).activity.call? = some (.ended outcome) →
            outcome.IsNoOp ∨ Failed i during ∧ ∃ error, outcome = .threw error := by
  have hsound := sound_of_run hrun
  refine ⟨fun flowId => (hsound.1 flowId).oneLog, ?_, ?_⟩
  · intro i flowId state hstate
    exact ((hsound.2 i).1 flowId state hstate).folds
  · intro i command commandId hbegin hcommand hcommitted during final hduring hgoesOn outcome houtcome
    obtain ⟨call, hcall, hstands⟩ := uses_of_run hrun hbegin hcommand hcommitted hduring hgoesOn
    obtain rfl : call = .ended outcome := Option.some.inj (hcall.symm.trans houtcome)
    rcases hstands with huses | ⟨hfailed, error, herror⟩
    · exact .inl huses
    · cases herror
      exact .inr ⟨hfailed, error, rfl⟩

/-! ### One proposal, made by two coordinators -/

def proposeF : RunFlowCommand :=
  .proposeFlow {
    flowId := "f"
    tenant := "local"
    project := "p"
    actor := { id := "operator" }
    origin := .cli
    revision := 1
    intentSummary := "ship" } (some "c")

def proposedTurns : List (Bool × Action) :=
  (true, .invoke (.command proposeF)) :: List.replicate 5 (true, .proceed {})
    ++ [(false, .invoke (.command proposeF))]

theorem coordinators_keep_one_log_proposedTwice :
    ∃ final : Processes Bool RunFlowStore Coordinator,
      OneLog (final.shared.flows "f") ∧ (final.shared.log "f").length = 2
        ∧ ∃ outcome, (final.memory false).activity.call? = some (.ended outcome)
          ∧ outcome.IsNoOp := by
  obtain ⟨system, final, hrun, hbegin, hcommitted, hduring, hlength, hended, hgoesOn⟩ :
      ∃ system final : Processes Bool RunFlowStore Coordinator,
        replay (Processes.act (Coordinator.step fun _ => "")) (initialSystem Bool) proposedTurns
            = .ok system
          ∧ (system.memory false).activity.call? = some (beginCommand proposeF)
          ∧ CommittedId (system.shared.log "f") "c"
          ∧ replay (Processes.act (Coordinator.step fun _ => "")) system
            (List.replicate 3 (false, .proceed {})) = .ok final
          ∧ (final.shared.log "f").length = 2
          ∧ (∃ outcome, (final.memory false).activity.call? = some (.ended outcome))
          ∧ Along (Processes.act (Coordinator.step fun _ => "")) (GoesOn false) system
            (List.replicate 3 (false, .proceed {})) :=
    ⟨_, _, rfl, rfl, ⟨_, List.mem_cons_self, rfl⟩, rfl, rfl, ⟨_, rfl⟩, by decide +kernel⟩
  obtain ⟨outcome, houtcome⟩ := hended
  have hlog := (coordinators_keep_one_log (replay_append_ok.mpr ⟨system, hrun, hduring⟩)).1 "f"
  refine ⟨final, hlog, hlength, outcome, houtcome, ?_⟩
  rcases (coordinators_keep_one_log hrun).2.2 false proposeF "c" hbegin rfl hcommitted _ final hduring
    hgoesOn outcome houtcome with hnoOp | ⟨⟨answer, hanswer, hfault⟩, -⟩
  · exact hnoOp
  · cases List.eq_of_mem_replicate hanswer
    exact absurd rfl hfault

end Deckent.RunFlow
