import Deckent.Proof.RunFlowCall
import Deckent.Proof.RunFlowStore

/-!
# Coordinators keep one log

Every cache entry of a coordinator is a replica: its context is what the log replays to up to its
sequence, and its command ids are those among these events. Logs only grow, so a replica endures what
the other coordinators do. An append expects the sequence of the replica on which its command was
reduced, so what it commits replays at the end of the log. A replica in a terminal state has seen the
whole log, which is why it need not be refreshed.
-/

namespace Deckent.RunFlow

variable {hashPayload : List RunFlowEvent → String} {events later : List RunFlowEvent}
  {store store' : RunFlowStore} {flows flows' : FlowCache} {flowId : String} {state : FlowState}

/-! ### Replicas -/

structure Replica (events : List RunFlowEvent) (state : FlowState) : Prop where
  folds : FoldsTo reduceRunFlow createInitialRunFlowContext events state.headSequence state.context
  commandIds : ∀ commandId, commandId ∈ state.commandIds
    ↔ ∃ event ∈ events.take state.headSequence, event.commandId = some commandId

theorem replica_initial (events : List RunFlowEvent) : Replica events .initial where
  folds := foldsTo_zero
  commandIds := by simp [FlowState.initial]

theorem Replica.mono (hreplica : Replica events state) (hgrows : events <+: later) :
    Replica later state := by
  obtain ⟨more, rfl⟩ := hgrows
  refine ⟨hreplica.folds.mono, ?_⟩
  rw [List.take_append_of_le_length hreplica.folds.le_length]
  exact hreplica.commandIds

theorem mem_addCommandId {commandIds : OrderedSet String} {added : Option String}
    {commandId : String} :
    commandId ∈ addCommandId commandIds added ↔ commandId ∈ commandIds ∨ added = some commandId := by
  cases added with
  | none => simp [addCommandId]
  | some known =>
      rw [addCommandId, OrderedSet.mem_add, Option.some.injEq]
      exact or_congr_right eq_comm

theorem Replica.advance (hreplica : Replica events state) (batch : List RunFlowEvent)
    (context : RunFlowContext) (commandIds : OrderedSet String)
    (hbatch : batch <+: events.drop state.headSequence)
    (hreplay : replay reduceRunFlow state.context batch = .ok context)
    (hids : ∀ commandId, commandId ∈ commandIds
      ↔ commandId ∈ state.commandIds ∨ ∃ event ∈ batch, event.commandId = some commandId) :
    Replica events {
      context := context
      commandIds := commandIds
      headSequence := state.headSequence + batch.length } where
  folds := hreplica.folds.advance hbatch hreplay
  commandIds := by
    intro commandId
    have htake : events.take (state.headSequence + batch.length)
        = events.take state.headSequence ++ batch := by
      have hlength := hbatch.length_le
      rw [List.length_drop] at hlength
      rw [List.take_add, List.prefix_iff_eq_take.mp hbatch, List.length_take, List.length_drop,
        Nat.min_eq_left hlength]
    rw [hids, hreplica.commandIds, htake]
    simp only [List.mem_append, or_and_right, exists_or]

theorem Replica.whole_of_terminal (hreplica : Replica events state) (hreplays : Replays events)
    (hterminal : isTerminalRunFlowState state.context.state = true) :
    state.headSequence = events.length := by
  apply hreplica.folds.eq_length hreplays
  intro event next hreduce
  simp [(admits_of_reduce hreduce).live] at hterminal

variable (flowId) in
theorem foldPage_spec (hreplica : Replica events state) (hreplays : Replays events)
    (hsequence : ∀ index event, events[index]? = some event → event.sequence = some (index + 1))
    {page : List RunFlowEvent} (hpage : page <+: events.drop state.headSequence) :
    ∃ state', foldPage flowId state page = .ok state' ∧ Replica events state'
      ∧ state'.headSequence = state.headSequence + page.length := by
  induction page generalizing state with
  | nil => exact ⟨state, rfl, hreplica, rfl⟩
  | cons event rest ih =>
      obtain ⟨more, hmore⟩ := hpage
      rw [List.cons_append] at hmore
      have hevent : events[state.headSequence]? = some event := by
        have hhead := congrArg List.head? hmore
        rw [List.head?_drop] at hhead
        exact hhead.symm
      have hdrop : events.drop (state.headSequence + 1) = rest ++ more := by
        rw [← List.drop_drop, ← hmore, List.drop_one, List.tail_cons]
      obtain ⟨next, hreduce⟩ := hreplica.folds.accepts hreplays hmore.symm
      have hnext := hreplica.advance [event] next (addCommandId state.commandIds event.commandId)
        ⟨rest ++ more, hmore⟩ (replay_cons_ok.mpr ⟨next, hreduce, rfl⟩) (by simp [mem_addCommandId])
      obtain ⟨state', hfold, hreplica', hlength⟩ := ih hnext ⟨more, hdrop.symm⟩
      refine ⟨state', ?_, hreplica', ?_⟩
      · rw [foldPage, if_neg (not_not.mpr (hsequence _ _ hevent)), hreduce]
        exact hfold
      · have hcount : state'.headSequence = state.headSequence + 1 + rest.length := hlength
        rw [hcount, List.length_cons]
        omega

/-! ### What a store and a coordinator keep -/

def RunFlowStore.Consistent (store : RunFlowStore) : Prop :=
  ∀ flowId, (store.flows flowId).Consistent

def RunFlowStore.log (store : RunFlowStore) (flowId : String) : List RunFlowEvent :=
  (store.flows flowId).log

def Extends (store store' : RunFlowStore) : Prop :=
  ∀ flowId, store.log flowId <+: store'.log flowId

theorem Extends.refl (store : RunFlowStore) : Extends store store :=
  fun _ => List.prefix_refl _

def FlowCache.Sound (flows : FlowCache) (store : RunFlowStore) : Prop :=
  ∀ flowId state, flows flowId = some state → Replica (store.log flowId) state

theorem FlowCache.Sound.update (hflows : flows.Sound store)
    (hreplica : Replica (store.log flowId) state) :
    FlowCache.Sound (Function.update flows flowId (some state)) store := by
  intro other found hfound
  by_cases hother : other = flowId
  · subst hother
    rw [Function.update_self, Option.some.injEq] at hfound
    rwa [← hfound]
  · rw [Function.update_of_ne hother] at hfound
    exact hflows other found hfound

def Goal.Concerns (flowId : String) : Goal → Prop
  | .getFlow => True
  | .beforeAbort command => command.flowId = flowId
  | .attempt job _ | .retry job | .duplicate job => job.command.flowId = flowId
  | .surface _ => True

/-- What holds where a call stands: a load works on a replica, and an append on a cache entry on which
its events were reduced. -/
def Call.Sound (store : RunFlowStore) (flows : FlowCache) : Call → Prop
  | .ensureFlowLoaded flowId goal => goal.Concerns flowId
  | .probeHead flowId flow goal | .loaded flowId flow goal =>
      flows flowId = some flow ∧ goal.Concerns flowId
  | .foldFromDisk flowId state goal => Replica (store.log flowId) state ∧ goal.Concerns flowId
  | .append job _ flow events context =>
      flows job.command.flowId = some flow
        ∧ (∃ now, events = job.command.buildEvents now)
        ∧ replay reduceRunFlow flow.context events = .ok context
        ∧ ∀ commandId, job.command.commandId = some commandId → commandId ∉ flow.commandIds
  | _ => True

def Activity.Sound (store : RunFlowStore) (flows : FlowCache) : Activity → Prop
  | .calling _ call => call.Sound store flows
  | _ => True

def Coordinator.Sound (store : RunFlowStore) (coordinator : Coordinator) : Prop :=
  coordinator.flows.Sound store ∧ coordinator.activity.Sound store coordinator.flows

theorem FlowCache.Sound.mono (hflows : flows.Sound store) (hextends : Extends store store') :
    flows.Sound store' := by
  intro flowId state hstate
  exact (hflows flowId state hstate).mono (hextends flowId)

theorem Call.Sound.mono {call : Call} (hcall : call.Sound store flows)
    (hextends : Extends store store') : call.Sound store' flows := by
  cases call with
  | foldFromDisk flowId state goal => exact ⟨hcall.1.mono (hextends flowId), hcall.2⟩
  | _ => exact hcall

theorem Coordinator.Sound.mono {coordinator : Coordinator} (hsound : coordinator.Sound store)
    (hextends : Extends store store') : coordinator.Sound store' := by
  refine ⟨hsound.1.mono hextends, ?_⟩
  have hactivity := hsound.2
  cases hcase : coordinator.activity with
  | calling caller call =>
      rw [hcase] at hactivity
      exact Call.Sound.mono hactivity hextends
  | _ => trivial

/-! ### A step of a call -/

structure Kept (store store' : RunFlowStore) (flows' : FlowCache) (call' : Call) : Prop where
  consistent : store'.Consistent
  extends_ : Extends store store'
  flows : flows'.Sound store'
  call : call'.Sound store' flows'

theorem kept_of_call (hstore : store.Consistent) (hflows : flows.Sound store) {call' : Call}
    (hcall : call'.Sound store flows) : Kept store store flows call' :=
  ⟨hstore, Extends.refl store, hflows, hcall⟩

theorem sound_finish (job : Job) (outcome : Outcome) : (finish job outcome).Sound store flows := by
  unfold finish
  split
  · split <;> trivial
  · trivial

theorem sound_beginCommand (command : RunFlowCommand) (store : RunFlowStore) (flows : FlowCache) :
    (beginCommand command).Sound store flows := by
  cases command <;> rfl

theorem sound_beginGetFlow (flowId : String) : (beginGetFlow flows flowId).Sound store flows := by
  unfold beginGetFlow
  split <;> trivial

theorem sound_reduceCommand {job : Job} {retried : Bool} {flow : FlowState} {now : Nat → String}
    (hflow : flows job.command.flowId = some flow) :
    (reduceCommand job retried flow now).Sound store flows := by
  unfold reduceCommand
  split
  · apply sound_finish
  · next hfresh =>
    simp only
    split
    · trivial
    · next context hreplay =>
      refine ⟨hflow, ⟨now, rfl⟩, hreplay, ?_⟩
      intro commandId hcommandId hmem
      apply hfresh
      simp [hcommandId, hmem]

theorem sound_afterLoad {flow : FlowState} {now : Nat → String} {goal : Goal}
    (hflow : flows flowId = some flow) (hgoal : goal.Concerns flowId) :
    (afterLoad flow now goal).Sound store flows := by
  cases goal with
  | getFlow => trivial
  | beforeAbort command =>
      rw [afterLoad]
      split
      · trivial
      · rfl
  | attempt job retried =>
      apply sound_reduceCommand
      rwa [show job.command.flowId = flowId from hgoal]
  | retry job => rfl
  | duplicate job => apply sound_finish
  | surface error => trivial

theorem sound_afterAppendError {job : Job} {retried : Bool} {flow : FlowState}
    {events : List RunFlowEvent} {error : RunFlowStoreError}
    (hreplica : Replica (store.log job.command.flowId) flow) :
    (afterAppendError job retried flow events error).Sound store flows := by
  unfold afterAppendError
  simp only
  split
  · exact ⟨hreplica, rfl⟩
  · split
    · exact ⟨hreplica, trivial⟩
    · trivial

theorem foldPage_nextPage (hstore : store.Consistent) (hreplica : Replica (store.log flowId) state) :
    ∃ state', foldPage flowId state (nextPage store flowId state) = .ok state'
      ∧ Replica (store.log flowId) state'
      ∧ state'.headSequence = state.headSequence + (nextPage store flowId state).length := by
  have hconsistent := hstore flowId
  have hpage : nextPage store flowId state
      = ((store.log flowId).drop state.headSequence).take rehydrationPageSize :=
    hconsistent.sequenced.page state.headSequence rehydrationPageSize
  rw [hpage]
  exact foldPage_spec flowId hreplica hconsistent.replays
    (fun _ _ hevent => hconsistent.sequenced.event hevent) (List.take_prefix _ _)

theorem replica_of_foldPage (hstore : store.Consistent) (hreplica : Replica (store.log flowId) state)
    {state' : FlowState} (hfold : foldPage flowId state (nextPage store flowId state) = .ok state') :
    Replica (store.log flowId) state' := by
  obtain ⟨found, hfound, hreplica', -⟩ := foldPage_nextPage hstore hreplica
  obtain rfl := Except.ok.inj (hfound.symm.trans hfold)
  exact hreplica'

theorem length_le_of_short (hstore : store.Consistent) (hreplica : Replica (store.log flowId) state)
    {state' : FlowState} (hfold : foldPage flowId state (nextPage store flowId state) = .ok state')
    (hshort : (nextPage store flowId state).length < rehydrationPageSize) :
    (store.log flowId).length ≤ state'.headSequence := by
  obtain ⟨found, hfound, -, hhead⟩ := foldPage_nextPage hstore hreplica
  obtain rfl := Except.ok.inj (hfound.symm.trans hfold)
  have hpage : nextPage store flowId state
      = ((store.log flowId).drop state.headSequence).take rehydrationPageSize :=
    (hstore flowId).sequenced.page state.headSequence rehydrationPageSize
  rw [hhead]
  rw [hpage, List.length_take, List.length_drop] at hshort ⊢
  omega

theorem RunFlowStore.flows_write (store : RunFlowStore) (flowId other : String)
    (table : FlowTable) :
    (store.write flowId table).flows other = if other = flowId then table else store.flows other :=
  Function.update_apply store.flows flowId table other

theorem RunFlowStore.log_write (store : RunFlowStore) (flowId other : String) (table : FlowTable) :
    (store.write flowId table).log other = if other = flowId then table.log else store.log other := by
  unfold log
  rw [flows_write, apply_ite FlowTable.log]

structure Committed (store : RunFlowStore) (job : Job) (flow : FlowState) (events : List RunFlowEvent)
    (context : RunFlowContext) (lastSequence : Nat) (table : FlowTable) : Prop where
  consistent : (store.write job.command.flowId table).Consistent
  log : table.log = store.log job.command.flowId
    ++ (assignSequences (store.log job.command.flowId).length events).map EventRow.event
  replica : Replica ((store.write job.command.flowId table).log job.command.flowId) {
    context := context
    commandIds := addCommandId flow.commandIds job.command.commandId
    headSequence := lastSequence }

theorem Committed.extends_ {job : Job} {flow : FlowState} {batch : List RunFlowEvent}
    {context : RunFlowContext} {lastSequence : Nat} {table : FlowTable}
    (hcommitted : Committed store job flow batch context lastSequence table) :
    Extends store (store.write job.command.flowId table) := by
  intro other
  rw [RunFlowStore.log_write]
  split
  · next hother =>
    rw [hother, hcommitted.log]
    apply List.prefix_append
  · exact List.prefix_refl _

theorem committed_of_inserted (hstore : store.Consistent) {job : Job} {flow : FlowState}
    (hreplica : Replica (store.log job.command.flowId) flow) {batch : List RunFlowEvent}
    (hnonempty : batch ≠ [])
    (hbatch : ∀ event ∈ batch, event.commandId = job.command.commandId) {context : RunFlowContext}
    (hreplay : replay reduceRunFlow flow.context batch = .ok context)
    {result : AppendFlowEventsResult} {table : FlowTable} (happlied : result.applied = true)
    (happended : Appended (store.flows job.command.flowId) batch job.command.commandId
      (some flow.headSequence) result table) :
    Committed store job flow batch context result.lastSequence table := by
  have hconsistent := hstore job.command.flowId
  have hheadLog := hconsistent.sequenced.head
  cases happended with
  | known known row _ hcommandId hrow hresult => simp [hresult] at happlied
  | inserted _ payloadHash hfresh hhead _ hlast =>
      have hflowHead : flow.headSequence = (store.log job.command.flowId).length :=
        (hhead _ rfl).symm.trans hheadLog
      have hwhole := hreplica.folds
      rw [hflowHead] at hwhole
      have hreplays : Replays (store.log job.command.flowId ++ batch) :=
        ⟨context, hwhole.replay_append hreplay⟩
      rw [hheadLog] at hlast ⊢
      have htable := hconsistent.insert {
          payloadHash := payloadHash
          firstSequence := (store.flows job.command.flowId).log.length + 1
          lastSequence := (store.flows job.command.flowId).log.length + batch.length
          eventCount := batch.length } hnonempty hbatch hfresh hreplays rfl rfl rfl
      constructor
      case consistent =>
        intro other
        rw [RunFlowStore.flows_write]
        split
        · exact htable
        · exact hstore other
      case log => apply FlowTable.log_insert
      case replica =>
        rw [RunFlowStore.log_write, if_pos rfl, FlowTable.log_insert]
        have hgrown := hreplica.mono (List.prefix_append _
          ((assignSequences (store.flows job.command.flowId).log.length batch).map EventRow.event))
        have hids : ∀ commandId, commandId ∈ addCommandId flow.commandIds job.command.commandId
            ↔ commandId ∈ flow.commandIds
              ∨ ∃ event ∈ (assignSequences (store.flows job.command.flowId).log.length batch).map
                EventRow.event, event.commandId = some commandId := by
          intro commandId
          rw [mem_addCommandId]
          apply or_congr_right
          constructor
          · intro hcommandId
            obtain ⟨event, hevent⟩ := List.exists_mem_of_ne_nil
              ((assignSequences (store.flows job.command.flowId).log.length batch).map EventRow.event)
              (by simpa [assignSequences] using hnonempty)
            exact ⟨event, hevent, (commandId_of_mem_assigned hbatch hevent).trans hcommandId⟩
          · rintro ⟨event, hevent, hcarries⟩
            exact (commandId_of_mem_assigned hbatch hevent).symm.trans hcarries
        have hadvanced := hgrown.advance _ context _
          (by simp only [hflowHead, RunFlowStore.log, List.drop_left]; exact List.prefix_refl _)
          (by rwa [replay_assigned]) hids
        rw [hflowHead, List.length_map, length_assignSequences] at hadvanced
        rw [hlast]
        exact hadvanced

theorem commandId_of_mem_buildEvents {command : RunFlowCommand} {now : Nat → String}
    {event : RunFlowEvent} (hevent : event ∈ command.buildEvents now) :
    event.flowId = command.flowId ∧ event.commandId = command.commandId := by
  unfold RunFlowCommand.buildEvents at hevent
  obtain ⟨index, hindex, rfl⟩ := List.mem_mapIdx.mp hevent
  exact ⟨rfl, rfl⟩

theorem appendFlowEvents_cases (hstore : store.Consistent) {job : Job} {retried : Bool}
    {flow : FlowState} {batch : List RunFlowEvent} {context : RunFlowContext}
    (hflows : flows.Sound store) (hcall : (Call.append job retried flow batch context).Sound store flows)
    {result : AppendFlowEventsResult} {table : FlowTable}
    (happend : appendFlowEvents hashPayload job.command.flowId batch (some flow.headSequence)
      (store.flows job.command.flowId) = .ok (result, table)) :
    (result.applied = false
        ∧ ∃ commandId row, job.command.commandId = some commandId
          ∧ (store.flows job.command.flowId).commands.get? commandId = some row)
      ∨ result.applied = true ∧ Committed store job flow batch context result.lastSequence table := by
  obtain ⟨hflow, ⟨now, rfl⟩, hreplay, -⟩ := hcall
  obtain ⟨commandId, hnonempty, hbatch, happended⟩ := appended_of_appendFlowEvents happend
  have hevents : ∀ event ∈ job.command.buildEvents now, event.commandId = job.command.commandId :=
    fun event hevent => (commandId_of_mem_buildEvents hevent).2
  obtain ⟨event, hevent⟩ := List.exists_mem_of_ne_nil _ hnonempty
  obtain rfl : commandId = job.command.commandId :=
    (hbatch event hevent).2.symm.trans (hevents event hevent)
  cases happlied : result.applied with
  | true =>
      right
      exact ⟨rfl, committed_of_inserted hstore (hflows _ _ hflow) hnonempty hevents hreplay happlied
        happended⟩
  | false =>
      left
      cases happended with
      | known known row _ hcommandId hrow hresult => exact ⟨rfl, known, row, hcommandId, hrow⟩
      | inserted _ _ _ _ hresult _ => simp [hresult] at happlied

theorem committed_of_commitOf (hstore : store.Consistent) (hflows : flows.Sound store) {job : Job}
    {retried : Bool} {flow : FlowState} {batch : List RunFlowEvent} {context : RunFlowContext}
    (hcall : (Call.append job retried flow batch context).Sound store flows)
    {result : AppendFlowEventsResult} {table : FlowTable}
    (hcommit : commitOf hashPayload store job flow batch = .ok (result, table))
    (hresult : result.applied = true) :
    Committed store job flow batch context result.lastSequence table := by
  rcases appendFlowEvents_cases hstore hflows hcall hcommit with ⟨hknown, -⟩ | ⟨-, hcommitted⟩
  · simp [hknown] at hresult
  · exact hcommitted

theorem kept_step {answer : Answer} (hstore : store.Consistent) (hflows : flows.Sound store)
    {call call' : Call} (hcall : call.Sound store flows)
    (hstep : CallStep hashPayload answer store flows call store' flows' call') :
    Kept store store' flows' call' := by
  cases hstep with
  | miss flowId goal hmiss => exact kept_of_call hstore hflows ⟨replica_initial _, hcall⟩
  | closed flowId goal cached hcached _ => exact kept_of_call hstore hflows ⟨hcached, hcall⟩
  | probe flowId goal cached hcached => exact kept_of_call hstore hflows ⟨hcached, hcall⟩
  | current flowId goal cached _ => exact kept_of_call hstore hflows hcall
  | stale flowId goal cached =>
      exact kept_of_call hstore hflows ⟨hflows _ _ hcall.1, hcall.2⟩
  | page flowId goal state state' hfold =>
      exact kept_of_call hstore hflows ⟨replica_of_foldPage hstore hcall.1 hfold, hcall.2⟩
  | lastPage flowId goal state state' hfold _ =>
      have hreplica := replica_of_foldPage hstore hcall.1 hfold
      refine ⟨hstore, Extends.refl store, hflows.update hreplica, ?_, hcall.2⟩
      apply Function.update_self
  | proceed flowId goal flow now =>
      exact kept_of_call hstore hflows (sound_afterLoad hcall.1 hcall.2)
  | snapshot command retiredSprintId => exact kept_of_call hstore hflows rfl
  | refused job retried flow batch context error =>
      exact kept_of_call hstore hflows (sound_afterAppendError (hflows _ _ hcall.1))
  | known job retried flow batch context result table _ _ =>
      exact kept_of_call hstore hflows ⟨hflows _ _ hcall.1, rfl⟩
  | uncertain job retried flow batch context result table hcommit hresult =>
      have hcommitted := committed_of_commitOf hstore hflows hcall hcommit hresult
      refine ⟨hcommitted.consistent, hcommitted.extends_, hflows.mono hcommitted.extends_, ?_⟩
      exact sound_afterAppendError ((hflows _ _ hcall.1).mono (hcommitted.extends_ _))
  | committed job retried flow batch context result table hcommit hresult =>
      have hcommitted := committed_of_commitOf hstore hflows hcall hcommit hresult
      refine ⟨hcommitted.consistent, hcommitted.extends_, ?_, sound_finish _ _⟩
      exact (hflows.mono hcommitted.extends_).update hcommitted.replica
  | retireSprint sprintId outcome =>
      exact ⟨hstore, fun flowId => List.prefix_refl _, hflows, trivial⟩
  | fault | unfoldable | present | absent | legacySnapshot | derived | missing =>
      exact kept_of_call hstore hflows trivial

/-! ### A step of a coordinator -/

theorem sound_nextEntry (sweep : Sweep) : (nextEntry flows sweep).Sound store flows := by
  unfold nextEntry
  split
  · trivial
  · apply sound_beginGetFlow

theorem sound_nextScan (scan : Scan) : (nextScan flows scan).Sound store flows := by
  unfold nextScan
  split
  · apply sound_beginGetFlow
  · simp only
    split
    · apply sound_nextEntry
    · trivial

theorem sound_resume (outcome : Outcome) (caller : Caller) :
    (resume flows outcome caller).Sound store flows := by
  cases caller with
  | client => trivial
  | scan scan flowId =>
      rw [resume]
      split
      · split
        · trivial
        · apply sound_nextScan
      · apply sound_nextScan
  | recheck sweep entry =>
      rw [resume]
      split
      · split
        · have hcall := sound_beginCommand (.abortFlow (supersedeCommand entry)) store flows
          exact hcall
        · apply sound_nextEntry
      · apply sound_nextEntry
  | retire sweep entry =>
      rw [resume]
      split <;> apply sound_nextEntry

theorem sound_coordinator_step {action : Action} {coordinator coordinator' : Coordinator}
    (hstep : CoordinatorStep hashPayload store coordinator action store' coordinator')
    (hstore : store.Consistent) (hsound : coordinator.Sound store) :
    store'.Consistent ∧ coordinator'.Sound store' ∧ Extends store store' := by
  obtain ⟨hflows, hactivity⟩ := hsound
  have hquiet : ∀ activity : Activity, activity.Sound store coordinator.flows →
      store.Consistent ∧ Coordinator.Sound store { flows := coordinator.flows, activity := activity }
        ∧ Extends store store :=
    fun activity hactivity => ⟨hstore, ⟨hflows, hactivity⟩, Extends.refl store⟩
  cases hstep with
  | invoke operation last _ =>
      apply hquiet
      cases operation with
      | command command => apply sound_beginCommand
      | getFlow flowId => apply sound_beginGetFlow
      | retireSupersededFlows apply => trivial
  | restart =>
      refine ⟨hstore, ⟨?_, trivial⟩, Extends.refl store⟩
      simp [FlowCache.Sound, Coordinator.initial]
  | call answer caller call call' _ flows' hcalling _ hcall =>
      rw [hcalling] at hactivity
      have hkept := kept_step hstore hflows hactivity hcall
      exact ⟨hkept.consistent, ⟨hkept.flows, hkept.call⟩, hkept.extends_⟩
  | resume answer caller outcome _ => exact hquiet _ (sound_resume outcome caller)
  | listingFailed => exact hquiet _ trivial
  | listing answer apply scan _ => exact hquiet _ (sound_nextScan scan)
  | keying answer scan scan' _ _ _ => exact hquiet _ (sound_nextScan scan')

/-! ### Runs -/

variable {ι : Type} [DecidableEq ι] {turns : List (ι × Action)}
  {system : Processes ι RunFlowStore Coordinator}

theorem sound_of_run
    (hrun : replay (Processes.act (Coordinator.step hashPayload)) (initialSystem ι) turns
      = .ok system) :
    system.shared.Consistent ∧ ∀ i, (system.memory i).Sound system.shared := by
  refine Processes.rely_guarantee Extends ?_ ?_ ?_ hrun
  · refine ⟨fun flowId => consistent_empty, fun i => ⟨?_, trivial⟩⟩
    simp [FlowCache.Sound, initialSystem, Coordinator.initial]
  · intro action shared memory shared' memory' hstep hshared hmemory
    exact sound_coordinator_step (coordinatorStep_of_step hstep) hshared hmemory
  · intro shared shared' memory hextends hmemory
    exact hmemory.mono hextends

theorem extends_of_step {turn : ι × Action} {next : Processes ι RunFlowStore Coordinator}
    (hstep : system.act (Coordinator.step hashPayload) turn = .ok next)
    (hsound : system.shared.Consistent ∧ ∀ i, (system.memory i).Sound system.shared) :
    Extends system.shared next.shared := by
  obtain ⟨memory, hturn, -⟩ := Processes.act_ok.mp hstep
  exact (sound_coordinator_step (coordinatorStep_of_step hturn) hsound.1 (hsound.2 turn.1)).2.2

end Deckent.RunFlow
