import Deckent.Lib.EventLog
import Deckent.Proof.RunFlowTransition
import Deckent.Model.RunFlowStore

/-!
# The event tables keep a replayable log

A table is consistent when its sequences count up from one, its events replay from the initial context
and every committed command id names one batch of it. On a consistent table the head is the length of
the log and a page is a piece of it, and appending at the head a batch that replays there keeps the
table consistent.
-/

namespace Deckent.RunFlow

variable {table : FlowTable} {events : List RunFlowEvent} {flowId : String}
  {hashPayload : List RunFlowEvent → String}

/-- The events of a flow, in the order of their rows. -/
def FlowTable.log (table : FlowTable) : List RunFlowEvent := table.events.map EventRow.event

def FlowTable.Sequenced (table : FlowTable) : Prop :=
  table.events = assignSequences 0 table.log

structure IsBatch (log : List RunFlowEvent) (commandId : String) (row : CommandRow)
    (before batch after : List RunFlowEvent) : Prop where
  split : log = before ++ batch ++ after
  nonempty : batch ≠ []
  carries : ∀ event ∈ batch, event.commandId = some commandId
  others : ∀ event ∈ before ++ after, event.commandId ≠ some commandId
  first : row.firstSequence = before.length + 1
  last : row.lastSequence = before.length + batch.length
  count : row.eventCount = batch.length

def Replays (log : List RunFlowEvent) : Prop :=
  ∃ context, replay reduceRunFlow createInitialRunFlowContext log = .ok context

structure FlowTable.Consistent (table : FlowTable) : Prop where
  sequenced : table.Sequenced
  replays : Replays table.log
  batches : ∀ commandId row, table.commands.get? commandId = some row →
    ∃ before batch after, IsBatch table.log commandId row before batch after
  recorded : ∀ event ∈ table.log, ∀ commandId, event.commandId = some commandId →
    ∃ row, table.commands.get? commandId = some row

theorem consistent_empty : FlowTable.Consistent {} where
  sequenced := rfl
  replays := ⟨_, rfl⟩
  batches := by simp
  recorded := by simp [FlowTable.log]

/-! ### Sequences -/

@[simp]
theorem length_assignSequences (head : Nat) (events : List RunFlowEvent) :
    (assignSequences head events).length = events.length := by
  simp [assignSequences]

theorem assignSequences_append (head : Nat) (before after : List RunFlowEvent) :
    assignSequences head (before ++ after)
      = assignSequences head before ++ assignSequences (head + before.length) after := by
  unfold assignSequences
  rw [List.mapIdx_append]
  congr 2
  funext index event
  have hindex : head + (index + before.length) + 1 = head + before.length + index + 1 := by omega
  rw [hindex]

theorem assignSequences_assigned (head : Nat) (events : List RunFlowEvent) :
    assignSequences head ((assignSequences head events).map EventRow.event)
      = assignSequences head events := by
  apply List.ext_getElem
  · simp
  · intro index _ _
    simp [assignSequences]

theorem FlowTable.Sequenced.row (hsequenced : table.Sequenced) {index : Nat} {row : EventRow}
    (hrow : table.events[index]? = some row) :
    row.sequence = index + 1 ∧ row.event.sequence = some (index + 1) := by
  rw [hsequenced, assignSequences, List.getElem?_mapIdx, Option.map_eq_some_iff] at hrow
  obtain ⟨event, -, rfl⟩ := hrow
  simp

theorem FlowTable.Sequenced.event (hsequenced : table.Sequenced) {index : Nat} {event : RunFlowEvent}
    (hevent : table.log[index]? = some event) : event.sequence = some (index + 1) := by
  unfold FlowTable.log at hevent
  rw [List.getElem?_map, Option.map_eq_some_iff] at hevent
  obtain ⟨row, hrow, rfl⟩ := hevent
  exact (hsequenced.row hrow).2

theorem FlowTable.Sequenced.sequence_getElem (hsequenced : table.Sequenced) {index : Nat}
    (hindex : index < table.events.length) : table.events[index].sequence = index + 1 :=
  (hsequenced.row (List.getElem?_eq_getElem hindex)).1

theorem FlowTable.Sequenced.sequences (hsequenced : table.Sequenced) :
    table.events.map EventRow.sequence = List.range' 1 table.log.length := by
  apply List.ext_getElem
  · simp [FlowTable.log]
  · intro index hindex _
    rw [List.length_map] at hindex
    rw [List.getElem_map, hsequenced.sequence_getElem hindex, List.getElem_range']
    omega

theorem FlowTable.Sequenced.head (hsequenced : table.Sequenced) :
    readFlowEventHead table = table.log.length := by
  unfold readFlowEventHead
  rw [hsequenced.sequences]
  generalize table.log.length = length
  induction length with
  | zero => rfl
  | succ length ih =>
      rw [List.range'_concat, List.foldl_append, ih]
      simp
      omega

theorem FlowTable.Sequenced.page (hsequenced : table.Sequenced) (afterSequence limit : Nat) :
    readFlowEvents table afterSequence limit = (table.log.drop afterSequence).take limit := by
  have hfilter : (table.events.filter fun row => decide (afterSequence < row.sequence))
      = table.events.drop afterSequence := by
    conv_lhs => rw [← List.take_append_drop afterSequence table.events]
    rw [List.filter_append, List.filter_eq_nil_iff.mpr, List.filter_eq_self.mpr, List.nil_append]
    · intro row hrow
      obtain ⟨index, hindex, rfl⟩ := List.mem_iff_getElem.mp hrow
      rw [List.getElem_drop, hsequenced.sequence_getElem, decide_eq_true_eq]
      omega
    · intro row hrow
      obtain ⟨index, hindex, rfl⟩ := List.mem_iff_getElem.mp hrow
      rw [List.length_take] at hindex
      rw [List.getElem_take, hsequenced.sequence_getElem]
      simp
      omega
  have hsorted : (table.events.drop afterSequence).Pairwise fun a b =>
      compareNumber a.sequence b.sequence ≤ 0 := by
    apply List.Pairwise.drop
    rw [List.pairwise_iff_getElem]
    intro i j hi hj hij
    rw [hsequenced.sequence_getElem, hsequenced.sequence_getElem]
    unfold compareNumber
    omega
  unfold readFlowEvents selectEvents
  rw [hfilter, sortBy_eq_self hsorted, List.map_drop]
  rfl

/-! ### Appending -/

theorem reduceRunFlow_sequence (context : RunFlowContext) (event : RunFlowEvent)
    (sequence : Option Nat) :
    reduceRunFlow context { event with sequence := sequence } = reduceRunFlow context event := rfl

theorem replay_assigned (head : Nat) (context : RunFlowContext) (events : List RunFlowEvent) :
    replay reduceRunFlow context ((assignSequences head events).map EventRow.event)
      = replay reduceRunFlow context events := by
  induction events generalizing head context with
  | nil => rfl
  | cons event rest ih =>
      have hcons : (assignSequences head (event :: rest)).map EventRow.event
          = { event with sequence := some (head + 1) }
            :: (assignSequences (head + 1) rest).map EventRow.event := by
        have hsplit := assignSequences_append head [event] rest
        rw [List.singleton_append, List.length_singleton] at hsplit
        rw [hsplit, List.map_append]
        rfl
      rw [hcons, replay, replay, reduceRunFlow_sequence]
      cases reduceRunFlow context event with
      | ok next => exact ih (head + 1) next
      | error error => rfl

/-- The ways an append can end without an error. -/
inductive Appended (table : FlowTable) (events : List RunFlowEvent) (commandId : Option String)
    (expectedLastSequence : Option Nat) : AppendFlowEventsResult → FlowTable → Prop
  | known (known : String) (row : CommandRow) (result : AppendFlowEventsResult)
      (hcommandId : commandId = some known) (hrow : table.commands.get? known = some row)
      (hresult : result.applied = false) :
      Appended table events commandId expectedLastSequence result table
  | inserted (result : AppendFlowEventsResult) (payloadHash : String)
      (hfresh : ∀ fresh, commandId = some fresh → table.commands.get? fresh = none)
      (hhead : ∀ expected, expectedLastSequence = some expected → readFlowEventHead table = expected)
      (happlied : result.applied = true)
      (hlast : result.lastSequence = readFlowEventHead table + events.length) :
      Appended table events commandId expectedLastSequence result {
        events := table.events ++ assignSequences (readFlowEventHead table) events
        commands := recordCommand table commandId {
          payloadHash := payloadHash
          firstSequence := readFlowEventHead table + 1
          lastSequence := readFlowEventHead table + events.length
          eventCount := events.length } }

theorem checkEventBatch_ok {commandId : Option String}
    (hcheck : checkEventBatch flowId events = .ok commandId) :
    events ≠ [] ∧ ∀ event ∈ events, event.flowId = flowId ∧ event.commandId = commandId := by
  unfold checkEventBatch at hcheck
  simp only at hcheck
  split at hcheck
  · simp at hcheck
  · next hnonempty =>
    split at hcheck
    · simp at hcheck
    · next hflow =>
      split at hcheck
      · simp at hcheck
      · next hids =>
        refine ⟨hnonempty, ?_⟩
        intro event hevent
        constructor
        · by_contra hne
          apply hflow
          rw [List.any_eq_true]
          exact ⟨event, hevent, by simpa using hne⟩
        · have hhead : (batchCommandIds events).members.head? = commandId := by simpa using hcheck
          cases hid : event.commandId with
          | some known =>
              have hmem : known ∈ (batchCommandIds events).members := by
                apply OrderedSet.mem_ofList.mpr
                exact List.mem_filterMap.mpr ⟨event, hevent, hid⟩
              have hsize : ¬ 1 < (batchCommandIds events).members.length := fun h => hids (.inl h)
              cases hmembers : (batchCommandIds events).members with
              | nil => simp [hmembers] at hmem
              | cons only rest =>
                  cases rest with
                  | nil =>
                      rw [hmembers] at hmem hhead
                      rw [← hhead, List.mem_singleton.mp hmem]
                      rfl
                  | cons _ _ => simp [hmembers] at hsize
          | none =>
              have hnone : events.any (fun event => decide (event.commandId = none)) = true := by
                rw [List.any_eq_true]
                exact ⟨event, hevent, by simpa using hid⟩
              have hsize : (batchCommandIds events).size ≠ 1 := fun h => hids (.inr ⟨h, hnone⟩)
              have hle : ¬ 1 < (batchCommandIds events).size := fun h => hids (.inl h)
              have hempty : (batchCommandIds events).members.length = 0 := by
                unfold OrderedSet.size at hsize hle
                omega
              rw [← hhead, List.length_eq_zero_iff.mp hempty]
              rfl

theorem insertEventBatch_ok {commandId : Option String} {payloadHash : String}
    {expectedLastSequence : Option Nat} {result : AppendFlowEventsResult} {table' : FlowTable}
    (hfresh : ∀ fresh, commandId = some fresh → table.commands.get? fresh = none)
    (hinsert : insertEventBatch table flowId commandId payloadHash events expectedLastSequence
      = .ok (result, table')) :
    Appended table events commandId expectedLastSequence result table' := by
  unfold insertEventBatch at hinsert
  simp only at hinsert
  split at hinsert
  · simp at hinsert
  · next hhead =>
    cases hinsert
    apply Appended.inserted
    · exact hfresh
    · intro expected hexpected
      by_contra hne
      apply hhead
      simpa [hexpected] using hne
    · rfl
    · rfl

theorem appended_of_appendFlowEvents {expectedLastSequence : Option Nat}
    {result : AppendFlowEventsResult} {table' : FlowTable}
    (happend : appendFlowEvents hashPayload flowId events expectedLastSequence table
      = .ok (result, table')) :
    ∃ commandId, events ≠ [] ∧ (∀ event ∈ events, event.flowId = flowId ∧ event.commandId = commandId)
      ∧ Appended table events commandId expectedLastSequence result table' := by
  unfold appendFlowEvents at happend
  cases hcheck : checkEventBatch flowId events with
  | error error => simp [hcheck] at happend
  | ok commandId =>
      obtain ⟨hnonempty, hevents⟩ := checkEventBatch_ok hcheck
      refine ⟨commandId, hnonempty, hevents, ?_⟩
      rw [hcheck] at happend
      cases commandId with
      | none => exact insertEventBatch_ok (by simp) happend
      | some commandId =>
          simp only at happend
          cases hrow : table.commands.get? commandId with
          | none =>
              rw [hrow] at happend
              apply insertEventBatch_ok _ happend
              rintro fresh ⟨⟩
              exact hrow
          | some row =>
              rw [hrow] at happend
              simp only [replayEventBatch] at happend
              split at happend
              · simp [Except.map] at happend
              · cases happend
                exact .known commandId row _ rfl hrow rfl

/-! ### Consistency is kept -/

theorem FlowTable.log_insert (table : FlowTable) (head : Nat) (events : List RunFlowEvent)
    (commands : OrderedMap String CommandRow) :
    FlowTable.log { events := table.events ++ assignSequences head events, commands := commands }
      = table.log ++ (assignSequences head events).map EventRow.event := by
  simp [FlowTable.log]

theorem commandId_of_mem_assigned {head : Nat} {commandId : Option String}
    (hevents : ∀ event ∈ events, event.commandId = commandId) {event : RunFlowEvent}
    (hevent : event ∈ (assignSequences head events).map EventRow.event) :
    event.commandId = commandId := by
  obtain ⟨row, hrow, rfl⟩ := List.mem_map.mp hevent
  unfold assignSequences at hrow
  obtain ⟨index, hindex, rfl⟩ := List.mem_mapIdx.mp hrow
  exact hevents events[index] (List.getElem_mem hindex)

theorem get?_recordCommand {commandId : Option String} {row : CommandRow} {key : String} :
    (recordCommand table commandId row).get? key
      = if commandId = some key then some row else table.commands.get? key := by
  unfold recordCommand
  cases commandId with
  | none => simp
  | some known =>
      simp only [OrderedMap.get?_set, Option.some.injEq]
      by_cases hkey : known = key
      · simp [hkey]
      · rw [if_neg hkey, if_neg (fun h => hkey h.symm)]

theorem FlowTable.Consistent.insert (hconsistent : table.Consistent) {commandId : Option String}
    (row : CommandRow) (hnonempty : events ≠ [])
    (hevents : ∀ event ∈ events, event.commandId = commandId)
    (hfresh : ∀ fresh, commandId = some fresh → table.commands.get? fresh = none)
    (hreplays : Replays (table.log ++ events)) (hfirst : row.firstSequence = table.log.length + 1)
    (hlast : row.lastSequence = table.log.length + events.length)
    (hcount : row.eventCount = events.length) :
    FlowTable.Consistent {
      events := table.events ++ assignSequences table.log.length events
      commands := recordCommand table commandId row } where
  sequenced := by
    unfold Sequenced
    rw [log_insert, assignSequences_append, Nat.zero_add, assignSequences_assigned]
    exact congrArg (· ++ _) hconsistent.sequenced
  replays := by
    obtain ⟨context, hcontext⟩ := hreplays
    obtain ⟨middle, hmiddle, hrest⟩ := replay_append_ok.mp hcontext
    refine ⟨context, ?_⟩
    rw [log_insert, replay_append_ok]
    exact ⟨middle, hmiddle, by rwa [replay_assigned]⟩
  batches := by
    intro key found hfound
    rw [log_insert]
    simp only [get?_recordCommand] at hfound
    by_cases hkey : commandId = some key
    · rw [if_pos hkey] at hfound
      obtain rfl := Option.some.inj hfound
      refine ⟨table.log, (assignSequences table.log.length events).map EventRow.event, [], ?_⟩
      constructor
      case split => simp
      case nonempty => simpa [assignSequences] using hnonempty
      case carries =>
        intro event hevent
        rw [commandId_of_mem_assigned hevents hevent, hkey]
      case others =>
        intro event hevent hcarries
        rw [List.append_nil] at hevent
        obtain ⟨known, hknown⟩ := hconsistent.recorded event hevent key hcarries
        simp [hfresh key hkey] at hknown
      case first => exact hfirst
      case last => simpa using hlast
      case count => simpa using hcount
    · rw [if_neg hkey] at hfound
      obtain ⟨before, batch, after, hbatch⟩ := hconsistent.batches key found hfound
      refine ⟨before, batch, after ++ (assignSequences table.log.length events).map EventRow.event, ?_⟩
      constructor
      case split => rw [hbatch.split, List.append_assoc]
      case nonempty => exact hbatch.nonempty
      case carries => exact hbatch.carries
      case others =>
        intro event hevent
        rw [← List.append_assoc, List.mem_append] at hevent
        rcases hevent with hevent | hevent
        · exact hbatch.others event hevent
        · rwa [commandId_of_mem_assigned hevents hevent]
      case first => exact hbatch.first
      case last => exact hbatch.last
      case count => exact hbatch.count
  recorded := by
    intro event hevent key hcarries
    simp only [get?_recordCommand]
    by_cases hkey : commandId = some key
    · exact ⟨row, if_pos hkey⟩
    · rw [if_neg hkey]
      rw [log_insert, List.mem_append] at hevent
      rcases hevent with hevent | hevent
      · exact hconsistent.recorded event hevent key hcarries
      · rw [commandId_of_mem_assigned hevents hevent] at hcarries
        exact absurd hcarries hkey

end Deckent.RunFlow
