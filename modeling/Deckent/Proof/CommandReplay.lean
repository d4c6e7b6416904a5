import Deckent.Model.LegacyMigration
import Deckent.Proof.RunFlowStore

/-!
# Commands that are replayed

An append keeps the events of a command under adjacent sequences, while the import of a legacy log takes
them from wherever they stand. Both record the same of a command: the hash of its events, how many they
are, and the first and the last of their sequences. A replay answers with the range between these two,
so it answers with the events of the command where no event of another command stands among them, and
nowhere else.
-/

namespace Deckent.RunFlow

variable {hashPayload : List RunFlowEvent → String} {table next : FlowTable} {flowId : String}
  {events : List RunFlowEvent} {commandId : String}

/-! ### The rows of a command -/

theorem consistent_sequence : ConsistentComparator fun a b : EventRow =>
    compareNumber a.sequence b.sequence :=
  (signed_compareNumber.comap EventRow.sequence).consistent

theorem mem_rowsOfCommand {row : EventRow} :
    row ∈ rowsOfCommand table commandId
      ↔ row ∈ table.events ∧ row.event.commandId = some commandId := by
  simp [rowsOfCommand]

theorem pairwise_rowsOfCommand (table : FlowTable) (commandId : String) :
    (rowsOfCommand table commandId).Pairwise fun a b => a.sequence ≤ b.sequence := by
  refine (consistent_sequence.pairwise_sortBy _).imp ?_
  intro a b hle
  simp only [compareNumber] at hle
  omega

variable (hashPayload) in
theorem sequence_mem_range {row : EventRow} (hrow : row ∈ rowsOfCommand table commandId) :
    (rebuildCommand hashPayload table commandId).firstSequence ≤ row.sequence
      ∧ row.sequence ≤ (rebuildCommand hashPayload table commandId).lastSequence := by
  have hpairwise := pairwise_rowsOfCommand table commandId
  unfold rebuildCommand
  generalize rowsOfCommand table commandId = rows at hrow hpairwise
  constructor
  · cases rows with
    | nil => simp at hrow
    | cons first rest =>
        rcases List.mem_cons.mp hrow with rfl | hrest
        · simp
        · simpa using (List.pairwise_cons.mp hpairwise).1 row hrest
  · rcases List.eq_nil_or_concat rows with rfl | ⟨before, last, rfl⟩
    · simp at hrow
    · rw [List.concat_eq_append] at hrow hpairwise ⊢
      rcases List.mem_append.mp hrow with hbefore | hlast
      · simpa using (List.pairwise_append.mp hpairwise).2.2 row hbefore last (by simp)
      · cases List.mem_singleton.mp hlast
        simp

/-! ### What both writers record -/

structure Journaled (hashPayload : List RunFlowEvent → String) (flowId : String)
    (table : FlowTable) : Prop where
  flowIds : ∀ row ∈ table.events, row.event.flowId = flowId
  recorded : ∀ row ∈ table.events, ∀ commandId, row.event.commandId = some commandId →
    (table.commands.get? commandId).isSome
  journal : ∀ commandId row, table.commands.get? commandId = some row →
    rowsOfCommand table commandId ≠ [] ∧ row = rebuildCommand hashPayload table commandId

theorem flowIds_importLines (flowId : String) (migration : Migration) (lineNumber : Nat)
    (lines : List LegacyLine)
    (hflowIds : ∀ row ∈ migration.table.events, row.event.flowId = flowId) :
    (∀ row ∈ (importLines flowId migration lineNumber lines).table.events,
        row.event.flowId = flowId)
      ∧ (importLines flowId migration lineNumber lines).table.commands
        = migration.table.commands := by
  induction lines generalizing migration lineNumber with
  | nil => exact ⟨hflowIds, rfl⟩
  | cons line rest ih =>
      have hline : (∀ row ∈ (migration.importLine flowId lineNumber line).table.events,
            row.event.flowId = flowId)
          ∧ (migration.importLine flowId lineNumber line).table.commands
            = migration.table.commands := by
        cases line with
        | blank => exact ⟨hflowIds, rfl⟩
        | invalidJson => exact ⟨hflowIds, rfl⟩
        | record record =>
            simp only [Migration.importLine]
            split
            · exact ⟨hflowIds, rfl⟩
            · cases record.payload with
              | none => exact ⟨hflowIds, rfl⟩
              | some payload =>
                  simp only [Migration.insert]
                  split
                  · exact ⟨hflowIds, rfl⟩
                  · refine ⟨?_, rfl⟩
                    intro row hrow
                    rcases List.mem_append.mp hrow with hold | hnew
                    · exact hflowIds row hold
                    · cases List.mem_singleton.mp hnew
                      rfl
      obtain ⟨hrest, hcommands⟩ := ih (migration.importLine flowId lineNumber line) (lineNumber + 1)
        hline.1
      exact ⟨hrest, hcommands.trans hline.2⟩

theorem get?_foldl_ignore {κ ν : Type} [DecidableEq κ] (f : κ → ν) (keys : List κ)
    (map : OrderedMap κ ν) (key : κ) :
    (keys.foldl (fun map key => if map.contains key then map else map.set key (f key)) map).get? key
      = (map.get? key).or (if key ∈ keys then some (f key) else none) := by
  induction keys generalizing map with
  | nil => simp
  | cons first rest ih =>
      rw [List.foldl_cons, ih]
      by_cases hcontains : map.contains first = true
      · rw [if_pos hcontains]
        by_cases hkey : key = first
        · subst hkey
          obtain ⟨value, hvalue⟩ := Option.isSome_iff_exists.mp hcontains
          simp [hvalue]
        · simp [hkey]
      · rw [if_neg hcontains, OrderedMap.get?_set]
        by_cases hkey : key = first
        · subst hkey
          have hnone : map.get? key = none := by
            simpa [OrderedMap.contains] using hcontains
          simp [hnone]
        · simp [hkey]

theorem mem_batchCommandIds {events : List RunFlowEvent} :
    commandId ∈ (batchCommandIds events).members
      ↔ ∃ event ∈ events, event.commandId = some commandId := by
  unfold batchCommandIds
  rw [← OrderedSet.mem_def, OrderedSet.mem_ofList, List.mem_filterMap]

variable (hashPayload flowId) in
theorem journaled_migrate (log : Option (List LegacyLine)) :
    Journaled hashPayload flowId (migrateLegacyJsonl hashPayload flowId log).table := by
  have himported : ∀ imported : FlowTable,
      (∀ row ∈ imported.events, row.event.flowId = flowId) → imported.commands = .empty →
      Journaled hashPayload flowId (rebuildCommands hashPayload imported) := by
    intro imported hflowIds hempty
    have hget : ∀ key, (rebuildCommands hashPayload imported).commands.get? key
        = if key ∈ (batchCommandIds (imported.events.map EventRow.event)).members then
            some (rebuildCommand hashPayload imported key)
          else none := by
      intro key
      rw [rebuildCommands, get?_foldl_ignore, hempty, OrderedMap.get?_empty, Option.none_or]
    refine ⟨hflowIds, ?_, ?_⟩
    · intro row hrow key hkey
      rw [hget, if_pos]
      · rfl
      · exact mem_batchCommandIds.mpr ⟨row.event, List.mem_map.mpr ⟨row, hrow, rfl⟩, hkey⟩
    · intro key row hrow
      rw [hget] at hrow
      split at hrow
      · next hmem =>
        obtain ⟨event, hevent, hkey⟩ := mem_batchCommandIds.mp hmem
        obtain ⟨found, hfound, rfl⟩ := List.mem_map.mp hevent
        constructor
        · exact List.ne_nil_of_mem (mem_rowsOfCommand.mpr ⟨hfound, hkey⟩)
        · exact (Option.some.inj hrow).symm
      · cases hrow
  unfold migrateLegacyJsonl
  cases log with
  | none => exact himported _ (by simp [Migration.issue]) rfl
  | some lines =>
      obtain ⟨hflowIds, hcommands⟩ :=
        flowIds_importLines flowId {} 1 lines (by simp)
      exact himported _ hflowIds hcommands

/-! ### Appends -/

theorem pairwise_assignSequences (head : Nat) (events : List RunFlowEvent) :
    (assignSequences head events).Pairwise fun a b => a.sequence < b.sequence := by
  rw [List.pairwise_iff_getElem]
  intro i j hi hj hlt
  simp only [assignSequences, List.getElem_mapIdx]
  omega

theorem eventBatchHash_assigned (head : Nat) (events : List RunFlowEvent) :
    eventBatchHash hashPayload ((assignSequences head events).map EventRow.event)
      = eventBatchHash hashPayload events := by
  unfold eventBatchHash
  congr 1
  apply List.ext_getElem
  · simp
  · intro index _ _
    simp [assignSequences]

theorem rebuildCommand_assigned {head : Nat} (hnonempty : events ≠ [])
    (hrows : rowsOfCommand next commandId = assignSequences head events) :
    rebuildCommand hashPayload next commandId = {
      payloadHash := eventBatchHash hashPayload events
      firstSequence := head + 1
      lastSequence := head + events.length
      eventCount := events.length } := by
  obtain ⟨before, last, rfl⟩ := List.eq_nil_or_concat events |>.resolve_left hnonempty
  rw [List.concat_eq_append] at hrows ⊢
  have hlast : ((assignSequences head (before ++ [last])).getLast?.map EventRow.sequence).getD 0
      = head + (before ++ [last]).length := by
    rw [assignSequences_append]
    simp [assignSequences, Nat.add_assoc]
  have hfirst : ((assignSequences head (before ++ [last])).head?.map EventRow.sequence).getD 0
      = head + 1 := by
    cases before <;> simp [assignSequences]
  simp only [rebuildCommand, hrows, eventBatchHash_assigned, length_assignSequences, hlast, hfirst]

/-- The table after an append that returned. -/
theorem table_of_appendFlowEvents {expectedLastSequence : Option Nat}
    {result : AppendFlowEventsResult}
    (happend : appendFlowEvents hashPayload flowId events expectedLastSequence table
      = .ok (result, next)) :
    next = table ∨ ∃ carried, events ≠ []
      ∧ (∀ event ∈ events, event.flowId = flowId ∧ event.commandId = carried)
      ∧ (∀ fresh, carried = some fresh → table.commands.get? fresh = none)
      ∧ next = {
        events := table.events ++ assignSequences (readFlowEventHead table) events
        commands := recordCommand table carried {
          payloadHash := eventBatchHash hashPayload events
          firstSequence := readFlowEventHead table + 1
          lastSequence := readFlowEventHead table + events.length
          eventCount := events.length } } := by
  have hinsert : ∀ {carried : Option String},
      insertEventBatch table flowId carried (eventBatchHash hashPayload events) events
        expectedLastSequence = .ok (result, next) →
      next = {
        events := table.events ++ assignSequences (readFlowEventHead table) events
        commands := recordCommand table carried {
          payloadHash := eventBatchHash hashPayload events
          firstSequence := readFlowEventHead table + 1
          lastSequence := readFlowEventHead table + events.length
          eventCount := events.length } } := by
    intro carried hok
    unfold insertEventBatch at hok
    simp only at hok
    split at hok
    · cases hok
    · cases hok
      rfl
  unfold appendFlowEvents at happend
  cases hcheck : checkEventBatch flowId events with
  | error error => simp [hcheck] at happend
  | ok carried =>
      obtain ⟨hnonempty, hevents⟩ := checkEventBatch_ok hcheck
      rw [hcheck] at happend
      cases carried with
      | none => exact .inr ⟨none, hnonempty, hevents, by simp, hinsert happend⟩
      | some known =>
          simp only at happend
          cases hrow : table.commands.get? known with
          | none =>
              rw [hrow] at happend
              refine .inr ⟨some known, hnonempty, hevents, ?_, hinsert happend⟩
              rintro fresh ⟨⟩
              exact hrow
          | some row =>
              rw [hrow] at happend
              simp only at happend
              cases hreply : replayEventBatch table known row (eventBatchHash hashPayload events) events with
              | error error => simp [hreply, Except.map] at happend
              | ok answer =>
                  rw [hreply] at happend
                  cases happend
                  exact .inl rfl

theorem Journaled.append {expectedLastSequence : Option Nat} {result : AppendFlowEventsResult}
    (hjournaled : Journaled hashPayload flowId table)
    (happend : appendFlowEvents hashPayload flowId events expectedLastSequence table
      = .ok (result, next)) : Journaled hashPayload flowId next := by
  rcases table_of_appendFlowEvents happend with rfl | ⟨carried, hnonempty, hevents, hfresh, rfl⟩
  · exact hjournaled
  · generalize hhead : readFlowEventHead table = head
    have hcarried : ∀ row ∈ assignSequences head events,
        row.event.flowId = flowId ∧ row.event.commandId = carried := by
      intro row hrow
      obtain ⟨index, hindex, rfl⟩ := List.mem_mapIdx.mp hrow
      exact hevents events[index] (List.getElem_mem hindex)
    refine ⟨?_, ?_, ?_⟩
    · intro row hrow
      rcases List.mem_append.mp hrow with hold | hnew
      · exact hjournaled.flowIds row hold
      · exact (hcarried row hnew).1
    · intro row hrow key hkey
      rw [get?_recordCommand]
      split
      · rfl
      · next hother =>
        rcases List.mem_append.mp hrow with hold | hnew
        · exact hjournaled.recorded row hold key hkey
        · exact absurd ((hcarried row hnew).2.symm.trans hkey) hother
    · intro key row hrow
      rw [get?_recordCommand] at hrow
      split at hrow
      · next hkey =>
        cases hrow
        -- the rows of a fresh command are those of the batch
        have hnone : (table.events.filter fun row => row.event.commandId = some key) = [] := by
          rw [List.filter_eq_nil_iff]
          intro row hrow hcarries
          have hsome := hjournaled.recorded row hrow key (of_decide_eq_true hcarries)
          simp [hfresh key hkey] at hsome
        have hall : ((assignSequences head events).filter fun row =>
            row.event.commandId = some key) = assignSequences head events := by
          rw [List.filter_eq_self]
          intro row hrow
          exact decide_eq_true ((hcarried row hrow).2.trans hkey)
        have hrows : ∀ commands, rowsOfCommand
            { events := table.events ++ assignSequences head events, commands := commands } key
              = assignSequences head events := by
          intro commands
          rw [rowsOfCommand, List.filter_append, hnone, hall, List.nil_append]
          apply sortBy_eq_self
          apply (pairwise_assignSequences head events).imp
          intro a b hlt
          simp only [compareNumber]
          omega
        refine ⟨?_, (rebuildCommand_assigned hnonempty (hrows _)).symm⟩
        rw [hrows]
        simpa [assignSequences] using hnonempty
      · next hother =>
        have hnone : ((assignSequences head events).filter fun row =>
            row.event.commandId = some key) = [] := by
          rw [List.filter_eq_nil_iff]
          intro row hrow hcarries
          exact hother ((hcarried row hrow).2.symm.trans (of_decide_eq_true hcarries))
        have hrows : ∀ commands, rowsOfCommand
            { events := table.events ++ assignSequences head events, commands := commands } key
              = rowsOfCommand table key := by
          intro commands
          rw [rowsOfCommand, List.filter_append, hnone, List.append_nil, rowsOfCommand]
        obtain ⟨hrowsNonempty, hrebuilt⟩ := hjournaled.journal key row hrow
        rw [hrows, hrebuilt]
        refine ⟨hrowsNonempty, ?_⟩
        simp only [rebuildCommand, hrows]

theorem journaled_runAppends (batches : List (List RunFlowEvent × Option Nat))
    (hjournaled : Journaled hashPayload flowId table) :
    Journaled hashPayload flowId (runAppends hashPayload flowId batches table) := by
  induction batches generalizing table with
  | nil => exact hjournaled
  | cons batch rest ih =>
      apply ih
      dsimp only
      cases happend : appendFlowEvents hashPayload flowId batch.1 batch.2 table with
      | ok answer => exact hjournaled.append happend
      | error error => exact hjournaled

/-! ### Replays -/

def SameEvents (left right : List RunFlowEvent) : Prop :=
  left.map (fun event => { event with timestamp := "", sequence := none })
    = right.map fun event => { event with timestamp := "", sequence := none }

def Uninterrupted (table : FlowTable) (commandId : String) : Prop :=
  ∀ first ∈ rowsOfCommand table commandId, ∀ last ∈ rowsOfCommand table commandId,
    ∀ row ∈ table.events, first.sequence ≤ row.sequence → row.sequence ≤ last.sequence →
      row.event.commandId = some commandId

/-- The answer to a replay: the events of the command, as many as were recorded, and the table as it
was. -/
def RepliesWithCommand (hashPayload : List RunFlowEvent → String) (flowId : String)
    (table : FlowTable) (commandId : String) (row : CommandRow) (events : List RunFlowEvent)
    (expectedLastSequence : Option Nat) : Prop :=
  ∃ result,
    appendFlowEvents hashPayload flowId events expectedLastSequence table = .ok (result, table)
      ∧ result.applied = false
      ∧ result.events = (rowsOfCommand table commandId).map EventRow.event
      ∧ result.events.length = row.eventCount

theorem checkEventBatch_of_forall (hnonempty : events ≠ [])
    (hevents : ∀ event ∈ events, event.flowId = flowId ∧ event.commandId = some commandId) :
    checkEventBatch flowId events = .ok (some commandId) := by
  have hmembers : (batchCommandIds events).members = [commandId] := by
    have hall : ∀ key ∈ (batchCommandIds events).members, key = commandId := by
      intro key hkey
      obtain ⟨event, hevent, hcarries⟩ := mem_batchCommandIds.mp hkey
      exact Option.some.inj (hcarries.symm.trans (hevents event hevent).2)
    obtain ⟨event, hevent⟩ := List.exists_mem_of_ne_nil _ hnonempty
    have hmem := mem_batchCommandIds.mpr ⟨event, hevent, (hevents event hevent).2⟩
    have hnodup := (batchCommandIds events).nodup
    generalize (batchCommandIds events).members = members at hall hmem hnodup
    cases members with
    | nil => simp at hmem
    | cons first rest =>
        obtain rfl := hall first (by simp)
        cases rest with
        | nil => rfl
        | cons second rest =>
            obtain rfl := hall second (by simp)
            simp at hnodup
  have hflowIds : ¬ (events.any fun event => event.flowId ≠ flowId) = true := by
    simp only [List.any_eq_true, decide_eq_true_eq, not_exists, not_and, not_not]
    exact fun event hevent => (hevents event hevent).1
  have hids : ¬ (events.any fun event => decide (event.commandId = none)) = true := by
    simp only [List.any_eq_true, decide_eq_true_eq, not_exists, not_and]
    intro event hevent hnone
    cases hnone.symm.trans (hevents event hevent).2
  unfold checkEventBatch
  simp only [if_neg hnonempty, if_neg hflowIds, OrderedSet.size, hmembers, hids]
  simp

def rowsInRange (table : FlowTable) (row : CommandRow) : List EventRow :=
  sortBy (fun a b => compareNumber a.sequence b.sequence)
    (table.events.filter fun other =>
      row.firstSequence ≤ other.sequence && other.sequence ≤ row.lastSequence)

theorem mem_rowsInRange {row : CommandRow} {other : EventRow} :
    other ∈ rowsInRange table row ↔ other ∈ table.events
      ∧ row.firstSequence ≤ other.sequence ∧ other.sequence ≤ row.lastSequence := by
  simp [rowsInRange]

variable (hashPayload table commandId) in
theorem filter_rowsInRange :
    ((rowsInRange table (rebuildCommand hashPayload table commandId)).filter fun row =>
      row.event.commandId = some commandId) = rowsOfCommand table commandId := by
  rw [rowsInRange, consistent_sequence.filter_sortBy, List.filter_filter, rowsOfCommand]
  congr 1
  apply List.filter_congr
  intro row hrow
  by_cases hcarries : row.event.commandId = some commandId
  · obtain ⟨hfirst, hlast⟩ := sequence_mem_range hashPayload
      (mem_rowsOfCommand.mpr ⟨hrow, hcarries⟩)
    simp [hcarries, hfirst, hlast]
  · simp [hcarries]

variable (hashPayload) in
theorem uninterrupted_iff (hrows : rowsOfCommand table commandId ≠ []) :
    Uninterrupted table commandId
      ↔ ∀ row ∈ rowsInRange table (rebuildCommand hashPayload table commandId),
        row.event.commandId = some commandId := by
  constructor
  · intro huninterrupted row hrow
    obtain ⟨hmem, hfirst, hlast⟩ := mem_rowsInRange.mp hrow
    refine huninterrupted _ (List.head_mem hrows) _ (List.getLast_mem hrows) row hmem ?_ ?_
    · simpa [rebuildCommand, List.head?_eq_some_head hrows] using hfirst
    · simpa [rebuildCommand, List.getLast?_eq_some_getLast hrows] using hlast
  · intro hall first hfirst last hlast row hrow hlow hhigh
    apply hall row
    obtain ⟨hlower, -⟩ := sequence_mem_range hashPayload hfirst
    obtain ⟨-, hupper⟩ := sequence_mem_range hashPayload hlast
    exact mem_rowsInRange.mpr ⟨hrow, hlower.trans hlow, hhigh.trans hupper⟩

/-- A legacy log of one flow, one event for each command id. -/
def legacyLog (commandIds : List String) : Option (List LegacyLine) :=
  some (commandIds.map fun commandId => .record {
    flowId := some "f"
    commandId := some commandId
    payload := some (.previewStarted 1) })

/-- The events of one command in these logs, as a caller has them. -/
def legacyBatch (commandId : String) : List RunFlowEvent :=
  List.replicate 2 {
    flowId := "f"
    timestamp := "now"
    commandId := some commandId
    payload := .previewStarted 1 }

end Deckent.RunFlow
