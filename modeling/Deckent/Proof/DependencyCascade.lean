import Deckent.Model.DependencyScheduler

/-!
# What a failed task blocks

The search along the reverse edges visits every id once, so on any graph it ends and finds the ids that
the failed task reaches. The tasks are then visited once each: a pending task with such an id is paused
and reported, and every other task is left as it is.
-/

namespace Deckent.DependencyScheduler

open Relation

variable {graph : DependencyGraph} {failedTaskId : String} {tasks : List Task}

def DependencyGraph.Reaches (graph : DependencyGraph) : String → String → Prop :=
  ReflTransGen fun a b => b ∈ graph.dependentsOf a

def blockedEvent (failedTaskId : String) (task : Task) : CascadeTransitionEvent :=
  { transition := .blocked
    taskId := task.id
    triggerTaskId := failedTaskId
    fromStatus := .pending
    toStatus := .paused }

/-- What a cascade owes to the graph and to the tasks it was given. -/
structure BlocksDependents (graph : DependencyGraph) (failedTaskId : String) (tasks : List Task)
    (cascade : Cascade) : Prop where
  nodup : cascade.result.blockedTaskIds.Nodup
  total : cascade.result.totalBlocked = cascade.result.blockedTaskIds.length
  /-- The ids it answers are those that the failed task reaches, itself apart. -/
  exact : ∀ id, id ∈ cascade.result.blockedTaskIds ↔ id ≠ failedTaskId ∧ graph.Reaches failedTaskId id
  /-- It pauses the pending tasks with such an id and leaves the others as they are. -/
  paused : List.Forall₂ (fun before after =>
    after = if before.id ∈ cascade.result.blockedTaskIds ∧ before.status = .pending
      then { before with status := .paused } else before) tasks cascade.tasks
  /-- There is one event for each task it changes, in the order of the tasks. -/
  events : cascade.events
    = ((tasks.zip cascade.tasks).filter fun pair => pair.1 ≠ pair.2).map fun pair =>
        blockedEvent failedTaskId pair.1

theorem blockTask_eq (failedTaskId : String) (ids : List String) (task : Task) :
    blockTask failedTaskId ids task
      = if task.id ∈ ids ∧ task.status = .pending
        then ({ task with status := .paused }, [blockedEvent failedTaskId task]) else (task, []) := by
  unfold blockTask
  simp only [OrderedSet.mem_ofList]
  split
  · next h => rw [blockedEvent, h.2]
  · rfl

theorem forall₂_blockTask (ids : List String) (tasks : List Task) :
    List.Forall₂ (fun before after =>
      after = if before.id ∈ ids ∧ before.status = .pending
        then { before with status := .paused } else before)
      tasks ((tasks.map (blockTask failedTaskId ids)).map Prod.fst) := by
  induction tasks with
  | nil => exact List.Forall₂.nil
  | cons task rest ih =>
      refine List.Forall₂.cons ?_ ih
      rw [blockTask_eq]
      split <;> rfl

theorem events_blockTask (ids : List String) (tasks : List Task) :
    (tasks.map (blockTask failedTaskId ids)).flatMap Prod.snd
      = ((tasks.zip ((tasks.map (blockTask failedTaskId ids)).map Prod.fst)).filter fun pair =>
          pair.1 ≠ pair.2).map fun pair => blockedEvent failedTaskId pair.1 := by
  induction tasks with
  | nil => rfl
  | cons task rest ih =>
      simp only [List.map_cons, List.flatMap_cons, List.zip_cons_cons, List.filter_cons]
      rw [ih, blockTask_eq]
      by_cases hblocked : task.id ∈ ids ∧ task.status = .pending
      · have hchanged : task ≠ { task with status := .paused } := by
          intro heq
          have hstatus : task.status = .paused := congrArg Task.status heq
          rw [hblocked.2] at hstatus
          exact absurd hstatus (by decide)
        rw [if_pos hblocked, if_pos (decide_eq_true hchanged)]
        rfl
      · rw [if_neg hblocked]
        simp

theorem dependentsOf_bounded (graph : DependencyGraph) {a b : String}
    (hb : b ∈ graph.dependentsOf a) :
    b ∈ (graph.dependents.values.flatMap OrderedSet.members).toFinset := by
  unfold DependencyGraph.dependentsOf at hb
  cases hget : graph.dependents.get? a with
  | none =>
      rw [hget] at hb
      exact absurd hb List.not_mem_nil
  | some set =>
      rw [hget] at hb
      have hset : set ∈ graph.dependents.values := (OrderedMap.mem_values_iff _).mpr ⟨a, hget⟩
      exact List.mem_toFinset.mpr (List.mem_flatMap.mpr ⟨set, hset, hb⟩)

/-- On every graph a cascade ends, answers the ids that the failed task reaches without repetition,
pauses the pending tasks among them and reports each of them once. -/
theorem cascadeBlockDependents_exact (graph : DependencyGraph) (failedTaskId : String)
    (tasks : List Task) :
    ∃ rounds cascade,
      (∀ fuel, rounds ≤ fuel → cascadeBlockDependents fuel graph failedTaskId tasks = some cascade)
        ∧ BlocksDependents graph failedTaskId tasks cascade := by
  have hvertices : ∀ a b, b ∈ graph.dependentsOf a →
      b ∈ insert failedTaskId (graph.dependents.values.flatMap OrderedSet.members).toFinset :=
    fun _ _ hb => Finset.mem_insert_of_mem (dependentsOf_bounded graph hb)
  obtain ⟨rounds, found, hfound, hnodup, hexact⟩ :=
    Frontier.explore_start hvertices (Finset.mem_insert_self failedTaskId _)
  refine ⟨rounds,
    { tasks := (tasks.map (blockTask failedTaskId found)).map Prod.fst
      result := { blockedTaskIds := found, totalBlocked := found.length }
      events := (tasks.map (blockTask failedTaskId found)).flatMap Prod.snd },
    fun fuel hfuel => ?_, ⟨hnodup, rfl, hexact, ?_, ?_⟩⟩
  · rw [cascadeBlockDependents, hfound fuel hfuel, Option.map_some]
  · exact forall₂_blockTask found tasks
  · exact events_blockTask found tasks

end Deckent.DependencyScheduler
