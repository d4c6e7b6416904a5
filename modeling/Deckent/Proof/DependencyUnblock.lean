import Deckent.Model.DependencyScheduler

/-!
# What a resolved task lets go

The loop writes the statuses it goes on to read. The dependents are distinct, so what it reads of one is
what was there before, and the whole call is one pass over the tasks it was given.
-/

namespace Deckent.DependencyScheduler

variable {graph : DependencyGraph} {tasks : List Task} {doneTasks : OrderedSet String}
  {resolvedTaskId id : String} {ids : List String}

def letsGo (graph : DependencyGraph) (tasks : List Task) (doneTasks : OrderedSet String)
    (id : String) : Bool :=
  (OrderedMap.indexBy Task.id tasks).get? id |>.any fun task =>
    task.status = .paused ∧ graph.unresolved doneTasks id = []

def release (ids : List String) : List Task → List Task
  | [] => []
  | task :: rest =>
      (if task.id ∈ ids ∧ task.id ∉ rest.map Task.id then { task with status := .pending } else task)
        :: release ids rest

def unblockedEvent (resolvedTaskId id : String) : CascadeTransitionEvent :=
  { transition := .unblocked
    taskId := id
    triggerTaskId := resolvedTaskId
    fromStatus := .paused
    toStatus := .pending }

theorem setLastStatus_cons (id : String) (status : TaskStatus) (task : Task) (rest : List Task) :
    setLastStatus id status (task :: rest)
      = if id ∈ rest.map Task.id then task :: setLastStatus id status rest
        else (if task.id = id then { task with status := status } else task) :: rest := by
  unfold setLastStatus
  rw [List.reverse_cons, List.findIdx?_append]
  cases hfound : rest.reverse.findIdx? fun task => decide (task.id = id) with
  | some index =>
      obtain ⟨hindex, hid, -⟩ := List.findIdx?_eq_some_iff_getElem.mp hfound
      have hmem : id ∈ rest.map Task.id :=
        List.mem_map.mpr ⟨_, List.mem_reverse.mp (List.getElem_mem hindex), by simpa using hid⟩
      rw [List.length_reverse] at hindex
      have hplace : (task :: rest).length - 1 - index = rest.length - 1 - index + 1 := by
        rw [List.length_cons]
        omega
      simp only [if_pos hmem, Option.some_or, hplace, List.modify_succ_cons]
  | none =>
      have habsent : id ∉ rest.map Task.id := by
        intro hmem
        obtain ⟨other, hother, rfl⟩ := List.mem_map.mp hmem
        simpa using List.findIdx?_eq_none_iff.mp hfound other (List.mem_reverse.mpr hother)
      rw [if_neg habsent, Option.none_or]
      by_cases hid : task.id = id
      · simp [hid]
      · simp [hid]

theorem map_id_release (ids : List String) (tasks : List Task) :
    (release ids tasks).map Task.id = tasks.map Task.id := by
  induction tasks with
  | nil => rfl
  | cons task rest ih =>
      rw [release, List.map_cons, List.map_cons, ih]
      split <;> rfl

theorem release_nil (tasks : List Task) : release [] tasks = tasks := by
  induction tasks with
  | nil => rfl
  | cons task rest ih => rw [release, ih, if_neg (fun h => List.not_mem_nil h.1)]

theorem release_congr {other : List String}
    (hsame : ∀ task ∈ tasks, task.id ∈ ids ↔ task.id ∈ other) : release ids tasks = release other tasks := by
  induction tasks with
  | nil => rfl
  | cons task rest ih =>
      obtain ⟨hhead, hrest⟩ := List.forall_mem_cons.mp hsame
      rw [release, release, ih hrest]
      simp only [hhead]

theorem setLastStatus_release (ids : List String) (id : String) (tasks : List Task) :
    setLastStatus id .pending (release ids tasks) = release (ids ++ [id]) tasks := by
  induction tasks with
  | nil => rfl
  | cons task rest ih =>
      rw [release, setLastStatus_cons, map_id_release, ih, release]
      simp only [List.mem_append, List.mem_singleton]
      by_cases hlater : id ∈ rest.map Task.id
      · rw [if_pos hlater]
        congr 1
        refine if_congr ?_ rfl rfl
        rw [or_and_right]
        refine (or_iff_left ?_).symm
        rintro ⟨rfl, hnot⟩
        exact hnot hlater
      · rw [if_neg hlater]
        have hrest : release ids rest = release (ids ++ [id]) rest := by
          refine release_congr fun other hother => ?_
          rw [List.mem_append, List.mem_singleton]
          refine (or_iff_left ?_).symm
          rintro rfl
          exact hlater (List.mem_map_of_mem hother)
        rw [hrest]
        congr 1
        by_cases hid : task.id = id
        · subst hid
          by_cases hin : task.id ∈ ids <;> simp [hin, hlater]
        · by_cases hin : task.id ∈ ids ∧ task.id ∉ rest.map Task.id
          · simp [hid, hin.1, hin.2]
          · simp only [hid, hin, or_false, if_false]

theorem get?_indexBy_release (hid : id ∉ ids) (tasks : List Task) :
    (OrderedMap.indexBy Task.id (release ids tasks)).get? id = (OrderedMap.indexBy Task.id tasks).get? id := by
  rw [OrderedMap.get?_indexBy, OrderedMap.get?_indexBy]
  induction tasks with
  | nil => rfl
  | cons task rest ih =>
      rw [release, List.reverse_cons, List.reverse_cons, List.find?_append, List.find?_append, ih]
      congr 1
      split
      · next h =>
          have hne : task.id ≠ id := fun heq => hid (heq ▸ h.1)
          simp [hne]
      · rfl

theorem foldl_unblockOne {dependents : List String} (hnodup : (ids ++ dependents).Nodup)
    (events : List CascadeTransitionEvent) :
    dependents.foldl (unblockOne graph resolvedTaskId doneTasks)
        { tasks := release ids tasks, unblockedTaskIds := ids, events := events }
      = { tasks := release (ids ++ dependents.filter (letsGo graph tasks doneTasks)) tasks
          unblockedTaskIds := ids ++ dependents.filter (letsGo graph tasks doneTasks)
          events := events ++ (dependents.filter (letsGo graph tasks doneTasks)).map
            (unblockedEvent resolvedTaskId) } := by
  induction dependents generalizing ids events with
  | nil => simp
  | cons id rest ih =>
      have hfresh : id ∉ ids := fun hin =>
        List.disjoint_of_nodup_append hnodup hin List.mem_cons_self
      rw [List.foldl_cons, unblockOne, get?_indexBy_release hfresh, List.filter_cons]
      have hskip : (ids ++ rest).Nodup := hnodup.sublist (by simp)
      cases hget : (OrderedMap.indexBy Task.id tasks).get? id with
      | none =>
          have hstays : letsGo graph tasks doneTasks id = false := by simp [letsGo, hget]
          simp only [hstays]
          exact ih hskip events
      | some task =>
          by_cases hgo : task.status = .paused ∧ graph.unresolved doneTasks id = []
          · have hgoes : letsGo graph tasks doneTasks id = true := by simp [letsGo, hget, hgo]
            obtain ⟨hpaused, hnil⟩ := hgo
            simp only [hgoes, hpaused, hnil, and_self, if_true, setLastStatus_release]
            rw [List.append_cons] at hnodup
            rw [ih hnodup]
            simp [unblockedEvent]
          · have hstays : letsGo graph tasks doneTasks id = false := by
              simp only [letsGo, hget, Option.any_some, hgo, decide_false]
            simp only [hstays, if_neg hgo]
            exact ih hskip events

theorem foldl_unblockOne_start (graph : DependencyGraph) (resolvedTaskId : String) (tasks : List Task)
    (doneTasks : OrderedSet String) :
    (graph.dependentsOf resolvedTaskId).foldl (unblockOne graph resolvedTaskId doneTasks)
        { tasks := tasks, unblockedTaskIds := [], events := [] }
      = { tasks := release ((graph.dependentsOf resolvedTaskId).filter (letsGo graph tasks doneTasks)) tasks
          unblockedTaskIds := (graph.dependentsOf resolvedTaskId).filter (letsGo graph tasks doneTasks)
          events := ((graph.dependentsOf resolvedTaskId).filter (letsGo graph tasks doneTasks)).map
            (unblockedEvent resolvedTaskId) } := by
  have hnodup : ([] ++ graph.dependentsOf resolvedTaskId).Nodup := OrderedSet.nodup _
  have hloop := @foldl_unblockOne graph tasks doneTasks resolvedTaskId [] _ hnodup []
  rw [release_nil] at hloop
  exact hloop

/-- A resolved task lets go the direct dependents that are paused and wait for nothing else, in the order
of the graph: the last task with each of their ids becomes pending, and every other task stays as it is. -/
theorem unblockDependents_exact (graph : DependencyGraph) (resolvedTaskId : String) (tasks : List Task)
    (doneTasks : OrderedSet String) :
    let released := (graph.dependentsOf resolvedTaskId).filter (letsGo graph tasks doneTasks)
    unblockDependents graph resolvedTaskId tasks doneTasks
      = (release released tasks, { unblockedTaskIds := released, totalUnblocked := released.length },
        released.map (unblockedEvent resolvedTaskId)) := by
  simp only [unblockDependents, foldl_unblockOne_start]

end Deckent.DependencyScheduler
