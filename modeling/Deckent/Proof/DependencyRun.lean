import Deckent.Lib.Precedence
import Deckent.Proof.DependencyEnforcement

/-!
# A plan run by its workers

`respawnEligibleTasks` asks the graph, with the edges between colliding writers, which of the tasks not
yet started may start; workers finish or fail in any order. Tasks are told apart by their ids. No two
tasks that write one path run together, and what is left when nothing can go on is held back by a
failure, by a cycle or by a reference that names no task.
-/

namespace Deckent.DependencyScheduler

open ExecutionTopology Relation

variable {tables : UnicodeTables} {tasks : List Task} {workers : Workers String} {id : String}

/-! ### The tasks a pass lets through -/

theorem mem_foldl_enforceOne {graph : DependencyGraph} {doneTasks : OrderedSet String}
    {candidates : List String} {result : EnforcementResult} :
    id ∈ (candidates.foldl (enforceOne graph doneTasks) result).eligible
      ↔ id ∈ result.eligible
        ∨ id ∈ candidates ∧ ∀ found, Member graph.dependencies id found → found ∈ doneTasks := by
  induction candidates generalizing result with
  | nil => simp
  | cons candidate rest ih =>
      rw [List.foldl_cons, ih, enforceOne, List.mem_cons, or_and_right, ← or_assoc]
      refine or_congr_left ?_
      rw [← unresolved_eq_nil]
      split
      · next hnil =>
          rw [List.mem_append, List.mem_singleton]
          exact or_congr_right ⟨fun h => ⟨h, h ▸ hnil⟩, And.left⟩
      · next hsome =>
          refine (or_iff_left ?_).symm
          rintro ⟨rfl, hnil⟩
          exact hsome hnil

def Awaits (tables : UnicodeTables) (tasks : List Task) (found id : String) : Prop :=
  Member (buildDependencyGraph tables tasks true).dependencies id found

/-- A pass over the tasks that have not been started lets the task through. -/
def Spawnable (tables : UnicodeTables) (tasks : List Task) (workers : Workers String) (id : String) :
    Prop :=
  id ∈ (enforceWaveDependency (buildDependencyGraph tables tasks true)
    ((tasks.map Task.id).filter fun id => id ∉ workers.started)
    (OrderedSet.ofList workers.done)).eligible

theorem gated_spawnable (tables : UnicodeTables) (tasks : List Task) :
    Workers.Gated (tasks.map Task.id).toFinset (Awaits tables tasks) (Spawnable tables tasks) := by
  intro workers id
  unfold Spawnable enforceWaveDependency Awaits
  rw [mem_foldl_enforceOne, or_iff_right List.not_mem_nil, List.mem_filter, decide_eq_true_eq,
    List.mem_toFinset, and_assoc]
  simp only [OrderedSet.mem_ofList]

/-! ### What a run completes -/

/-- Every run can be carried to an end, and at an end the tasks that are not done are those behind a
cycle, behind a failed task or behind a reference that names no task. -/
theorem spawnRun_completes (tables : UnicodeTables) (tasks : List Task)
    (hreachable : Workers.Reachable (Spawnable tables tasks) workers) :
    (∃ final, ReflTransGen (Workers.Step (Spawnable tables tasks)) workers final
        ∧ Workers.Quiescent (Spawnable tables tasks) final)
      ∧ (Workers.Quiescent (Spawnable tables tasks) workers → ∀ task ∈ tasks,
        (task.id ∈ workers.done ↔ ¬ Workers.Held (Awaits tables tasks)
          (fun id => id ∉ tasks.map Task.id ∨ id ∈ workers.failed) task.id)) := by
  have hgated := gated_spawnable tables tasks
  refine ⟨hreachable.exists_quiescent hgated, fun hquiescent task htask => ?_⟩
  have hid : task.id ∈ (tasks.map Task.id).toFinset :=
    List.mem_toFinset.mpr (List.mem_map_of_mem htask)
  have hdone := hreachable.mem_done_iff hgated hquiescent hid
  simpa only [List.mem_toFinset] using hdone

def chainedWorkers : Workers String := { running := ["b"], done := ["a"], failed := [] }

theorem reachable_chainedWorkers :
    Workers.Reachable (Spawnable plainTables chainedTasks) chainedWorkers := by
  refine .tail (.tail (.tail .refl (.start (a := "a") ?_)) (.finish (a := "a") ?_)) (.start (a := "b") ?_)
  · unfold Spawnable
    decide +kernel
  · exact List.mem_singleton_self "a"
  · unfold Spawnable
    decide +kernel

theorem spawnRun_completes_chained :
    ¬ Workers.Held (Awaits plainTables chainedTasks)
      (fun id => id ∉ chainedTasks.map Task.id ∨ id ∈ ([] : List String)) "b" := by
  have hreachable : Workers.Reachable (Spawnable plainTables chainedTasks)
      { running := [], done := ["a", "b"], failed := [] } := by
    have hfinish := @Workers.Step.finish _ _ (Spawnable plainTables chainedTasks) chainedWorkers "b"
      (List.mem_singleton_self "b")
    exact reachable_chainedWorkers.tail (by simpa [chainedWorkers] using hfinish)
  refine ((spawnRun_completes plainTables chainedTasks hreachable).2 ⟨rfl, fun id hready => ?_⟩
    { id := "b", title := "second", dependencies := some ["a"] } (by simp [chainedTasks])).mp (by simp)
  obtain ⟨hid, hnew, -⟩ := (gated_spawnable plainTables chainedTasks _ id).mp hready
  exact hnew (List.mem_toFinset.mp hid)

/-! ### What runs together -/

/-- The ids tell the tasks of a plan apart. -/
structure Identified (tasks : List Task) : Prop where
  distinct : (tasks.map Task.id).Nodup
  nonempty : ∀ task ∈ tasks, task.id ≠ ""

theorem Identified.onlySlot (h : Identified tasks) {slot : Nat}
    (hid : taskIdAt tasks slot = some id) : OnlySlot Task.id tasks id slot := by
  intro other
  rw [taskIdAt, Option.ite_none_left_eq_some] at hid
  obtain ⟨hslot, hid⟩ := hid
  constructor
  · intro hother
    unfold taskAt at hother
    split at hother
    · cases hother
    · next hpos =>
        rw [← List.getElem?_map] at hid hother
        obtain ⟨hbound, -⟩ := List.getElem?_eq_some_iff.mp hother
        have heq := (List.getElem?_inj hbound h.distinct).mp (hother.trans hid.symm)
        omega
  · rintro rfl
    rw [taskAt, if_neg hslot, hid]

theorem Identified.ne_empty (h : Identified tasks) {slot : Nat}
    (hid : taskIdAt tasks slot = some id) : id ≠ "" := by
  rw [taskIdAt_eq, Option.map_eq_some_iff] at hid
  obtain ⟨task, htask, rfl⟩ := hid
  exact h.nonempty task (List.fst_mem_of_mem_zipIdx (mem_zipIdx_one.mpr htask))

theorem awaits_of_edge (h : Identified tasks) {fromSlot toSlot : Nat} {fromId toId : String}
    (hedge : edgeRel (effective tables tasks) fromSlot toSlot)
    (hfrom : taskIdAt tasks fromSlot = some fromId) (hto : taskIdAt tasks toSlot = some toId) :
    Awaits tables tasks fromId toId :=
  (member_dependencies (h.onlySlot hto)).mpr
    (.inl ⟨fromSlot, hedge, hfrom, h.ne_empty hfrom, h.ne_empty hto⟩)

theorem exists_taskIdAt {slot : Nat} (hslot : slot ∈ slotsOf tasks.length) :
    ∃ id, taskIdAt tasks slot = some id := by
  rw [mem_slotsOf] at hslot
  rw [taskIdAt, if_neg (by omega), List.getElem?_eq_getElem (by omega)]
  exact ⟨_, rfl⟩

theorem awaits_of_path (h : Identified tasks) {fromSlot toSlot : Nat} {fromId toId : String}
    (hpath : TransGen (edgeRel (effective tables tasks)) fromSlot toSlot)
    (hfrom : taskIdAt tasks fromSlot = some fromId) (hto : taskIdAt tasks toSlot = some toId) :
    TransGen (Awaits tables tasks) fromId toId := by
  induction hpath generalizing toId with
  | single hedge => exact .single (awaits_of_edge h hedge hfrom hto)
  | @tail between last _ hedge ih =>
      obtain ⟨betweenId, hbetween⟩ : ∃ id, taskIdAt tasks between = some id := by
        obtain ⟨edge, hmem, rfl, -⟩ := id hedge
        exact exists_taskIdAt (effective_within tables edge hmem).1
      exact .tail (ih hbetween) (awaits_of_edge h hedge hbetween hto)

/-- What holds while the workers run: a task starts after all that the effective edges put before it,
and of the tasks that write one path one runs at a time. -/
structure SafeRun (tables : UnicodeTables) (tasks : List Task) (workers : Workers String) : Prop where
  ordered : ∀ fromSlot toSlot fromId toId, edgeRel (effective tables tasks) fromSlot toSlot →
    taskIdAt tasks fromSlot = some fromId → taskIdAt tasks toSlot = some toId →
    toId ∈ workers.started → fromId ∈ workers.done
  exclusive : ∀ key slot other slotId otherId, WritesKey tables tasks key slot →
    WritesKey tables tasks key other → slot ≠ other →
    taskIdAt tasks slot = some slotId → taskIdAt tasks other = some otherId →
    slotId ∈ workers.running → otherId ∉ workers.running

/-- Whatever the interleaving, no task starts before what it waits for is done, and no two tasks that
write one path run together. -/
theorem spawnRun_safe (tables : UnicodeTables) (hids : Identified tasks)
    (hreachable : Workers.Reachable (Spawnable tables tasks) workers) :
    SafeRun tables tasks workers := by
  have hcons := hreachable.consistent (gated_spawnable tables tasks)
  refine ⟨?_, ?_⟩
  · intro fromSlot toSlot fromId toId hedge hfrom hto hstarted
    exact hcons.earlier toId hstarted fromId (awaits_of_edge hids hedge hfrom hto)
  · intro key slot other slotId otherId hwrites hother hne hslotId hotherId hrunning hboth
    rcases writers_comparable hwrites hother hne with hpath | hpath
    · exact hcons.not_both_running (awaits_of_path hids hpath hslotId hotherId) hrunning hboth
    · exact hcons.not_both_running (awaits_of_path hids hpath hotherId hslotId) hboth hrunning

theorem spawnRun_safe_chained : SafeRun plainTables chainedTasks chainedWorkers :=
  spawnRun_safe plainTables ⟨by decide, by decide⟩ reachable_chainedWorkers

end Deckent.DependencyScheduler
