import Deckent.Lib.Digraph
import Deckent.Model.TaskLineage

/-!
# The lineages of a task list

A climb from a task is the climb from its parent with the parent in front, unless the task lies on the
way above its own parent. Hence a task and its parent have one root, and on acyclic edges every root is
its own root and every known ancestor of a task lies in the lineage of the task. The groups of the
lineages partition the list.
-/

namespace Deckent.TaskLineage

open Relation

/-- The edge from a task to the task it repairs. -/
def Repairs (tasksById : OrderedMap String Task) (id parent : String) : Prop :=
  parentOf tasksById id = some parent

/-! ### The index -/

theorem mem_of_get?_indexById {tasks : List Task} {id : String} {task : Task}
    (hget : (indexById tasks).get? id = some task) : task ∈ tasks ∧ task.id = id :=
  OrderedMap.mem_of_get?_indexBy hget

theorem contains_indexById {tasks : List Task} {id : String} :
    (indexById tasks).contains id = true ↔ ∃ task ∈ tasks, task.id = id :=
  OrderedMap.contains_indexBy

theorem get?_indexById {tasks : List Task} (hnodup : (tasks.map Task.id).Nodup) {task : Task}
    (htask : task ∈ tasks) : (indexById tasks).get? task.id = some task :=
  (OrderedMap.get?_indexBy_of_nodup hnodup).mpr ⟨htask, rfl⟩

section Climb

variable {tasksById : OrderedMap String Task}

def knownIds (tasksById : OrderedMap String Task) : Finset String := tasksById.keys.toFinset

theorem mem_knownIds {id : String} : id ∈ knownIds tasksById ↔ ∃ task, tasksById.get? id = some task := by
  rw [knownIds, List.mem_toFinset, OrderedMap.mem_keys_iff]

variable (tasksById) in
theorem card_knownIds_lt : (knownIds tasksById).card < walkFuel tasksById := by
  refine Nat.lt_succ_of_le ((List.toFinset_card_le _).trans ?_)
  rw [OrderedMap.keys, List.length_map]

theorem mem_knownIds_of_parentOf {id : String} (hparent : (parentOf tasksById id).isSome) :
    id ∈ knownIds tasksById := by
  obtain ⟨parent, hparent⟩ := Option.isSome_iff_exists.mp hparent
  obtain ⟨task, htask, -⟩ := Option.bind_eq_some_iff.mp hparent
  exact mem_knownIds.mpr ⟨task, htask⟩

theorem mem_knownIds_of_flaggedParentOf {id : String}
    (hparent : (flaggedParentOf tasksById id).isSome) : id ∈ knownIds tasksById := by
  unfold flaggedParentOf at hparent
  split at hparent
  · exact mem_knownIds_of_parentOf hparent
  · exact absurd hparent (by simp)

theorem parentOf_of_get? {id : String} {task : Task} (hget : tasksById.get? id = some task) :
    parentOf tasksById id = truthy task.fixForTaskId := by
  rw [parentOf, hget, Option.bind_some]

theorem parentOf_of_get?_none {id : String} (hget : tasksById.get? id = none) :
    parentOf tasksById id = none := by
  rw [parentOf, hget, Option.bind_none]

theorem resolveFixAncestorIds_eq {fuel : Nat} (hfuel : walkFuel tasksById ≤ fuel) (task : Task) :
    walkUp (parentOf tasksById) fuel {task.id} (truthy task.fixForTaskId)
      = resolveFixAncestorIds task tasksById := by
  refine walkUp_fuel (knownIds tasksById) (fun _ => mem_knownIds_of_parentOf) _ ?_ hfuel
  exact (Finset.card_le_card Finset.sdiff_subset).trans_lt (card_knownIds_lt tasksById)

theorem flaggedWalk_eq {fuel : Nat} (hfuel : walkFuel tasksById ≤ fuel) (task : Task) :
    walkUp (flaggedParentOf tasksById) fuel {task.id} (truthy task.fixForTaskId)
      = walkUp (flaggedParentOf tasksById) (walkFuel tasksById) {task.id}
        (truthy task.fixForTaskId) := by
  refine walkUp_fuel (knownIds tasksById) (fun _ => mem_knownIds_of_flaggedParentOf) _ ?_ hfuel
  exact (Finset.card_le_card Finset.sdiff_subset).trans_lt (card_knownIds_lt tasksById)

theorem ancestorIds_of_no_parent {task : Task} (hparent : truthy task.fixForTaskId = none) :
    resolveFixAncestorIds task tasksById = [] := by
  rw [resolveFixAncestorIds, hparent, walkUp_none]

theorem ancestorIds_of_unknown_parent {task : Task} {parentId : String}
    (hparent : truthy task.fixForTaskId = some parentId) (hne : parentId ≠ task.id)
    (hunknown : tasksById.get? parentId = none) :
    resolveFixAncestorIds task tasksById = [parentId] := by
  rw [resolveFixAncestorIds, hparent, walkFuel, walkUp,
    if_neg fun hmem => hne (Finset.mem_singleton.mp hmem), parentOf_of_get?_none hunknown, walkUp_none]

theorem ancestorIds_of_parent {task parent : Task}
    (hparent : truthy task.fixForTaskId = some parent.id)
    (hget : tasksById.get? parent.id = some parent) (hne : parent.id ≠ task.id)
    (hback : ¬ TransGen (Repairs tasksById) parent.id task.id) :
    resolveFixAncestorIds task tasksById = parent.id :: resolveFixAncestorIds parent tasksById := by
  have hknown : parent.id ∈ knownIds tasksById := mem_knownIds.mpr ⟨parent, hget⟩
  have hwalk : resolveFixAncestorIds task tasksById
      = parent.id :: walkUp (parentOf tasksById) tasksById.entries.length {parent.id, task.id}
        (truthy parent.fixForTaskId) := by
    rw [resolveFixAncestorIds, hparent, walkFuel, walkUp,
      if_neg fun hmem => hne (Finset.mem_singleton.mp hmem), parentOf_of_get? hget]
  have hfuel : (knownIds tasksById \ {parent.id}).card < tasksById.entries.length := by
    have hless := card_sdiff_insert_lt hknown (Finset.notMem_empty parent.id)
    have hbound := card_knownIds_lt tasksById
    rw [Finset.sdiff_empty] at hless
    exact hless.trans_le (Nat.le_of_lt_succ hbound)
  have hless : resolveFixAncestorIds parent tasksById
      = walkUp (parentOf tasksById) tasksById.entries.length {parent.id}
        (truthy parent.fixForTaskId) :=
    walkUp_fuel (knownIds tasksById) (fun _ => mem_knownIds_of_parentOf) _ hfuel (Nat.le_succ _)
  rw [hwalk, hless]
  refine congrArg (parent.id :: ·) ?_
  refine walkUp_congr (fun id => TransGen (Repairs tasksById) parent.id id)
    (fun _ hid _ hstep => hid.tail hstep) (fun _ _ => rfl) (fun id hid => ?_) fun id hid => ?_
  · exact TransGen.single ((parentOf_of_get? hget).trans hid)
  · rw [Finset.mem_insert, Finset.mem_singleton, Finset.mem_singleton, or_iff_left]
    rintro rfl
    exact hback hid

/-! ### Roots -/

theorem rootId_eq (task : Task) (tasksById : OrderedMap String Task) :
    resolveTaskLineageRootId task tasksById
      = ((resolveFixAncestorIds task tasksById).reverse.find? tasksById.contains).getD task.id := by
  unfold resolveTaskLineageRootId
  cases hparent : truthy task.fixForTaskId with
  | none => rw [ancestorIds_of_no_parent hparent, List.reverse_nil, List.find?_nil, Option.getD_none]
  | some parentId => rfl

variable (tasksById) in
theorem rootId_known_or_self (task : Task) :
    tasksById.contains (resolveTaskLineageRootId task tasksById) = true
      ∨ resolveTaskLineageRootId task tasksById = task.id := by
  rw [rootId_eq]
  cases hfind : (resolveFixAncestorIds task tasksById).reverse.find? tasksById.contains with
  | none => exact Or.inr rfl
  | some id => exact Or.inl (List.find?_some hfind)

theorem rootId_of_parent {task parent : Task} (hget : tasksById.get? parent.id = some parent)
    (hancestors : resolveFixAncestorIds task tasksById
      = parent.id :: resolveFixAncestorIds parent tasksById) :
    resolveTaskLineageRootId task tasksById = resolveTaskLineageRootId parent tasksById := by
  have hknown : tasksById.contains parent.id = true := by
    rw [OrderedMap.contains, hget]
    rfl
  rw [rootId_eq, rootId_eq, hancestors, List.reverse_cons, List.find?_append]
  cases (resolveFixAncestorIds parent tasksById).reverse.find? tasksById.contains with
  | none => simp [hknown]
  | some id => rfl

theorem rootId_of_unknown_parent {task : Task} {parentId : String}
    (hparent : truthy task.fixForTaskId = some parentId) (hne : parentId ≠ task.id)
    (hunknown : tasksById.get? parentId = none) :
    resolveTaskLineageRootId task tasksById = task.id := by
  have hcontains : tasksById.contains parentId = false := by
    rw [OrderedMap.contains, hunknown]
    rfl
  rw [rootId_eq, ancestorIds_of_unknown_parent hparent hne hunknown]
  simp [hcontains]

theorem rootId_of_no_parent {task : Task} (hparent : truthy task.fixForTaskId = none) :
    resolveTaskLineageRootId task tasksById = task.id := by
  rw [rootId_eq, ancestorIds_of_no_parent hparent]
  rfl

end Climb

theorem rootId_mem_ids {tasks : List Task} {task : Task} (htask : task ∈ tasks) :
    ∃ root ∈ tasks, root.id = resolveTaskLineageRootId task (indexById tasks) := by
  rcases rootId_known_or_self (indexById tasks) task with hknown | hself
  · exact contains_indexById.mp hknown
  · exact ⟨task, htask, hself.symm⟩

/-! ### Acyclic edges -/

section Acyclic

variable {tasks : List Task} (hnodup : (tasks.map Task.id).Nodup)
  (hacyclic : Acyclic (Repairs (indexById tasks)))

include hnodup hacyclic

theorem parent_cases {task : Task} (htask : task ∈ tasks) :
    truthy task.fixForTaskId = none
      ∨ (∃ parentId, truthy task.fixForTaskId = some parentId ∧ parentId ≠ task.id
        ∧ (indexById tasks).get? parentId = none)
      ∨ ∃ parent ∈ tasks, resolveFixAncestorIds task (indexById tasks)
        = parent.id :: resolveFixAncestorIds parent (indexById tasks) := by
  cases hparent : truthy task.fixForTaskId with
  | none => exact Or.inl rfl
  | some parentId =>
      have hedge : Repairs (indexById tasks) task.id parentId :=
        (parentOf_of_get? (get?_indexById hnodup htask)).trans hparent
      have hne : parentId ≠ task.id := by
        rintro rfl
        exact hacyclic _ (TransGen.single hedge)
      cases hget : (indexById tasks).get? parentId with
      | none => exact Or.inr (Or.inl ⟨parentId, rfl, hne, hget⟩)
      | some parent =>
          obtain ⟨hmem, rfl⟩ := mem_of_get?_indexById hget
          refine Or.inr (Or.inr ⟨parent, hmem, ancestorIds_of_parent hparent hget hne ?_⟩)
          exact fun hback => hacyclic _ (TransGen.head hedge hback)

theorem repair_induction {motive : Task → Prop}
    (hroot : ∀ task ∈ tasks, (∀ id ∈ resolveFixAncestorIds task (indexById tasks),
      (indexById tasks).get? id = none) →
      resolveTaskLineageRootId task (indexById tasks) = task.id → motive task)
    (hstep : ∀ task ∈ tasks, ∀ parent ∈ tasks,
      resolveFixAncestorIds task (indexById tasks)
        = parent.id :: resolveFixAncestorIds parent (indexById tasks) →
      resolveTaskLineageRootId task (indexById tasks)
        = resolveTaskLineageRootId parent (indexById tasks) → motive parent → motive task)
    {task : Task} (htask : task ∈ tasks) : motive task := by
  induction hlength : (resolveFixAncestorIds task (indexById tasks)).length generalizing task with
  | zero =>
      rcases parent_cases hnodup hacyclic htask with
        hparent | ⟨parentId, hparent, hne, hunknown⟩ | ⟨parent, -, hancestors⟩
      · refine hroot task htask ?_ (rootId_of_no_parent hparent)
        rw [ancestorIds_of_no_parent hparent]
        exact fun _ hid => absurd hid List.not_mem_nil
      · rw [ancestorIds_of_unknown_parent hparent hne hunknown] at hlength
        exact absurd hlength (by simp)
      · rw [hancestors] at hlength
        exact absurd hlength (by simp)
  | succ length ih =>
      rcases parent_cases hnodup hacyclic htask with
        hparent | ⟨parentId, hparent, hne, hunknown⟩ | ⟨parent, hmem, hancestors⟩
      · rw [ancestorIds_of_no_parent hparent] at hlength
        exact absurd hlength (by simp)
      · refine hroot task htask ?_ (rootId_of_unknown_parent hparent hne hunknown)
        rw [ancestorIds_of_unknown_parent hparent hne hunknown]
        intro id hid
        rw [List.mem_singleton.mp hid]
        exact hunknown
      · refine hstep task htask parent hmem hancestors
          (rootId_of_parent (get?_indexById hnodup hmem) hancestors) (ih hmem ?_)
        rw [hancestors, List.length_cons] at hlength
        exact Nat.succ.inj hlength

theorem rootId_rootId {task root : Task} (htask : task ∈ tasks) (hroot : root ∈ tasks)
    (hid : root.id = resolveTaskLineageRootId task (indexById tasks)) :
    resolveTaskLineageRootId root (indexById tasks) = root.id := by
  refine repair_induction hnodup hacyclic (motive := fun task =>
    root.id = resolveTaskLineageRootId task (indexById tasks) →
      resolveTaskLineageRootId root (indexById tasks) = root.id) ?_ ?_ htask hid
  · intro task htask _ hself hid
    obtain rfl : root = task := List.inj_on_of_nodup_map hnodup hroot htask (hid.trans hself)
    exact hself
  · intro task _ parent _ _ hsame ih hid
    exact ih (hid.trans hsame)

theorem rootId_of_mem_ancestors {task ancestor : Task} (htask : task ∈ tasks)
    (hancestor : ancestor ∈ tasks) (hmem : ancestor.id ∈ resolveFixAncestorIds task (indexById tasks)) :
    resolveTaskLineageRootId ancestor (indexById tasks)
      = resolveTaskLineageRootId task (indexById tasks) := by
  refine repair_induction hnodup hacyclic (motive := fun task =>
    ancestor.id ∈ resolveFixAncestorIds task (indexById tasks) →
      resolveTaskLineageRootId ancestor (indexById tasks)
        = resolveTaskLineageRootId task (indexById tasks)) ?_ ?_ htask hmem
  · intro task _ hunknown _ hmem
    have hnone := hunknown _ hmem
    rw [get?_indexById hnodup hancestor] at hnone
    exact absurd hnone (by simp)
  · intro task _ parent hparent hancestors hsame ih hmem
    rw [hancestors] at hmem
    rcases List.mem_cons.mp hmem with hid | hmem
    · obtain rfl : ancestor = parent := List.inj_on_of_nodup_map hnodup hancestor hparent hid
      exact hsame.symm
    · exact (ih hmem).trans hsame.symm

end Acyclic

/-! ### The groups -/

section Fold

variable {localeCompare : LocaleCompare} {tasks : List Task}

theorem signed_compareAttempts (localeCompare : LocaleCompare) (tasksById : OrderedMap String Task) :
    SignedComparator (compareAttempts localeCompare tasksById) := by
  have hdepth := signed_compareNumber.comap fun task => resolveFixAttemptDepth task tasksById
  exact hdepth.thenBy
    ((localeCompare.signed.comap timestamp).thenBy (localeCompare.signed.comap Task.id))

def lineageGroup (tasks : List Task) (rootId : String) : List Task :=
  tasks.filter fun task => resolveTaskLineageRootId task (indexById tasks) = rootId

theorem mem_lineageGroup {task : Task} {rootId : String} :
    task ∈ lineageGroup tasks rootId
      ↔ task ∈ tasks ∧ resolveTaskLineageRootId task (indexById tasks) = rootId := by
  simp [lineageGroup]

theorem get?_groupByRoot {rootId : String} {group : List Task} :
    (groupByRoot (indexById tasks) tasks).get? rootId = some group
      ↔ group = lineageGroup tasks rootId ∧ group ≠ [] := by
  rw [groupByRoot, OrderedMap.get?_groupBy, List.map_id]
  rfl

/-- The lineage of a root id. -/
def lineageAt (localeCompare : LocaleCompare) (tasks : List Task) (rootId : String) : TaskLineage :=
  lineageOf localeCompare (indexById tasks) rootId (lineageGroup tasks rootId)

def rootIds (tasks : List Task) : List String :=
  (OrderedSet.ofList (tasks.map fun task =>
    resolveTaskLineageRootId task (indexById tasks))).members

theorem mem_rootIds {rootId : String} : rootId ∈ rootIds tasks ↔ lineageGroup tasks rootId ≠ [] := by
  rw [rootIds, ← OrderedSet.mem_def, OrderedSet.mem_ofList, List.mem_map]
  constructor
  · rintro ⟨task, htask, hroot⟩
    exact List.ne_nil_of_mem (mem_lineageGroup.mpr ⟨htask, hroot⟩)
  · intro hne
    obtain ⟨task, htask⟩ := List.exists_mem_of_ne_nil _ hne
    exact ⟨task, mem_lineageGroup.mp htask⟩

theorem foldTaskLineages_eq (localeCompare : LocaleCompare) (tasks : List Task) :
    foldTaskLineages localeCompare tasks
      = (sortBy localeCompare.compare (rootIds tasks)).map (lineageAt localeCompare tasks) := by
  have hentries : (groupByRoot (indexById tasks) tasks).entries.map (fun group =>
      lineageOf localeCompare (indexById tasks) group.1 group.2)
      = (groupByRoot (indexById tasks) tasks).keys.map (lineageAt localeCompare tasks) := by
    rw [OrderedMap.keys, List.map_map]
    refine List.map_congr_left fun entry hentry => ?_
    have hgroup := (get?_groupByRoot.mp ((OrderedMap.mem_entries_iff _).mp hentry)).1
    rw [hgroup]
    rfl
  have hkeys : (groupByRoot (indexById tasks) tasks).keys = rootIds tasks :=
    OrderedMap.keys_groupBy _ _ _
  rw [foldTaskLineages, hentries, hkeys, sortBy_map]
  rfl

theorem mem_foldTaskLineages {lineage : TaskLineage} :
    lineage ∈ foldTaskLineages localeCompare tasks
      ↔ ∃ rootId, lineageGroup tasks rootId ≠ [] ∧ lineage = lineageAt localeCompare tasks rootId := by
  simp only [foldTaskLineages_eq, List.mem_map, mem_sortBy, mem_rootIds, eq_comm]

theorem mem_attempts_lineageAt {rootId : String} {task : Task} :
    task ∈ (lineageAt localeCompare tasks rootId).attempts ↔ task ∈ lineageGroup tasks rootId :=
  mem_sortBy

theorem mem_attemptIds_lineageAt {rootId id : String} :
    id ∈ (lineageAt localeCompare tasks rootId).attemptIds
      ↔ ∃ task ∈ lineageGroup tasks rootId, task.id = id := by
  simp only [lineageAt, lineageOf, List.mem_map, mem_sortBy]

variable (localeCompare) in
theorem exists_lineage {task : Task} (htask : task ∈ tasks) :
    ∃ lineage ∈ foldTaskLineages localeCompare tasks,
      lineage.rootId = resolveTaskLineageRootId task (indexById tasks)
        ∧ task.id ∈ lineage.attemptIds := by
  have hmem : task ∈ lineageGroup tasks (resolveTaskLineageRootId task (indexById tasks)) :=
    mem_lineageGroup.mpr ⟨htask, rfl⟩
  exact ⟨_, mem_foldTaskLineages.mpr ⟨_, List.ne_nil_of_mem hmem, rfl⟩, rfl,
    mem_attemptIds_lineageAt.mpr ⟨task, hmem, rfl⟩⟩

theorem lineage_eq_of_rootId {left right : TaskLineage}
    (hleft : left ∈ foldTaskLineages localeCompare tasks)
    (hright : right ∈ foldTaskLineages localeCompare tasks) (hroot : left.rootId = right.rootId) :
    left = right := by
  obtain ⟨leftId, -, rfl⟩ := mem_foldTaskLineages.mp hleft
  obtain ⟨rightId, -, rfl⟩ := mem_foldTaskLineages.mp hright
  obtain rfl : leftId = rightId := hroot
  rfl

theorem nodup_foldTaskLineages (tasks : List Task) : (foldTaskLineages localeCompare tasks).Nodup := by
  unfold foldTaskLineages
  rw [nodup_sortBy]
  refine List.Nodup.of_map TaskLineage.rootId ?_
  rw [List.map_map]
  exact (groupByRoot (indexById tasks) tasks).nodupKeys

theorem sortBy_foldTaskLineages (tasks : List Task) :
    sortBy (fun left right => localeCompare.compare left.rootId right.rootId)
      (foldTaskLineages localeCompare tasks) = foldTaskLineages localeCompare tasks :=
  (localeCompare.signed.comap TaskLineage.rootId).consistent.sortBy_sortBy _

theorem rootTask_spec {lineage : TaskLineage}
    (hlineage : lineage ∈ foldTaskLineages localeCompare tasks) :
    (indexById tasks).get? lineage.rootId = some lineage.rootTask := by
  obtain ⟨rootId, hne, rfl⟩ := mem_foldTaskLineages.mp hlineage
  obtain ⟨task, htask⟩ := List.exists_mem_of_ne_nil _ hne
  obtain ⟨hmem, rfl⟩ := mem_lineageGroup.mp htask
  obtain ⟨root, hroot, hid⟩ := rootId_mem_ids hmem
  have hcontains := contains_indexById.mpr ⟨root, hroot, hid⟩
  obtain ⟨found, hfound⟩ := Option.isSome_iff_exists.mp hcontains
  simp [lineageAt, lineageOf, hfound]

theorem rootId_mem_tasks {lineage : TaskLineage}
    (hlineage : lineage ∈ foldTaskLineages localeCompare tasks) :
    ∃ root ∈ tasks, root.id = lineage.rootId := by
  obtain ⟨hmem, hid⟩ := mem_of_get?_indexById (rootTask_spec hlineage)
  exact ⟨lineage.rootTask, hmem, hid⟩

theorem mem_of_successorOf {tasksById : OrderedMap String Task} {attempts : List Task}
    {head next : Task} (hnext : successorOf localeCompare tasksById attempts head = some next) :
    next ∈ attempts ∧ next.fixForTaskId = some head.id := by
  unfold successorOf at hnext
  split at hnext
  · have hmem := mem_sortBy.mp (List.mem_of_mem_head? hnext)
    simpa using hmem
  · exact absurd hnext (by simp)

def repairsOf (tasks : List Task) (rootId id : String) : List Task :=
  (lineageGroup tasks rootId).filter fun attempt => attempt.fixForTaskId = some id

theorem mem_of_mem_repairsOf {rootId id : String} {task : Task}
    (htask : task ∈ repairsOf tasks rootId id) : task ∈ tasks :=
  (mem_lineageGroup.mp (List.mem_filter.mp htask).1).1

def nextHead (localeCompare : LocaleCompare) (tasks : List Task) (rootId : String) :
    Task → Option Task :=
  successorOf localeCompare (indexById tasks)
    (lineageAt localeCompare tasks rootId).attempts

theorem nextHead_eq (localeCompare : LocaleCompare) (tasks : List Task) (rootId : String)
    (head : Task) : nextHead localeCompare tasks rootId head
      = if head.status = .noGo then
          (sortBy (compareAttempts localeCompare (indexById tasks))
            (repairsOf tasks rootId head.id)).head?
        else none := by
  have hconsistent := (signed_compareAttempts localeCompare (indexById tasks)).consistent
  change successorOf localeCompare (indexById tasks)
    (sortBy (compareAttempts localeCompare (indexById tasks)) (lineageGroup tasks rootId)) head = _
  rw [successorOf, hconsistent.filter_sortBy, hconsistent.sortBy_sortBy]
  rfl

theorem mem_of_leadsTo {tasksById : OrderedMap String Task} {attempts : List Task} {root head : Task}
    (hlead : LeadsTo (successorOf localeCompare tasksById attempts) root head) :
    head = root ∨ head ∈ attempts := by
  rcases ReflTransGen.cases_tail hlead with rfl | ⟨_, -, hstep⟩
  · exact Or.inl rfl
  · exact Or.inr (mem_of_successorOf hstep).1

theorem resolveCausalLineageHead_eq {tasksById : OrderedMap String Task} {attempts : List Task}
    {rootTask : Task} {fuel : Nat} (hfuel : attempts.length + 1 ≤ fuel) :
    follow (successorOf localeCompare tasksById attempts) Task.id fuel ∅ rootTask
      = resolveCausalLineageHead localeCompare rootTask attempts tasksById := by
  refine follow_fuel (fun task => task = rootTask ∨ task ∈ attempts)
    ((rootTask :: attempts).map Task.id).toFinset ?_ ?_ (Or.inl rfl) ?_ hfuel
  · intro task htask
    exact List.mem_toFinset.mpr (List.mem_map_of_mem (List.mem_cons.mpr htask))
  · exact fun _ _ _ hstep => Or.inr (mem_of_successorOf hstep).1
  · rw [Finset.sdiff_empty]
    refine (List.toFinset_card_le _).trans ?_
    rw [List.length_map, List.length_cons]

theorem resolvedTask_mem {lineage : TaskLineage}
    (hlineage : lineage ∈ foldTaskLineages localeCompare tasks) :
    lineage.resolvedTask = lineage.rootTask ∨ lineage.resolvedTask ∈ lineage.attempts := by
  obtain ⟨rootId, -, rfl⟩ := mem_foldTaskLineages.mp hlineage
  exact mem_of_leadsTo (leadsTo_follow _ _ _)

theorem rootTask_mem {lineage : TaskLineage}
    (hlineage : lineage ∈ foldTaskLineages localeCompare tasks) : lineage.rootTask ∈ tasks :=
  (mem_of_get?_indexById (rootTask_spec hlineage)).1

theorem mem_of_leadsTo_rootTask {rootId : String}
    (hlineage : lineageAt localeCompare tasks rootId ∈ foldTaskLineages localeCompare tasks)
    {head : Task} (hlead : LeadsTo (nextHead localeCompare tasks rootId)
      (lineageAt localeCompare tasks rootId).rootTask head) : head ∈ tasks := by
  rcases mem_of_leadsTo hlead with rfl | hattempt
  · exact rootTask_mem hlineage
  · exact (mem_lineageGroup.mp (mem_attempts_lineageAt.mp hattempt)).1

theorem leadsTo_resolvedTask (rootId : String) :
    LeadsTo (nextHead localeCompare tasks rootId) (lineageAt localeCompare tasks rootId).rootTask
      (lineageAt localeCompare tasks rootId).resolvedTask :=
  leadsTo_follow _ _ _

theorem resolvedTask_eq_of_leadsTo (hnodup : (tasks.map Task.id).Nodup) {rootId : String}
    (hlineage : lineageAt localeCompare tasks rootId ∈ foldTaskLineages localeCompare tasks)
    {head : Task} (hlead : LeadsTo (nextHead localeCompare tasks rootId)
      (lineageAt localeCompare tasks rootId).rootTask head)
    (hend : nextHead localeCompare tasks rootId head = none) :
    (lineageAt localeCompare tasks rootId).resolvedTask = head := by
  refine follow_eq_of_leadsTo
    (LeadsTo (nextHead localeCompare tasks rootId) (lineageAt localeCompare tasks rootId).rootTask)
    (((lineageAt localeCompare tasks rootId).rootTask
      :: (lineageAt localeCompare tasks rootId).attempts).map Task.id).toFinset
    ?_ ?_ (fun _ _ => ReflTransGen.tail) ReflTransGen.refl hlead hend ?_ ?_
  · intro task htask
    exact List.mem_toFinset.mpr
      (List.mem_map_of_mem (List.mem_cons.mpr (mem_of_leadsTo htask)))
  · exact fun a b ha hb hid => List.inj_on_of_nodup_map hnodup
      (mem_of_leadsTo_rootTask hlineage ha) (mem_of_leadsTo_rootTask hlineage hb) hid
  · rw [Finset.sdiff_empty]
    refine (List.toFinset_card_le _).trans ?_
    rw [List.length_map, List.length_cons]
    exact le_rfl
  · exact fun _ hid => absurd hid (Finset.notMem_empty _)

theorem rootId_resolvedTask (hnodup : (tasks.map Task.id).Nodup)
    (hacyclic : Acyclic (Repairs (indexById tasks))) {lineage : TaskLineage}
    (hlineage : lineage ∈ foldTaskLineages localeCompare tasks) :
    lineage.resolvedTask ∈ tasks
      ∧ resolveTaskLineageRootId lineage.resolvedTask (indexById tasks) = lineage.rootId := by
  rcases resolvedTask_mem hlineage with hroot | hattempt
  · obtain ⟨hmem, hid⟩ := mem_of_get?_indexById (rootTask_spec hlineage)
    obtain ⟨rootId, hne, rfl⟩ := mem_foldTaskLineages.mp hlineage
    obtain ⟨task, htask⟩ := List.exists_mem_of_ne_nil _ hne
    obtain ⟨htask, hrootId⟩ := mem_lineageGroup.mp htask
    rw [hroot]
    exact ⟨hmem, (rootId_rootId hnodup hacyclic htask hmem (hid.trans hrootId.symm)).trans hid⟩
  · obtain ⟨rootId, -, rfl⟩ := mem_foldTaskLineages.mp hlineage
    exact mem_lineageGroup.mp (mem_attempts_lineageAt.mp hattempt)

theorem rootId_of_touched (hnodup : (tasks.map Task.id).Nodup)
    (hacyclic : Acyclic (Repairs (indexById tasks))) {lineage : TaskLineage}
    (hlineage : lineage ∈ foldTaskLineages localeCompare tasks) {task : Task} (htask : task ∈ tasks)
    (htouched : task.id ∈ lineage.attemptIds
      ∨ task.id ∈ resolveFixAncestorIds lineage.resolvedTask (indexById tasks)) :
    resolveTaskLineageRootId task (indexById tasks) = lineage.rootId := by
  rcases htouched with hattempt | hancestor
  · obtain ⟨rootId, -, rfl⟩ := mem_foldTaskLineages.mp hlineage
    obtain ⟨attempt, hgroup, hid⟩ := mem_attemptIds_lineageAt.mp hattempt
    obtain ⟨hmem, hroot⟩ := mem_lineageGroup.mp hgroup
    obtain rfl : attempt = task := List.inj_on_of_nodup_map hnodup hmem htask hid
    exact hroot
  · obtain ⟨hmem, hroot⟩ := rootId_resolvedTask hnodup hacyclic hlineage
    exact (rootId_of_mem_ancestors hnodup hacyclic hmem htask hancestor).trans hroot

end Fold

/-! ### Rearranging the list -/

section Rearrange

variable {localeCompare : LocaleCompare}

theorem climb_congr {left right : OrderedMap String Task}
    (hlookup : ∀ id, left.get? id = right.get? id) (task : Task) :
    resolveFixAncestorIds task left = resolveFixAncestorIds task right
      ∧ resolveFixAttemptDepth task left = resolveFixAttemptDepth task right
      ∧ resolveTaskLineageRootId task left = resolveTaskLineageRootId task right := by
  have hget : left.get? = right.get? := funext hlookup
  have hparent : parentOf left = parentOf right := by
    funext id
    rw [parentOf, parentOf, hget]
  have hflagged : isFlaggedId left = isFlaggedId right := by
    funext id
    rw [isFlaggedId, isFlaggedId, hget]
  have hflaggedParent : flaggedParentOf left = flaggedParentOf right := by
    funext id
    rw [flaggedParentOf, flaggedParentOf, hparent, hflagged]
  have hcontains : left.contains = right.contains := by
    funext id
    rw [OrderedMap.contains, OrderedMap.contains, hget]
  have hfuel : walkFuel left = walkFuel right :=
    congrArg (· + 1) (OrderedMap.perm_entries hlookup).length_eq
  have hancestors : resolveFixAncestorIds task left = resolveFixAncestorIds task right := by
    rw [resolveFixAncestorIds, resolveFixAncestorIds, hparent, hfuel]
  refine ⟨hancestors, ?_, ?_⟩
  · rw [resolveFixAttemptDepth, resolveFixAttemptDepth, hflaggedParent, hflagged, hfuel]
  · rw [rootId_eq, rootId_eq, hancestors, hcontains]

theorem compareAttempts_congr {left right : OrderedMap String Task}
    (hlookup : ∀ id, left.get? id = right.get? id) :
    compareAttempts localeCompare left = compareAttempts localeCompare right := by
  funext a b
  rw [compareAttempts, compareAttempts, (climb_congr hlookup a).2.1, (climb_congr hlookup b).2.1]

theorem lineageOf_congr {left right : OrderedMap String Task}
    (hlookup : ∀ id, left.get? id = right.get? id) {rootId : String} {group group' : List Task}
    (hsorted : sortBy (compareAttempts localeCompare left) group
      = sortBy (compareAttempts localeCompare right) group') :
    lineageOf localeCompare left rootId group = lineageOf localeCompare right rootId group' := by
  have hsuccessor : successorOf localeCompare left = successorOf localeCompare right := by
    funext attempts head
    rw [successorOf, successorOf, compareAttempts_congr hlookup]
  have hhead : ∀ root attempts, resolveCausalLineageHead localeCompare root attempts left
      = resolveCausalLineageHead localeCompare root attempts right := by
    intro root attempts
    rw [resolveCausalLineageHead, resolveCausalLineageHead, hsuccessor]
  rw [lineageOf, lineageOf, hsorted, hlookup, hhead]

theorem compare_id_of_compareAttempts_eq_zero {tasksById : OrderedMap String Task} {left right : Task}
    (hzero : compareAttempts localeCompare tasksById left right = 0) :
    localeCompare.compare left.id right.id = 0 :=
  (thenBy_eq_zero.mp (thenBy_eq_zero.mp hzero).2).2

variable {left right : List Task} (hperm : left.Perm right) (hnodup : (left.map Task.id).Nodup)

include hperm hnodup

theorem indexById_perm (id : String) : (indexById left).get? id = (indexById right).get? id := by
  have hnodup' : (right.map Task.id).Nodup := (hperm.map Task.id).nodup_iff.mp hnodup
  refine Option.ext fun task => ?_
  rw [indexById, indexById, OrderedMap.get?_indexBy_of_nodup hnodup,
    OrderedMap.get?_indexBy_of_nodup hnodup', hperm.mem_iff]

theorem lineageGroup_perm (rootId : String) :
    (lineageGroup left rootId).Perm (lineageGroup right rootId) := by
  have hroot : ∀ task, resolveTaskLineageRootId task (indexById left)
      = resolveTaskLineageRootId task (indexById right) :=
    fun task => (climb_congr (indexById_perm hperm hnodup) task).2.2
  rw [lineageGroup, lineageGroup]
  simp only [hroot]
  exact hperm.filter _

variable (hapart : ∀ a ∈ left, ∀ b ∈ left, localeCompare.compare a.id b.id = 0 → a.id = b.id)

include hapart

theorem lineageAt_perm (rootId : String) :
    lineageAt localeCompare left rootId = lineageAt localeCompare right rootId := by
  have hlookup := indexById_perm hperm hnodup
  have hsigned := signed_compareAttempts localeCompare (indexById left)
  refine lineageOf_congr hlookup ?_
  rw [← compareAttempts_congr hlookup]
  refine hsigned.consistent.sortBy_eq_of_perm (lineageGroup_perm hperm hnodup rootId) ?_
  intro a ha b hb hab hba
  have hzero : compareAttempts localeCompare (indexById left) a b = 0 := by
    have hswap := hsigned.swap a b
    omega
  have ha := (mem_lineageGroup.mp ha).1
  have hb := (mem_lineageGroup.mp hb).1
  exact List.inj_on_of_nodup_map hnodup ha hb
    (hapart a ha b hb (compare_id_of_compareAttempts_eq_zero hzero))

theorem foldTaskLineages_perm :
    foldTaskLineages localeCompare left = foldTaskLineages localeCompare right := by
  have hmem : ∀ lineage, lineage ∈ foldTaskLineages localeCompare left
      ↔ lineage ∈ foldTaskLineages localeCompare right := by
    intro lineage
    rw [mem_foldTaskLineages, mem_foldTaskLineages]
    refine exists_congr fun rootId => ?_
    have hempty : lineageGroup left rootId ≠ [] ↔ lineageGroup right rootId ≠ [] := by
      rw [List.ne_nil_iff_length_pos, List.ne_nil_iff_length_pos,
        (lineageGroup_perm hperm hnodup rootId).length_eq]
    rw [lineageAt_perm hperm hnodup hapart, hempty]
  have hlineages : (foldTaskLineages localeCompare left).Perm (foldTaskLineages localeCompare right) :=
    (List.perm_ext_iff_of_nodup (nodup_foldTaskLineages left) (nodup_foldTaskLineages right)).mpr hmem
  have hsigned := localeCompare.signed.comap TaskLineage.rootId
  have hsorted := hsigned.consistent.sortBy_eq_of_perm hlineages fun a ha b hb hab hba => ?_
  · rwa [sortBy_foldTaskLineages, sortBy_foldTaskLineages] at hsorted
  · obtain ⟨rootA, hrootA, hidA⟩ := rootId_mem_tasks ha
    obtain ⟨rootB, hrootB, hidB⟩ := rootId_mem_tasks hb
    have hzero : localeCompare.compare rootA.id rootB.id = 0 := by
      have hswap := localeCompare.signed.swap a.rootId b.rootId
      rw [hidA, hidB]
      omega
    have heq := hapart rootA hrootA rootB hrootB hzero
    exact lineage_eq_of_rootId ha hb (hidA.symm.trans (heq.trans hidB))

end Rearrange

end Deckent.TaskLineage
