import Mathlib.Data.List.Find
import Deckent.Proof.SchedulerState

/-!
# A repair born into a settled lineage

A new task that no other task repairs changes nothing that is read off the old tasks: their ancestors,
depths, roots and mutual order stay as they were, and so does every group but the one that the new task
enters. The new task can only matter as a successor of the task it repairs. It takes the lineage over
exactly when that task is an admitted failed head and the new task comes first among its repairs.
-/

namespace Deckent.TaskLineage

open Relation

/-- A list gains the task `x`, which repairs `parent` and which no task repairs yet. -/
structure Birth (before after : List Task) (x parent : Task) : Prop where
  nodup : ((before ++ x :: after).map Task.id).Nodup
  unreferenced : ∀ task ∈ before ++ after, task.fixForTaskId ≠ some x.id
  parent_mem : parent ∈ before ++ after
  repairs : x.fixForTaskId = some parent.id

namespace Birth

variable {localeCompare : LocaleCompare} {before after : List Task} {x parent : Task}

theorem mem_new {task : Task} : task ∈ before ++ x :: after ↔ task = x ∨ task ∈ before ++ after := by
  simp only [List.mem_append, List.mem_cons]
  tauto

variable (h : Birth before after x parent)

include h

theorem fresh {task : Task} (htask : task ∈ before ++ after) : task.id ≠ x.id := by
  have hperm : (before ++ x :: after).Perm (x :: (before ++ after)) := List.perm_middle
  have hnodup := (hperm.map Task.id).nodup_iff.mp h.nodup
  rw [List.map_cons, List.nodup_cons] at hnodup
  exact fun heq => hnodup.1 (heq ▸ List.mem_map_of_mem htask)

theorem notMem : x ∉ before ++ after := fun hx => h.fresh hx rfl

theorem nodup_old : ((before ++ after).map Task.id).Nodup := by
  have hperm : (before ++ x :: after).Perm (x :: (before ++ after)) := List.perm_middle
  have hnodup := (hperm.map Task.id).nodup_iff.mp h.nodup
  rw [List.map_cons] at hnodup
  exact hnodup.of_cons

/-! ### The index -/

theorem get?_new (id : String) : (indexById (before ++ x :: after)).get? id
    = if id = x.id then some x else (indexById (before ++ after)).get? id := by
  refine Option.ext fun task => ?_
  rw [indexById, OrderedMap.get?_indexBy_of_nodup h.nodup, mem_new]
  by_cases hid : id = x.id
  · rw [if_pos hid, Option.some.injEq]
    constructor
    · rintro ⟨rfl | htask, rfl⟩
      · rfl
      · exact absurd hid (h.fresh htask)
    · rintro rfl
      exact ⟨Or.inl rfl, hid.symm⟩
  · rw [if_neg hid, indexById, OrderedMap.get?_indexBy_of_nodup h.nodup_old]
    constructor
    · rintro ⟨rfl | htask, rfl⟩
      · exact absurd rfl hid
      · exact ⟨htask, rfl⟩
    · rintro ⟨htask, hid⟩
      exact ⟨Or.inr htask, hid⟩

theorem get?_new_of_ne {id : String} (hid : id ≠ x.id) : (indexById (before ++ x :: after)).get? id
    = (indexById (before ++ after)).get? id := by
  rw [h.get?_new, if_neg hid]

theorem get?_new_x : (indexById (before ++ x :: after)).get? x.id = some x := by
  rw [h.get?_new, if_pos rfl]

theorem parentOf_new {id : String} (hid : id ≠ x.id) :
    parentOf (indexById (before ++ x :: after)) id = parentOf (indexById (before ++ after)) id := by
  rw [parentOf, parentOf, h.get?_new_of_ne hid]

theorem isFlaggedId_new {id : String} (hid : id ≠ x.id) :
    isFlaggedId (indexById (before ++ x :: after)) id
      = isFlaggedId (indexById (before ++ after)) id := by
  rw [isFlaggedId, isFlaggedId, h.get?_new_of_ne hid]

theorem contains_new {id : String} (hid : id ≠ x.id) :
    (indexById (before ++ x :: after)).contains id = (indexById (before ++ after)).contains id := by
  rw [OrderedMap.contains, OrderedMap.contains, h.get?_new_of_ne hid]

theorem truthy_ne {task : Task} (htask : task ∈ before ++ after) :
    truthy task.fixForTaskId ≠ some x.id :=
  fun hfix => h.unreferenced task htask (truthy_eq_some_iff.mp hfix).1

theorem parentOf_ne (id : String) : parentOf (indexById (before ++ after)) id ≠ some x.id := by
  intro hparent
  obtain ⟨task, hget, hfix⟩ := Option.bind_eq_some_iff.mp hparent
  exact h.truthy_ne (mem_of_get?_indexById hget).1 hfix

theorem walkFuel_le :
    walkFuel (indexById (before ++ after)) ≤ walkFuel (indexById (before ++ x :: after)) := by
  have hsub : (indexById (before ++ after)).keys ⊆ (indexById (before ++ x :: after)).keys := by
    intro id hid
    obtain ⟨task, hget⟩ := (OrderedMap.mem_keys_iff _).mp hid
    obtain ⟨htask, rfl⟩ := mem_of_get?_indexById hget
    exact (OrderedMap.mem_keys_iff _).mpr ⟨task, (h.get?_new_of_ne (h.fresh htask)).trans hget⟩
  have hlength := ((indexById (before ++ after)).nodupKeys.subperm hsub).length_le
  simp only [OrderedMap.keys, List.length_map] at hlength
  exact Nat.succ_le_succ hlength

/-! ### What is read off the old tasks -/

theorem ancestorIds_old {task : Task} (htask : task ∈ before ++ after) :
    resolveFixAncestorIds task (indexById (before ++ x :: after))
      = resolveFixAncestorIds task (indexById (before ++ after)) := by
  rw [← resolveFixAncestorIds_eq h.walkFuel_le, resolveFixAncestorIds]
  refine walkUp_congr (fun id => id ≠ x.id) ?_ (fun id => h.parentOf_new) ?_ fun _ _ => Iff.rfl
  · rintro id - parentId hparent rfl
    exact h.parentOf_ne id hparent
  · rintro id hid rfl
    exact h.truthy_ne htask hid

theorem ne_of_mem_ancestorIds {task : Task} (htask : task ∈ before ++ after) {id : String}
    (hid : id ∈ resolveFixAncestorIds task (indexById (before ++ after))) : id ≠ x.id := by
  rintro rfl
  obtain ⟨first, hfirst, hreach⟩ := mem_walkUp hid
  rcases ReflTransGen.cases_tail hreach with rfl | ⟨_, -, hstep⟩
  · exact h.truthy_ne htask hfirst
  · exact h.parentOf_ne _ hstep

theorem depth_old {task : Task} (htask : task ∈ before ++ after) :
    resolveFixAttemptDepth task (indexById (before ++ x :: after))
      = resolveFixAttemptDepth task (indexById (before ++ after)) := by
  have hnext : ∀ id, flaggedParentOf (indexById (before ++ after)) id ≠ some x.id := by
    intro id
    unfold flaggedParentOf
    split
    · exact h.parentOf_ne id
    · exact nofun
  have hwalk : walkUp (flaggedParentOf (indexById (before ++ x :: after)))
      (walkFuel (indexById (before ++ x :: after))) {task.id} (truthy task.fixForTaskId)
      = walkUp (flaggedParentOf (indexById (before ++ after)))
        (walkFuel (indexById (before ++ after))) {task.id} (truthy task.fixForTaskId) := by
    rw [← flaggedWalk_eq h.walkFuel_le]
    refine walkUp_congr (fun id => id ≠ x.id) ?_ ?_ ?_ fun _ _ => Iff.rfl
    · rintro id - parentId hparent rfl
      exact hnext id hparent
    · intro id hid
      rw [flaggedParentOf, flaggedParentOf, h.isFlaggedId_new hid, h.parentOf_new hid]
    · rintro id hid rfl
      exact h.truthy_ne htask hid
  rw [resolveFixAttemptDepth, resolveFixAttemptDepth, hwalk]
  congr 2
  refine List.countP_congr fun id hid => ?_
  have hne : id ≠ x.id := by
    rintro rfl
    obtain ⟨first, hfirst, hreach⟩ := mem_walkUp hid
    rcases ReflTransGen.cases_tail hreach with rfl | ⟨_, -, hstep⟩
    · exact h.truthy_ne htask hfirst
    · exact hnext _ hstep
  rw [h.isFlaggedId_new hne]

theorem rootId_old {task : Task} (htask : task ∈ before ++ after) :
    resolveTaskLineageRootId task (indexById (before ++ x :: after))
      = resolveTaskLineageRootId task (indexById (before ++ after)) := by
  rw [rootId_eq, rootId_eq, h.ancestorIds_old htask]
  refine congrArg (Option.getD · task.id) (List.find?_congr fun id hid => ?_)
  exact h.contains_new (h.ne_of_mem_ancestorIds htask (List.mem_reverse.mp hid))

theorem compareAttempts_old {left right : Task} (hleft : left ∈ before ++ after)
    (hright : right ∈ before ++ after) :
    compareAttempts localeCompare (indexById (before ++ x :: after)) left right
      = compareAttempts localeCompare (indexById (before ++ after)) left right := by
  rw [compareAttempts, compareAttempts, h.depth_old hleft, h.depth_old hright]

/-! ### The new task -/

theorem rootId_x (hparent : parent.id ≠ "") :
    resolveTaskLineageRootId x (indexById (before ++ x :: after))
      = resolveTaskLineageRootId parent (indexById (before ++ after)) := by
  have hget : (indexById (before ++ x :: after)).get? parent.id = some parent :=
    (h.get?_new_of_ne (h.fresh h.parent_mem)).trans (get?_indexById h.nodup_old h.parent_mem)
  have htruthy : truthy x.fixForTaskId = some parent.id :=
    truthy_eq_some_iff.mpr ⟨h.repairs, hparent⟩
  have hback : ¬ TransGen (Repairs (indexById (before ++ x :: after))) parent.id x.id := by
    intro hpath
    obtain ⟨id, -, hstep⟩ := TransGen.tail'_iff.mp hpath
    by_cases hid : id = x.id
    · rw [hid, Repairs, parentOf_of_get? h.get?_new_x, htruthy] at hstep
      exact h.fresh h.parent_mem (Option.some.inj hstep)
    · rw [Repairs, h.parentOf_new hid] at hstep
      exact h.parentOf_ne id hstep
  rw [rootId_of_parent hget
    (ancestorIds_of_parent htruthy hget (h.fresh h.parent_mem) hback), h.rootId_old h.parent_mem]

theorem rootId_x_of_blank (hparent : parent.id = "") :
    resolveTaskLineageRootId x (indexById (before ++ x :: after)) = x.id := by
  refine rootId_of_no_parent ?_
  rw [h.repairs, hparent]
  decide

/-! ### Groups and successors -/

theorem lineageGroup_of_ne {rootId : String}
    (hroot : resolveTaskLineageRootId x (indexById (before ++ x :: after)) ≠ rootId) :
    lineageGroup (before ++ x :: after) rootId = lineageGroup (before ++ after) rootId := by
  have hold : lineageGroup (before ++ after) rootId = (before ++ after).filter fun task =>
      resolveTaskLineageRootId task (indexById (before ++ x :: after)) = rootId :=
    List.filter_congr fun task htask => by rw [h.rootId_old htask]
  rw [hold, lineageGroup, List.filter_append, List.filter_cons_of_neg (by simpa using hroot),
    List.filter_append]

theorem lineageGroup_of_eq {rootId : String}
    (hroot : resolveTaskLineageRootId x (indexById (before ++ x :: after)) = rootId) :
    ∃ left right, lineageGroup (before ++ x :: after) rootId = left ++ x :: right
      ∧ lineageGroup (before ++ after) rootId = left ++ right := by
  have hold : lineageGroup (before ++ after) rootId = (before ++ after).filter fun task =>
      resolveTaskLineageRootId task (indexById (before ++ x :: after)) = rootId :=
    List.filter_congr fun task htask => by rw [h.rootId_old htask]
  rw [hold, lineageGroup, List.filter_append, List.filter_cons_of_pos (by simpa using hroot),
    List.filter_append]
  exact ⟨_, _, rfl, rfl⟩

theorem repairsOf_of_ne {rootId id : String}
    (hne : resolveTaskLineageRootId x (indexById (before ++ x :: after)) = rootId →
      id ≠ parent.id) :
    repairsOf (before ++ x :: after) rootId id = repairsOf (before ++ after) rootId id := by
  by_cases hroot : resolveTaskLineageRootId x (indexById (before ++ x :: after)) = rootId
  · obtain ⟨left, right, hnew, hold⟩ := h.lineageGroup_of_eq hroot
    have hx : ¬ (x.fixForTaskId = some id) := by
      rw [h.repairs]
      exact fun heq => hne hroot (Option.some.inj heq).symm
    rw [repairsOf, repairsOf, hnew, hold, List.filter_append, List.filter_cons_of_neg (by simpa using hx),
      List.filter_append]
  · rw [repairsOf, repairsOf, h.lineageGroup_of_ne hroot]

theorem repairsOf_parent {rootId : String}
    (hroot : resolveTaskLineageRootId x (indexById (before ++ x :: after)) = rootId) :
    ∃ left right, repairsOf (before ++ x :: after) rootId parent.id = left ++ x :: right
      ∧ repairsOf (before ++ after) rootId parent.id = left ++ right := by
  obtain ⟨left, right, hnew, hold⟩ := h.lineageGroup_of_eq hroot
  rw [repairsOf, repairsOf, hnew, hold, List.filter_append,
    List.filter_cons_of_pos (by simpa using h.repairs), List.filter_append]
  exact ⟨_, _, rfl, rfl⟩

theorem sortBy_old {list : List Task} (hlist : ∀ task ∈ list, task ∈ before ++ after) :
    sortBy (compareAttempts localeCompare (indexById (before ++ x :: after))) list
      = sortBy (compareAttempts localeCompare (indexById (before ++ after))) list :=
  sortBy_congr fun _ ha _ hb => h.compareAttempts_old (hlist _ ha) (hlist _ hb)

theorem nextHead_of_ne {rootId : String} {head : Task}
    (hne : resolveTaskLineageRootId x (indexById (before ++ x :: after)) = rootId →
      head.id ≠ parent.id) :
    nextHead localeCompare (before ++ x :: after) rootId head
      = nextHead localeCompare (before ++ after) rootId head := by
  rw [nextHead_eq, nextHead_eq, h.repairsOf_of_ne hne,
    h.sortBy_old fun _ => mem_of_mem_repairsOf]

variable (localeCompare) in
theorem nextHead_parent {rootId : String} (hstatus : parent.status = .noGo)
    (hroot : resolveTaskLineageRootId x (indexById (before ++ x :: after)) = rootId) :
    (nextHead localeCompare (before ++ x :: after) rootId parent = some x
      ↔ IsFirstMin (compareAttempts localeCompare (indexById (before ++ x :: after)))
        (repairsOf (before ++ x :: after) rootId parent.id) x)
    ∧ (nextHead localeCompare (before ++ x :: after) rootId parent ≠ some x →
      nextHead localeCompare (before ++ x :: after) rootId parent
        = nextHead localeCompare (before ++ after) rootId parent) := by
  have hconsistent :=
    (signed_compareAttempts localeCompare (indexById (before ++ x :: after))).consistent
  rw [nextHead_eq, nextHead_eq, if_pos hstatus, if_pos hstatus, hconsistent.head?_sortBy_iff]
  refine ⟨Iff.rfl, fun hother => ?_⟩
  rw [← h.sortBy_old fun _ => mem_of_mem_repairsOf]
  rw [Ne, hconsistent.head?_sortBy_iff] at hother
  obtain ⟨left, right, hnew, hold⟩ := h.repairsOf_parent hroot
  rw [hnew] at hother ⊢
  rw [hold]
  refine hconsistent.head?_sortBy_insert (fun hx => ?_) hother
  rw [← hold] at hx
  exact h.notMem (mem_of_mem_repairsOf hx)

theorem nextHead_x (rootId : String) :
    nextHead localeCompare (before ++ x :: after) rootId x = none := by
  have hnone : repairsOf (before ++ x :: after) rootId x.id = [] := by
    refine List.filter_eq_nil_iff.mpr fun task htask hfix => ?_
    have hfix : task.fixForTaskId = some x.id := of_decide_eq_true hfix
    rcases mem_new.mp (mem_lineageGroup.mp htask).1 with rfl | hold
    · exact h.fresh h.parent_mem (Option.some.inj (h.repairs.symm.trans hfix))
    · exact h.unreferenced task hold hfix
  rw [nextHead_eq, hnone]
  exact ite_self _

/-! ### Heads -/

variable {rootId : String}

theorem lineage_new
    (hlineage : lineageAt localeCompare (before ++ after) rootId
      ∈ foldTaskLineages localeCompare (before ++ after)) :
    lineageAt localeCompare (before ++ x :: after) rootId
        ∈ foldTaskLineages localeCompare (before ++ x :: after)
      ∧ (lineageAt localeCompare (before ++ x :: after) rootId).rootTask
        = (lineageAt localeCompare (before ++ after) rootId).rootTask
      ∧ (lineageAt localeCompare (before ++ after) rootId).attempts.length
        ≤ (lineageAt localeCompare (before ++ x :: after) rootId).attempts.length := by
  obtain ⟨root, hroot, hid⟩ := rootId_mem_tasks hlineage
  obtain ⟨rootId', hne, heq⟩ := mem_foldTaskLineages.mp hlineage
  obtain rfl : rootId = rootId' := congrArg TaskLineage.rootId heq
  have hsublist : (lineageGroup (before ++ after) rootId).Sublist
      (lineageGroup (before ++ x :: after) rootId) := by
    by_cases hx : resolveTaskLineageRootId x (indexById (before ++ x :: after)) = rootId
    · obtain ⟨left, right, hnew, hold⟩ := h.lineageGroup_of_eq hx
      rw [hnew, hold]
      exact (List.sublist_cons_self x right).append_left left
    · rw [h.lineageGroup_of_ne hx]
  have hmem : lineageAt localeCompare (before ++ x :: after) rootId
      ∈ foldTaskLineages localeCompare (before ++ x :: after) := by
    refine mem_foldTaskLineages.mpr ⟨rootId, fun hnil => hne ?_, rfl⟩
    exact List.eq_nil_of_sublist_nil (hnil ▸ hsublist)
  refine ⟨hmem, ?_, ?_⟩
  · refine Option.some.inj ((rootTask_spec hmem).symm.trans (Eq.trans ?_ (rootTask_spec hlineage)))
    exact h.get?_new_of_ne (hid ▸ h.fresh hroot)
  · simp only [lineageAt, lineageOf, length_sortBy]
    exact hsublist.length_le

theorem resolvedTask_of_agree
    (hlineage : lineageAt localeCompare (before ++ after) rootId
      ∈ foldTaskLineages localeCompare (before ++ after))
    (hagree : ∀ head, LeadsTo (nextHead localeCompare (before ++ after) rootId)
      (lineageAt localeCompare (before ++ after) rootId).rootTask head →
      nextHead localeCompare (before ++ x :: after) rootId head
        = nextHead localeCompare (before ++ after) rootId head) :
    (lineageAt localeCompare (before ++ x :: after) rootId).resolvedTask
      = (lineageAt localeCompare (before ++ after) rootId).resolvedTask := by
  obtain ⟨-, hroot, hlength⟩ := h.lineage_new hlineage
  calc (lineageAt localeCompare (before ++ x :: after) rootId).resolvedTask
      = follow (nextHead localeCompare (before ++ x :: after) rootId) Task.id
          ((lineageAt localeCompare (before ++ x :: after) rootId).attempts.length + 1) ∅
          (lineageAt localeCompare (before ++ x :: after) rootId).rootTask := rfl
    _ = follow (nextHead localeCompare (before ++ after) rootId) Task.id
          ((lineageAt localeCompare (before ++ x :: after) rootId).attempts.length + 1) ∅
          (lineageAt localeCompare (before ++ after) rootId).rootTask := by
        rw [hroot]
        exact follow_congr (LeadsTo _ _) (fun _ _ => ReflTransGen.tail) hagree ReflTransGen.refl
    _ = (lineageAt localeCompare (before ++ after) rootId).resolvedTask :=
        resolveCausalLineageHead_eq (Nat.succ_le_succ hlength)

end Birth

/-- The repaired task is an admitted failed head of the lineage, and the new task comes first among its
repairs. -/
def Displaces (localeCompare : LocaleCompare) (before after : List Task) (x parent : Task)
    (rootId : String) : Prop :=
  parent.id ≠ "" ∧ parent.status = .noGo
    ∧ LeadsTo (nextHead localeCompare (before ++ after) rootId)
      (lineageAt localeCompare (before ++ after) rootId).rootTask parent
    ∧ IsFirstMin (compareAttempts localeCompare (indexById (before ++ x :: after)))
      (repairsOf (before ++ x :: after) rootId parent.id) x

namespace Birth

variable {localeCompare : LocaleCompare} {before after : List Task} {x parent : Task}
  (h : Birth before after x parent) {rootId : String}
  (hlineage : lineageAt localeCompare (before ++ after) rootId
    ∈ foldTaskLineages localeCompare (before ++ after))

include h hlineage

theorem ne_blank (hroot : resolveTaskLineageRootId x (indexById (before ++ x :: after)) = rootId) :
    parent.id ≠ "" := by
  intro hblank
  obtain ⟨root, hmem, hid⟩ := rootId_mem_tasks hlineage
  refine h.fresh hmem ?_
  rw [hid, ← h.rootId_x_of_blank hblank]
  exact hroot.symm

theorem resolvedTask_of_not_displaces
    (hkept : ¬ Displaces localeCompare before after x parent rootId) :
    (lineageAt localeCompare (before ++ x :: after) rootId).resolvedTask
      = (lineageAt localeCompare (before ++ after) rootId).resolvedTask := by
  refine h.resolvedTask_of_agree hlineage fun head hlead => ?_
  by_cases hne : resolveTaskLineageRootId x (indexById (before ++ x :: after)) = rootId
      → head.id ≠ parent.id
  · exact h.nextHead_of_ne hne
  · obtain ⟨hroot, hid⟩ := Classical.not_imp.mp hne
    have hhead : head ∈ before ++ after := mem_of_leadsTo_rootTask hlineage hlead
    obtain rfl : head = parent :=
      List.inj_on_of_nodup_map h.nodup_old hhead h.parent_mem (not_not.mp hid)
    by_cases hstatus : head.status = .noGo
    · obtain ⟨hfirst, hother⟩ := h.nextHead_parent localeCompare hstatus hroot
      refine hother fun hx => hkept ⟨h.ne_blank hlineage hroot, hstatus, hlead, hfirst.mp hx⟩
    · rw [nextHead_eq, nextHead_eq, if_neg hstatus, if_neg hstatus]

theorem resolvedTask_of_displaces
    (hroot : resolveTaskLineageRootId x (indexById (before ++ x :: after)) = rootId)
    (hend : nextHead localeCompare (before ++ after) rootId
      (lineageAt localeCompare (before ++ after) rootId).resolvedTask = none)
    (hdisplaces : Displaces localeCompare before after x parent rootId) :
    (lineageAt localeCompare (before ++ x :: after) rootId).resolvedTask = x := by
  obtain ⟨-, hstatus, hlead, hfirst⟩ := hdisplaces
  obtain ⟨hnew, hrootTask, -⟩ := h.lineage_new hlineage
  have hcycle := ((leadsTo_resolvedTask rootId).of_leadsTo hend hlead).not_cycle hend
  have hbefore : LeadsTo (nextHead localeCompare (before ++ x :: after) rootId)
      (lineageAt localeCompare (before ++ x :: after) rootId).rootTask parent := by
    rw [hrootTask]
    refine hlead.transfer fun head hhead hpath => h.nextHead_of_ne fun _ hid => hcycle ?_
    have hmem : head ∈ before ++ after := mem_of_leadsTo_rootTask hlineage hhead
    obtain rfl : head = parent := List.inj_on_of_nodup_map h.nodup_old hmem h.parent_mem hid
    exact hpath
  have hstep := ((h.nextHead_parent localeCompare hstatus hroot).1).mpr hfirst
  exact resolvedTask_eq_of_leadsTo h.nodup hnew (hbefore.tail hstep) (h.nextHead_x rootId)

end Birth

end Deckent.TaskLineage
