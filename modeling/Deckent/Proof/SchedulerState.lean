import Deckent.Model.SchedulerState
import Deckent.Proof.TaskLineage

/-!
# The effective dependency state follows the lineage heads

Projecting a lineage decides every id it touches by the status of its head and leaves the other ids as
they were. An id of the list is touched by its own lineage at least, so its raw status never survives;
on acyclic edges it is touched by no other lineage, so its class is that of its head. Two lists with
the same tasks fold to the same lineages as soon as the id comparison tells their ids apart.
-/

namespace Deckent.SchedulerState

open Relation TaskLineage

variable {localeCompare : LocaleCompare} {tasks : List Task} {nowMs : JsNumber}

/-! ### One lineage -/

section Project

variable {tasksById : OrderedMap String Task} {state : EffectiveDependencyState}
  {lineage : TaskLineage} {id : String}

theorem mem_satisfyingIds_projectLineage :
    id ∈ (projectLineage tasksById state lineage).satisfyingIds
      ↔ if id ∈ projectedIds tasksById lineage then
          isDependencySatisfying lineage.resolvedTask.status = true
        else id ∈ state.satisfyingIds := by
  unfold projectLineage
  by_cases hdone : isDependencySatisfying lineage.resolvedTask.status = true
  · rw [if_pos hdone]
    split <;> simp_all
  · rw [if_neg hdone]
    split <;> split <;> simp_all

theorem mem_terminalFailureIds_projectLineage :
    id ∈ (projectLineage tasksById state lineage).terminalFailureIds
      ↔ if id ∈ projectedIds tasksById lineage then
          isSchedulingTerminalFailure lineage.resolvedTask.status = true
        else id ∈ state.terminalFailureIds := by
  unfold projectLineage
  by_cases hdone : isDependencySatisfying lineage.resolvedTask.status = true
  · have hfailure : isSchedulingTerminalFailure lineage.resolvedTask.status = false := by
      rw [of_decide_eq_true hdone]
      rfl
    rw [if_pos hdone]
    split <;> simp_all
  · rw [if_neg hdone]
    split <;> split <;> simp_all

def ClassedBy (state : EffectiveDependencyState) (id : String) (head : Task) : Prop :=
  (id ∈ state.satisfyingIds ↔ head.status = .done)
    ∧ (id ∈ state.terminalFailureIds ↔ head.status = .noGo ∨ head.status = .manualReviewRequired)

theorem classedBy_projectLineage (hid : id ∈ projectedIds tasksById lineage) :
    ClassedBy (projectLineage tasksById state lineage) id lineage.resolvedTask := by
  constructor
  · rw [mem_satisfyingIds_projectLineage, if_pos hid, isDependencySatisfying, decide_eq_true_eq]
  · rw [mem_terminalFailureIds_projectLineage, if_pos hid, isSchedulingTerminalFailure,
      Bool.or_eq_true, decide_eq_true_eq, decide_eq_true_eq]

theorem ClassedBy.after_project {head : Task} (hclass : ClassedBy state id head)
    (hid : id ∉ projectedIds tasksById lineage) :
    ClassedBy (projectLineage tasksById state lineage) id head := by
  constructor
  · rw [mem_satisfyingIds_projectLineage, if_neg hid]
    exact hclass.1
  · rw [mem_terminalFailureIds_projectLineage, if_neg hid]
    exact hclass.2

def Unambiguous (state : EffectiveDependencyState) (id : String) : Prop :=
  ¬ (id ∈ state.satisfyingIds ∧ id ∈ state.terminalFailureIds)

theorem ClassedBy.unambiguous {head : Task} (hclass : ClassedBy state id head) :
    Unambiguous state id := by
  rintro ⟨hsatisfying, hterminal⟩
  have hdone := hclass.1.mp hsatisfying
  rcases hclass.2.mp hterminal with hfailed | hfailed <;> rw [hdone] at hfailed <;> cases hfailed

theorem Unambiguous.after_project (hstate : Unambiguous state id) :
    Unambiguous (projectLineage tasksById state lineage) id := by
  by_cases hid : id ∈ projectedIds tasksById lineage
  · exact (classedBy_projectLineage hid).unambiguous
  · unfold Unambiguous
    rw [mem_satisfyingIds_projectLineage, mem_terminalFailureIds_projectLineage, if_neg hid,
      if_neg hid]
    exact hstate

end Project

/-! ### All lineages -/

section Fold

variable {tasksById : OrderedMap String Task} {state : EffectiveDependencyState}
  {lineages : List TaskLineage} {id : String}

theorem Unambiguous.foldl (hstate : Unambiguous state id) :
    Unambiguous (lineages.foldl (projectLineage tasksById) state) id := by
  induction lineages generalizing state with
  | nil => exact hstate
  | cons lineage rest ih => exact ih hstate.after_project

theorem unambiguous_foldl {lineage : TaskLineage} (hlineage : lineage ∈ lineages)
    (hid : id ∈ projectedIds tasksById lineage) :
    Unambiguous (lineages.foldl (projectLineage tasksById) state) id := by
  obtain ⟨before, after, rfl⟩ := List.append_of_mem hlineage
  rw [List.foldl_append, List.foldl_cons]
  exact (classedBy_projectLineage hid).unambiguous.foldl

theorem classedBy_foldl {lineage : TaskLineage} (hlineage : lineage ∈ lineages)
    (hid : id ∈ projectedIds tasksById lineage)
    (honly : ∀ other ∈ lineages, id ∈ projectedIds tasksById other → other = lineage) :
    ClassedBy (lineages.foldl (projectLineage tasksById) state) id lineage.resolvedTask := by
  obtain ⟨before, after, rfl⟩ := List.append_of_mem hlineage
  rw [List.foldl_append, List.foldl_cons]
  refine List.foldlRecOn (motive := fun state => ClassedBy state id lineage.resolvedTask) after _
    (classedBy_projectLineage hid) ?_
  intro current hcurrent other hother
  by_cases hother' : id ∈ projectedIds tasksById other
  · obtain rfl := honly other (by simp [hother]) hother'
    exact classedBy_projectLineage hid
  · exact hcurrent.after_project hother'

theorem mem_satisfyingIds_foldl (lineages : List TaskLineage) :
    id ∈ (lineages.foldl (projectLineage tasksById) state).satisfyingIds
      ↔ match (lineages.filter fun lineage => id ∈ projectedIds tasksById lineage).getLast? with
        | none => id ∈ state.satisfyingIds
        | some lineage => isDependencySatisfying lineage.resolvedTask.status = true := by
  induction lineages using List.reverseRecOn with
  | nil => rfl
  | append_singleton lineages lineage ih =>
      rw [List.foldl_append, List.foldl_cons, List.foldl_nil, mem_satisfyingIds_projectLineage,
        List.filter_append]
      by_cases hid : id ∈ projectedIds tasksById lineage
      · rw [if_pos hid, List.filter_cons_of_pos (by simpa using hid), List.filter_nil,
          List.getLast?_append, List.getLast?_singleton]
        rfl
      · rw [if_neg hid, List.filter_cons_of_neg (by simpa using hid), List.filter_nil, List.append_nil]
        exact ih

end Fold

theorem mem_projectedIds {tasksById : OrderedMap String Task} {lineage : TaskLineage} {id : String} :
    id ∈ projectedIds tasksById lineage
      ↔ id ∈ lineage.attemptIds ∨ id ∈ resolveFixAncestorIds lineage.resolvedTask tasksById := by
  rw [projectedIds, List.mem_toFinset, List.mem_append]

def touchingRoots (localeCompare : LocaleCompare) (tasks : List Task) (id : String) : List String :=
  sortBy localeCompare.compare ((rootIds tasks).filter fun rootId =>
    id ∈ projectedIds (indexById tasks) (lineageAt localeCompare tasks rootId))

theorem mem_satisfyingIds_compute {id : String} :
    id ∈ (computeEffectiveDependencyState localeCompare tasks nowMs).satisfyingIds
      ↔ match (touchingRoots localeCompare tasks id).getLast? with
        | none => id ∈ (tasks.foldl (addTask nowMs) ⟨∅, ∅, ∅⟩).satisfyingIds
        | some rootId => isDependencySatisfying
            (lineageAt localeCompare tasks rootId).resolvedTask.status = true := by
  have htouching : (foldTaskLineages localeCompare tasks).filter (fun lineage =>
      id ∈ projectedIds (indexById tasks) lineage)
      = (touchingRoots localeCompare tasks id).map (lineageAt localeCompare tasks) := by
    rw [foldTaskLineages_eq, List.filter_map, localeCompare.signed.consistent.filter_sortBy]
    rfl
  rw [computeEffectiveDependencyState, mem_satisfyingIds_foldl, htouching, List.getLast?_map]
  cases (touchingRoots localeCompare tasks id).getLast? with
  | none => rfl
  | some rootId => rfl

/-! ### The raw statuses -/

theorem mem_insert_if {set : Finset String} {x id : String} {flag : Bool} :
    id ∈ (if flag = true then insert x set else set) ↔ id ∈ set ∨ flag = true ∧ x = id := by
  split
  · next hflag => simp [hflag, eq_comm, or_comm]
  · next hflag => simp [hflag]

theorem mem_raw {state : EffectiveDependencyState} {id : String} :
    (id ∈ (tasks.foldl (addTask nowMs) state).satisfyingIds
      ↔ id ∈ state.satisfyingIds
        ∨ ∃ task ∈ tasks, isDependencySatisfying task.status = true ∧ task.id = id)
    ∧ (id ∈ (tasks.foldl (addTask nowMs) state).terminalFailureIds
      ↔ id ∈ state.terminalFailureIds
        ∨ ∃ task ∈ tasks, isSchedulingTerminalFailure task.status = true ∧ task.id = id)
    ∧ (id ∈ (tasks.foldl (addTask nowMs) state).retryEligibleIds
      ↔ id ∈ state.retryEligibleIds
        ∨ ∃ task ∈ tasks, isRetryEligible nowMs task = true ∧ task.id = id) := by
  induction tasks generalizing state with
  | nil => simp
  | cons task rest ih =>
      obtain ⟨hsatisfying, hterminal, hretry⟩ := @ih (addTask nowMs state task)
      rw [List.foldl_cons, hsatisfying, hterminal, hretry]
      simp only [addTask, mem_insert_if, List.exists_mem_cons_iff, or_assoc, and_self]

/-! ### The contract -/

theorem disjoint_dependencyState (localeCompare : LocaleCompare) (tasks : List Task) (nowMs : JsNumber) :
    Disjoint (computeEffectiveDependencyState localeCompare tasks nowMs).satisfyingIds
      (computeEffectiveDependencyState localeCompare tasks nowMs).terminalFailureIds := by
  refine Finset.disjoint_left.mpr fun id hsatisfying hterminal => ?_
  refine absurd (And.intro hsatisfying hterminal) ?_
  change Unambiguous (computeEffectiveDependencyState localeCompare tasks nowMs) id
  unfold computeEffectiveDependencyState
  by_cases hknown : ∃ task ∈ tasks, task.id = id
  · obtain ⟨task, htask, rfl⟩ := hknown
    obtain ⟨lineage, hlineage, -, hattempt⟩ := exists_lineage localeCompare htask
    exact unambiguous_foldl hlineage (mem_projectedIds.mpr (Or.inl hattempt))
  · refine Unambiguous.foldl ?_
    rintro ⟨hraw, -⟩
    rw [mem_raw.1] at hraw
    rcases hraw with hempty | ⟨task, htask, -, hid⟩
    · exact absurd hempty (Finset.notMem_empty _)
    · exact hknown ⟨task, htask, hid⟩

/-- Every id of the list belongs to one lineage and is classed by the head of that lineage. -/
def ClassedByHead (localeCompare : LocaleCompare) (tasks : List Task) (nowMs : JsNumber) : Prop :=
  ∀ task ∈ tasks, ∃ lineage ∈ foldTaskLineages localeCompare tasks,
    task.id ∈ lineage.attemptIds
      ∧ (∀ other ∈ foldTaskLineages localeCompare tasks, task.id ∈ other.attemptIds → other = lineage)
      ∧ ClassedBy (computeEffectiveDependencyState localeCompare tasks nowMs) task.id
        lineage.resolvedTask

theorem classedByHead (localeCompare : LocaleCompare) (nowMs : JsNumber)
    (hnodup : (tasks.map Task.id).Nodup) (hacyclic : Acyclic (Repairs (indexById tasks))) :
    ClassedByHead localeCompare tasks nowMs := by
  intro task htask
  obtain ⟨lineage, hlineage, hroot, hattempt⟩ := exists_lineage localeCompare htask
  have honly : ∀ other ∈ foldTaskLineages localeCompare tasks,
      task.id ∈ projectedIds (indexById tasks) other → other = lineage := by
    intro other hother htouched
    have hroot' := rootId_of_touched hnodup hacyclic hother htask (mem_projectedIds.mp htouched)
    exact lineage_eq_of_rootId hother hlineage (hroot'.symm.trans hroot.symm)
  refine ⟨lineage, hlineage, hattempt, ?_, ?_⟩
  · exact fun other hother hid => honly other hother (mem_projectedIds.mpr (Or.inl hid))
  · exact classedBy_foldl hlineage (mem_projectedIds.mpr (Or.inl hattempt)) honly

def OrderFree (localeCompare : LocaleCompare) (tasks : List Task) (nowMs : JsNumber) : Prop :=
  ∀ arranged, tasks.Perm arranged →
    computeEffectiveDependencyState localeCompare arranged nowMs
      = computeEffectiveDependencyState localeCompare tasks nowMs

theorem raw_perm {left right : List Task} (hperm : left.Perm right) :
    left.foldl (addTask nowMs) ⟨∅, ∅, ∅⟩ = right.foldl (addTask nowMs) ⟨∅, ∅, ∅⟩ := by
  refine EffectiveDependencyState.ext ?_ ?_ ?_ <;> ext id
  · rw [mem_raw.1, mem_raw.1]
    simp only [hperm.mem_iff]
  · rw [mem_raw.2.1, mem_raw.2.1]
    simp only [hperm.mem_iff]
  · rw [mem_raw.2.2, mem_raw.2.2]
    simp only [hperm.mem_iff]

theorem orderFree (nowMs : JsNumber) (hnodup : (tasks.map Task.id).Nodup)
    (hapart : ∀ a ∈ tasks, ∀ b ∈ tasks, localeCompare.compare a.id b.id = 0 → a.id = b.id) :
    OrderFree localeCompare tasks nowMs := by
  intro arranged hperm
  have hproject : projectLineage (indexById tasks) = projectLineage (indexById arranged) := by
    funext state lineage
    have hids : projectedIds (indexById tasks) lineage = projectedIds (indexById arranged) lineage := by
      rw [projectedIds, projectedIds, (climb_congr (indexById_perm hperm hnodup) _).1]
    rw [projectLineage, projectLineage, hids]
  rw [computeEffectiveDependencyState, computeEffectiveDependencyState, raw_perm hperm,
    foldTaskLineages_perm hperm hnodup hapart, hproject]

/-- The two sets are disjoint for every list; on distinct ids every id is classed by the head of its
lineage where the repair edges are acyclic, and the order of the list is irrelevant where the id
comparison tells the ids apart. -/
theorem effectiveDependencyState_sound (localeCompare : LocaleCompare) (tasks : List Task)
    (nowMs : JsNumber) :
    Disjoint (computeEffectiveDependencyState localeCompare tasks nowMs).satisfyingIds
        (computeEffectiveDependencyState localeCompare tasks nowMs).terminalFailureIds
      ∧ ((tasks.map Task.id).Nodup → Acyclic (Repairs (indexById tasks)) →
        ClassedByHead localeCompare tasks nowMs)
      ∧ ((tasks.map Task.id).Nodup →
        (∀ a ∈ tasks, ∀ b ∈ tasks, localeCompare.compare a.id b.id = 0 → a.id = b.id) →
        OrderFree localeCompare tasks nowMs) :=
  ⟨disjoint_dependencyState localeCompare tasks nowMs, classedByHead localeCompare nowMs,
    orderFree nowMs⟩

/-! ### Two ids that compare equal -/

def composeAcute (text : String) : String :=
  String.ofList (text.toList.foldr (fun c rest =>
    if c = 'e' ∧ rest.head? = some '\u0301' then '\u00e9' :: rest.tail else c :: rest) [])

/-- A collation under which a composed and a decomposed letter compare equal, as the language
requires. -/
def canonicalCollation : LocaleCompare where
  compare a b := compareCodePoint (composeAcute a) (composeAcute b)
  signed := signed_compareCodePoint.comap composeAcute

def failedRoot : Task := { id := "root", status := .noGo }

def repairOfRoot (id : String) (status : TaskStatus) : Task :=
  { id := id, status := status, isPriorityFix := some true, fixForTaskId := some "root",
    createdAt := some "2026-08-01T00:00:01Z" }

theorem acyclic_star (hub : String)
    (hstar : ∀ task ∈ tasks, task.id ≠ hub ∧ task.fixForTaskId = some hub
      ∨ task.fixForTaskId = none) : Acyclic (Repairs (indexById tasks)) := by
  refine acyclic_of_rank (fun id => if id = hub then 1 else 0) fun a b hstep => ?_
  obtain ⟨task, hget, hparent⟩ := Option.bind_eq_some_iff.mp hstep
  obtain ⟨htask, rfl⟩ := mem_of_get?_indexById hget
  have hfix := (truthy_eq_some_iff.mp hparent).1
  rcases hstar task htask with ⟨hne, hchild⟩ | hnone
  · obtain rfl : hub = b := Option.some.inj (hchild.symm.trans hfix)
    rw [if_neg hne, if_pos rfl]
    exact Nat.zero_lt_one
  · rw [hnone] at hfix
    exact absurd hfix (by simp)

theorem effectiveDependencyState_sound_repairedRoot :
    ClassedByHead canonicalCollation [failedRoot, repairOfRoot "fix" .done] 0
      ∧ OrderFree canonicalCollation [failedRoot, repairOfRoot "fix" .done] 0 := by
  have hsound := (effectiveDependencyState_sound canonicalCollation
    [failedRoot, repairOfRoot "fix" .done] 0).2
  exact ⟨hsound.1 (by decide) (acyclic_star "root" (by decide)), hsound.2 (by decide) (by decide)⟩

def twinRepairs : List Task :=
  [failedRoot, repairOfRoot "\u00e9" .done, repairOfRoot "e\u0301" .noGo]

theorem not_orderFree_twinRepairs :
    (twinRepairs.map Task.id).Nodup ∧ Acyclic (Repairs (indexById twinRepairs))
      ∧ ¬ OrderFree canonicalCollation twinRepairs 0 := by
  refine ⟨by decide, acyclic_star "root" (by decide), fun hfree => ?_⟩
  have hswap : twinRepairs.Perm
      [failedRoot, repairOfRoot "e\u0301" .noGo, repairOfRoot "\u00e9" .done] :=
    List.Perm.cons _ (List.Perm.swap _ _ _)
  have hroot : "root" ∈
      (computeEffectiveDependencyState canonicalCollation twinRepairs 0).satisfyingIds := by
    decide +kernel
  rw [← hfree _ hswap] at hroot
  revert hroot
  decide +kernel

end Deckent.SchedulerState
