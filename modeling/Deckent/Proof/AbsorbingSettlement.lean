import Deckent.Proof.LaterBirth
import Deckent.Proof.SchedulerState

/-!
# Settlement of a lineage and later births

A settled lineage keeps its head under the birth of a repair unless the repair displaces an admitted
failed head, and with the head its root stays satisfying.
-/

namespace Deckent.SchedulerState

open Relation TaskLineage

variable {localeCompare : LocaleCompare} {before after : List Task} {x parent : Task}
  {nowMs : JsNumber}

def KeepsHead (localeCompare : LocaleCompare) (before after : List Task) (x : Task)
    (lineage : TaskLineage) : Prop :=
  ∃ later ∈ foldTaskLineages localeCompare (before ++ x :: after),
    later.rootId = lineage.rootId ∧ later.resolvedTask = lineage.resolvedTask

/-- The root of the lineage satisfies its dependents after the birth if it did before. -/
def KeepsRoot (localeCompare : LocaleCompare) (before after : List Task) (x : Task)
    (lineage : TaskLineage) (nowMs : JsNumber) : Prop :=
  lineage.rootId ∈ (computeEffectiveDependencyState localeCompare (before ++ after) nowMs).satisfyingIds →
    lineage.rootId
      ∈ (computeEffectiveDependencyState localeCompare (before ++ x :: after) nowMs).satisfyingIds

section Contract

variable (h : Birth before after x parent)

include h

theorem keepsHead_iff {lineage : TaskLineage}
    (hlineage : lineage ∈ foldTaskLineages localeCompare (before ++ after))
    (hparent : parent ∈ lineage.attempts) (hsettled : lineage.resolvedTask.status = .done) :
    KeepsHead localeCompare before after x lineage
      ↔ ¬ Displaces localeCompare before after x parent lineage.rootId := by
  obtain ⟨rootId, -, rfl⟩ := mem_foldTaskLineages.mp hlineage
  obtain ⟨hnew, -, -⟩ := h.lineage_new hlineage
  have hroot := (mem_lineageGroup.mp (mem_attempts_lineageAt.mp hparent)).2
  constructor
  · rintro ⟨later, hlater, hid, hhead⟩ hdisplaces
    obtain rfl := lineage_eq_of_rootId hlater hnew hid
    have hend : nextHead localeCompare (before ++ after) rootId
        (lineageAt localeCompare (before ++ after) rootId).resolvedTask = none := by
      rw [nextHead_eq, hsettled]
      rfl
    rw [h.resolvedTask_of_displaces hlineage ((h.rootId_x hdisplaces.1).trans hroot) hend hdisplaces]
      at hhead
    refine h.notMem ?_
    rw [hhead]
    exact mem_of_leadsTo_rootTask hlineage (leadsTo_resolvedTask rootId)
  · intro hkept
    exact ⟨_, hnew, rfl, h.resolvedTask_of_not_displaces hlineage hkept⟩

/-! ### Acyclic edges -/

theorem acyclic_new (hacyclic : Acyclic (Repairs (indexById (before ++ after)))) :
    Acyclic (Repairs (indexById (before ++ x :: after))) := by
  have hstep : ∀ {a b : String}, a ≠ x.id → Repairs (indexById (before ++ x :: after)) a b →
      Repairs (indexById (before ++ after)) a b := by
    intro a b ha hab
    rw [Repairs, h.parentOf_new ha] at hab
    exact hab
  have htarget : ∀ {a b : String}, Repairs (indexById (before ++ x :: after)) a b → b ≠ x.id := by
    rintro a b hab rfl
    by_cases ha : a = x.id
    · rw [ha, Repairs, parentOf_of_get? h.get?_new_x] at hab
      have hid := Option.some.inj (h.repairs.symm.trans (truthy_eq_some_iff.mp hab).1)
      exact h.fresh h.parent_mem hid
    · exact h.parentOf_ne a (hstep ha hab)
  intro a hcycle
  have ha : a ≠ x.id := by
    obtain ⟨b, -, hlast⟩ := TransGen.tail'_iff.mp hcycle
    exact htarget hlast
  have hpath : ∀ b, TransGen (Repairs (indexById (before ++ x :: after))) a b →
      TransGen (Repairs (indexById (before ++ after))) a b := by
    intro b hab
    induction hab with
    | single hab => exact TransGen.single (hstep ha hab)
    | tail hab hbc ih =>
        obtain ⟨c, -, hlast⟩ := TransGen.tail'_iff.mp hab
        exact ih.tail (hstep (htarget hlast) hbc)
  exact hacyclic a (hpath a hcycle)

theorem keepsRoot_of_acyclic (hacyclic : Acyclic (Repairs (indexById (before ++ after))))
    {lineage : TaskLineage} (hsettled : lineage.resolvedTask.status = .done)
    (hkept : KeepsHead localeCompare before after x lineage) :
    KeepsRoot localeCompare before after x lineage nowMs := by
  intro _
  obtain ⟨later, hlater, hid, hhead⟩ := hkept
  obtain ⟨root, hroot, hrootId⟩ := rootId_mem_tasks hlater
  have hacyclic' := acyclic_new h hacyclic
  obtain ⟨own, hown, hattempt, -, hclass⟩ :=
    classedByHead localeCompare nowMs h.nodup hacyclic' root hroot
  have hself : resolveTaskLineageRootId root (indexById (before ++ x :: after)) = root.id := by
    obtain ⟨rootId, hne, rfl⟩ := mem_foldTaskLineages.mp hlater
    obtain ⟨task, htask⟩ := List.exists_mem_of_ne_nil _ hne
    obtain ⟨hmem, rfl⟩ := mem_lineageGroup.mp htask
    exact rootId_rootId h.nodup hacyclic' hmem hroot hrootId
  have htouched := rootId_of_touched h.nodup hacyclic' hown hroot (Or.inl hattempt)
  obtain rfl : own = later :=
    lineage_eq_of_rootId hown hlater (htouched.symm.trans (hself.trans hrootId))
  rw [← hid, ← hrootId]
  exact hclass.1.mpr ((congrArg Task.status hhead).trans hsettled)

/-! ### A repair listed after the repaired task -/

omit h in
theorem displaces_rootId {rootId : String}
    (hdisplaces : Displaces localeCompare before after x parent rootId) :
    resolveTaskLineageRootId x (indexById (before ++ x :: after)) = rootId := by
  obtain ⟨-, -, -, hfirst⟩ := hdisplaces
  exact (mem_lineageGroup.mp (List.mem_filter.mp hfirst.mem).1).2

theorem mem_projectedIds_new {rootId : String}
    (hlineage : lineageAt localeCompare (before ++ after) rootId
      ∈ foldTaskLineages localeCompare (before ++ after))
    (hkept : ¬ Displaces localeCompare before after x parent rootId) {id : String} (hid : id ≠ x.id) :
    id ∈ projectedIds (indexById (before ++ x :: after))
        (lineageAt localeCompare (before ++ x :: after) rootId)
      ↔ id ∈ projectedIds (indexById (before ++ after))
        (lineageAt localeCompare (before ++ after) rootId) := by
  have hmem := mem_of_leadsTo_rootTask hlineage (leadsTo_resolvedTask rootId)
  have hattempts : id ∈ (lineageAt localeCompare (before ++ x :: after) rootId).attemptIds
      ↔ id ∈ (lineageAt localeCompare (before ++ after) rootId).attemptIds := by
    rw [mem_attemptIds_lineageAt, mem_attemptIds_lineageAt]
    refine exists_congr fun task => and_congr_left fun htask => ?_
    rw [mem_lineageGroup, mem_lineageGroup, Birth.mem_new]
    constructor
    · rintro ⟨rfl | hold, hroot⟩
      · exact absurd htask.symm hid
      · exact ⟨hold, (h.rootId_old hold).symm.trans hroot⟩
    · rintro ⟨hold, hroot⟩
      exact ⟨Or.inr hold, (h.rootId_old hold).trans hroot⟩
  rw [mem_projectedIds, mem_projectedIds, hattempts, h.resolvedTask_of_not_displaces hlineage hkept,
    h.ancestorIds_old hmem]

theorem notMem_projectedIds_x (hblank : parent.id = "") {id : String} (hid : id ≠ x.id) :
    id ∉ projectedIds (indexById (before ++ x :: after))
      (lineageAt localeCompare (before ++ x :: after) x.id) := by
  have hgroup : ∀ task ∈ lineageGroup (before ++ x :: after) x.id, task = x := by
    intro task htask
    obtain ⟨hmem, hroot⟩ := mem_lineageGroup.mp htask
    rcases Birth.mem_new.mp hmem with rfl | hold
    · rfl
    · rw [h.rootId_old hold] at hroot
      obtain ⟨root, hrootMem, hrootId⟩ := rootId_mem_ids hold
      exact absurd (hrootId.trans hroot) (h.fresh hrootMem)
  have hx : x ∈ lineageGroup (before ++ x :: after) x.id :=
    mem_lineageGroup.mpr ⟨Birth.mem_new.mpr (Or.inl rfl), h.rootId_x_of_blank hblank⟩
  have hlineage : lineageAt localeCompare (before ++ x :: after) x.id
      ∈ foldTaskLineages localeCompare (before ++ x :: after) :=
    mem_foldTaskLineages.mpr ⟨x.id, List.ne_nil_of_mem hx, rfl⟩
  have hhead : (lineageAt localeCompare (before ++ x :: after) x.id).resolvedTask = x := by
    rcases resolvedTask_mem hlineage with hroot | hattempt
    · exact hroot.trans (Option.some.inj ((rootTask_spec hlineage).symm.trans h.get?_new_x))
    · exact hgroup _ (mem_attempts_lineageAt.mp hattempt)
  have hancestors : resolveFixAncestorIds x (indexById (before ++ x :: after)) = [] := by
    refine ancestorIds_of_no_parent ?_
    rw [h.repairs, hblank]
    decide
  rw [mem_projectedIds, mem_attemptIds_lineageAt, hhead, hancestors]
  rintro (⟨task, htask, rfl⟩ | hmem)
  · exact hid (congrArg Task.id (hgroup task htask))
  · exact absurd hmem List.not_mem_nil

theorem filter_rootIds_new (hparent : parent ∈ before) {id : String} (hid : id ≠ x.id) :
    (rootIds (before ++ x :: after)).filter (fun rootId =>
        id ∈ projectedIds (indexById (before ++ x :: after))
          (lineageAt localeCompare (before ++ x :: after) rootId))
      = (rootIds (before ++ after)).filter fun rootId =>
        id ∈ projectedIds (indexById (before ++ x :: after))
          (lineageAt localeCompare (before ++ x :: after) rootId) := by
  have hold : ∀ list : List Task, (∀ task ∈ list, task ∈ before ++ after) →
      list.map (fun task => resolveTaskLineageRootId task (indexById (before ++ x :: after)))
        = list.map fun task => resolveTaskLineageRootId task (indexById (before ++ after)) :=
    fun list hlist => List.map_congr_left fun task htask => h.rootId_old (hlist task htask)
  have hbefore := hold before fun task htask => List.mem_append_left _ htask
  have hafter := hold after fun task htask => List.mem_append_right _ htask
  rw [rootIds, rootIds, List.map_append, List.map_cons, hbefore, hafter, List.map_append]
  by_cases hblank : parent.id = ""
  · rw [OrderedSet.filter_ofList, OrderedSet.filter_ofList, List.filter_append,
      List.filter_cons_of_neg, List.filter_append]
    rw [h.rootId_x_of_blank hblank, decide_eq_true_eq]
    exact notMem_projectedIds_x h hblank hid
  · rw [OrderedSet.ofList_append_cons_of_mem]
    exact List.mem_map.mpr ⟨parent, hparent, (h.rootId_x hblank).symm⟩

theorem keepsRoot_of_before (hparent : parent ∈ before) {lineage : TaskLineage}
    (hlineage : lineage ∈ foldTaskLineages localeCompare (before ++ after))
    (hattempt : parent ∈ lineage.attempts)
    (hkept : ¬ Displaces localeCompare before after x parent lineage.rootId) :
    KeepsRoot localeCompare before after x lineage nowMs := by
  obtain ⟨root, hroot, hrootId⟩ := rootId_mem_tasks hlineage
  obtain ⟨rootId, -, rfl⟩ := mem_foldTaskLineages.mp hlineage
  have hid : rootId ≠ x.id := fun heq => h.fresh hroot (hrootId.trans heq)
  have hkeptAll : ∀ other, ¬ Displaces localeCompare before after x parent other := by
    intro other hdisplaces
    have hsame := (displaces_rootId hdisplaces).symm.trans (h.rootId_x hdisplaces.1)
    rw [(mem_lineageGroup.mp (mem_attempts_lineageAt.mp hattempt)).2] at hsame
    exact hkept (hsame ▸ hdisplaces)
  have hold : ∀ other ∈ rootIds (before ++ after),
      lineageAt localeCompare (before ++ after) other
        ∈ foldTaskLineages localeCompare (before ++ after) :=
    fun other hother => mem_foldTaskLineages.mpr ⟨other, mem_rootIds.mp hother, rfl⟩
  have hraw : rootId ∈ ((before ++ x :: after).foldl (addTask nowMs) ⟨∅, ∅, ∅⟩).satisfyingIds
      ↔ rootId ∈ ((before ++ after).foldl (addTask nowMs) ⟨∅, ∅, ∅⟩).satisfyingIds := by
    rw [mem_raw.1, mem_raw.1]
    refine or_congr Iff.rfl (exists_congr fun task => and_congr_left fun htask => ?_)
    rw [Birth.mem_new, or_iff_right]
    rintro rfl
    exact hid htask.2.symm
  have htouching : touchingRoots localeCompare (before ++ x :: after) rootId
      = touchingRoots localeCompare (before ++ after) rootId := by
    rw [touchingRoots, touchingRoots, filter_rootIds_new h hparent hid]
    refine congrArg (sortBy _) (List.filter_congr fun other hother => ?_)
    rw [decide_eq_decide]
    exact mem_projectedIds_new h (hold other hother) (hkeptAll other) hid
  change rootId ∈ (computeEffectiveDependencyState _ _ _).satisfyingIds →
    rootId ∈ (computeEffectiveDependencyState _ _ _).satisfyingIds
  rw [mem_satisfyingIds_compute, mem_satisfyingIds_compute, htouching]
  cases hlast : (touchingRoots localeCompare (before ++ after) rootId).getLast? with
  | none => exact hraw.mpr
  | some other =>
      have hother : other ∈ rootIds (before ++ after) :=
        List.mem_of_mem_filter (mem_sortBy.mp (List.mem_of_getLast? hlast))
      simp only [h.resolvedTask_of_not_displaces (hold other hother) (hkeptAll other)]
      exact id

/-! ### The contract -/

/-- A settled lineage is absorbing under a birth unless the new task displaces a failed head. -/
theorem absorbing_iff (nowMs : JsNumber) {lineage : TaskLineage}
    (hlineage : lineage ∈ foldTaskLineages localeCompare (before ++ after))
    (hparent : parent ∈ lineage.attempts) (hsettled : lineage.resolvedTask.status = .done)
    (hplace : parent ∈ before ∨ Acyclic (Repairs (indexById (before ++ after)))) :
    KeepsHead localeCompare before after x lineage
        ∧ KeepsRoot localeCompare before after x lineage nowMs
      ↔ ¬ Displaces localeCompare before after x parent lineage.rootId := by
  have hiff := keepsHead_iff h hlineage hparent hsettled
  refine ⟨fun hkept => hiff.mp hkept.1, fun hkept => ⟨hiff.mpr hkept, ?_⟩⟩
  rcases hplace with hbefore | hacyclic
  · exact keepsRoot_of_before h hbefore hlineage hparent hkept
  · exact keepsRoot_of_acyclic h hacyclic hsettled (hiff.mpr hkept)

/-! ### Repairs born last -/

section BornLast

variable {born : String} (hborn : x.createdAt = some born)
  (hlater : ∀ task ∈ before ++ after, ∃ created, task.createdAt = some created
    ∧ localeCompare.compare created born < 0)

include hborn hlater

end BornLast

end Contract

/-! ### A late repair of a settled root -/

def settledRoot : List Task := [failedRoot, repairOfRoot "fix" .done]

def lateRepair (flag : Option Bool) : Task :=
  { id := "late", status := .pending, isPriorityFix := flag, fixForTaskId := some "root",
    createdAt := some "2026-08-01T00:00:02Z" }

theorem birth_lateRepair (flag : Option Bool) : Birth settledRoot [] (lateRepair flag) failedRoot where
  nodup := (by decide : ["root", "fix", "late"].Nodup)
  unreferenced :=
    (by decide : ∀ task ∈ settledRoot ++ [], task.fixForTaskId ≠ some "late")
  parent_mem := by decide
  repairs := rfl

theorem settledRoot_lineage : lineageAt canonicalCollation settledRoot "root"
      ∈ foldTaskLineages canonicalCollation settledRoot
    ∧ failedRoot ∈ (lineageAt canonicalCollation settledRoot "root").attempts
    ∧ (lineageAt canonicalCollation settledRoot "root").resolvedTask.status = .done := by
  decide +kernel

theorem absorbing_iff_flaggedRepair :
    KeepsHead canonicalCollation settledRoot [] (lateRepair (some true))
        (lineageAt canonicalCollation settledRoot "root")
      ∧ KeepsRoot canonicalCollation settledRoot [] (lateRepair (some true))
        (lineageAt canonicalCollation settledRoot "root") 0 := by
  obtain ⟨hlineage, hparent, hsettled⟩ := settledRoot_lineage
  refine (absorbing_iff (birth_lateRepair (some true)) 0 hlineage hparent hsettled
    (Or.inl (by decide))).mpr ?_
  rintro ⟨-, -, -, hfirst⟩
  have hhead := hfirst.head?_sortBy (signed_compareAttempts canonicalCollation _).consistent
  revert hhead
  decide +kernel

/-- A late repair without the flag takes over a lineage that a flagged repair has settled. -/
theorem not_absorbing_unflaggedRepair :
    Birth settledRoot [] (lateRepair none) failedRoot
      ∧ (∀ task ∈ settledRoot, ∀ created ∈ task.createdAt, ∀ born ∈ (lateRepair none).createdAt,
        canonicalCollation.compare created born < 0)
      ∧ (lineageAt canonicalCollation settledRoot "root"
          ∈ foldTaskLineages canonicalCollation settledRoot
        ∧ failedRoot ∈ (lineageAt canonicalCollation settledRoot "root").attempts
        ∧ (lineageAt canonicalCollation settledRoot "root").resolvedTask.status = .done)
      ∧ ¬ KeepsHead canonicalCollation settledRoot [] (lateRepair none)
        (lineageAt canonicalCollation settledRoot "root")
      ∧ ¬ KeepsRoot canonicalCollation settledRoot [] (lateRepair none)
        (lineageAt canonicalCollation settledRoot "root") 0 := by
  refine ⟨birth_lateRepair none, by decide +kernel, settledRoot_lineage, ?_, ?_⟩
  · unfold KeepsHead
    decide +kernel
  · unfold KeepsRoot
    decide +kernel

end Deckent.SchedulerState
