import Mathlib.Order.Bounds.Basic
import Deckent.Model.SchedulerReducer

/-!
# Which tasks are spawned, and in which order
Both strategies take a prefix of one candidate list. The queue entries that are neither dropped nor
blocked come first, in queue order; the continuous strategy goes on with the pending tasks that the
queue does not hold, one entry for each id. The continuous prefix ends when the slots are spent, the
FIFO prefix has one entry for each completed task.
-/

/-! ### The cascade of skips

A pending task that nobody has taken is skipped when it waits, through other skipped tasks, for a
dependency that has failed. The sweep of `cascadePass` computes this closure exactly as long as the
empty string is not an id: the source tests the failed dependency it finds for truth, so a task whose
first failed dependency is `""` is not skipped. -/

namespace Deckent.SchedulerReducer

variable {snapshot : SchedulerSnapshot}

/-! ### Repairs settled as no-mint -/

def IsNoMint (snapshot : SchedulerSnapshot) (id : String) : Prop :=
  ∃ task ∈ snapshot.tasks, task.id = id ∧ (noMintSettlement snapshot task).isSome

def IsNoMintTarget (snapshot : SchedulerSnapshot) (id : String) : Prop :=
  ∃ task ∈ snapshot.tasks, IsNoMint snapshot task.id ∧ truthy task.fixForTaskId = some id

variable (snapshot) in
theorem settleNoMint_spec (scan : NoMintScan) (task : SchedulerTaskSnapshot) (id : String) :
    (id ∈ (settleNoMint snapshot scan task).noMintIds
        ↔ id ∈ scan.noMintIds ∨ task.id = id ∧ (noMintSettlement snapshot task).isSome)
      ∧ ((settleNoMint snapshot scan task).tick.dispositions.get? id
        = if task.id = id ∧ (noMintSettlement snapshot task).isSome then some .noMint
          else scan.tick.dispositions.get? id) := by
  unfold settleNoMint
  cases hsettled : noMintSettlement snapshot task with
  | none => simp
  | some settlement =>
      refine ⟨?_, ?_⟩
      · simp only [Finset.mem_insert, Option.isSome_some, and_true, eq_comm]
        exact or_comm
      · simp only [Tick.dispose, Tick.emit, OrderedMap.get?_set, Option.isSome_some, and_true,
          eq_comm]

theorem noMintPass_spec (snapshot : SchedulerSnapshot) (id : String) :
    (id ∈ (noMintPass snapshot).noMintIds ↔ IsNoMint snapshot id)
      ∧ ((noMintPass snapshot).tick.dispositions.get? id = some .noMint ↔ IsNoMint snapshot id) := by
  have hgeneral : ∀ (tasks : List SchedulerTaskSnapshot) (scan : NoMintScan),
      (id ∈ (tasks.foldl (settleNoMint snapshot) scan).noMintIds
          ↔ id ∈ scan.noMintIds ∨ ∃ task ∈ tasks, task.id = id ∧ (noMintSettlement snapshot task).isSome)
        ∧ ((tasks.foldl (settleNoMint snapshot) scan).tick.dispositions.get? id = some .noMint
          ↔ scan.tick.dispositions.get? id = some .noMint
            ∨ ∃ task ∈ tasks, task.id = id ∧ (noMintSettlement snapshot task).isSome) := by
    intro tasks
    induction tasks with
    | nil => simp
    | cons task rest ih =>
        intro scan
        obtain ⟨hids, hdispositions⟩ := settleNoMint_spec snapshot scan task id
        obtain ⟨hidsRest, hdispositionsRest⟩ := ih (settleNoMint snapshot scan task)
        rw [List.foldl_cons, hidsRest, hids, hdispositionsRest, hdispositions, List.exists_mem_cons_iff,
          or_assoc]
        refine ⟨Iff.rfl, ?_⟩
        by_cases hhere : task.id = id ∧ (noMintSettlement snapshot task).isSome
        · rw [if_pos hhere]
          exact iff_of_true (Or.inl rfl) (Or.inr (Or.inl hhere))
        · rw [if_neg hhere]
          exact or_congr_right (or_iff_right hhere).symm
  obtain ⟨hids, hdispositions⟩ := hgeneral snapshot.tasks
    { noMintIds := ∅, tick := { orderedEffects := [], dispositions := OrderedMap.empty } }
  refine ⟨hids.trans ?_, hdispositions.trans ?_⟩ <;> simp [IsNoMint]

theorem mem_noMintIds {id : String} :
    id ∈ (noMintPass snapshot).noMintIds ↔ IsNoMint snapshot id :=
  (noMintPass_spec snapshot id).1

theorem mem_noMintTargets {id : String} :
    id ∈ noMintTargets snapshot (noMintPass snapshot).noMintIds ↔ IsNoMintTarget snapshot id := by
  simp only [noMintTargets, List.mem_toFinset, List.mem_filterMap, Option.ite_none_right_eq_some,
    mem_noMintIds, IsNoMintTarget]

/-! ### The closure -/

structure CascadeEligible (snapshot : SchedulerSnapshot) (task : SchedulerTaskSnapshot) : Prop where
  pending : task.status = .pending
  uncollected : task.id ∉ snapshot.collectedIds
  unassigned : task.id ∉ snapshot.assignedTaskIds
  notNoMint : ¬ IsNoMint snapshot task.id

inductive Reaches (snapshot : SchedulerSnapshot) (via : SchedulerTaskSnapshot → Prop)
    (seed : String → Prop) : String → Prop
  | edge {task : SchedulerTaskSnapshot} {dependency : String} : task ∈ snapshot.tasks → via task →
      dependency ∈ task.dependencies → seed dependency → Reaches snapshot via seed task.id
  | step {task : SchedulerTaskSnapshot} {dependency : String} : task ∈ snapshot.tasks → via task →
      dependency ∈ task.dependencies → Reaches snapshot via seed dependency →
      Reaches snapshot via seed task.id

def CascadeSeed (snapshot : SchedulerSnapshot) (id : String) : Prop :=
  id ∈ snapshot.effectiveDependencyState.terminalFailureIds ∨ IsNoMintTarget snapshot id

def BlankFree (snapshot : SchedulerSnapshot) : Prop :=
  ∀ task ∈ snapshot.tasks, CascadeEligible snapshot task → "" ∈ task.dependencies →
    "" ∉ snapshot.effectiveDependencyState.terminalFailureIds
      ∧ ∀ other ∈ snapshot.tasks, CascadeEligible snapshot other → other.id ≠ ""

def failedBeforeCascade (snapshot : SchedulerSnapshot) : Finset String :=
  snapshot.effectiveDependencyState.terminalFailureIds
    ∪ noMintTargets snapshot (noMintPass snapshot).noMintIds

theorem mem_failedBeforeCascade {id : String} :
    id ∈ failedBeforeCascade snapshot ↔ CascadeSeed snapshot id := by
  rw [failedBeforeCascade, Finset.mem_union, mem_noMintTargets, CascadeSeed]

def cascadeOf (snapshot : SchedulerSnapshot) : Cascade :=
  cascadePass snapshot (noMintPass snapshot).noMintIds

def CascadeRuns (snapshot : SchedulerSnapshot) : Prop :=
  snapshot.deferTerminalDependencyFailure.getD false = false ∨ ∃ id, IsNoMint snapshot id

theorem cascadeOf_eq_start (hruns : CascadeRuns snapshot) :
    cascadeOf snapshot = saturate SchedulerTaskSnapshot.id
      (cascadeRule snapshot (noMintPass snapshot).noMintIds (failedBeforeCascade snapshot))
      snapshot.tasks (snapshot.tasks.length + 1) (Sweep.start ∅) := by
  have hchanged : (!snapshot.deferTerminalDependencyFailure.getD false
      || decide ((noMintPass snapshot).noMintIds ≠ ∅)) = true := by
    rcases hruns with hdefer | ⟨id, hid⟩
    · rw [hdefer]
      rfl
    · have hne : (noMintPass snapshot).noMintIds ≠ ∅ :=
        Finset.ne_empty_of_mem (mem_noMintIds.mpr hid)
      rw [decide_eq_true hne, Bool.or_true]
  unfold cascadeOf cascadePass Sweep.start
  rw [hchanged]
  rfl

theorem cascadeOf_of_not_runs (hruns : ¬ CascadeRuns snapshot) :
    (cascadeOf snapshot).reached = ∅ ∧ (cascadeOf snapshot).fired = [] := by
  simp only [CascadeRuns, not_or, not_exists, Bool.not_eq_false] at hruns
  have hempty : (noMintPass snapshot).noMintIds = ∅ :=
    Finset.eq_empty_of_forall_notMem fun id hid => hruns.2 id (mem_noMintIds.mp hid)
  have hchanged : (!snapshot.deferTerminalDependencyFailure.getD false
      || decide ((noMintPass snapshot).noMintIds ≠ ∅)) = false := by
    rw [hruns.1, hempty]
    rfl
  unfold cascadeOf cascadePass
  rw [hchanged]
  exact ⟨rfl, rfl⟩

section Rule

variable {task : SchedulerTaskSnapshot} {reached : Finset String}

theorem cascadeRule_of_eligible (heligible : CascadeEligible snapshot task) :
    cascadeRule snapshot (noMintPass snapshot).noMintIds (failedBeforeCascade snapshot) reached task
      = truthy (task.dependencies.find? fun d => d ∈ failedBeforeCascade snapshot ∪ reached) := by
  have hfree : ¬ (task.id ∈ snapshot.collectedIds ∨ task.id ∈ (noMintPass snapshot).noMintIds) := by
    rw [mem_noMintIds]
    exact not_or.mpr ⟨heligible.uncollected, heligible.notNoMint⟩
  rw [cascadeRule, if_neg hfree, if_neg (not_not.mpr heligible.pending), if_neg heligible.unassigned]

theorem eligible_of_cascadeRule {failed : String}
    (hrule : cascadeRule snapshot (noMintPass snapshot).noMintIds (failedBeforeCascade snapshot) reached
      task = some failed) : CascadeEligible snapshot task := by
  unfold cascadeRule at hrule
  split at hrule
  · exact absurd hrule (by simp)
  · next hfree =>
      rw [mem_noMintIds, not_or] at hfree
      split at hrule
      · exact absurd hrule (by simp)
      · next hpending =>
          split at hrule
          · exact absurd hrule (by simp)
          · next hassigned => exact ⟨not_not.mp hpending, hfree.1, hassigned, hfree.2⟩

theorem failed_of_cascadeRule {failed : String}
    (hrule : cascadeRule snapshot (noMintPass snapshot).noMintIds (failedBeforeCascade snapshot) reached
      task = some failed) :
    failed ∈ task.dependencies ∧ (CascadeSeed snapshot failed ∨ failed ∈ reached) := by
  rw [cascadeRule_of_eligible (eligible_of_cascadeRule hrule), truthy_eq_some_iff] at hrule
  have hfound := List.find?_some hrule.1
  rw [decide_eq_true_eq, Finset.mem_union, mem_failedBeforeCascade] at hfound
  exact ⟨List.mem_of_find?_eq_some hrule.1, hfound⟩

end Rule

theorem reaches_of_mem_cascade {id : String} (hid : id ∈ (cascadeOf snapshot).reached) :
    Reaches snapshot (CascadeEligible snapshot) (CascadeSeed snapshot) id := by
  by_cases hruns : CascadeRuns snapshot
  · rw [cascadeOf_eq_start hruns] at hid
    refine saturate_sound (snapshot.tasks.length + 1)
      (Reaches snapshot (CascadeEligible snapshot) (CascadeSeed snapshot)) (by simp) ?_ id hid
    intro reached hreached task htask failed hrule
    obtain ⟨hdependency, hseed | hfailed⟩ := failed_of_cascadeRule hrule
    · exact Reaches.edge htask (eligible_of_cascadeRule hrule) hdependency hseed
    · exact Reaches.step htask (eligible_of_cascadeRule hrule) hdependency (hreached failed hfailed)
  · rw [(cascadeOf_of_not_runs hruns).1] at hid
    exact absurd hid (Finset.notMem_empty id)

theorem blank_notMem_cascade
    (hblank : ∀ task ∈ snapshot.tasks, CascadeEligible snapshot task → task.id ≠ "") :
    "" ∉ (cascadeOf snapshot).reached := by
  intro hmem
  generalize hempty : "" = id at hmem
  cases reaches_of_mem_cascade hmem with
  | edge htask heligible _ _ => exact hblank _ htask heligible hempty.symm
  | step htask heligible _ _ => exact hblank _ htask heligible hempty.symm

theorem mem_cascade_of_dependency (hruns : CascadeRuns snapshot) (hblank : BlankFree snapshot)
    {task : SchedulerTaskSnapshot} {dependency : String} (htask : task ∈ snapshot.tasks)
    (heligible : CascadeEligible snapshot task) (hdependency : dependency ∈ task.dependencies)
    (hfailed : CascadeSeed snapshot dependency ∨ dependency ∈ (cascadeOf snapshot).reached) :
    task.id ∈ (cascadeOf snapshot).reached := by
  have hquiet := saturate_closed SchedulerTaskSnapshot.id
    (cascadeRule snapshot (noMintPass snapshot).noMintIds (failedBeforeCascade snapshot))
    snapshot.tasks ∅ task htask
  rw [← cascadeOf_eq_start hruns] at hquiet
  refine hquiet.resolve_right fun hnone => ?_
  rw [cascadeRule_of_eligible heligible] at hnone
  cases hfind : task.dependencies.find? fun d =>
      d ∈ failedBeforeCascade snapshot ∪ (cascadeOf snapshot).reached with
  | none =>
      have hnot := List.find?_eq_none.mp hfind dependency hdependency
      rw [decide_eq_true_eq, Finset.mem_union, mem_failedBeforeCascade] at hnot
      exact hnot hfailed
  | some first =>
      rw [hfind] at hnone
      -- the first failed dependency can only be passed over when it is the empty string
      have hempty : first = "" := by
        by_contra hne
        have hsome : truthy (some first) = some first := truthy_eq_some_iff.mpr ⟨rfl, hne⟩
        rw [hsome] at hnone
        exact absurd hnone (by simp)
      have hfirst := List.find?_some hfind
      rw [decide_eq_true_eq, Finset.mem_union, mem_failedBeforeCascade, hempty] at hfirst
      obtain ⟨hterminal, hids⟩ := hblank task htask heligible
        (hempty ▸ List.mem_of_find?_eq_some hfind)
      rcases hfirst with (hseed | ⟨other, -, -, htarget⟩) | hreached
      · exact hterminal hseed
      · exact (truthy_eq_some_iff.mp htarget).2 rfl
      · exact blank_notMem_cascade hids hreached

theorem mem_cascade_iff (hruns : CascadeRuns snapshot) (hblank : BlankFree snapshot) {id : String} :
    id ∈ (cascadeOf snapshot).reached
      ↔ Reaches snapshot (CascadeEligible snapshot) (CascadeSeed snapshot) id := by
  refine ⟨reaches_of_mem_cascade, fun hreaches => ?_⟩
  induction hreaches with
  | edge htask heligible hdependency hseed =>
      exact mem_cascade_of_dependency hruns hblank htask heligible hdependency (Or.inl hseed)
  | step htask heligible hdependency _ ih =>
      exact mem_cascade_of_dependency hruns hblank htask heligible hdependency (Or.inr ih)

end Deckent.SchedulerReducer

namespace Deckent.SchedulerReducer

open scoped Classical

variable {α : Type*} {snapshot : SchedulerSnapshot}

/-! ### Reading the effects -/

def SchedulerEffect.spawn? : SchedulerEffect → Option String
  | spawnTask taskId _ => some taskId
  | _ => none

def SchedulerEffect.skip? : SchedulerEffect → Option (String × Option SchedulerQuiescenceReason)
  | cascadeSkip taskId _ quiescenceReason _ => some (taskId, quiescenceReason)
  | _ => none

def SchedulerEffect.settled? : SchedulerEffect → Option String
  | noMintRepair taskId _ _ _ => some taskId
  | _ => none

/-- The ids spawned by the effects, in their order. -/
def spawnsOf (effects : List SchedulerEffect) : List String := effects.filterMap SchedulerEffect.spawn?

def skipsOf (effects : List SchedulerEffect) : List (String × Option SchedulerQuiescenceReason) :=
  effects.filterMap SchedulerEffect.skip?

def settlementsOf (effects : List SchedulerEffect) : List String :=
  effects.filterMap SchedulerEffect.settled?

@[simp]
theorem spawnsOf_append (left right : List SchedulerEffect) :
    spawnsOf (left ++ right) = spawnsOf left ++ spawnsOf right :=
  List.filterMap_append

@[simp]
theorem skipsOf_append (left right : List SchedulerEffect) :
    skipsOf (left ++ right) = skipsOf left ++ skipsOf right :=
  List.filterMap_append

@[simp]
theorem settlementsOf_append (left right : List SchedulerEffect) :
    settlementsOf (left ++ right) = settlementsOf left ++ settlementsOf right :=
  List.filterMap_append

/-! ### Spending slots -/

/-- The members that are served while `slots > 0`, each taking one slot. -/
def takeSlots : JsNumber → List α → List α
  | _, [] => []
  | slots, x :: rest => if JsNumber.lt 0 slots then x :: takeSlots slots.pred rest else []

theorem takeSlots_isPrefix (slots : JsNumber) (list : List α) : takeSlots slots list <+: list := by
  induction list generalizing slots with
  | nil => exact List.prefix_rfl
  | cons x rest ih =>
      unfold takeSlots
      split
      · exact List.cons_prefix_cons.mpr ⟨rfl, ih slots.pred⟩
      · exact List.nil_prefix

theorem takeSlots_of_not_lt {slots : JsNumber} (hslots : JsNumber.lt 0 slots = false) (list : List α) :
    takeSlots slots list = [] := by
  cases list with
  | nil => rfl
  | cons x rest => rw [takeSlots, hslots, if_neg (by simp)]

theorem takeSlots_append (slots : JsNumber) (left right : List α) :
    takeSlots slots (left ++ right) = takeSlots slots left
      ++ if JsNumber.lt 0 (JsNumber.pred^[(takeSlots slots left).length] slots) then
          takeSlots (JsNumber.pred^[(takeSlots slots left).length] slots) right else [] := by
  induction left generalizing slots with
  | nil =>
      by_cases hslots : JsNumber.lt 0 slots
      · simp [takeSlots, hslots]
      · simp [takeSlots, takeSlots_of_not_lt (Bool.not_eq_true _ ▸ hslots)]
  | cons x rest ih =>
      by_cases hslots : JsNumber.lt 0 slots
      · simp [takeSlots, hslots, ih]
      · simp [takeSlots, hslots]

theorem takeSlots_eq_self {slots : JsNumber} {list : List α}
    (hleft : JsNumber.lt 0 (JsNumber.pred^[(takeSlots slots list).length] slots)) :
    takeSlots slots list = list := by
  induction list generalizing slots with
  | nil => rfl
  | cons x rest ih =>
      by_cases hslots : JsNumber.lt 0 slots
      · rw [takeSlots, if_pos hslots] at hleft ⊢
        rw [List.length_cons, Function.iterate_succ_apply] at hleft
        rw [ih hleft]
      · rw [takeSlots, if_neg hslots] at hleft
        exact absurd hleft hslots

theorem lt_of_lt_length_takeSlots {slots : JsNumber} (list : List α) {count : Nat}
    (hcount : count < (takeSlots slots list).length) : JsNumber.lt (.finite count) slots := by
  rw [← JsNumber.lt_iterate_pred]
  induction list generalizing slots count with
  | nil => exact absurd hcount (Nat.not_lt_zero _)
  | cons x rest ih =>
      by_cases hslots : JsNumber.lt 0 slots
      · rw [takeSlots, if_pos hslots, List.length_cons] at hcount
        cases count with
        | zero => exact hslots
        | succ count =>
            rw [Function.iterate_succ_apply]
            exact ih (Nat.lt_of_succ_lt_succ hcount)
      · rw [takeSlots, if_neg hslots] at hcount
        exact absurd hcount (Nat.not_lt_zero _)

theorem takeSlots_of_lt {slots : JsNumber} {list : List α}
    (hlist : JsNumber.lt (.finite list.length) slots) : takeSlots slots list = list := by
  by_contra hne
  have hprefix := takeSlots_isPrefix slots list
  have hshort : (takeSlots slots list).length ≤ list.length := hprefix.length_le
  have hleft := JsNumber.lt_of_natCast_le hshort hlist
  rw [← JsNumber.lt_iterate_pred] at hleft
  exact hne (takeSlots_eq_self hleft)

theorem mem_takeSlots_iff {slots : JsNumber} {list : List α} {x : α} :
    x ∈ takeSlots slots list ↔ ∃ before after, list = before ++ x :: after
      ∧ JsNumber.lt (.finite before.length) slots = true := by
  constructor
  · intro hx
    obtain ⟨before, after, hserved⟩ := List.append_of_mem hx
    obtain ⟨rest, hrest⟩ := takeSlots_isPrefix slots list
    refine ⟨before, after ++ rest, ?_, ?_⟩
    · rw [← hrest, hserved, List.append_assoc, List.cons_append]
    · refine lt_of_lt_length_takeSlots list ?_
      rw [hserved, List.length_append, List.length_cons]
      omega
  · rintro ⟨before, after, rfl, hfree⟩
    rw [takeSlots_append, takeSlots_of_lt hfree]
    rw [← JsNumber.lt_iterate_pred] at hfree
    rw [if_pos hfree, takeSlots, if_pos hfree]
    exact List.mem_append_right _ List.mem_cons_self

/-! ### The candidates -/

def Dropped (snapshot : SchedulerSnapshot) (skipped : String → Prop) (task : SchedulerTaskSnapshot) :
    Prop :=
  task.id ∈ snapshot.assignedTaskIds ∨ skipped task.id ∨ IsNoMint snapshot task.id

/-- The entry is spawned when it comes up and a slot is free. -/
def Spawnable (snapshot : SchedulerSnapshot) (skipped : String → Prop) (task : SchedulerTaskSnapshot) :
    Prop :=
  ¬ Dropped snapshot skipped task ∧ classifyBlock task snapshot = none

def Fillable (snapshot : SchedulerSnapshot) (skipped : String → Prop) (task : SchedulerTaskSnapshot) :
    Prop :=
  task.status = .pending ∧ task.id ∉ snapshot.collectedIds ∧ Spawnable snapshot skipped task

noncomputable def firstById (seen : Finset String) :
    List SchedulerTaskSnapshot → List SchedulerTaskSnapshot
  | [] => []
  | task :: rest =>
      if task.id ∈ seen then firstById seen rest else task :: firstById (insert task.id seen) rest

noncomputable def queueCandidates (snapshot : SchedulerSnapshot) (skipped : String → Prop) :
    List SchedulerTaskSnapshot :=
  snapshot.orderedQueue.filter fun task => Spawnable snapshot skipped task

noncomputable def fillCandidates (snapshot : SchedulerSnapshot) (skipped : String → Prop) :
    List SchedulerTaskSnapshot :=
  firstById ∅ (snapshot.tasks.filter fun task => Fillable snapshot skipped task
    ∧ task.id ∉ snapshot.orderedQueue.map SchedulerTaskSnapshot.id)

theorem mem_firstById {seen : Finset String} {list : List SchedulerTaskSnapshot}
    {task : SchedulerTaskSnapshot} (htask : task ∈ firstById seen list) :
    task ∈ list ∧ task.id ∉ seen := by
  induction list generalizing seen with
  | nil => exact absurd htask List.not_mem_nil
  | cons first rest ih =>
      unfold firstById at htask
      split at htask
      · obtain ⟨hmem, hseen⟩ := ih htask
        exact ⟨List.mem_cons_of_mem _ hmem, hseen⟩
      · next hfirst =>
          rcases List.mem_cons.mp htask with rfl | htask
          · exact ⟨List.mem_cons_self, hfirst⟩
          · obtain ⟨hmem, hseen⟩ := ih htask
            exact ⟨List.mem_cons_of_mem _ hmem, fun h => hseen (Finset.mem_insert_of_mem h)⟩

theorem mem_queueCandidates {skipped : String → Prop} {task : SchedulerTaskSnapshot} :
    task ∈ queueCandidates snapshot skipped
      ↔ task ∈ snapshot.orderedQueue ∧ Spawnable snapshot skipped task := by
  rw [queueCandidates, List.mem_filter, decide_eq_true_eq]

theorem mem_fillCandidates {skipped : String → Prop} {task : SchedulerTaskSnapshot}
    (htask : task ∈ fillCandidates snapshot skipped) : Fillable snapshot skipped task
      ∧ task.id ∉ snapshot.orderedQueue.map SchedulerTaskSnapshot.id := by
  have hfilter := (List.mem_filter.mp (mem_firstById htask).1).2
  rwa [decide_eq_true_eq] at hfilter

theorem exists_mem_firstById {seen : Finset String} {list : List SchedulerTaskSnapshot}
    {task : SchedulerTaskSnapshot} (htask : task ∈ list) (hseen : task.id ∉ seen) :
    ∃ first ∈ firstById seen list, first.id = task.id := by
  induction list generalizing seen with
  | nil => exact absurd htask List.not_mem_nil
  | cons head rest ih =>
      unfold firstById
      split
      · next hhead =>
          refine ih ((List.mem_cons.mp htask).resolve_left ?_) hseen
          rintro rfl
          exact hseen hhead
      · by_cases hid : task.id = head.id
        · exact ⟨head, List.mem_cons_self, hid.symm⟩
        · have hrest := (List.mem_cons.mp htask).resolve_left fun heq => hid (heq ▸ rfl)
          have hseen' : task.id ∉ insert head.id seen := by
            rw [Finset.mem_insert, not_or]
            exact ⟨hid, hseen⟩
          obtain ⟨first, hfirst, heq⟩ := ih hrest hseen'
          exact ⟨first, List.mem_cons_of_mem _ hfirst, heq⟩

theorem nodup_firstById (seen : Finset String) (list : List SchedulerTaskSnapshot) :
    ((firstById seen list).map SchedulerTaskSnapshot.id).Nodup := by
  induction list generalizing seen with
  | nil => exact List.nodup_nil
  | cons task rest ih =>
      unfold firstById
      split
      · exact ih seen
      · rw [List.map_cons, List.nodup_cons]
        refine ⟨fun hmem => ?_, ih _⟩
        obtain ⟨other, hother, heq⟩ := List.mem_map.mp hmem
        exact (mem_firstById hother).2 (heq ▸ Finset.mem_insert_self _ _)

end Deckent.SchedulerReducer
