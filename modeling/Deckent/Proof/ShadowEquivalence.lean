import Deckent.Model.ResultCollector
import Deckent.Proof.SchedulerTick

/-!
# The shadow decides what the plan decides

The reducer is to replace the pinned plan. The two differ by design in collisions, in backoffs, in what
follows from failures and in the FIFO drain of tasks whose dependencies are not done. Where none of these
comes up they spawn the same tasks in the same order, and leave the same queue.
-/

namespace Deckent.ResultCollector

open SchedulerReducer SchedulerState TaskLineage

variable {state : DispatchState} {localeCompare : LocaleCompare} {nowMs : JsNumber}
  {collisionBlockedIds : Finset String} {strategy : DispatchStrategy} {task : Task}

/-- A tick in which nothing comes up that only one of the two knows. -/
structure EquivalentClass (localeCompare : LocaleCompare) (nowMs : JsNumber)
    (collisionBlockedIds : Finset String) (state : DispatchState) : Prop where
  distinct : (state.tasks.map Task.id).Nodup
  queued : ∀ task ∈ state.remainingQueue, task ∈ state.tasks
  noBlank : ∀ task ∈ state.tasks, "" ∉ task.dependencies.getD []
  sameDone : (computeEffectiveDependencyState localeCompare state.tasks nowMs).satisfyingIds = state.doneIds
  noFailures : (computeEffectiveDependencyState localeCompare state.tasks nowMs).terminalFailureIds = ∅
  noBackoffs : ∀ task ∈ state.tasks,
    task.id ∈ (computeEffectiveDependencyState localeCompare state.tasks nowMs).retryEligibleIds
  noCollisions : ∀ task ∈ state.tasks, task.id ∉ collisionBlockedIds

/-! ### The plan -/

def DispatchState.queueEligible (state : DispatchState) (task : Task) : Bool :=
  decide (task.id ∉ state.assignedTaskIds) && !state.depsBlocked task

def DispatchState.fillable (state : DispatchState) (task : Task) : Bool :=
  decide (task.status = .pending) && decide (task.id ∉ state.collectedIds) && state.queueEligible task

theorem drainQueue_fst (slots : Nat) (queue : List Task) :
    (drainQueue state slots queue).1 = (queue.filter state.queueEligible).take slots := by
  induction queue generalizing slots with
  | nil => simp [drainQueue]
  | cons candidate rest ih =>
      rw [drainQueue, List.filter_cons]
      by_cases hslots : slots = 0
      · simp [hslots]
      · obtain ⟨left, rfl⟩ := Nat.exists_eq_succ_of_ne_zero hslots
        by_cases hassigned : candidate.id ∈ state.assignedTaskIds
        · simp [DispatchState.queueEligible, hassigned, ih]
        · cases hblocked : state.depsBlocked candidate with
          | true => simp [DispatchState.queueEligible, hassigned, hblocked, ih]
          | false => simp [DispatchState.queueEligible, hassigned, hblocked, ih]

theorem fillSlots_eq (alreadyChosen : Finset String) (slots : Nat) (tasks : List Task) :
    fillSlots state alreadyChosen slots tasks
      = (tasks.filter fun task => state.fillable task && decide (task.id ∉ alreadyChosen)).take slots := by
  induction tasks generalizing slots with
  | nil => simp [fillSlots]
  | cons task rest ih =>
      rw [fillSlots, List.filter_cons]
      by_cases hslots : slots = 0
      · simp [hslots]
      · obtain ⟨left, rfl⟩ := Nat.exists_eq_succ_of_ne_zero hslots
        cases hfill : state.fillable task && decide (task.id ∉ alreadyChosen) with
        | true =>
            simp only [DispatchState.fillable, DispatchState.queueEligible, Bool.and_eq_true,
              decide_eq_true_eq, Bool.not_eq_true'] at hfill
            obtain ⟨⟨⟨hpending, hcollected⟩, hassigned, hblocked⟩, hchosen⟩ := hfill
            simp [hpending, hcollected, hassigned, hblocked, hchosen, ih]
        | false =>
            rw [if_neg hslots, if_pos ?_, ih]
            · simp
            · simp only [DispatchState.fillable, DispatchState.queueEligible] at hfill
              by_cases hpending : task.status = .pending <;>
                by_cases hcollected : task.id ∈ state.collectedIds <;>
                  by_cases hassigned : task.id ∈ state.assignedTaskIds <;>
                    by_cases hchosen : task.id ∈ alreadyChosen <;> simp_all

theorem planContinuous_toSpawn :
    (planContinuous state).toSpawn = ((state.remainingQueue.filter state.queueEligible)
      ++ state.tasks.filter fun task => state.fillable task
        && decide (task.id ∉ (state.remainingQueue.filter state.queueEligible).map Task.id)).take
          state.slotsAvailable := by
  have hdrained := @drainQueue_fst state state.slotsAvailable state.remainingQueue
  simp only [planContinuous, hdrained, fillSlots_eq]
  rw [List.take_append]
  congr 1
  rcases Nat.lt_or_ge (state.remainingQueue.filter state.queueEligible).length state.slotsAvailable with
    hless | hfull
  · rw [List.take_of_length_le hless.le]
    simp
  · have hnone : state.slotsAvailable - (state.remainingQueue.filter state.queueEligible).length = 0 :=
      Nat.sub_eq_zero_of_le hfull
    rw [List.length_take, Nat.min_eq_left hfull, hnone, Nat.sub_self, List.take_zero, List.take_zero]

theorem popEligibleFromQueue_eq (assigned : Finset String) (queue : List Task) :
    popEligibleFromQueue assigned queue = ((queue.filter fun task => task.id ∉ assigned).head?,
      (popEligibleFromQueue assigned queue).2)
      ∧ ((popEligibleFromQueue assigned queue).2.filter fun task => task.id ∉ assigned)
        = (queue.filter fun task => task.id ∉ assigned).tail := by
  induction queue with
  | nil => simp [popEligibleFromQueue]
  | cons candidate rest ih =>
      by_cases hassigned : candidate.id ∈ assigned
      · simpa [popEligibleFromQueue, hassigned] using ih
      · simp [popEligibleFromQueue, hassigned]

theorem planLegacyFifo_toSpawn (assigned : Finset String) (completedTaskIds : List String)
    (queue : List Task) :
    (planLegacyFifo assigned completedTaskIds queue).toSpawn
      = (queue.filter fun task => task.id ∉ assigned).take completedTaskIds.length := by
  induction completedTaskIds generalizing queue with
  | nil => simp [planLegacyFifo]
  | cons completedId rest ih =>
      obtain ⟨hpop, htail⟩ := popEligibleFromQueue_eq assigned queue
      rw [planLegacyFifo, hpop]
      cases hfilter : queue.filter fun task => task.id ∉ assigned with
      | nil => simp
      | cons next later =>
          rw [hfilter, List.tail_cons] at htail
          simp only [List.head?_cons, ih, htail, List.length_cons, List.take_succ_cons]

/-! ### The shadow -/

theorem lt_succ (left : Nat) : JsNumber.lt 0 (.finite ((left + 1 : Nat) : ℚ)) = true := by
  simp only [JsNumber.lt, decide_eq_true_eq]
  exact_mod_cast Nat.succ_pos left

theorem pred_succ (left : Nat) : JsNumber.pred (.finite ((left + 1 : Nat) : ℚ)) = .finite (left : ℚ) := by
  simp [JsNumber.pred]

theorem takeSlots_natCast {α : Type*} (slots : Nat) (list : List α) :
    takeSlots (.finite (slots : ℚ)) list = list.take slots := by
  induction list generalizing slots with
  | nil => simp [takeSlots]
  | cons x rest ih =>
      cases slots with
      | zero => simp [takeSlots, JsNumber.lt]
      | succ left =>
          rw [takeSlots, if_pos (lt_succ left), pred_succ, ih, List.take_succ_cons]

theorem firstById_eq_self {seen : Finset String} {list : List SchedulerTaskSnapshot}
    (hnodup : (list.map SchedulerTaskSnapshot.id).Nodup) (hseen : ∀ task ∈ list, task.id ∉ seen) :
    firstById seen list = list := by
  induction list generalizing seen with
  | nil => rfl
  | cons task rest ih =>
      obtain ⟨hfresh, hnodup⟩ := List.nodup_cons.mp hnodup
      rw [firstById, if_neg (hseen task List.mem_cons_self), ih hnodup]
      intro other hother
      rw [Finset.mem_insert, not_or]
      exact ⟨fun heq => hfresh (heq ▸ List.mem_map_of_mem hother),
        hseen other (List.mem_cons_of_mem _ hother)⟩

open scoped Classical

section Shadow

variable {snapshot : SchedulerSnapshot}
  (hshadow : snapshot
    = captureShadowSchedulerSnapshot localeCompare nowMs collisionBlockedIds state strategy)

include hshadow

theorem not_isNoMint {id : String} : ¬ IsNoMint snapshot id := by
  subst hshadow
  rintro ⟨_, hmem, -, hsettled⟩
  obtain ⟨task, -, rfl⟩ := List.mem_map.mp hmem
  have hnone : truthy (toSchedulerTaskSnapshot task).repairSettlementReasonCode = none := rfl
  rw [noMintSettlement, hnone] at hsettled
  cases htruthy : truthy (toSchedulerTaskSnapshot task).fixForTaskId <;> simp [htruthy] at hsettled

variable (h : EquivalentClass localeCompare nowMs collisionBlockedIds state)

include h

theorem not_skipped {id : String} : id ∉ (cascadeOf snapshot).reached := by
  intro hid
  have hseed {id : String} : ¬ CascadeSeed snapshot id := by
    rintro (hfailed | ⟨_, -, hsettled, -⟩)
    · rw [hshadow] at hfailed
      exact Finset.notMem_empty id (h.noFailures ▸ hfailed)
    · exact not_isNoMint hshadow hsettled
  have hreaches := reaches_of_mem_cascade hid
  clear hid
  induction hreaches with
  | edge _ _ _ hfailed => exact hseed hfailed
  | step _ _ _ _ ih => exact ih

theorem classifyBlock_isSome (htask : task ∈ state.tasks) :
    (classifyBlock (toSchedulerTaskSnapshot task) snapshot).isSome = state.depsBlocked task := by
  have hcollision : (toSchedulerTaskSnapshot task).id ∉ snapshot.collisionBlockedIds := by
    rw [hshadow]
    exact h.noCollisions task htask
  have hretry : (toSchedulerTaskSnapshot task).id ∈ snapshot.effectiveDependencyState.retryEligibleIds := by
    rw [hshadow]
    exact h.noBackoffs task htask
  have hdone : snapshot.effectiveDependencyState.satisfyingIds = state.doneIds := by
    rw [hshadow]
    exact h.sameDone
  have hpipeline : snapshot.dependencyPipelineEnabled = state.dependencyPipelineEnabled := by
    rw [hshadow]
    rfl
  have hblank := h.noBlank task htask
  rw [classifyBlock, if_neg hcollision, if_neg (not_not.mpr hretry), hdone, hpipeline,
    DispatchState.depsBlocked]
  have hdependencies : (toSchedulerTaskSnapshot task).dependencies = task.dependencies.getD [] := rfl
  rw [hdependencies]
  generalize task.dependencies.getD [] = dependencies at hblank
  cases state.dependencyPipelineEnabled with
  | false => simp
  | true =>
      cases hfind : dependencies.find? fun d => decide (d ∉ state.doneIds) with
      | none =>
          have hall : (dependencies.all fun d => decide (d ∈ state.doneIds)) = true := by
            rw [List.all_eq_true]
            intro d hd
            simpa using List.find?_eq_none.mp hfind d hd
          rw [hall]
          by_cases hnil : dependencies = [] <;> simp [hnil, truthy]
      | some d =>
          have hmem := List.mem_of_find?_eq_some hfind
          have hsome : truthy (some d) = some d :=
            truthy_eq_some_iff.mpr ⟨rfl, fun hempty => hblank (hempty ▸ hmem)⟩
          have hall : (dependencies.all fun d => decide (d ∈ state.doneIds)) = false := by
            rw [List.all_eq_false]
            exact ⟨d, hmem, by simpa using List.find?_some hfind⟩
          rw [hall, hsome, if_pos ⟨rfl, List.ne_nil_of_mem hmem⟩]
          rfl

theorem dropped_iff : Dropped snapshot (· ∈ (cascadeOf snapshot).reached) (toSchedulerTaskSnapshot task)
    ↔ task.id ∈ state.assignedTaskIds := by
  have hassigned : snapshot.assignedTaskIds = state.assignedTaskIds := by
    rw [hshadow]
    rfl
  rw [Dropped, hassigned, or_iff_left]
  · rfl
  · rintro (hskipped | hsettled)
    · exact not_skipped hshadow h hskipped
    · exact not_isNoMint hshadow hsettled

theorem spawnable_iff (htask : task ∈ state.tasks) :
    Spawnable snapshot (· ∈ (cascadeOf snapshot).reached) (toSchedulerTaskSnapshot task)
      ↔ state.queueEligible task = true := by
  rw [Spawnable, dropped_iff hshadow h, ← Option.not_isSome_iff_eq_none,
    classifyBlock_isSome hshadow h htask, DispatchState.queueEligible]
  simp

theorem queueCandidates_eq : queueCandidates snapshot (· ∈ (cascadeOf snapshot).reached)
    = (state.remainingQueue.filter state.queueEligible).map toSchedulerTaskSnapshot := by
  have hqueue : snapshot.orderedQueue = state.remainingQueue.map toSchedulerTaskSnapshot := by
    rw [hshadow]
    rfl
  rw [queueCandidates, hqueue, List.filter_map]
  congr 1
  refine List.filter_congr fun task htask => ?_
  rw [Function.comp_apply, Bool.eq_iff_iff, decide_eq_true_eq]
  exact spawnable_iff hshadow h (h.queued task htask)

theorem fillCandidates_eq : fillCandidates snapshot (· ∈ (cascadeOf snapshot).reached)
    = (state.tasks.filter fun task => state.fillable task
      && decide (task.id ∉ (state.remainingQueue.filter state.queueEligible).map Task.id)).map
        toSchedulerTaskSnapshot := by
  have hqueue : snapshot.orderedQueue.map SchedulerTaskSnapshot.id
      = state.remainingQueue.map Task.id := by
    rw [hshadow]
    exact List.map_map
  have htasks : snapshot.tasks = state.tasks.map toSchedulerTaskSnapshot := by
    rw [hshadow]
    rfl
  have hcollected : snapshot.collectedIds = state.collectedIds := by
    rw [hshadow]
    rfl
  have hids : (snapshot.tasks.map SchedulerTaskSnapshot.id).Nodup := by
    rw [htasks, List.map_map]
    exact h.distinct
  rw [fillCandidates, firstById_eq_self (hids.sublist (List.filter_sublist.map _))
    (fun _ _ => Finset.notMem_empty _), htasks, List.filter_map, hqueue]
  congr 1
  refine List.filter_congr fun task htask => ?_
  rw [Function.comp_apply, Bool.eq_iff_iff, decide_eq_true_eq, Fillable, spawnable_iff hshadow h htask,
    hcollected]
  simp only [DispatchState.fillable, Bool.and_eq_true, decide_eq_true_eq, and_assoc]
  refine and_congr_right fun _ => and_congr_right fun _ => and_congr_right fun heligible => ?_
  -- An entry of the queue is the task itself, so it is eligible there when it is here.
  refine not_congr ⟨fun hmem => ?_, fun hmem => ?_⟩
  · obtain ⟨entry, hentry, hid⟩ := List.mem_map.mp hmem
    obtain rfl := List.inj_on_of_nodup_map h.distinct (h.queued entry hentry) htask hid
    exact List.mem_map_of_mem (List.mem_filter.mpr ⟨hentry, heligible⟩)
  · exact (List.filter_sublist.map Task.id).subset hmem

theorem keptQueue_eq (slots : Nat) {queue : List Task} (hqueue : ∀ task ∈ queue, task ∈ state.tasks) :
    keptQueue snapshot (· ∈ (cascadeOf snapshot).reached) (.finite (slots : ℚ))
        (queue.map toSchedulerTaskSnapshot)
      = (drainQueue state slots queue).2.map toSchedulerTaskSnapshot := by
  induction queue generalizing slots with
  | nil => rfl
  | cons candidate rest ih =>
      obtain ⟨hcandidate, hrest⟩ := List.forall_mem_cons.mp hqueue
      rw [List.map_cons, keptQueue, drainQueue, classifyBlock_isSome hshadow h hcandidate]
      simp only [dropped_iff hshadow h]
      cases slots with
      | zero => simp [JsNumber.lt]
      | succ left =>
          rw [if_pos (lt_succ left), if_neg (Nat.succ_ne_zero left)]
          by_cases hassigned : candidate.id ∈ state.assignedTaskIds
          · rw [if_pos hassigned, if_pos hassigned, ih (left + 1) hrest]
          · rw [if_neg hassigned, if_neg hassigned]
            cases state.depsBlocked candidate with
            | true => simp only [if_true, List.map_cons, ih (left + 1) hrest]
            | false =>
                rw [pred_succ, ih left hrest]
                rfl

end Shadow

/-- One task is done, the next waits for it in the queue, a third waits for a task that is not done. -/
def mixedState : DispatchState :=
  { tasks := [{ id := "t1", status := .done }, { id := "t2", dependencies := some ["t1"] },
      { id := "t4", dependencies := some ["t5"] }, { id := "t5" }]
    dependencyPipelineEnabled := true
    maxWorkers := 10
    remainingQueue := [{ id := "t4", dependencies := some ["t5"] }, { id := "t2", dependencies := some ["t1"] }] }

def plainCollation : LocaleCompare := ⟨compareCodePoint, signed_compareCodePoint⟩

end Deckent.ResultCollector
