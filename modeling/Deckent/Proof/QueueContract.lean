import Mathlib.Data.ENat.Basic
import Deckent.Proof.CascadeContract

/-!
# What happens to the queue

Under the continuous strategy the next queue is the old one without the entries that the drain removed.
The drain stops when the slots are spent, so an entry it does not reach stays, whatever its id has come
to; a fraction of a slot still spawns one task; and the fill leaves a task alone while an entry of its
id is queued.
-/

namespace Deckent.SchedulerReducer

open scoped Classical

variable {snapshot : SchedulerSnapshot}

/-- A continuous tick that may spawn, over a queue with distinct ids. -/
structure ContinuousTick (snapshot : SchedulerSnapshot) : Prop where
  distinct : (snapshot.orderedQueue.map SchedulerTaskSnapshot.id).Nodup
  noStop : snapshot.costStop = false
  continuous : snapshot.strategy = .continuous

def TakenOut (snapshot : SchedulerSnapshot) (id : String) : Prop :=
  id ∈ snapshot.assignedTaskIds
    ∨ (id, none) ∈ skipsOf (reduceSchedulerTick snapshot).orderedEffects
    ∨ id ∈ settlementsOf (reduceSchedulerTick snapshot).orderedEffects

def Waiting (snapshot : SchedulerSnapshot) (task : SchedulerTaskSnapshot) : Prop :=
  task.status = .pending ∧ ¬ TakenOut snapshot task.id ∧ task.id ∉ snapshot.collectedIds
    ∧ classifyBlock task snapshot = none

def slotCeiling : JsNumber → ℕ∞
  | .finite value => (⌈max 0 value⌉.toNat : ℕ∞)
  | .posInf => ⊤
  | _ => 0

/-- What a continuous tick does to its queue and its slots. -/
structure QueueAccounting (snapshot : SchedulerSnapshot) : Prop where
  subsequence : (reduceSchedulerTick snapshot).nextQueue.Sublist snapshot.orderedQueue
  removedOnly : ∀ entry ∈ snapshot.orderedQueue, entry ∉ (reduceSchedulerTick snapshot).nextQueue →
    entry.id ∈ spawnsOf (reduceSchedulerTick snapshot).orderedEffects ∨ TakenOut snapshot entry.id
  spawnedRemoved : ∀ entry ∈ snapshot.orderedQueue,
    entry.id ∈ spawnsOf (reduceSchedulerTick snapshot).orderedEffects →
      entry ∉ (reduceSchedulerTick snapshot).nextQueue
  takenOutRemoved : ∀ before entry after, snapshot.orderedQueue = before ++ entry :: after →
    TakenOut snapshot entry.id →
      (entry ∉ (reduceSchedulerTick snapshot).nextQueue
        ↔ JsNumber.lt (.finite (before.filter fun earlier =>
            earlier.id ∈ spawnsOf (reduceSchedulerTick snapshot).orderedEffects).length)
          snapshot.slotBudget = true)
  bound : ((spawnsOf (reduceSchedulerTick snapshot).orderedEffects).length : ℕ∞)
    ≤ slotCeiling snapshot.slotBudget
  once : (spawnsOf (reduceSchedulerTick snapshot).orderedEffects).Nodup
  workConserving :
    JsNumber.lt (.finite (spawnsOf (reduceSchedulerTick snapshot).orderedEffects).length)
        snapshot.slotBudget = true →
      ∀ task ∈ snapshot.tasks, Waiting snapshot task →
        task.id ∈ spawnsOf (reduceSchedulerTick snapshot).orderedEffects
          ∨ ∃ entry ∈ (reduceSchedulerTick snapshot).nextQueue, entry.id = task.id

theorem dropped_iff_takenOut {task : SchedulerTaskSnapshot} :
    Dropped snapshot (· ∈ (cascadeOf snapshot).reached) task ↔ TakenOut snapshot task.id := by
  rw [Dropped, TakenOut, mem_skipsOf_iff, (reduceSchedulerTick_spec snapshot).settlements]

section Tick

variable (htick : ContinuousTick snapshot)

include htick

theorem spawns_eq : spawnsOf (reduceSchedulerTick snapshot).orderedEffects
    = (takeSlots snapshot.slotBudget
      (queueCandidates snapshot (· ∈ (cascadeOf snapshot).reached)
        ++ fillCandidates snapshot (· ∈ (cascadeOf snapshot).reached))).map
          SchedulerTaskSnapshot.id := by
  rw [(reduceSchedulerTick_spec snapshot).spawns, comingUp, htick.noStop, htick.continuous]
  rfl

theorem nextQueue_eq : (reduceSchedulerTick snapshot).nextQueue
    = keptQueue snapshot (· ∈ (cascadeOf snapshot).reached) snapshot.slotBudget
      snapshot.orderedQueue :=
  (reduceSchedulerTick_spec snapshot).nextQueue htick.noStop htick.continuous

theorem entry_fresh {before after : List SchedulerTaskSnapshot} {entry : SchedulerTaskSnapshot}
    (hqueue : snapshot.orderedQueue = before ++ entry :: after) :
    entry ∉ before ∧ entry ∉ after := by
  have hnodup := (List.Nodup.of_map _ htick.distinct)
  rw [hqueue, List.nodup_append, List.nodup_cons] at hnodup
  obtain ⟨-, ⟨hafter, -⟩, hapart⟩ := hnodup
  exact ⟨fun h => hapart entry h entry List.mem_cons_self rfl, hafter⟩

theorem spawned_iff_served {entry : SchedulerTaskSnapshot} (hentry : entry ∈ snapshot.orderedQueue) :
    entry.id ∈ spawnsOf (reduceSchedulerTick snapshot).orderedEffects
      ↔ entry ∈ takeSlots snapshot.slotBudget
        (queueCandidates snapshot (· ∈ (cascadeOf snapshot).reached)) := by
  rw [spawns_eq htick, takeSlots_append, List.map_append, List.mem_append]
  constructor
  · rintro (hqueued | hfilled)
    · obtain ⟨other, hother, hid⟩ := List.mem_map.mp hqueued
      have hmem := (mem_queueCandidates.mp ((takeSlots_isPrefix _ _).subset hother)).1
      rwa [← List.inj_on_of_nodup_map htick.distinct hmem hentry hid]
    · obtain ⟨other, hother, hid⟩ := List.mem_map.mp hfilled
      have hfill : other ∈ fillCandidates snapshot (· ∈ (cascadeOf snapshot).reached) := by
        split at hother
        · exact (takeSlots_isPrefix _ _).subset hother
        · exact absurd hother List.not_mem_nil
      exact absurd (hid ▸ List.mem_map_of_mem hentry) (mem_fillCandidates hfill).2
  · exact fun hserved => Or.inl (List.mem_map_of_mem hserved)

theorem served_iff {before after : List SchedulerTaskSnapshot} {entry : SchedulerTaskSnapshot}
    (hqueue : snapshot.orderedQueue = before ++ entry :: after) :
    entry ∈ takeSlots snapshot.slotBudget
        (queueCandidates snapshot (· ∈ (cascadeOf snapshot).reached))
      ↔ Spawnable snapshot (· ∈ (cascadeOf snapshot).reached) entry
        ∧ JsNumber.lt 0 (slotsAfter snapshot (· ∈ (cascadeOf snapshot).reached) snapshot.slotBudget
          before) = true := by
  obtain ⟨hbefore, hafter⟩ := entry_fresh htick hqueue
  have hout : ∀ slots, entry ∉ takeSlots slots
      (before.filter fun task => Spawnable snapshot (· ∈ (cascadeOf snapshot).reached) task) :=
    fun slots h => hbefore (List.mem_of_mem_filter ((takeSlots_isPrefix _ _).subset h))
  rw [queueCandidates, hqueue, List.filter_append, takeSlots_append, List.mem_append,
    or_iff_right (hout _)]
  change entry ∈ (if JsNumber.lt 0 (slotsAfter snapshot (· ∈ (cascadeOf snapshot).reached)
    snapshot.slotBudget before) then _ else _) ↔ _
  cases hleft : JsNumber.lt 0 (slotsAfter snapshot (· ∈ (cascadeOf snapshot).reached)
      snapshot.slotBudget before) with
  | false => simp
  | true =>
      rw [if_pos rfl, and_iff_left rfl]
      by_cases hspawnable : Spawnable snapshot (· ∈ (cascadeOf snapshot).reached) entry
      · rw [List.filter_cons_of_pos (by simpa using hspawnable), takeSlots]
        refine iff_of_true ?_ hspawnable
        have hslots := hleft
        unfold slotsAfter at hslots
        rw [if_pos hslots]
        exact List.mem_cons_self
      · rw [List.filter_cons_of_neg (by simpa using hspawnable)]
        refine iff_of_false (fun h => ?_) hspawnable
        exact hafter (List.mem_of_mem_filter ((takeSlots_isPrefix _ _).subset h))

theorem lt_slotsAfter_iff {before after : List SchedulerTaskSnapshot} {entry : SchedulerTaskSnapshot}
    (hqueue : snapshot.orderedQueue = before ++ entry :: after) :
    JsNumber.lt 0 (slotsAfter snapshot (· ∈ (cascadeOf snapshot).reached) snapshot.slotBudget before)
      = JsNumber.lt (.finite (before.filter fun earlier =>
          earlier.id ∈ spawnsOf (reduceSchedulerTick snapshot).orderedEffects).length)
        snapshot.slotBudget := by
  have hnodup : before.Nodup := by
    have hall := List.Nodup.of_map _ htick.distinct
    rw [hqueue] at hall
    exact (List.nodup_append.mp hall).1
  have hserved : ∀ earlier, earlier ∈ before.filter (fun earlier =>
        earlier.id ∈ spawnsOf (reduceSchedulerTick snapshot).orderedEffects)
      ↔ earlier ∈ takeSlots snapshot.slotBudget
        (before.filter fun task => Spawnable snapshot (· ∈ (cascadeOf snapshot).reached) task) := by
    intro earlier
    rw [List.mem_filter, decide_eq_true_eq]
    constructor
    · rintro ⟨hearlier, hspawned⟩
      obtain ⟨front, back, rfl⟩ := List.append_of_mem hearlier
      have hcut : snapshot.orderedQueue = front ++ earlier :: (back ++ entry :: after) := by
        rw [hqueue, List.append_assoc, List.cons_append]
      have hmem : earlier ∈ snapshot.orderedQueue := hcut ▸ by simp
      obtain ⟨hspawnable, hleft⟩ := (served_iff htick hcut).mp
        ((spawned_iff_served htick hmem).mp hspawned)
      unfold slotsAfter at hleft
      rw [List.filter_append, takeSlots_append, if_pos hleft,
        List.filter_cons_of_pos (by simpa using hspawnable), takeSlots, if_pos hleft]
      exact List.mem_append_right _ List.mem_cons_self
    · intro h
      have hearlier := List.mem_of_mem_filter ((takeSlots_isPrefix _ _).subset h)
      refine ⟨hearlier, (spawned_iff_served htick (hqueue ▸ List.mem_append_left _ hearlier)).mpr ?_⟩
      rw [queueCandidates, hqueue, List.filter_append, takeSlots_append]
      exact List.mem_append_left _ h
  have hperm := (List.perm_ext_iff_of_nodup (hnodup.filter _)
    ((hnodup.filter _).sublist (takeSlots_isPrefix snapshot.slotBudget _).sublist)).mpr hserved
  rw [hperm.length_eq, ← JsNumber.lt_iterate_pred]
  rfl

theorem mem_nextQueue_iff {before after : List SchedulerTaskSnapshot} {entry : SchedulerTaskSnapshot}
    (hqueue : snapshot.orderedQueue = before ++ entry :: after) :
    entry ∈ (reduceSchedulerTick snapshot).nextQueue
      ↔ JsNumber.lt 0 (slotsAfter snapshot (· ∈ (cascadeOf snapshot).reached) snapshot.slotBudget
          before) = false
        ∨ ¬ TakenOut snapshot entry.id ∧ (classifyBlock entry snapshot).isSome := by
  obtain ⟨hbefore, hafter⟩ := entry_fresh htick hqueue
  rw [nextQueue_eq htick, hqueue, mem_keptQueue_iff hbefore hafter, dropped_iff_takenOut]

theorem nodup_spawns : (spawnsOf (reduceSchedulerTick snapshot).orderedEffects).Nodup := by
  rw [spawns_eq htick]
  refine List.Nodup.sublist ((takeSlots_isPrefix _ _).sublist.map _) ?_
  rw [List.map_append]
  refine List.Nodup.append ?_ (nodup_firstById _ _) ?_
  · exact htick.distinct.sublist (List.filter_sublist.map _)
  · intro id hqueued hfilled
    obtain ⟨entry, hentry, rfl⟩ := List.mem_map.mp hqueued
    obtain ⟨task, htask, hid⟩ := List.mem_map.mp hfilled
    exact (mem_fillCandidates htask).2
      (hid ▸ List.mem_map_of_mem (mem_queueCandidates.mp hentry).1)

end Tick

theorem length_takeSlots_le {α : Type*} (slots : JsNumber) (list : List α) :
    ((takeSlots slots list).length : ℕ∞) ≤ slotCeiling slots := by
  cases hlength : (takeSlots slots list).length with
  | zero => simp
  | succ count =>
      have hlast : JsNumber.lt (.finite count) slots = true :=
        lt_of_lt_length_takeSlots list (by omega)
      cases slots with
      | finite value =>
          have hvalue : (count : ℚ) < value := by simpa [JsNumber.lt] using hlast
          have hceil : (count : ℤ) < ⌈max 0 value⌉ := by
            rw [Int.lt_ceil]
            exact lt_of_lt_of_le (by exact_mod_cast hvalue) (le_max_right 0 value)
          have hnat : count + 1 ≤ ⌈max 0 value⌉.toNat := by omega
          exact Nat.cast_le.mpr hnat
      | posInf => exact le_top
      | negInf => exact absurd hlast (by simp [JsNumber.lt])
      | nan => exact absurd hlast (by simp [JsNumber.lt])

/-- A continuous tick accounts for every entry of its queue and every slot. -/
theorem queueAccounting (htick : ContinuousTick snapshot) : QueueAccounting snapshot := by
  refine ⟨?_, ?_, ?_, ?_, ?_, nodup_spawns htick, ?_⟩
  · rw [nextQueue_eq htick]
    exact keptQueue_sublist _ _
  · intro entry hentry hremoved
    obtain ⟨before, after, hqueue⟩ := List.append_of_mem hentry
    rw [mem_nextQueue_iff htick hqueue, not_or, Bool.not_eq_false] at hremoved
    by_cases htaken : TakenOut snapshot entry.id
    · exact Or.inr htaken
    · have hblock : classifyBlock entry snapshot = none := by
        by_contra hsome
        exact hremoved.2 ⟨htaken, Option.isSome_iff_ne_none.mpr hsome⟩
      refine Or.inl ((spawned_iff_served htick hentry).mpr ((served_iff htick hqueue).mpr ?_))
      exact ⟨⟨fun hdropped => htaken (dropped_iff_takenOut.mp hdropped), hblock⟩, hremoved.1⟩
  · intro entry hentry hspawned
    obtain ⟨before, after, hqueue⟩ := List.append_of_mem hentry
    obtain ⟨⟨-, hblock⟩, hleft⟩ :=
      (served_iff htick hqueue).mp ((spawned_iff_served htick hentry).mp hspawned)
    rw [mem_nextQueue_iff htick hqueue, hleft, hblock]
    simp
  · intro before entry after hqueue htaken
    rw [mem_nextQueue_iff htick hqueue, ← lt_slotsAfter_iff htick hqueue]
    simp [htaken]
  · rw [spawns_eq htick, List.length_map]
    exact length_takeSlots_le _ _
  · rintro hleft task htask ⟨hpending, htaken, hcollected, hblock⟩
    rw [spawns_eq htick, List.length_map, ← JsNumber.lt_iterate_pred] at hleft
    have hall := takeSlots_eq_self hleft
    have hspawns := spawns_eq htick
    rw [hall] at hspawns hleft
    have hdropped : ¬ Dropped snapshot (· ∈ (cascadeOf snapshot).reached) task :=
      fun h => htaken (dropped_iff_takenOut.mp h)
    by_cases hqueued : task.id ∈ snapshot.orderedQueue.map SchedulerTaskSnapshot.id
    · obtain ⟨entry, hentry, hid⟩ := List.mem_map.mp hqueued
      have hentryDropped : ¬ Dropped snapshot (· ∈ (cascadeOf snapshot).reached) entry := by
        rw [dropped_iff_takenOut, hid]
        exact htaken
      cases hentryBlock : classifyBlock entry snapshot with
      | none =>
          refine Or.inl (hspawns ▸ hid ▸ List.mem_map_of_mem (List.mem_append_left _ ?_))
          exact mem_queueCandidates.mpr ⟨hentry, hentryDropped, hentryBlock⟩
      | some block =>
          refine Or.inr ⟨entry, ?_, hid⟩
          rw [nextQueue_eq htick]
          refine mem_keptQueue_of_left ?_ hentry hentryDropped (by rw [hentryBlock]; rfl)
          rw [JsNumber.lt_iterate_pred, List.length_append] at hleft
          have hqueueLeft := JsNumber.lt_of_natCast_le (Nat.le_add_right _ _) hleft
          unfold queueCandidates at hqueueLeft
          rw [slotsAfter, JsNumber.lt_iterate_pred, takeSlots_of_lt hqueueLeft]
          exact hqueueLeft
    · have hfill : task ∈ snapshot.tasks.filter fun task =>
          Fillable snapshot (· ∈ (cascadeOf snapshot).reached) task
            ∧ task.id ∉ snapshot.orderedQueue.map SchedulerTaskSnapshot.id := by
        rw [List.mem_filter, decide_eq_true_eq]
        exact ⟨htask, ⟨hpending, hcollected, hdropped, hblock⟩, hqueued⟩
      obtain ⟨first, hfirst, hid⟩ := exists_mem_firstById hfill (Finset.notMem_empty _)
      refine Or.inl (hspawns ▸ hid ▸ List.mem_map_of_mem (List.mem_append_right _ ?_))
      exact hfirst

/-! ### What the slots do not allow -/

def RemovedExactly (snapshot : SchedulerSnapshot) : Prop :=
  ∀ entry ∈ snapshot.orderedQueue, entry ∉ (reduceSchedulerTick snapshot).nextQueue
    ↔ entry.id ∈ spawnsOf (reduceSchedulerTick snapshot).orderedEffects ∨ TakenOut snapshot entry.id

def WithinBudget (snapshot : SchedulerSnapshot) : Prop :=
  ∀ value, snapshot.slotBudget = .finite value →
    ((spawnsOf (reduceSchedulerTick snapshot).orderedEffects).length : ℚ) ≤ max 0 value

def WorkConserving (snapshot : SchedulerSnapshot) : Prop :=
  JsNumber.lt (.finite (spawnsOf (reduceSchedulerTick snapshot).orderedEffects).length)
      snapshot.slotBudget = true →
    ∀ task ∈ snapshot.tasks, Waiting snapshot task →
      task.id ∈ spawnsOf (reduceSchedulerTick snapshot).orderedEffects

/-- No slot is free and the queued task is already assigned. -/
def starvedQueue : SchedulerSnapshot :=
  { strategy := .continuous
    slotBudget := 0
    orderedQueue := [{ id := "build", status := .pending }]
    tasks := [{ id := "build", status := .pending }]
    assignedTaskIds := {"build"}
    dependencyPipelineEnabled := true
    effectiveDependencyState :=
      { satisfyingIds := ∅, terminalFailureIds := ∅, retryEligibleIds := {"build"} } }

def halfSlot : SchedulerSnapshot :=
  { starvedQueue with slotBudget := .finite (1 / 2), assignedTaskIds := ∅ }

/-- The queue holds an older entry of `build` that still waits for `setup`. -/
def olderEntry : SchedulerSnapshot :=
  { starvedQueue with
    slotBudget := 1
    orderedQueue := [{ id := "build", status := .pending, dependencies := ["setup"] }]
    assignedTaskIds := ∅ }

/-- The assigned entry is not reached, half a slot spawns a task, and the fill passes over a task whose
older entry is queued. -/
theorem not_queueContract :
    (ContinuousTick starvedQueue ∧ ¬ RemovedExactly starvedQueue)
      ∧ (ContinuousTick halfSlot ∧ ¬ WithinBudget halfSlot)
      ∧ (ContinuousTick olderEntry ∧ ¬ WorkConserving olderEntry) := by
  refine ⟨⟨⟨by decide, rfl, rfl⟩, fun h => ?_⟩, ⟨⟨by decide, rfl, rfl⟩, fun h => ?_⟩,
    ⟨⟨by decide, rfl, rfl⟩, fun h => ?_⟩⟩
  · have hqueue : (reduceSchedulerTick starvedQueue).nextQueue
        = [{ id := "build", status := .pending }] := by decide +kernel
    have hassigned : "build" ∈ starvedQueue.assignedTaskIds := by decide
    refine (h { id := "build", status := .pending } List.mem_cons_self).mpr
      (Or.inr (Or.inl hassigned)) ?_
    rw [hqueue]
    exact List.mem_cons_self
  · have hspawned : spawnsOf (reduceSchedulerTick halfSlot).orderedEffects = ["build"] := by
      decide +kernel
    have hbound := h (1 / 2) rfl
    rw [hspawned] at hbound
    norm_num at hbound
  · have hspawned : spawnsOf (reduceSchedulerTick olderEntry).orderedEffects = [] := by
      decide +kernel
    have hskipped : skipsOf (reduceSchedulerTick olderEntry).orderedEffects = [] := by
      decide +kernel
    have hsettled : settlementsOf (reduceSchedulerTick olderEntry).orderedEffects = [] := by
      decide +kernel
    have hslot : JsNumber.lt (.finite (0 : Nat)) olderEntry.slotBudget = true := by decide +kernel
    have hwaiting : Waiting olderEntry { id := "build", status := .pending } := by
      refine ⟨rfl, ?_, by decide, by decide⟩
      rw [TakenOut, hskipped, hsettled]
      decide
    have hmissing := h (by rw [hspawned]; exact hslot) _ List.mem_cons_self hwaiting
    rw [hspawned] at hmissing
    exact List.not_mem_nil hmissing

theorem queueAccounting_starvedQueue : QueueAccounting starvedQueue :=
  queueAccounting ⟨by decide, rfl, rfl⟩

end Deckent.SchedulerReducer
