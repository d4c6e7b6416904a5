import Deckent.Proof.DispatchStrategy

/-!
# What one tick emits

The effects of a tick, read by kind: the settlements come from the no-mint pass alone, the skips from
the cascade and from the closing of paused branches, the spawns from the strategy alone.
-/

namespace Deckent.SchedulerReducer

open scoped Classical

variable {snapshot : SchedulerSnapshot}

/-! ### The passes before the dispatch -/

theorem noMintPass_effects (snapshot : SchedulerSnapshot) :
    spawnsOf (noMintPass snapshot).tick.orderedEffects = []
      ∧ skipsOf (noMintPass snapshot).tick.orderedEffects = []
      ∧ ∀ id, id ∈ settlementsOf (noMintPass snapshot).tick.orderedEffects
        ↔ id ∈ (noMintPass snapshot).noMintIds := by
  refine List.foldlRecOn (motive := fun scan : NoMintScan =>
      spawnsOf scan.tick.orderedEffects = [] ∧ skipsOf scan.tick.orderedEffects = []
        ∧ ∀ id, id ∈ settlementsOf scan.tick.orderedEffects ↔ id ∈ scan.noMintIds)
    snapshot.tasks _ ⟨rfl, rfl, by simp [settlementsOf]⟩ ?_
  rintro scan ⟨hspawns, hskips, hsettled⟩ task -
  unfold settleNoMint
  split
  · exact ⟨hspawns, hskips, hsettled⟩
  · next failedTaskId reasonCode _ =>
      have hsingle : settlementsOf [.noMintRepair task.id failedTaskId reasonCode
          s!"no-mint:{task.id}:{reasonCode.text}"] = [task.id] := rfl
      simp only [Tick.emit, Tick.dispose, spawnsOf_append, skipsOf_append, settlementsOf_append, hspawns,
        hskips, hsingle]
      refine ⟨rfl, rfl, fun id => ?_⟩
      rw [List.mem_append, hsettled, List.mem_singleton, Finset.mem_insert]
      exact or_comm

theorem skip_effects (tick : Tick) (reason : Option SchedulerQuiescenceReason) (cascade : Cascade) :
    (tick.skip reason cascade).orderedEffects
      = tick.orderedEffects ++ cascade.fired.map (cascadeSkipEffect reason) := by
  unfold Tick.skip
  induction cascade.fired generalizing tick with
  | nil => simp
  | cons entry rest ih =>
      rw [List.foldl_cons, ih]
      simp [Tick.emit, Tick.dispose]

theorem skip_dispositions (tick : Tick) (reason : Option SchedulerQuiescenceReason) (cascade : Cascade)
    (id : String) : (tick.skip reason cascade).dispositions.get? id = some .noMint
      ↔ (∀ entry ∈ cascade.fired, entry.1.id ≠ id) ∧ tick.dispositions.get? id = some .noMint := by
  unfold Tick.skip
  induction cascade.fired generalizing tick with
  | nil => simp
  | cons entry rest ih =>
      rw [List.foldl_cons, ih, List.forall_mem_cons]
      simp only [Tick.dispose, Tick.emit, OrderedMap.get?_set]
      by_cases hhere : entry.1.id = id
      · simp [hhere]
      · rw [if_neg (Ne.symm hhere)]
        simp [hhere]

theorem spawnsOf_map_skip (reason : Option SchedulerQuiescenceReason)
    (fired : List (SchedulerTaskSnapshot × String)) :
    spawnsOf (fired.map (cascadeSkipEffect reason)) = [] := by
  rw [spawnsOf, List.filterMap_map, List.filterMap_eq_nil_iff]
  exact fun _ _ => rfl

theorem settlementsOf_map_skip (reason : Option SchedulerQuiescenceReason)
    (fired : List (SchedulerTaskSnapshot × String)) :
    settlementsOf (fired.map (cascadeSkipEffect reason)) = [] := by
  rw [settlementsOf, List.filterMap_map, List.filterMap_eq_nil_iff]
  exact fun _ _ => rfl

theorem skipsOf_map_skip (reason : Option SchedulerQuiescenceReason)
    (fired : List (SchedulerTaskSnapshot × String)) :
    skipsOf (fired.map (cascadeSkipEffect reason)) = fired.map fun entry => (entry.1.id, reason) := by
  rw [skipsOf, List.filterMap_map]
  exact congrFun (List.filterMap_eq_map (f := fun entry : SchedulerTaskSnapshot × String =>
    (entry.1.id, reason))) fired

def Silent (effects : List SchedulerEffect) : Prop :=
  spawnsOf effects = [] ∧ skipsOf effects = [] ∧ settlementsOf effects = []

theorem silent_clearBlocked (snapshot : SchedulerSnapshot) : Silent (clearBlockedEffects snapshot) := by
  unfold clearBlockedEffects
  split
  · refine ⟨?_, ?_, ?_⟩
    · rw [spawnsOf, List.filterMap_map, List.filterMap_eq_nil_iff]
      exact fun _ _ => rfl
    · rw [skipsOf, List.filterMap_map, List.filterMap_eq_nil_iff]
      exact fun _ _ => rfl
    · rw [settlementsOf, List.filterMap_map, List.filterMap_eq_nil_iff]
      exact fun _ _ => rfl
  · exact ⟨rfl, rfl, rfl⟩

theorem silent_metric (cascade : Cascade) : Silent (metricEffects cascade) := by
  unfold metricEffects
  split <;> exact ⟨rfl, rfl, rfl⟩

theorem silent_checkpoint (condition : Prop) [Decidable condition] (reason : String) :
    Silent (if condition then [.writeCheckpoint reason] else []) := by
  split <;> exact ⟨rfl, rfl, rfl⟩

def cascadedTick (snapshot : SchedulerSnapshot) : Tick :=
  (((noMintPass snapshot).tick.emit (clearBlockedEffects snapshot)).skip none (cascadeOf snapshot)).emit
    (metricEffects (cascadeOf snapshot))

def pendingSkips (snapshot : SchedulerSnapshot) : List (String × Option SchedulerQuiescenceReason) :=
  (cascadeOf snapshot).fired.map fun entry => (entry.1.id, none)

theorem cascadedTick_effects (snapshot : SchedulerSnapshot) :
    spawnsOf (cascadedTick snapshot).orderedEffects = []
      ∧ skipsOf (cascadedTick snapshot).orderedEffects = pendingSkips snapshot
      ∧ ∀ id, id ∈ settlementsOf (cascadedTick snapshot).orderedEffects ↔ IsNoMint snapshot id := by
  obtain ⟨hspawns, hskips, hsettled⟩ := noMintPass_effects snapshot
  obtain ⟨hclearSpawns, hclearSkips, hclearSettled⟩ := silent_clearBlocked snapshot
  obtain ⟨hmetricSpawns, hmetricSkips, hmetricSettled⟩ := silent_metric (cascadeOf snapshot)
  refine ⟨?_, ?_, fun id => ?_⟩
  · simp [cascadedTick, Tick.emit, skip_effects, spawnsOf_map_skip, hspawns, hclearSpawns, hmetricSpawns]
  · simp [cascadedTick, Tick.emit, skip_effects, skipsOf_map_skip, hskips, hclearSkips, hmetricSkips,
      pendingSkips]
  · simp [cascadedTick, Tick.emit, skip_effects, settlementsOf_map_skip, hsettled, hclearSettled,
      hmetricSettled, mem_noMintIds]

theorem sweepInvariant_cascadeOf (snapshot : SchedulerSnapshot) :
    SweepInvariant SchedulerTaskSnapshot.id
      (cascadeRule snapshot (noMintPass snapshot).noMintIds (failedBeforeCascade snapshot))
      snapshot.tasks ∅ (cascadeOf snapshot) := by
  by_cases hruns : CascadeRuns snapshot
  · rw [cascadeOf_eq_start hruns]
    exact sweepInvariant_saturate ∅ _
  · obtain ⟨hreached, hfired⟩ := cascadeOf_of_not_runs hruns
    exact ⟨by simp [hreached, hfired], by simp [hfired], by simp [hfired], by simp [hfired]⟩

theorem mem_pendingSkips {id : String} :
    (id, none) ∈ pendingSkips snapshot ↔ id ∈ (cascadeOf snapshot).reached := by
  rw [(sweepInvariant_cascadeOf snapshot).mem_reached]
  simp [pendingSkips]

theorem noMintMarked_cascadedTick (snapshot : SchedulerSnapshot) :
    NoMintMarked snapshot (cascadedTick snapshot) := by
  intro id
  have hbefore := (noMintPass_spec snapshot id).2
  simp only [cascadedTick, Tick.emit, skip_dispositions, hbefore, and_iff_right_iff_imp]
  rintro hsettled entry hentry rfl
  obtain ⟨-, earlier, -, hrule⟩ := (sweepInvariant_cascadeOf snapshot).caused entry hentry
  exact (eligible_of_cascadeRule hrule).notNoMint hsettled

/-! ### The whole tick -/

noncomputable def comingUp (snapshot : SchedulerSnapshot) (skipped : String → Prop) :
    List SchedulerTaskSnapshot :=
  if snapshot.costStop then []
  else match snapshot.strategy with
    | .continuous => takeSlots snapshot.slotBudget
        (queueCandidates snapshot skipped ++ fillCandidates snapshot skipped)
    | .legacyFifo => (queueCandidates snapshot skipped).take snapshot.completedTaskIds.length

noncomputable def pausedSkips (snapshot : SchedulerSnapshot) :
    List (String × Option SchedulerQuiescenceReason) :=
  if snapshot.costStop = false ∧ snapshot.strategy = .continuous
      ∧ snapshot.deferTerminalDependencyFailure.getD false = false
      ∧ comingUp snapshot (· ∈ (cascadeOf snapshot).reached) = [] ∧ hasLiveWork snapshot = false then
    (cascadePausedAtQuiescence snapshot (cascadeOf snapshot).reached).fired.map fun entry =>
      (entry.1.id, some .continuousDeadDependency)
  else []

structure TickSpec (snapshot : SchedulerSnapshot) (decision : SchedulerDecision) : Prop where
  spawns : spawnsOf decision.orderedEffects
    = (comingUp snapshot (· ∈ (cascadeOf snapshot).reached)).map SchedulerTaskSnapshot.id
  skips : skipsOf decision.orderedEffects = pendingSkips snapshot ++ pausedSkips snapshot
  settlements : ∀ id, id ∈ settlementsOf decision.orderedEffects ↔ IsNoMint snapshot id
  nextQueue : snapshot.costStop = false → snapshot.strategy = .continuous → decision.nextQueue
    = keptQueue snapshot (· ∈ (cascadeOf snapshot).reached) snapshot.slotBudget snapshot.orderedQueue

theorem any_isSpawn_iff (effects : List SchedulerEffect) :
    effects.any SchedulerEffect.isSpawn = true ↔ spawnsOf effects ≠ [] := by
  rw [spawnsOf, Ne, List.filterMap_eq_nil_iff, List.any_eq_true]
  simp only [not_forall, exists_prop]
  refine exists_congr fun effect => and_congr_right fun _ => ?_
  cases effect <;> simp [SchedulerEffect.isSpawn, SchedulerEffect.spawn?]

theorem quiescencePass_spec {after : Tick} {spawned : List SchedulerTaskSnapshot}
    (hstop : snapshot.costStop = false)
    (hdispatched : Dispatched snapshot (cascadedTick snapshot) after spawned)
    (hspawned : spawned = comingUp snapshot (· ∈ (cascadeOf snapshot).reached)) :
    spawnsOf (quiescencePass snapshot (cascadeOf snapshot) after).2.orderedEffects
        = (comingUp snapshot (· ∈ (cascadeOf snapshot).reached)).map SchedulerTaskSnapshot.id
      ∧ skipsOf (quiescencePass snapshot (cascadeOf snapshot) after).2.orderedEffects
        = pendingSkips snapshot ++ pausedSkips snapshot
      ∧ ∀ id, id ∈ settlementsOf (quiescencePass snapshot (cascadeOf snapshot) after).2.orderedEffects
        ↔ IsNoMint snapshot id := by
  obtain ⟨hspawns, hskips, hsettled⟩ := cascadedTick_effects snapshot
  have hafter : spawnsOf after.orderedEffects
      = (comingUp snapshot (· ∈ (cascadeOf snapshot).reached)).map SchedulerTaskSnapshot.id := by
    rw [hdispatched.spawns, hspawns, hspawned, List.nil_append]
  have hnone : after.orderedEffects.any SchedulerEffect.isSpawn = false
      ↔ comingUp snapshot (· ∈ (cascadeOf snapshot).reached) = [] := by
    rw [← Bool.not_eq_true, any_isSpawn_iff, not_not, hafter, List.map_eq_nil_iff]
  unfold quiescencePass
  simp only [Bool.not_eq_true', hnone]
  by_cases hquiet : snapshot.strategy = .continuous
      ∧ snapshot.deferTerminalDependencyFailure.getD false = false
      ∧ comingUp snapshot (· ∈ (cascadeOf snapshot).reached) = [] ∧ hasLiveWork snapshot = false
  · have hpaused : pausedSkips snapshot
        = (cascadePausedAtQuiescence snapshot (cascadeOf snapshot).reached).fired.map fun entry =>
          (entry.1.id, some .continuousDeadDependency) := by
      rw [pausedSkips, if_pos ⟨hstop, hquiet⟩]
    rw [if_pos hquiet, hpaused]
    simp only [skip_effects, spawnsOf_append, skipsOf_append, settlementsOf_append, spawnsOf_map_skip,
      skipsOf_map_skip, settlementsOf_map_skip, List.append_nil, hafter, hdispatched.skips, hskips,
      hdispatched.settlements, hsettled, implies_true, and_self]
  · have hpaused : pausedSkips snapshot = [] := by
      rw [pausedSkips, if_neg fun h => hquiet h.2]
    rw [if_neg hquiet, hpaused, List.append_nil, hdispatched.skips, hskips, hdispatched.settlements]
    exact ⟨hafter, rfl, hsettled⟩

theorem reduceSchedulerTick_spec (snapshot : SchedulerSnapshot) :
    TickSpec snapshot (reduceSchedulerTick snapshot) := by
  obtain ⟨hspawns, hskips, hsettled⟩ := cascadedTick_effects snapshot
  have hmarked := noMintMarked_cascadedTick snapshot
  cases hstop : snapshot.costStop with
  | true =>
      have hdecision : (reduceSchedulerTick snapshot).orderedEffects
          = (cascadedTick snapshot).orderedEffects
            ++ if (cascadeOf snapshot).reached ≠ ∅ then
              [.writeCheckpoint "cascade-skip-under-cost-stop"] else [] := by
        unfold reduceSchedulerTick
        rw [hstop]
        rfl
      obtain ⟨hlastSpawns, hlastSkips, hlastSettled⟩ :=
        silent_checkpoint ((cascadeOf snapshot).reached ≠ ∅) "cascade-skip-under-cost-stop"
      have hpaused : pausedSkips snapshot = [] := by
        rw [pausedSkips, if_neg (by simp [hstop])]
      refine ⟨?_, ?_, fun id => ?_, fun h => absurd h (by simp [hstop])⟩
      · rw [hdecision, spawnsOf_append, hlastSpawns, hspawns, comingUp, if_pos hstop]
        rfl
      · rw [hdecision, skipsOf_append, hlastSkips, hskips, hpaused]
      · rw [hdecision, settlementsOf_append, hlastSettled, List.append_nil, hsettled]
  | false =>
      have hdecision : ∀ reduced, (snapshot.strategy = .legacyFifo ∧ reduced
            = reduceLegacyFifo snapshot (cascadeOf snapshot).reached (cascadedTick snapshot)
          ∨ snapshot.strategy = .continuous ∧ reduced
            = reduceContinuous snapshot (cascadeOf snapshot).reached (cascadedTick snapshot)) →
          (reduceSchedulerTick snapshot).nextQueue = reduced.1
            ∧ ∃ last, Silent last ∧ (reduceSchedulerTick snapshot).orderedEffects
              = (quiescencePass snapshot (cascadeOf snapshot) reduced.2).2.orderedEffects ++ last := by
        rintro reduced (⟨hstrategy, rfl⟩ | ⟨hstrategy, rfl⟩)
        all_goals
          unfold reduceSchedulerTick
          rw [hstop, hstrategy]
          exact ⟨rfl, _, silent_checkpoint _ _, rfl⟩
      have hassemble : ∀ {reduced : List SchedulerTaskSnapshot × Tick} {spawned},
          (reduceSchedulerTick snapshot).nextQueue = reduced.1
            ∧ (∃ last, Silent last ∧ (reduceSchedulerTick snapshot).orderedEffects
              = (quiescencePass snapshot (cascadeOf snapshot) reduced.2).2.orderedEffects ++ last) →
          Dispatched snapshot (cascadedTick snapshot) reduced.2 spawned →
          spawned = comingUp snapshot (· ∈ (cascadeOf snapshot).reached) →
          (snapshot.strategy = .continuous → reduced.1 = keptQueue snapshot
            (· ∈ (cascadeOf snapshot).reached) snapshot.slotBudget snapshot.orderedQueue) →
          TickSpec snapshot (reduceSchedulerTick snapshot) := by
        rintro reduced spawned ⟨hqueue, last, ⟨hlastSpawns, hlastSkips, hlastSettled⟩, heffects⟩
          hdispatched hspawned hkept
        obtain ⟨hquietSpawns, hquietSkips, hquietSettled⟩ :=
          quiescencePass_spec hstop hdispatched hspawned
        refine ⟨?_, ?_, fun id => ?_, fun _ hstrategy => hqueue.trans (hkept hstrategy)⟩
        · rw [heffects, spawnsOf_append, hlastSpawns, List.append_nil, hquietSpawns]
        · rw [heffects, skipsOf_append, hlastSkips, List.append_nil, hquietSkips]
        · rw [heffects, settlementsOf_append, hlastSettled, List.append_nil, hquietSettled]
      cases hstrategy : snapshot.strategy with
      | continuous =>
          obtain ⟨hdispatched, hkept⟩ := reduceContinuous_spec
            (cascadeOf snapshot).reached hmarked
          refine hassemble (hdecision (reduceContinuous snapshot (cascadeOf snapshot).reached
            (cascadedTick snapshot)) (Or.inr ⟨hstrategy, rfl⟩)) hdispatched ?_ fun _ => hkept
          rw [comingUp, hstop, hstrategy]
          rfl
      | legacyFifo =>
          have hdispatched := fifoLoop_spec (cascadeOf snapshot).reached
            snapshot.completedTaskIds snapshot.orderedQueue hmarked
          refine hassemble (hdecision (reduceLegacyFifo snapshot (cascadeOf snapshot).reached
            (cascadedTick snapshot)) (Or.inl ⟨hstrategy, rfl⟩)) hdispatched ?_
            fun h => absurd h (by simp [hstrategy])
          rw [comingUp, hstop, hstrategy]
          rfl

end Deckent.SchedulerReducer
