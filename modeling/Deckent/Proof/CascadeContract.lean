import Deckent.Proof.SchedulerTick

/-!
# What the cascade may skip
With deferred failures a skip should follow from a repair settled as no-mint; without, the skips should
be the least closed set. The second half holds. The first fails because one no-mint settlement starts
the sweep with every terminal failure as a seed: it holds exactly when every eligible dependant of a
terminal failure already reaches a no-mint target.
-/

namespace Deckent.SchedulerReducer

variable {snapshot : SchedulerSnapshot}

/-- What a tick promises about the tasks it cascade-skips. -/
structure CascadeContract (snapshot : SchedulerSnapshot) : Prop where
  deferred : snapshot.deferTerminalDependencyFailure.getD false = true →
    ∀ skip ∈ skipsOf (reduceSchedulerTick snapshot).orderedEffects,
      Reaches snapshot
        (fun task => task.status = .pending
          ∧ (task.id, none) ∈ skipsOf (reduceSchedulerTick snapshot).orderedEffects)
        (IsNoMintTarget snapshot) skip.1
  exact : snapshot.deferTerminalDependencyFailure.getD false = false →
    IsLeast {ids : Set String | ∀ task ∈ snapshot.tasks, CascadeEligible snapshot task →
        ∀ dependency ∈ task.dependencies,
          CascadeSeed snapshot dependency ∨ dependency ∈ ids → task.id ∈ ids}
      {id | (id, none) ∈ skipsOf (reduceSchedulerTick snapshot).orderedEffects}
  once : snapshot.deferTerminalDependencyFailure.getD false = false →
    ((skipsOf (reduceSchedulerTick snapshot).orderedEffects).map Prod.fst).Nodup

/-- Deferred failures make no task skippable that is not already behind a no-mint target. -/
def DeferredFailuresCovered (snapshot : SchedulerSnapshot) : Prop :=
  snapshot.deferTerminalDependencyFailure.getD false = true →
    (∀ id, ¬ IsNoMint snapshot id)
      ∨ ∀ task ∈ snapshot.tasks, CascadeEligible snapshot task → ∀ dependency ∈ task.dependencies,
        dependency ∈ snapshot.effectiveDependencyState.terminalFailureIds →
          Reaches snapshot (CascadeEligible snapshot) (IsNoMintTarget snapshot) task.id

theorem Reaches.mono {via via' : SchedulerTaskSnapshot → Prop} {seed seed' : String → Prop} {id : String}
    (hvia : ∀ task ∈ snapshot.tasks, via task → via' task) (hseed : ∀ id, seed id → seed' id)
    (h : Reaches snapshot via seed id) : Reaches snapshot via' seed' id := by
  induction h with
  | edge htask hthrough hdependency hfailed =>
      exact Reaches.edge htask (hvia _ htask hthrough) hdependency (hseed _ hfailed)
  | step htask hthrough hdependency _ ih =>
      exact Reaches.step htask (hvia _ htask hthrough) hdependency ih

theorem Reaches.through {via : SchedulerTaskSnapshot → Prop} {seed : String → Prop} {id : String}
    (h : Reaches snapshot via seed id) : ∃ task ∈ snapshot.tasks, task.id = id ∧ via task := by
  cases h with
  | edge htask hthrough _ _ => exact ⟨_, htask, rfl, hthrough⟩
  | step htask hthrough _ _ => exact ⟨_, htask, rfl, hthrough⟩

theorem CascadeEligible.of_id {task other : SchedulerTaskSnapshot} (h : CascadeEligible snapshot other)
    (hid : other.id = task.id) (hpending : task.status = .pending) :
    CascadeEligible snapshot task :=
  ⟨hpending, hid ▸ h.uncollected, hid ▸ h.unassigned, hid ▸ h.notNoMint⟩

theorem pausedSkips_of_deferred (hdefer : snapshot.deferTerminalDependencyFailure.getD false = true) :
    pausedSkips snapshot = [] := by
  rw [pausedSkips, if_neg]
  rintro ⟨-, -, hnot, -⟩
  rw [hdefer] at hnot
  exact absurd hnot (by simp)

theorem pausedSkips_reason {skip : String × Option SchedulerQuiescenceReason}
    (hskip : skip ∈ pausedSkips snapshot) : skip.2 = some .continuousDeadDependency := by
  unfold pausedSkips at hskip
  split at hskip
  · obtain ⟨entry, -, rfl⟩ := List.mem_map.mp hskip
    rfl
  · exact absurd hskip List.not_mem_nil

theorem mem_skipsOf_iff {id : String} :
    (id, none) ∈ skipsOf (reduceSchedulerTick snapshot).orderedEffects
      ↔ id ∈ (cascadeOf snapshot).reached := by
  rw [(reduceSchedulerTick_spec snapshot).skips, List.mem_append, mem_pendingSkips, or_iff_left]
  intro hpaused
  exact absurd (pausedSkips_reason hpaused) (by simp)

theorem nodup_skips (snapshot : SchedulerSnapshot) :
    ((skipsOf (reduceSchedulerTick snapshot).orderedEffects).map Prod.fst).Nodup := by
  have hcascade := sweepInvariant_cascadeOf snapshot
  have hpending : (pendingSkips snapshot).map Prod.fst
      = (cascadeOf snapshot).fired.map fun entry => entry.1.id := by
    rw [pendingSkips, List.map_map]
    rfl
  rw [(reduceSchedulerTick_spec snapshot).skips, List.map_append, hpending]
  unfold pausedSkips
  split
  · have hpaused : SweepInvariant SchedulerTaskSnapshot.id (quiescenceRule snapshot) snapshot.tasks
        (cascadeOf snapshot).reached
        (cascadePausedAtQuiescence snapshot (cascadeOf snapshot).reached) :=
      sweepInvariant_saturate _ _
    rw [List.map_map]
    refine hcascade.nodup.append hpaused.nodup ?_
    intro id hleft hright
    obtain ⟨entry, hentry, rfl⟩ := List.mem_map.mp hright
    exact hpaused.fresh entry hentry
      ((hcascade.mem_reached _).mpr (Or.inr (List.mem_map.mp hleft)))
  · rw [List.map_nil, List.append_nil]
    exact hcascade.nodup

theorem isLeast_skips (hblank : BlankFree snapshot)
    (hdefer : snapshot.deferTerminalDependencyFailure.getD false = false) :
    IsLeast {ids : Set String | ∀ task ∈ snapshot.tasks, CascadeEligible snapshot task →
        ∀ dependency ∈ task.dependencies,
          CascadeSeed snapshot dependency ∨ dependency ∈ ids → task.id ∈ ids}
      {id | (id, none) ∈ skipsOf (reduceSchedulerTick snapshot).orderedEffects} := by
  constructor
  · intro task htask heligible dependency hdependency hfailed
    exact mem_skipsOf_iff.mpr (mem_cascade_of_dependency (Or.inl hdefer) hblank htask heligible
      hdependency (hfailed.imp_right mem_skipsOf_iff.mp))
  · intro ids hclosed id hid
    have hreaches := reaches_of_mem_cascade (mem_skipsOf_iff.mp hid)
    clear hid
    induction hreaches with
    | edge htask heligible hdependency hseed =>
        exact hclosed _ htask heligible _ hdependency (Or.inl hseed)
    | step htask heligible hdependency _ ih =>
        exact hclosed _ htask heligible _ hdependency (Or.inr ih)

/-- Where `""` is not a failed id, the cascade keeps its contract exactly when the deferred failures
are covered. -/
theorem cascadeContract_iff (hblank : BlankFree snapshot) :
    CascadeContract snapshot ↔ DeferredFailuresCovered snapshot := by
  constructor
  · intro h hdefer
    by_cases hsettled : ∃ id, IsNoMint snapshot id
    · refine Or.inr fun task htask heligible dependency hdependency hterminal => ?_
      have hskipped := mem_cascade_of_dependency (Or.inr hsettled) hblank htask heligible hdependency
        (Or.inl (Or.inl hterminal))
      refine (h.deferred hdefer (task.id, none) (mem_skipsOf_iff.mpr hskipped)).mono ?_ fun _ hseed => hseed
      rintro other - ⟨hpending, hother⟩
      obtain ⟨entry, -, hid, hentry⟩ := (reaches_of_mem_cascade (mem_skipsOf_iff.mp hother)).through
      exact hentry.of_id hid hpending
    · exact Or.inl (not_exists.mp hsettled)
  · intro hcovered
    refine ⟨fun hdefer skip hskip => ?_, isLeast_skips hblank, fun _ => nodup_skips snapshot⟩
    rw [(reduceSchedulerTick_spec snapshot).skips, pausedSkips_of_deferred hdefer,
      List.append_nil] at hskip
    obtain ⟨entry, hentry, rfl⟩ := List.mem_map.mp hskip
    have hmem : entry.1.id ∈ (cascadeOf snapshot).reached :=
      ((sweepInvariant_cascadeOf snapshot).mem_reached _).mpr (Or.inr ⟨entry, hentry, rfl⟩)
    have hruns : CascadeRuns snapshot := by
      by_contra hnot
      rw [(cascadeOf_of_not_runs hnot).1] at hmem
      exact Finset.notMem_empty _ hmem
    obtain ⟨settled, hsettled⟩ : ∃ id, IsNoMint snapshot id :=
      hruns.resolve_left fun hnot => by
        rw [hdefer] at hnot
        exact absurd hnot (by simp)
    have hall := (hcovered hdefer).resolve_left fun hnone => hnone settled hsettled
    -- every seed that is not a no-mint target is a terminal failure, which the hypothesis covers
    have htarget : ∀ id, Reaches snapshot (CascadeEligible snapshot) (CascadeSeed snapshot) id →
        Reaches snapshot (CascadeEligible snapshot) (IsNoMintTarget snapshot) id := by
      intro id hid
      induction hid with
      | edge htask heligible hdependency hseed =>
          rcases hseed with hterminal | hnoMint
          · exact hall _ htask heligible _ hdependency hterminal
          · exact Reaches.edge htask heligible hdependency hnoMint
      | step htask heligible hdependency _ ih => exact Reaches.step htask heligible hdependency ih
    have hskippedOf : ∀ id, Reaches snapshot (CascadeEligible snapshot) (IsNoMintTarget snapshot) id →
        Reaches snapshot (fun task => task.status = .pending
            ∧ (task.id, none) ∈ skipsOf (reduceSchedulerTick snapshot).orderedEffects)
          (IsNoMintTarget snapshot) id := by
      intro id hid
      have hclosure : ∀ id, Reaches snapshot (CascadeEligible snapshot) (IsNoMintTarget snapshot) id →
          (id, none) ∈ skipsOf (reduceSchedulerTick snapshot).orderedEffects := fun id hid =>
        mem_skipsOf_iff.mpr ((mem_cascade_iff hruns hblank).mpr
          (hid.mono (fun _ _ heligible => heligible) fun _ => Or.inr))
      induction hid with
      | edge htask heligible hdependency hseed =>
          exact Reaches.edge htask
            ⟨heligible.pending, hclosure _ (Reaches.edge htask heligible hdependency hseed)⟩
            hdependency hseed
      | step htask heligible hdependency hrest ih =>
          exact Reaches.step htask
            ⟨heligible.pending, hclosure _ (Reaches.step htask heligible hdependency hrest)⟩
            hdependency ih
    exact hskippedOf _ (htarget _ (reaches_of_mem_cascade hmem))

/-- A no-mint repair of `setup` next to the failed but repairable `api`, on which `docs` depends. -/
def unrelatedFailure : SchedulerSnapshot :=
  { strategy := .continuous
    slotBudget := 0
    orderedQueue := []
    tasks := [{ id := "setup", status := .noGo },
      { id := "setup-fix", status := .noGo, fixForTaskId := some "setup"
        repairSettlementReasonCode := some "SCOPE_UNSATISFIABLE" },
      { id := "api", status := .noGo },
      { id := "docs", status := .pending, dependencies := ["api"] }]
    dependencyPipelineEnabled := true
    deferTerminalDependencyFailure := some true
    effectiveDependencyState :=
      { satisfyingIds := ∅, terminalFailureIds := {"api"}, retryEligibleIds := {"docs"} } }

/-- `docs` is skipped for `api` although no repair of `api` was settled. -/
theorem not_cascadeContract_unrelatedFailure : ¬ CascadeContract unrelatedFailure := by
  intro h
  have hskipped : skipsOf (reduceSchedulerTick unrelatedFailure).orderedEffects = [("docs", none)] := by
    decide +kernel
  have hreaches := h.deferred rfl ("docs", none) (hskipped ▸ List.mem_singleton_self _)
  have hpath : ∀ id, Reaches unrelatedFailure (fun task => task.status = .pending
        ∧ (task.id, none) ∈ skipsOf (reduceSchedulerTick unrelatedFailure).orderedEffects)
      (IsNoMintTarget unrelatedFailure) id → id = "docs" ∧ IsNoMintTarget unrelatedFailure "api" := by
    intro id hid
    induction hid with
    | @edge task dependency htask hthrough hdependency hseed =>
        simp only [unrelatedFailure, List.mem_cons, List.not_mem_nil, or_false] at htask
        rcases htask with rfl | rfl | rfl | rfl <;> simp_all
    | @step task dependency htask hthrough hdependency _ ih =>
        simp only [unrelatedFailure, List.mem_cons, List.not_mem_nil, or_false] at htask
        rcases htask with rfl | rfl | rfl | rfl <;> simp_all
  obtain ⟨-, task, htask, -, htarget⟩ := hpath _ hreaches
  simp only [unrelatedFailure, List.mem_cons, List.not_mem_nil, or_false] at htask
  rcases htask with rfl | rfl | rfl | rfl <;> simp [truthy] at htarget

/-- The same repair with `docs` depending on `setup`: the skip follows from the settlement. -/
def relatedFailure : SchedulerSnapshot :=
  { unrelatedFailure with
    tasks := [{ id := "setup", status := .noGo },
      { id := "setup-fix", status := .noGo, fixForTaskId := some "setup"
        repairSettlementReasonCode := some "SCOPE_UNSATISFIABLE" },
      { id := "docs", status := .pending, dependencies := ["setup"] }]
    effectiveDependencyState :=
      { satisfyingIds := ∅, terminalFailureIds := {"setup"}, retryEligibleIds := {"docs"} } }

theorem cascadeContract_iff_relatedFailure :
    CascadeContract relatedFailure ↔ DeferredFailuresCovered relatedFailure := by
  refine cascadeContract_iff ?_
  have hnamed : ∀ task ∈ relatedFailure.tasks, "" ∉ task.dependencies := by decide
  exact fun task htask _ hempty => absurd hempty (hnamed task htask)

end Deckent.SchedulerReducer

/-! ### What may be spawned

A spawned task should be pending, uncollected and free of unsatisfied dependencies. The fill of free
slots checks this; the drains of the queue do not look at the status or at the collected ids, and
`classifyBlock` passes over an unsatisfied dependency that is the empty string. So a tick spawns only
dispatchable tasks exactly when every candidate for which it has a slot is fit. -/

namespace Deckent.SchedulerReducer

variable {snapshot : SchedulerSnapshot}

/-- The id may be dispatched: every entry of the snapshot that carries it is pending and has its
dependencies satisfied, and nothing has taken, collected, blocked, skipped or settled it. -/
structure Dispatchable (snapshot : SchedulerSnapshot) (id : String) : Prop where
  unassigned : id ∉ snapshot.assignedTaskIds
  uncollected : id ∉ snapshot.collectedIds
  pending : ∀ entry ∈ snapshot.orderedQueue ++ snapshot.tasks, entry.id = id → entry.status = .pending
  noCollision : id ∉ snapshot.collisionBlockedIds
  retryEligible : id ∈ snapshot.effectiveDependencyState.retryEligibleIds
  notSkipped : ∀ skip ∈ skipsOf (reduceSchedulerTick snapshot).orderedEffects, skip.1 ≠ id
  notSettled : id ∉ settlementsOf (reduceSchedulerTick snapshot).orderedEffects
  dependencies : snapshot.dependencyPipelineEnabled = true →
    ∀ entry ∈ snapshot.orderedQueue ++ snapshot.tasks, entry.id = id →
      ∀ dependency ∈ entry.dependencies,
        dependency ∈ snapshot.effectiveDependencyState.satisfyingIds

def CascadeSkipped (snapshot : SchedulerSnapshot) (id : String) : Prop :=
  CascadeRuns snapshot ∧ Reaches snapshot (CascadeEligible snapshot) (CascadeSeed snapshot) id

def Fit (snapshot : SchedulerSnapshot) (id : String) : Prop :=
  id ∉ snapshot.collectedIds ∧ ∀ entry ∈ snapshot.orderedQueue ++ snapshot.tasks, entry.id = id →
    entry.status = .pending ∧ (snapshot.dependencyPipelineEnabled = true →
      ∀ dependency ∈ entry.dependencies,
        dependency ∈ snapshot.effectiveDependencyState.satisfyingIds)

noncomputable def candidates (snapshot : SchedulerSnapshot) : List SchedulerTaskSnapshot :=
  queueCandidates snapshot (CascadeSkipped snapshot)
    ++ match snapshot.strategy with
      | .continuous => fillCandidates snapshot (CascadeSkipped snapshot)
      | .legacyFifo => []

def HasSlot (snapshot : SchedulerSnapshot) (position : Nat) : Prop :=
  snapshot.costStop = false ∧ match snapshot.strategy with
    | .continuous => JsNumber.lt (.finite position) snapshot.slotBudget = true
    | .legacyFifo => position < snapshot.completedTaskIds.length

def SpawnsFit (snapshot : SchedulerSnapshot) : Prop :=
  ∀ before task after, candidates snapshot = before ++ task :: after →
    HasSlot snapshot before.length → Fit snapshot task.id

theorem mem_take_iff {list : List SchedulerTaskSnapshot} {count : Nat} {task : SchedulerTaskSnapshot} :
    task ∈ list.take count
      ↔ ∃ before after, list = before ++ task :: after ∧ before.length < count := by
  constructor
  · intro htask
    obtain ⟨before, after, htake⟩ := List.append_of_mem htask
    refine ⟨before, after ++ list.drop count, ?_, ?_⟩
    · calc list = list.take count ++ list.drop count := (List.take_append_drop count list).symm
        _ = before ++ task :: (after ++ list.drop count) := by
          rw [htake, List.append_assoc, List.cons_append]
    · have hlength := List.length_take_le count list
      rw [htake, List.length_append, List.length_cons] at hlength
      omega
  · rintro ⟨before, after, rfl, hlength⟩
    rw [List.take_append, List.take_of_length_le hlength.le]
    refine List.mem_append_right _ ?_
    obtain ⟨more, hmore⟩ : ∃ more, count - before.length = more + 1 :=
      ⟨count - before.length - 1, by omega⟩
    rw [hmore, List.take_succ_cons]
    exact List.mem_cons_self

theorem mem_comingUp_iff {task : SchedulerTaskSnapshot} :
    task ∈ comingUp snapshot (CascadeSkipped snapshot)
      ↔ ∃ before after, candidates snapshot = before ++ task :: after
        ∧ HasSlot snapshot before.length := by
  unfold comingUp candidates HasSlot
  cases hstop : snapshot.costStop with
  | true => simp
  | false =>
      cases hstrategy : snapshot.strategy with
      | continuous => simp [mem_takeSlots_iff]
      | legacyFifo => simp [mem_take_iff]

theorem mem_cascade_iff_cascadeSkipped (hblank : BlankFree snapshot) (id : String) :
    id ∈ (cascadeOf snapshot).reached ↔ CascadeSkipped snapshot id := by
  by_cases hruns : CascadeRuns snapshot
  · rw [mem_cascade_iff hruns hblank, CascadeSkipped, and_iff_right hruns]
  · rw [(cascadeOf_of_not_runs hruns).1]
    exact iff_of_false (Finset.notMem_empty id) fun h => hruns h.1

theorem spawnable_of_comingUp {skipped : String → Prop} {task : SchedulerTaskSnapshot}
    (htask : task ∈ comingUp snapshot skipped) : Spawnable snapshot skipped task := by
  unfold comingUp at htask
  split at htask
  · exact absurd htask List.not_mem_nil
  · split at htask
    · rcases List.mem_append.mp ((takeSlots_isPrefix _ _).subset htask) with hmem | hmem
      · exact (mem_queueCandidates.mp hmem).2
      · exact (mem_fillCandidates hmem).1.2.2
    · exact (mem_queueCandidates.mp (List.mem_of_mem_take htask)).2

theorem classifyBlock_eq_none {task : SchedulerTaskSnapshot} (h : classifyBlock task snapshot = none) :
    task.id ∉ snapshot.collisionBlockedIds
      ∧ task.id ∈ snapshot.effectiveDependencyState.retryEligibleIds := by
  unfold classifyBlock at h
  split at h
  · exact absurd h (by simp)
  · next hcollision =>
      split at h
      · exact absurd h (by simp)
      · next hretry => exact ⟨hcollision, not_not.mp hretry⟩

theorem pausedSkips_of_comingUp
    (hcoming : comingUp snapshot (· ∈ (cascadeOf snapshot).reached) ≠ []) :
    pausedSkips snapshot = [] := by
  rw [pausedSkips, if_neg]
  rintro ⟨-, -, -, hnone, -⟩
  exact hcoming hnone

/-- Where `""` is not a failed id, a tick spawns only dispatchable tasks exactly when every candidate for
which it has a slot is fit. -/
theorem spawns_dispatchable_iff (hblank : BlankFree snapshot) :
    (∀ id ∈ spawnsOf (reduceSchedulerTick snapshot).orderedEffects, Dispatchable snapshot id)
      ↔ SpawnsFit snapshot := by
  have hspec := reduceSchedulerTick_spec snapshot
  have hskipped : (· ∈ (cascadeOf snapshot).reached) = CascadeSkipped snapshot := by
    funext id
    exact propext (mem_cascade_iff_cascadeSkipped hblank id)
  have hspawns := hspec.spawns
  rw [hskipped] at hspawns
  constructor
  · intro h before task after hcandidates hslot
    have htask : task ∈ comingUp snapshot (CascadeSkipped snapshot) :=
      mem_comingUp_iff.mpr ⟨before, after, hcandidates, hslot⟩
    have hdispatchable := h task.id (hspawns ▸ List.mem_map_of_mem htask)
    exact ⟨hdispatchable.uncollected, fun entry hentry hid =>
      ⟨hdispatchable.pending entry hentry hid,
        fun henabled => hdispatchable.dependencies henabled entry hentry hid⟩⟩
  · intro hfit id hid
    rw [hspawns] at hid
    obtain ⟨task, htask, rfl⟩ := List.mem_map.mp hid
    obtain ⟨before, after, hcandidates, hslot⟩ := mem_comingUp_iff.mp htask
    obtain ⟨huncollected, hentries⟩ := hfit before task after hcandidates hslot
    obtain ⟨hdropped, hblock⟩ := spawnable_of_comingUp htask
    obtain ⟨hcollision, hretry⟩ := classifyBlock_eq_none hblock
    simp only [Dropped, not_or] at hdropped
    refine ⟨hdropped.1, huncollected, fun entry hentry hid => (hentries entry hentry hid).1, hcollision,
      hretry, ?_, ?_, fun henabled entry hentry hid => (hentries entry hentry hid).2 henabled⟩
    · intro skip hskip heq
      have hcoming : comingUp snapshot (· ∈ (cascadeOf snapshot).reached) ≠ [] := by
        rw [hskipped]
        exact List.ne_nil_of_mem htask
      rw [hspec.skips, pausedSkips_of_comingUp hcoming, List.append_nil] at hskip
      obtain ⟨entry, hentry, rfl⟩ := List.mem_map.mp hskip
      have hreached : entry.1.id ∈ (cascadeOf snapshot).reached :=
        mem_pendingSkips.mp (List.mem_map_of_mem hentry)
      rw [mem_cascade_iff_cascadeSkipped hblank] at hreached
      exact hdropped.2.1 (heq ▸ hreached)
    · rw [hspec.settlements]
      exact hdropped.2.2

/-- The queue still holds `build`, which an earlier tick finished and collected. -/
def staleQueue : SchedulerSnapshot :=
  { strategy := .continuous
    slotBudget := 1
    orderedQueue := [{ id := "build", status := .done }]
    tasks := [{ id := "build", status := .done }]
    collectedIds := {"build"}
    dependencyPipelineEnabled := true
    effectiveDependencyState :=
      { satisfyingIds := {"build"}, terminalFailureIds := ∅, retryEligibleIds := {"build"} } }

/-- The drain spawns `build` again. -/
theorem not_spawns_dispatchable_staleQueue :
    ¬ ∀ id ∈ spawnsOf (reduceSchedulerTick staleQueue).orderedEffects, Dispatchable staleQueue id := by
  intro h
  have hspawned : "build" ∈ spawnsOf (reduceSchedulerTick staleQueue).orderedEffects := by
    decide +kernel
  have hcollected : "build" ∈ staleQueue.collectedIds := by decide
  exact (h "build" hspawned).uncollected hcollected

theorem spawns_dispatchable_iff_staleQueue :
    (∀ id ∈ spawnsOf (reduceSchedulerTick staleQueue).orderedEffects, Dispatchable staleQueue id)
      ↔ SpawnsFit staleQueue := by
  refine spawns_dispatchable_iff ?_
  have hnamed : ∀ task ∈ staleQueue.tasks, "" ∉ task.dependencies := by decide
  exact fun task htask _ hempty => absurd hempty (hnamed task htask)

end Deckent.SchedulerReducer
