import Deckent.Proof.SpawnOrder

/-!
# The two dispatch strategies

Each strategy is one or two scans. A scan serves a prefix of its candidates, adds no skip and leaves
the no-mint marks as they are (`Dispatched`), and the queue it returns is described by what it keeps.
-/

namespace Deckent.SchedulerReducer

open scoped Classical

variable {snapshot : SchedulerSnapshot} {skippedIds : Finset String}

def NoMintMarked (snapshot : SchedulerSnapshot) (tick : Tick) : Prop :=
  ∀ id, tick.dispositions.get? id = some .noMint ↔ IsNoMint snapshot id

structure Dispatched (snapshot : SchedulerSnapshot) (before after : Tick)
    (spawned : List SchedulerTaskSnapshot) : Prop where
  spawns : spawnsOf after.orderedEffects
    = spawnsOf before.orderedEffects ++ spawned.map SchedulerTaskSnapshot.id
  skips : skipsOf after.orderedEffects = skipsOf before.orderedEffects
  settlements : settlementsOf after.orderedEffects = settlementsOf before.orderedEffects
  marked : NoMintMarked snapshot after

theorem Dispatched.refl {tick : Tick} (hmarked : NoMintMarked snapshot tick) :
    Dispatched snapshot tick tick [] :=
  ⟨(List.append_nil _).symm, rfl, rfl, hmarked⟩

theorem Dispatched.trans {first second third : Tick} {left right : List SchedulerTaskSnapshot}
    (hleft : Dispatched snapshot first second left) (hright : Dispatched snapshot second third right) :
    Dispatched snapshot first third (left ++ right) := by
  refine ⟨?_, hright.skips.trans hleft.skips, hright.settlements.trans hleft.settlements,
    hright.marked⟩
  rw [hright.spawns, hleft.spawns, List.map_append, List.append_assoc]

theorem NoMintMarked.dispose {tick : Tick} (hmarked : NoMintMarked snapshot tick) {id : String}
    (hid : ¬ IsNoMint snapshot id) {disposition : SchedulerDisposition}
    (hdisposition : disposition ≠ .noMint) (effects : List SchedulerEffect) :
    NoMintMarked snapshot ((tick.emit effects).dispose id disposition) := by
  intro other
  simp only [Tick.dispose, Tick.emit, OrderedMap.get?_set]
  by_cases hother : other = id
  · subst hother
    simp [hdisposition, hid]
  · rw [if_neg hother]
    exact hmarked other

theorem classifyBlock_disposition {task : SchedulerTaskSnapshot} {block : BlockClassification}
    (hblock : classifyBlock task snapshot = some block) : block.disposition ≠ .noMint := by
  unfold classifyBlock at hblock
  split at hblock
  · obtain rfl := Option.some.inj hblock
    intro heq
    cases heq
  · split at hblock
    · obtain rfl := Option.some.inj hblock
      intro heq
      cases heq
    · split at hblock
      · split at hblock
        · obtain rfl := Option.some.inj hblock
          intro heq
          cases heq
        · exact absurd hblock (by simp)
      · exact absurd hblock (by simp)

theorem dispatched_block {tick : Tick} (hmarked : NoMintMarked snapshot tick)
    {task : SchedulerTaskSnapshot} {block : BlockClassification} (hid : ¬ IsNoMint snapshot task.id)
    (hblock : classifyBlock task snapshot = some block) :
    Dispatched snapshot tick (tick.block task.id block) [] := by
  refine ⟨?_, ?_, ?_, hmarked.dispose hid (classifyBlock_disposition hblock) _⟩
  · simp [Tick.block, Tick.dispose, Tick.emit, spawnsOf, SchedulerEffect.spawn?]
  · simp [Tick.block, Tick.dispose, Tick.emit, skipsOf, SchedulerEffect.skip?]
  · simp [Tick.block, Tick.dispose, Tick.emit, settlementsOf, SchedulerEffect.settled?]

theorem dispatched_spawn {tick : Tick} (hmarked : NoMintMarked snapshot tick)
    {task : SchedulerTaskSnapshot} (hid : ¬ IsNoMint snapshot task.id) (reason : SpawnReason) :
    Dispatched snapshot tick ((tick.emit [.spawnTask task.id reason]).dispose task.id .spawn) [task] := by
  refine ⟨?_, ?_, ?_, hmarked.dispose hid (by simp) _⟩
  · simp [Tick.dispose, Tick.emit, spawnsOf, SchedulerEffect.spawn?]
  · simp [Tick.dispose, Tick.emit, skipsOf, SchedulerEffect.skip?]
  · simp [Tick.dispose, Tick.emit, settlementsOf, SchedulerEffect.settled?]

/-! ### The continuous drain -/

/-- The entries the drain leaves in the queue. -/
noncomputable def keptQueue (snapshot : SchedulerSnapshot) (skipped : String → Prop) :
    JsNumber → List SchedulerTaskSnapshot → List SchedulerTaskSnapshot
  | _, [] => []
  | slots, candidate :: rest =>
      if JsNumber.lt 0 slots then
        if Dropped snapshot skipped candidate then keptQueue snapshot skipped slots rest
        else if (classifyBlock candidate snapshot).isSome then
          candidate :: keptQueue snapshot skipped slots rest
        else keptQueue snapshot skipped slots.pred rest
      else candidate :: rest

structure DrainSpec (snapshot : SchedulerSnapshot) (skipped : String → Prop)
    (queue : List SchedulerTaskSnapshot) (state final : DrainState) : Prop where
  dispatched : Dispatched snapshot state.tick final.tick
    (takeSlots state.slots (queue.filter fun task => Spawnable snapshot skipped task))
  slots : final.slots = JsNumber.pred^[(takeSlots state.slots
    (queue.filter fun task => Spawnable snapshot skipped task)).length] state.slots
  kept : final.queue = state.queue ++ keptQueue snapshot skipped state.slots queue
  chosen : ∀ id, id ∈ final.chosen ↔ id ∈ state.chosen ∨ id ∈ (takeSlots state.slots
    (queue.filter fun task => Spawnable snapshot skipped task)).map SchedulerTaskSnapshot.id

/-! Each entry meets one of four cases: the slots are spent, it is dropped, blocked or spawned. -/

section Entry

variable {state : DrainState} {candidate : SchedulerTaskSnapshot}

theorem drainEntry_of_spent (hslots : JsNumber.lt 0 state.slots = false) :
    drainEntry snapshot skippedIds state candidate
      = { state with queue := state.queue ++ [candidate] } := by
  unfold drainEntry
  simp [hslots]

theorem drainEntry_of_dropped (hmarked : NoMintMarked snapshot state.tick)
    (hslots : JsNumber.lt 0 state.slots = true)
    (hdropped : Dropped snapshot (· ∈ skippedIds) candidate) :
    drainEntry snapshot skippedIds state candidate = state := by
  unfold drainEntry
  rcases hdropped with hassigned | hskipped | hnoMint
  · simp [hslots, hassigned]
  · simp [hslots, hskipped]
  · simp [hslots, (hmarked candidate.id).mpr hnoMint]

theorem drainEntry_of_kept (hmarked : NoMintMarked snapshot state.tick)
    (hslots : JsNumber.lt 0 state.slots = true)
    (hdropped : ¬ Dropped snapshot (· ∈ skippedIds) candidate) :
    drainEntry snapshot skippedIds state candidate
      = match classifyBlock candidate snapshot with
        | some block =>
            { state with
              queue := state.queue ++ [candidate]
              tick := state.tick.block candidate.id block }
        | none => state.spawn candidate.id .queueDrain := by
  obtain ⟨hassigned, hskipped, hnoMint⟩ : candidate.id ∉ snapshot.assignedTaskIds
      ∧ candidate.id ∉ skippedIds ∧ ¬ IsNoMint snapshot candidate.id := by
    simpa only [Dropped, not_or] using hdropped
  have hmark : state.tick.dispositions.get? candidate.id ≠ some .noMint :=
    fun h => hnoMint ((hmarked candidate.id).mp h)
  unfold drainEntry
  cases hblock : classifyBlock candidate snapshot <;> simp [hslots, hassigned, hskipped, hmark]

end Entry

variable (snapshot) in
theorem keptQueue_of_spent (skipped : String → Prop) {slots : JsNumber}
    (hslots : JsNumber.lt 0 slots = false) (queue : List SchedulerTaskSnapshot) :
    keptQueue snapshot skipped slots queue = queue := by
  cases queue with
  | nil => rfl
  | cons candidate rest => rw [keptQueue, hslots, if_neg (by simp)]

variable (snapshot skippedIds) in
theorem foldl_drainEntry_spec (queue : List SchedulerTaskSnapshot) (state : DrainState)
    (hmarked : NoMintMarked snapshot state.tick) :
    DrainSpec snapshot (· ∈ skippedIds) queue state
      (queue.foldl (drainEntry snapshot skippedIds) state) := by
  induction queue generalizing state with
  | nil => exact ⟨Dispatched.refl hmarked, rfl, (List.append_nil _).symm, by simp [takeSlots]⟩
  | cons candidate rest ih =>
      rw [List.foldl_cons]
      cases hslots : JsNumber.lt 0 state.slots with
      | false =>
          obtain ⟨hdispatched, hleft, hqueue, hchosen⟩ :=
            ih { state with queue := state.queue ++ [candidate] } hmarked
          have hnone : ∀ list : List SchedulerTaskSnapshot, takeSlots state.slots list = [] :=
            takeSlots_of_not_lt hslots
          have hall := keptQueue_of_spent snapshot (· ∈ skippedIds) hslots
          simp only [hnone, hall] at hdispatched hleft hqueue hchosen
          rw [drainEntry_of_spent hslots]
          refine ⟨?_, ?_, ?_, ?_⟩ <;> simp only [hnone, hall]
          · exact hdispatched
          · exact hleft
          · rw [hqueue, List.append_assoc, List.singleton_append]
          · exact hchosen
      | true =>
          by_cases hdropped : Dropped snapshot (· ∈ skippedIds) candidate
          · have hfilter : (candidate :: rest).filter
                  (fun task => Spawnable snapshot (· ∈ skippedIds) task)
                = rest.filter fun task => Spawnable snapshot (· ∈ skippedIds) task :=
              List.filter_cons_of_neg (by simp [Spawnable, hdropped])
            have hkept : keptQueue snapshot (· ∈ skippedIds) state.slots (candidate :: rest)
                = keptQueue snapshot (· ∈ skippedIds) state.slots rest := by
              rw [keptQueue, if_pos hslots, if_pos hdropped]
            obtain ⟨hdispatched, hleft, hqueue, hchosen⟩ := ih state hmarked
            rw [drainEntry_of_dropped hmarked hslots hdropped]
            refine ⟨?_, ?_, ?_, ?_⟩ <;> simp only [hfilter, hkept] <;> assumption
          · have hnoMint : ¬ IsNoMint snapshot candidate.id :=
              fun h => hdropped (Or.inr (Or.inr h))
            rw [drainEntry_of_kept hmarked hslots hdropped]
            cases hblock : classifyBlock candidate snapshot with
            | some block =>
                have hfilter : (candidate :: rest).filter
                      (fun task => Spawnable snapshot (· ∈ skippedIds) task)
                    = rest.filter fun task => Spawnable snapshot (· ∈ skippedIds) task :=
                  List.filter_cons_of_neg (by simp [Spawnable, hblock])
                have hkept : keptQueue snapshot (· ∈ skippedIds) state.slots (candidate :: rest)
                    = candidate :: keptQueue snapshot (· ∈ skippedIds) state.slots rest := by
                  rw [keptQueue, if_pos hslots, if_neg hdropped, hblock]
                  rfl
                have hhere := dispatched_block hmarked hnoMint hblock
                obtain ⟨hdispatched, hleft, hqueue, hchosen⟩ := ih { state with
                  queue := state.queue ++ [candidate]
                  tick := state.tick.block candidate.id block } hhere.marked
                refine ⟨?_, ?_, ?_, ?_⟩ <;> simp only [hfilter, hkept]
                · exact hhere.trans hdispatched
                · exact hleft
                · rw [hqueue, List.append_assoc, List.singleton_append]
                · exact hchosen
            | none =>
                have hserved : takeSlots state.slots ((candidate :: rest).filter
                      fun task => Spawnable snapshot (· ∈ skippedIds) task)
                    = candidate :: takeSlots state.slots.pred
                      (rest.filter fun task => Spawnable snapshot (· ∈ skippedIds) task) := by
                  rw [List.filter_cons_of_pos (by simp [Spawnable, hdropped, hblock]), takeSlots,
                    if_pos hslots]
                have hkept : keptQueue snapshot (· ∈ skippedIds) state.slots (candidate :: rest)
                    = keptQueue snapshot (· ∈ skippedIds) state.slots.pred rest := by
                  rw [keptQueue, if_pos hslots, if_neg hdropped, hblock]
                  rfl
                have hhere := dispatched_spawn hmarked hnoMint .queueDrain
                obtain ⟨hdispatched, hleft, hqueue, hchosen⟩ :=
                  ih (state.spawn candidate.id .queueDrain) hhere.marked
                refine ⟨?_, ?_, ?_, ?_⟩ <;> simp only [hserved, hkept]
                · exact hhere.trans hdispatched
                · rw [List.length_cons, Function.iterate_succ_apply]
                  exact hleft
                · exact hqueue
                · intro id
                  rw [List.map_cons, List.mem_cons, hchosen id]
                  simp only [DrainState.spawn, Finset.mem_insert]
                  rw [or_assoc, or_left_comm]

/-! ### The continuous fill -/

structure FillSpec (snapshot : SchedulerSnapshot) (skipped : String → Prop)
    (stillQueuedIds : Finset String) (tasks : List SchedulerTaskSnapshot) (state final : DrainState) :
    Prop where
  dispatched : Dispatched snapshot state.tick final.tick
    (takeSlots state.slots (firstById state.chosen (tasks.filter fun task =>
      Fillable snapshot skipped task ∧ task.id ∉ stillQueuedIds)))
  kept : final.queue = state.queue

section Entry

variable {stillQueuedIds : Finset String} {state : DrainState} {task : SchedulerTaskSnapshot}

theorem fillEntry_of_passed (hmarked : NoMintMarked snapshot state.tick)
    (hpassed : ¬ (Fillable snapshot (· ∈ skippedIds) task ∧ task.id ∉ stillQueuedIds)
      ∨ task.id ∈ state.chosen) :
    JsNumber.le state.slots 0 = true ∨ ∃ tick, Dispatched snapshot state.tick tick []
      ∧ fillEntry snapshot skippedIds stillQueuedIds state task = { state with tick := tick } := by
  have hsame : ∃ tick, Dispatched snapshot state.tick tick [] ∧ state = { state with tick := tick } :=
    ⟨state.tick, Dispatched.refl hmarked, rfl⟩
  unfold fillEntry
  split
  · next hspent => exact Or.inl hspent
  refine Or.inr ?_
  split
  · exact hsame
  next hpending =>
    split
    · exact hsame
    next hassigned =>
      split
      · exact hsame
      next hcollected =>
        split
        · exact hsame
        next hchosen =>
          split
          · exact hsame
          next hdropped =>
            split
            · exact hsame
            next hqueued =>
              rw [not_or, hmarked task.id] at hdropped
              split
              · next block hblock =>
                  exact ⟨_, dispatched_block hmarked hdropped.2 hblock, rfl⟩
              · next hblock =>
                  refine absurd hpassed (not_or.mpr ⟨not_not.mpr ⟨?_, hqueued⟩, hchosen⟩)
                  refine ⟨not_not.mp hpending, hcollected, ?_, hblock⟩
                  simp only [Dropped, not_or]
                  exact ⟨hassigned, hdropped⟩

theorem fillEntry_of_served (hmarked : NoMintMarked snapshot state.tick)
    (hslots : JsNumber.le state.slots 0 = false)
    (hfillable : Fillable snapshot (· ∈ skippedIds) task) (hqueued : task.id ∉ stillQueuedIds)
    (hchosen : task.id ∉ state.chosen) :
    fillEntry snapshot skippedIds stillQueuedIds state task = state.spawn task.id .pendingSlotFill := by
  obtain ⟨hpending, hcollected, hdropped, hblock⟩ := hfillable
  obtain ⟨hassigned, hskipped, hnoMint⟩ : task.id ∉ snapshot.assignedTaskIds
      ∧ task.id ∉ skippedIds ∧ ¬ IsNoMint snapshot task.id := by
    simpa only [Dropped, not_or] using hdropped
  have hmark : state.tick.dispositions.get? task.id ≠ some .noMint :=
    fun h => hnoMint ((hmarked task.id).mp h)
  unfold fillEntry
  simp [hslots, hpending, hassigned, hcollected, hchosen, hskipped, hmark, hqueued, hblock]

end Entry

variable (skippedIds) in
theorem foldl_fillEntry_spec (stillQueuedIds : Finset String) (tasks : List SchedulerTaskSnapshot)
    {state : DrainState} (hmarked : NoMintMarked snapshot state.tick) (hslots : state.slots ≠ .nan) :
    FillSpec snapshot (· ∈ skippedIds) stillQueuedIds tasks state
      (tasks.foldl (fillEntry snapshot skippedIds stillQueuedIds) state) := by
  induction tasks generalizing state with
  | nil =>
      refine ⟨?_, rfl⟩
      simpa [firstById, takeSlots] using Dispatched.refl hmarked
  | cons task rest ih =>
      rw [List.foldl_cons]
      by_cases hserved : (Fillable snapshot (· ∈ skippedIds) task ∧ task.id ∉ stillQueuedIds)
          ∧ task.id ∉ state.chosen ∧ JsNumber.le state.slots 0 = false
      · obtain ⟨hfillable, hchosen, hfree⟩ := hserved
        have hfirst : takeSlots state.slots (firstById state.chosen ((task :: rest).filter fun task =>
              Fillable snapshot (· ∈ skippedIds) task ∧ task.id ∉ stillQueuedIds))
            = task :: takeSlots state.slots.pred (firstById (insert task.id state.chosen)
              (rest.filter fun task =>
                Fillable snapshot (· ∈ skippedIds) task ∧ task.id ∉ stillQueuedIds)) := by
          rw [List.filter_cons_of_pos (by simpa using hfillable), firstById, if_neg hchosen, takeSlots,
            if_pos]
          rw [JsNumber.le_zero_iff hslots] at hfree
          simpa using hfree
        have hnoMint : ¬ IsNoMint snapshot task.id := fun h => hfillable.1.2.2.1 (Or.inr (Or.inr h))
        have hhere := dispatched_spawn hmarked hnoMint .pendingSlotFill
        have hpred : state.slots.pred ≠ .nan := by
          cases hvalue : state.slots <;> simp_all [JsNumber.pred]
        obtain ⟨hdispatched, hkept⟩ :=
          @ih (state.spawn task.id .pendingSlotFill) hhere.marked hpred
        rw [fillEntry_of_served hmarked hfree hfillable.1 hfillable.2 hchosen]
        refine ⟨?_, hkept⟩
        rw [hfirst]
        exact hhere.trans hdispatched
      · cases hfree : JsNumber.le state.slots 0 with
        | true =>
            have hstep : fillEntry snapshot skippedIds stillQueuedIds state task = state := by
              unfold fillEntry
              rw [if_pos hfree]
            have hnone : ∀ list : List SchedulerTaskSnapshot, takeSlots state.slots list = [] :=
              takeSlots_of_not_lt (by simpa [JsNumber.le_zero_iff hslots] using hfree)
            obtain ⟨hdispatched, hkept⟩ := ih hmarked hslots
            rw [hstep]
            refine ⟨?_, hkept⟩
            rw [hnone] at hdispatched ⊢
            exact hdispatched
        | false =>
            have hpassed : ¬ (Fillable snapshot (· ∈ skippedIds) task ∧ task.id ∉ stillQueuedIds)
                ∨ task.id ∈ state.chosen := by
              by_contra hnot
              rw [not_or, not_not] at hnot
              exact hserved ⟨hnot.1, hnot.2, hfree⟩
            have hfirst : firstById state.chosen ((task :: rest).filter fun task =>
                  Fillable snapshot (· ∈ skippedIds) task ∧ task.id ∉ stillQueuedIds)
                = firstById state.chosen (rest.filter fun task =>
                  Fillable snapshot (· ∈ skippedIds) task ∧ task.id ∉ stillQueuedIds) := by
              by_cases hfillable : Fillable snapshot (· ∈ skippedIds) task ∧ task.id ∉ stillQueuedIds
              · rw [List.filter_cons_of_pos (by simpa using hfillable), firstById,
                  if_pos (hpassed.resolve_left (not_not.mpr hfillable))]
              · rw [List.filter_cons_of_neg (by simpa using hfillable)]
            rcases fillEntry_of_passed hmarked hpassed with hspent | ⟨tick, hhere, hstep⟩
            · rw [hfree] at hspent
              exact absurd hspent (by simp)
            · obtain ⟨hdispatched, hkept⟩ := @ih { state with tick := tick } hhere.marked hslots
              rw [hstep]
              refine ⟨?_, hkept⟩
              rw [hfirst]
              exact hhere.trans hdispatched

/-! ### What stays queued -/

section Kept

variable {skipped : String → Prop}

theorem keptQueue_sublist (slots : JsNumber) (queue : List SchedulerTaskSnapshot) :
    (keptQueue snapshot skipped slots queue).Sublist queue := by
  induction queue generalizing slots with
  | nil => exact List.Sublist.refl _
  | cons candidate rest ih =>
      unfold keptQueue
      split
      · split
        · exact (ih slots).cons _
        · split
          · exact (ih slots).cons_cons _
          · exact (ih slots.pred).cons _
      · exact List.Sublist.refl _

noncomputable def slotsAfter (snapshot : SchedulerSnapshot) (skipped : String → Prop) (slots : JsNumber)
    (queue : List SchedulerTaskSnapshot) : JsNumber :=
  JsNumber.pred^[(takeSlots slots
    (queue.filter fun task => Spawnable snapshot skipped task)).length] slots

theorem keptQueue_append (slots : JsNumber) (before after : List SchedulerTaskSnapshot) :
    keptQueue snapshot skipped slots (before ++ after)
      = keptQueue snapshot skipped slots before
        ++ keptQueue snapshot skipped (slotsAfter snapshot skipped slots before) after := by
  induction before generalizing slots with
  | nil => rfl
  | cons candidate rest ih =>
      cases hslots : JsNumber.lt 0 slots with
      | false =>
          have hafter : slotsAfter snapshot skipped slots (candidate :: rest) = slots := by
            rw [slotsAfter, takeSlots_of_not_lt hslots]
            rfl
          rw [hafter, keptQueue_of_spent _ _ hslots, keptQueue_of_spent _ _ hslots,
            keptQueue_of_spent _ _ hslots]
      | true =>
          rw [List.cons_append, keptQueue, keptQueue, if_pos hslots, if_pos hslots]
          by_cases hdropped : Dropped snapshot skipped candidate
          · have hafter : slotsAfter snapshot skipped slots (candidate :: rest)
                = slotsAfter snapshot skipped slots rest := by
              rw [slotsAfter, List.filter_cons_of_neg (by simp [Spawnable, hdropped]), slotsAfter]
            rw [if_pos hdropped, if_pos hdropped, ih, hafter]
          · rw [if_neg hdropped, if_neg hdropped]
            cases hblock : classifyBlock candidate snapshot with
            | some block =>
                have hafter : slotsAfter snapshot skipped slots (candidate :: rest)
                    = slotsAfter snapshot skipped slots rest := by
                  rw [slotsAfter, List.filter_cons_of_neg (by simp [Spawnable, hblock]), slotsAfter]
                rw [hafter]
                simp [ih]
            | none =>
                have hafter : slotsAfter snapshot skipped slots (candidate :: rest)
                    = slotsAfter snapshot skipped slots.pred rest := by
                  rw [slotsAfter, List.filter_cons_of_pos (by simp [Spawnable, hdropped, hblock]),
                    takeSlots, if_pos hslots, List.length_cons, Function.iterate_succ_apply, slotsAfter]
                rw [hafter]
                simp [ih]

theorem mem_keptQueue_iff {slots : JsNumber} {before after : List SchedulerTaskSnapshot}
    {task : SchedulerTaskSnapshot} (hfresh : task ∉ before) (hlast : task ∉ after) :
    task ∈ keptQueue snapshot skipped slots (before ++ task :: after)
      ↔ JsNumber.lt 0 (slotsAfter snapshot skipped slots before) = false
        ∨ ¬ Dropped snapshot skipped task ∧ (classifyBlock task snapshot).isSome := by
  have hbefore : task ∉ keptQueue snapshot skipped slots before :=
    fun h => hfresh ((keptQueue_sublist slots before).subset h)
  have hafter : ∀ slots, task ∉ keptQueue snapshot skipped slots after :=
    fun slots h => hlast ((keptQueue_sublist slots after).subset h)
  rw [keptQueue_append, List.mem_append, or_iff_right hbefore, keptQueue]
  split
  · next hslots =>
      simp only [hslots, Bool.true_eq_false, false_or]
      split
      · next hdropped => simp [hdropped, hafter]
      · next hdropped =>
          split
          · next hblock => simp [hdropped, hblock]
          · next hblock => simp [hblock, hafter]
  · next hslots => simp [Bool.not_eq_true _ ▸ hslots]

theorem mem_keptQueue_of_left {slots : JsNumber} {queue : List SchedulerTaskSnapshot}
    (hleft : JsNumber.lt 0 (slotsAfter snapshot skipped slots queue)) {task : SchedulerTaskSnapshot}
    (htask : task ∈ queue) (hdropped : ¬ Dropped snapshot skipped task)
    (hblock : (classifyBlock task snapshot).isSome) : task ∈ keptQueue snapshot skipped slots queue := by
  obtain ⟨before, after, rfl⟩ := List.append_of_mem htask
  rw [keptQueue_append, keptQueue, if_neg hdropped, if_pos hblock]
  split <;> exact List.mem_append_right _ List.mem_cons_self

end Kept

theorem firstById_union (seen extra : Finset String) (list : List SchedulerTaskSnapshot) :
    firstById (seen ∪ extra) list = firstById extra (list.filter fun task => task.id ∉ seen) := by
  induction list generalizing extra with
  | nil => rfl
  | cons task rest ih =>
      by_cases hseen : task.id ∈ seen
      · rw [List.filter_cons_of_neg (by simpa using hseen), firstById,
          if_pos (Finset.mem_union_left _ hseen), ih]
      · rw [List.filter_cons_of_pos (by simpa using hseen), firstById, firstById]
        by_cases hextra : task.id ∈ extra
        · rw [if_pos (Finset.mem_union_right _ hextra), if_pos hextra, ih]
        · have hneither : task.id ∉ seen ∪ extra := by
            rw [Finset.mem_union, not_or]
            exact ⟨hseen, hextra⟩
          rw [if_neg hneither, if_neg hextra, ← Finset.union_insert, ih]

variable (skippedIds) in
/-- The continuous strategy serves a prefix of the queue candidates followed by the fill candidates. -/
theorem reduceContinuous_spec {tick : Tick} (hmarked : NoMintMarked snapshot tick) :
    Dispatched snapshot tick (reduceContinuous snapshot skippedIds tick).2
        (takeSlots snapshot.slotBudget (queueCandidates snapshot (· ∈ skippedIds)
          ++ fillCandidates snapshot (· ∈ skippedIds)))
      ∧ (reduceContinuous snapshot skippedIds tick).1
        = keptQueue snapshot (· ∈ skippedIds) snapshot.slotBudget snapshot.orderedQueue := by
  obtain ⟨hdispatched, hleft, hkept, hchosen⟩ := foldl_drainEntry_spec snapshot skippedIds
    snapshot.orderedQueue { queue := [], slots := snapshot.slotBudget, chosen := ∅, tick := tick }
    hmarked
  simp only [List.nil_append, Finset.notMem_empty, false_or] at hdispatched hleft hkept hchosen
  unfold reduceContinuous
  dsimp only
  generalize snapshot.orderedQueue.foldl (drainEntry snapshot skippedIds)
    { queue := [], slots := snapshot.slotBudget, chosen := ∅, tick := tick } = drained at *
  rw [takeSlots_append, queueCandidates, ← hleft]
  cases hslots : JsNumber.lt 0 drained.slots with
  | false => exact ⟨by simpa using hdispatched, hkept⟩
  | true =>
      rw [hleft] at hslots
      have hall := takeSlots_eq_self hslots
      have hnan : drained.slots ≠ .nan := by
        intro heq
        rw [← hleft, heq] at hslots
        exact absurd hslots (by decide)
      obtain ⟨hfill, hqueue⟩ := foldl_fillEntry_spec skippedIds
        (drained.queue.map SchedulerTaskSnapshot.id).toFinset snapshot.tasks
        hdispatched.marked hnan
      -- once the whole queue is scanned, its ids are the chosen, the still queued and the dropped ones
      have hids : ∀ task : SchedulerTaskSnapshot, Fillable snapshot (· ∈ skippedIds) task →
          (task.id ∈ snapshot.orderedQueue.map SchedulerTaskSnapshot.id
            ↔ task.id ∈ drained.chosen
              ∨ task.id ∈ (drained.queue.map SchedulerTaskSnapshot.id).toFinset) := by
        rintro task ⟨-, -, hdropped, -⟩
        rw [hchosen, hall, hkept]
        simp only [List.mem_toFinset, List.mem_map]
        constructor
        · rintro ⟨entry, hentry, hid⟩
          have hentryDropped : ¬ Dropped snapshot (· ∈ skippedIds) entry := by
            unfold Dropped at hdropped ⊢
            rwa [hid]
          cases hblock : classifyBlock entry snapshot with
          | none =>
              exact Or.inl ⟨entry, List.mem_filter.mpr ⟨hentry, by simp [Spawnable, hentryDropped, hblock]⟩,
                hid⟩
          | some block =>
              exact Or.inr ⟨entry, mem_keptQueue_of_left hslots hentry hentryDropped (by rw [hblock]; rfl),
                hid⟩
        · rintro (⟨entry, hentry, hid⟩ | ⟨entry, hentry, hid⟩)
          · exact ⟨entry, List.mem_of_mem_filter hentry, hid⟩
          · exact ⟨entry, (keptQueue_sublist _ _).subset hentry, hid⟩
      have hcandidates : firstById drained.chosen (snapshot.tasks.filter fun task =>
            Fillable snapshot (· ∈ skippedIds) task
              ∧ task.id ∉ (drained.queue.map SchedulerTaskSnapshot.id).toFinset)
          = fillCandidates snapshot (· ∈ skippedIds) := by
        rw [← Finset.union_empty drained.chosen, firstById_union, List.filter_filter, fillCandidates]
        refine congrArg (firstById ∅) (List.filter_congr fun task _ => ?_)
        by_cases hfillable : Fillable snapshot (· ∈ skippedIds) task
        · have hid := hids task hfillable
          simp only [hfillable, true_and, Bool.decide_and, hid, not_or]
        · simp [hfillable]
      rw [hcandidates] at hfill
      refine ⟨hdispatched.trans ?_, hqueue.trans hkept⟩
      exact hfill

/-! ### The FIFO scan -/

variable (skippedIds) in
/-- The scan picks the first queue candidate and leaves the others. -/
theorem pickFifo_spec (queue : List SchedulerTaskSnapshot) (kept : List SchedulerTaskSnapshot)
    {tick : Tick} (hmarked : NoMintMarked snapshot tick)
    (hkept : kept.filter (fun task => Spawnable snapshot (· ∈ skippedIds) task) = []) :
    (pickFifo snapshot skippedIds queue kept tick).picked
        = (queue.filter fun task => Spawnable snapshot (· ∈ skippedIds) task).head?
      ∧ (pickFifo snapshot skippedIds queue kept tick).queue.filter
          (fun task => Spawnable snapshot (· ∈ skippedIds) task)
        = (queue.filter fun task => Spawnable snapshot (· ∈ skippedIds) task).tail
      ∧ Dispatched snapshot tick (pickFifo snapshot skippedIds queue kept tick).tick [] := by
  induction queue generalizing kept tick with
  | nil => exact ⟨rfl, hkept, Dispatched.refl hmarked⟩
  | cons candidate rest ih =>
      by_cases hdropped : Dropped snapshot (· ∈ skippedIds) candidate
      · have hstep : pickFifo snapshot skippedIds (candidate :: rest) kept tick
            = pickFifo snapshot skippedIds rest kept tick := by
          rw [pickFifo]
          rcases hdropped with hassigned | hskipped | hnoMint
          · rw [if_pos hassigned]
          · rw [if_pos (Or.inl hskipped), ite_self]
          · rw [if_pos (Or.inr ((hmarked candidate.id).mpr hnoMint)), ite_self]
        rw [hstep, List.filter_cons_of_neg (by simp [Spawnable, hdropped])]
        exact ih kept hmarked hkept
      · obtain ⟨hassigned, hskipped, hnoMint⟩ : candidate.id ∉ snapshot.assignedTaskIds
            ∧ candidate.id ∉ skippedIds ∧ ¬ IsNoMint snapshot candidate.id := by
          simpa only [Dropped, not_or] using hdropped
        have hmark : ¬ (candidate.id ∈ skippedIds
            ∨ tick.dispositions.get? candidate.id = some .noMint) := by
          rw [hmarked candidate.id]
          exact not_or.mpr ⟨hskipped, hnoMint⟩
        rw [pickFifo, if_neg hassigned, if_neg hmark]
        cases hblock : classifyBlock candidate snapshot with
        | some block =>
            have hhere := dispatched_block hmarked hnoMint hblock
            have hkept' : (kept ++ [candidate]).filter
                (fun task => Spawnable snapshot (· ∈ skippedIds) task) = [] := by
              rw [List.filter_append, hkept, List.filter_cons_of_neg (by simp [Spawnable, hblock])]
              rfl
            obtain ⟨hpicked, hqueue, hdispatched⟩ := ih _ hhere.marked hkept'
            rw [List.filter_cons_of_neg (by simp [Spawnable, hblock])]
            exact ⟨hpicked, hqueue, hhere.trans hdispatched⟩
        | none =>
            rw [List.filter_cons_of_pos (by simp [Spawnable, hdropped, hblock])]
            refine ⟨rfl, ?_, Dispatched.refl hmarked⟩
            rw [List.filter_append, hkept, List.nil_append, List.tail_cons]

variable (skippedIds) in
theorem fifoLoop_spec (completedIds : List String) (queue : List SchedulerTaskSnapshot) {tick : Tick}
    (hmarked : NoMintMarked snapshot tick) :
    Dispatched snapshot tick (fifoLoop snapshot skippedIds completedIds queue tick).2
      ((queue.filter fun task => Spawnable snapshot (· ∈ skippedIds) task).take
        completedIds.length) := by
  induction completedIds generalizing queue tick with
  | nil => exact Dispatched.refl hmarked
  | cons completedId rest ih =>
      obtain ⟨hpicked, hqueue, hscan⟩ := pickFifo_spec skippedIds queue []
        hmarked rfl
      unfold fifoLoop
      dsimp only
      rw [hpicked]
      cases hcandidates : queue.filter fun task => Spawnable snapshot (· ∈ skippedIds) task with
      | nil => exact hscan
      | cons next others =>
          rw [hcandidates, List.tail_cons] at hqueue
          have hnext : next ∈ queue.filter fun task => Spawnable snapshot (· ∈ skippedIds) task :=
            hcandidates ▸ List.mem_cons_self
          have hspawnable := (List.mem_filter.mp hnext).2
          rw [decide_eq_true_eq] at hspawnable
          have hnoMint : ¬ IsNoMint snapshot next.id :=
            fun h => hspawnable.1 (Or.inr (Or.inr h))
          have hhere : Dispatched snapshot (pickFifo snapshot skippedIds queue [] tick).tick
              (((pickFifo snapshot skippedIds queue [] tick).tick.emit
                [.killWorker completedId, .spawnTask next.id .queueDrain]).dispose next.id .spawn)
              [next] := by
            refine ⟨?_, ?_, ?_, hscan.marked.dispose hnoMint (by simp) _⟩
            · simp [Tick.dispose, Tick.emit, spawnsOf, SchedulerEffect.spawn?, List.filterMap_cons]
            · simp [Tick.dispose, Tick.emit, skipsOf, SchedulerEffect.skip?, List.filterMap_cons]
            · simp [Tick.dispose, Tick.emit, settlementsOf, SchedulerEffect.settled?,
                List.filterMap_cons]
          have hrest := ih (pickFifo snapshot skippedIds queue [] tick).queue hhere.marked
          rw [hqueue] at hrest
          exact hscan.trans (hhere.trans hrest)

end Deckent.SchedulerReducer
