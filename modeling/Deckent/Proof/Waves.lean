import Deckent.Proof.TopologicalOrder

/-!
# The waves

`buildWaves` takes all ready slots at once, cuts them into waves of at most `maxWorkers` slots and
decrements the counters of their dependents. The slots of a wave wait only for slots resolved in
earlier rounds, so the waves are a layering, and on an acyclic graph each round resolves at least one
slot until every slot has its wave.
-/

namespace Deckent.ExecutionTopology

/-! ### One round -/

theorem flatten_chunks {maxWorkers : Nat} (hmax : 1 ≤ maxWorkers) {fuel : Nat} {ready : List Nat}
    (hfuel : ready.length ≤ fuel) : (chunks maxWorkers fuel ready).flatten = ready := by
  induction fuel generalizing ready with
  | zero =>
      have hnil : ready = [] := List.length_eq_zero_iff.mp (Nat.le_zero.mp hfuel)
      rw [hnil, chunks, List.flatten_nil]
  | succ fuel ih =>
      cases ready with
      | nil => rfl
      | cons slot rest =>
          have hshorter : ((slot :: rest).drop maxWorkers).length ≤ fuel := by
            rw [List.length_drop]
            omega
          rw [chunks, List.flatten_cons, ih hshorter, List.take_append_drop]
          exact List.cons_ne_nil slot rest

theorem length_le_of_mem_chunks {maxWorkers fuel : Nat} {ready slots : List Nat}
    (hslots : slots ∈ chunks maxWorkers fuel ready) : slots.length ≤ maxWorkers := by
  induction fuel generalizing ready with
  | zero => exact absurd hslots List.not_mem_nil
  | succ fuel ih =>
      cases ready with
      | nil => exact absurd hslots List.not_mem_nil
      | cons slot rest =>
          rw [chunks, List.mem_cons] at hslots
          · rcases hslots with rfl | hslots
            · exact List.length_take_le _ _
            · exact ih hslots
          · exact List.cons_ne_nil slot rest

theorem map_slots_foldl_pushWave (added : List (List Nat)) (waves : List Wave) :
    (added.foldl pushWave waves).map Wave.slots = waves.map Wave.slots ++ added := by
  induction added generalizing waves with
  | nil => simp
  | cons slots rest ih => simp [ih, pushWave]

def Numbered (waves : List Wave) : Prop := waves.map Wave.wave = List.range' 1 waves.length

theorem Numbered.foldl_pushWave {waves : List Wave} (h : Numbered waves) (added : List (List Nat)) :
    Numbered (added.foldl pushWave waves) := by
  induction added generalizing waves with
  | nil => exact h
  | cons slots rest ih =>
      refine ih ?_
      unfold Numbered pushWave at *
      rw [List.map_append, h, List.length_append, List.length_singleton, List.range'_concat]
      simp [Nat.add_comm]

theorem foldl_decrement {dependents : List Nat} (hnodup : dependents.Nodup) (incoming : Nat → Int)
    (slot : Nat) :
    dependents.foldl (fun incoming dependent =>
        Function.update incoming dependent (incoming dependent - 1)) incoming slot
      = incoming slot - if slot ∈ dependents then 1 else 0 := by
  induction dependents generalizing incoming with
  | nil => simp
  | cons dependent rest ih =>
      obtain ⟨hfresh, hrest⟩ := List.nodup_cons.mp hnodup
      rw [List.foldl_cons, ih hrest]
      by_cases hslot : slot = dependent
      · subst hslot
        simp [hfresh]
      · simp [hslot]

variable {edges : List Edge} {taskCount maxWorkers : Nat}

theorem foldl_resolveSlot {slots : List Nat} {incoming : Nat → Int} {resolved : OrderedSet Nat}
    (hnodup : slots.Nodup) (hnew : ∀ slot ∈ slots, slot ∉ resolved)
    (hwaiting : ∀ x, incoming x = waitingOn (predecessors edges) resolved.members.toFinset x) :
    (slots.foldl (resolveSlot (adjacencyOf edges).outgoing) (incoming, resolved)).2.members
        = resolved.members ++ slots
      ∧ ∀ x, (slots.foldl (resolveSlot (adjacencyOf edges).outgoing) (incoming, resolved)).1 x
        = waitingOn (predecessors edges) (resolved.members ++ slots).toFinset x := by
  induction slots generalizing incoming resolved with
  | nil => simpa using hwaiting
  | cons slot rest ih =>
      obtain ⟨hfresh, hrest⟩ := List.nodup_cons.mp hnodup
      have hslot : slot ∉ resolved.members := hnew slot List.mem_cons_self
      have hadd : (resolved.add slot).members = resolved.members ++ [slot] := by
        rw [OrderedSet.add, dif_neg hslot]
      have hnew' : ∀ x ∈ rest, x ∉ resolved.add slot := by
        intro x hx
        rw [OrderedSet.mem_add, not_or]
        exact ⟨hnew x (List.mem_cons_of_mem _ hx), fun heq => hfresh (heq ▸ hx)⟩
      have hwaiting' : ∀ x, (resolveSlot (adjacencyOf edges).outgoing (incoming, resolved) slot).1 x
          = waitingOn (predecessors edges) (resolved.add slot).members.toFinset x := by
        intro x
        have hinsert : (resolved.add slot).members.toFinset
            = insert slot resolved.members.toFinset := by
          rw [hadd]
          ext y
          simp
        have hnotin : slot ∉ resolved.members.toFinset := fun hin => hslot (List.mem_toFinset.mp hin)
        have hiff : x ∈ ((adjacencyOf edges).outgoing slot).members ↔ slot ∈ predecessors edges x :=
          mem_outgoing.trans mem_predecessors.symm
        rw [hinsert, waitingOn_insert hnotin, ← hwaiting x]
        simp only [resolveSlot, foldl_decrement (OrderedSet.nodup _), hiff]
      obtain ⟨hmembers, hcounts⟩ := ih hrest hnew' hwaiting'
      rw [hadd, List.append_assoc, List.singleton_append] at hmembers hcounts
      exact ⟨hmembers, hcounts⟩

/-! ### The loop -/

structure WaveInvariant (edges : List Edge) (taskCount maxWorkers : Nat) (state : WaveState) :
    Prop where
  resolved : state.resolved.members = (state.waves.map Wave.slots).flatten
  subset : ∀ slot ∈ state.resolved, slot ∈ slotsOf taskCount
  layering : IsLayering (edgeRel edges) (state.waves.map Wave.slots)
  waiting : ∀ slot, state.incoming slot
    = waitingOn (predecessors edges) state.resolved.members.toFinset slot
  width : ∀ wave ∈ state.waves, wave.slots.length ≤ maxWorkers
  numbered : Numbered state.waves

theorem WaveInvariant.initial (edges : List Edge) (taskCount maxWorkers : Nat) :
    WaveInvariant edges taskCount maxWorkers
      { incoming := (adjacencyOf edges).incoming, resolved := ∅, waves := [] } where
  resolved := rfl
  subset slot hslot := absurd hslot (OrderedSet.notMem_empty slot)
  layering := isLayering_nil
  waiting _ := incoming_eq
  width := by simp
  numbered := rfl

theorem WaveInvariant.round {state : WaveState} (h : WaveInvariant edges taskCount maxWorkers state)
    (hmax : 1 ≤ maxWorkers) {sorted : List Nat} (hnodup : sorted.Nodup)
    (hsorted : ∀ slot ∈ sorted, slot ∈ slotsOf taskCount ∧ slot ∉ state.resolved
      ∧ state.incoming slot = 0) :
    WaveInvariant edges taskCount maxWorkers
      { incoming := (sorted.foldl (resolveSlot (adjacencyOf edges).outgoing)
          (state.incoming, state.resolved)).1
        resolved := (sorted.foldl (resolveSlot (adjacencyOf edges).outgoing)
          (state.incoming, state.resolved)).2
        waves := (chunks maxWorkers sorted.length sorted).foldl pushWave state.waves } := by
  obtain ⟨hmembers, hcounts⟩ := foldl_resolveSlot hnodup (fun slot hslot => (hsorted slot hslot).2.1)
    h.waiting
  have hflatten : (chunks maxWorkers sorted.length sorted).flatten = sorted :=
    flatten_chunks hmax le_rfl
  refine ⟨?_, ?_, ?_, ?_, ?_, h.numbered.foldl_pushWave _⟩
  · rw [map_slots_foldl_pushWave, List.flatten_append, hflatten, hmembers, h.resolved]
  · intro slot hslot
    rw [OrderedSet.mem_def, hmembers, List.mem_append] at hslot
    rcases hslot with hslot | hslot
    · exact h.subset slot hslot
    · exact (hsorted slot hslot).1
  · rw [map_slots_foldl_pushWave]
    refine h.layering.append fun layer hlayer b hb a hedge => ?_
    have hb' : b ∈ sorted := hflatten ▸ List.mem_flatten.mpr ⟨layer, hlayer, hb⟩
    have hready := (hsorted b hb').2.2
    rw [h.waiting b, waitingOn_eq_zero_iff] at hready
    rw [← h.resolved]
    exact List.mem_toFinset.mp (hready (mem_predecessors.mpr hedge))
  · intro slot
    rw [hmembers]
    exact hcounts slot
  · intro wave hwave
    have hslots : wave.slots ∈ state.waves.map Wave.slots ++ chunks maxWorkers sorted.length sorted := by
      rw [← map_slots_foldl_pushWave]
      exact List.mem_map_of_mem hwave
    rcases List.mem_append.mp hslots with hold | hnew
    · obtain ⟨old, hold, heq⟩ := List.mem_map.mp hold
      rw [← heq]
      exact h.width old hold
    · exact length_le_of_mem_chunks hnew

theorem WaveInvariant.exists_ready {state : WaveState}
    (h : WaveInvariant edges taskCount maxWorkers state) (hwithin : EdgesWithin taskCount edges)
    (hacyclic : Acyclic (edgeRel edges)) (hsize : state.resolved.size < taskCount) :
    ∃ slot ∈ slotsOf taskCount, slot ∉ state.resolved ∧ state.incoming slot = 0 := by
  have hrest : ((slotsOf taskCount).toFinset \ state.resolved.members.toFinset).Nonempty := by
    rw [Finset.sdiff_nonempty]
    intro hall
    have hcard := Finset.card_le_card hall
    rw [List.toFinset_card_of_nodup (nodup_slotsOf taskCount), length_slotsOf,
      List.toFinset_card_of_nodup state.resolved.nodup] at hcard
    exact absurd hsize (not_lt.mpr hcard)
  obtain ⟨slot, hslot, hout, hzero⟩ :=
    (acyclic_predecessors hacyclic).exists_ready (predecessors_subset hwithin) hrest
  exact ⟨slot, List.mem_toFinset.mp hslot, fun hin => hout (List.mem_toFinset.mpr hin),
    (h.waiting slot).trans hzero⟩

theorem WaveInvariant.waveLoop {fuel : Nat} {state : WaveState}
    (h : WaveInvariant edges taskCount maxWorkers state) (hwithin : EdgesWithin taskCount edges)
    (hacyclic : Acyclic (edgeRel edges)) (hmax : 1 ≤ maxWorkers)
    (hfuel : taskCount ≤ fuel + state.resolved.size) :
    WaveInvariant edges taskCount maxWorkers
        (waveLoop taskCount maxWorkers (adjacencyOf edges).outgoing fuel state)
      ∧ taskCount
        ≤ (waveLoop taskCount maxWorkers (adjacencyOf edges).outgoing fuel state).resolved.size := by
  induction fuel generalizing state with
  | zero => exact ⟨h, by rwa [Nat.zero_add] at hfuel⟩
  | succ fuel ih =>
      unfold ExecutionTopology.waveLoop
      by_cases hsize : state.resolved.size < taskCount
      · obtain ⟨slot, hslot, hout, hzero⟩ := h.exists_ready hwithin hacyclic hsize
        rw [if_pos hsize]
        have hmem : ∀ x, x ∈ (slotsOf taskCount).filter
              (fun slot => slot ∉ state.resolved ∧ state.incoming slot = 0)
            ↔ x ∈ slotsOf taskCount ∧ x ∉ state.resolved ∧ state.incoming x = 0 := by simp
        have hfound := (hmem slot).mpr ⟨hslot, hout, hzero⟩
        have hnodup : (sortBy compareNumber ((slotsOf taskCount).filter
            (fun slot => slot ∉ state.resolved ∧ state.incoming slot = 0))).Nodup :=
          nodup_sortBy.mpr ((nodup_slotsOf taskCount).filter _)
        have hsorted : ∀ x ∈ sortBy compareNumber ((slotsOf taskCount).filter
              (fun slot => slot ∉ state.resolved ∧ state.incoming slot = 0)),
            x ∈ slotsOf taskCount ∧ x ∉ state.resolved ∧ state.incoming x = 0 :=
          fun x hx => (hmem x).mp (mem_sortBy.mp hx)
        simp only [if_neg (List.ne_nil_of_mem hfound)]
        refine ih (h.round hmax hnodup hsorted) ?_
        have hgrow := (foldl_resolveSlot hnodup (fun x hx => (hsorted x hx).2.1) h.waiting).1
        have hpos := List.length_pos_of_mem (mem_sortBy.mpr hfound : _ ∈ sortBy compareNumber _)
        rw [OrderedSet.size, hgrow, List.length_append]
        unfold OrderedSet.size at hfuel
        omega
      · rw [if_neg hsize]
        exact ⟨h, not_lt.mp hsize⟩

/-! ### The result -/

theorem buildWaves_invariant (hwithin : EdgesWithin taskCount edges)
    (hacyclic : Acyclic (edgeRel edges)) (hmax : 1 ≤ maxWorkers) :
    IsLayering (edgeRel edges) ((buildWaves taskCount edges maxWorkers).map Wave.slots)
      ∧ ((buildWaves taskCount edges maxWorkers).map Wave.slots).flatten.Perm (slotsOf taskCount)
      ∧ (∀ wave ∈ buildWaves taskCount edges maxWorkers, wave.slots.length ≤ maxWorkers)
      ∧ Numbered (buildWaves taskCount edges maxWorkers) := by
  obtain ⟨h, hall⟩ := (WaveInvariant.initial edges taskCount maxWorkers).waveLoop hwithin hacyclic
    hmax (Nat.le_add_right taskCount _)
  refine ⟨h.layering, ?_, h.width, h.numbered⟩
  refine List.Perm.trans (List.Perm.of_eq h.resolved.symm) ?_
  exact (List.subperm_of_subset (OrderedSet.nodup _) h.subset).perm_of_length_le
    (by rwa [length_slotsOf])

/-- Slots 1 to 3 are ready together and fill two waves before slot 4 gets its own. -/
example : (buildWaves 4 [{ fromSlot := 1, toSlot := 4, source := .authored }] 2).map Wave.slots
    = [[1, 2], [3], [4]] := by decide

theorem wave_eq_layerOf {waves : List Wave} (hnumbered : Numbered waves)
    (hnodup : (waves.map Wave.slots).flatten.Nodup) {wave : Wave} (hwave : wave ∈ waves) {slot : Nat}
    (hslot : slot ∈ wave.slots) : wave.wave = layerOf (waves.map Wave.slots) slot + 1 := by
  obtain ⟨before, after, rfl⟩ := List.append_of_mem hwave
  have hlayer : layerOf ((before ++ wave :: after).map Wave.slots) slot = before.length := by
    rw [List.map_append, List.map_cons] at hnodup ⊢
    rw [layerOf_eq_length hnodup hslot, List.length_map]
  have hnumber : ((before ++ wave :: after).map Wave.wave)[before.length]? = some wave.wave := by
    simp
  rw [hnumbered, List.getElem?_range' (by simp)] at hnumber
  have hvalue := Option.some.inj hnumber
  omega

end Deckent.ExecutionTopology
