import Mathlib.Algebra.BigOperators.Group.Finset.Piecewise
import Deckent.Lib.Layering
import Deckent.Model.ExecutionTopology

/-!
# The topological order
`topologicalOrder` repeatedly takes the least ready slot and decrements the counters of its
dependents. The invariant of the loop: the order so far is a layering of its own slots, each counter is
the number of predecessors not yet taken, and a slot is ready exactly when it is not taken and waits
for nothing. When the loop stops nothing is ready, so on an acyclic graph every slot has been taken.
-/

/-! ### Adjacency and reachability of an edge list

The outgoing sets of an edge list hold exactly its edges, its counters hold the number of distinct
predecessors, and `buildReachability` is the transitive closure of the edges. -/

namespace Deckent.ExecutionTopology

open Relation

/-- `b` waits for `a` by one of the edges. -/
def edgeRel (edges : List Edge) (a b : Nat) : Prop :=
  ∃ edge ∈ edges, edge.fromSlot = a ∧ edge.toSlot = b

def predecessors (edges : List Edge) (b : Nat) : Finset Nat :=
  ((edges.filter fun edge => edge.toSlot = b).map Edge.fromSlot).toFinset

@[simp]
theorem mem_predecessors {edges : List Edge} {a b : Nat} :
    a ∈ predecessors edges b ↔ edgeRel edges a b := by
  simp only [predecessors, List.mem_toFinset, List.mem_map, List.mem_filter, decide_eq_true_eq,
    edgeRel]
  constructor
  · rintro ⟨edge, ⟨hedge, hto⟩, hfrom⟩
    exact ⟨edge, hedge, hfrom, hto⟩
  · rintro ⟨edge, hedge, hfrom, hto⟩
    exact ⟨edge, ⟨hedge, hto⟩, hfrom⟩

theorem edgeRel_concat {edges : List Edge} {edge : Edge} {a b : Nat} :
    edgeRel (edges ++ [edge]) a b
      ↔ edgeRel edges a b ∨ edge.fromSlot = a ∧ edge.toSlot = b := by
  simp [edgeRel, or_and_right, exists_or]

theorem predecessors_concat (edges : List Edge) (edge : Edge) (b : Nat) :
    predecessors (edges ++ [edge]) b
      = if edge.toSlot = b then insert edge.fromSlot (predecessors edges b)
        else predecessors edges b := by
  ext a
  split
  · next hto =>
      simp only [mem_predecessors, edgeRel_concat, Finset.mem_insert, hto, and_true, eq_comm]
      exact or_comm
  · next hto => simp [edgeRel_concat, hto]

theorem adjacencyOf_concat (edges : List Edge) (edge : Edge) :
    adjacencyOf (edges ++ [edge]) = (adjacencyOf edges).addEdge edge := by
  rw [adjacencyOf, List.foldl_append]
  rfl

theorem mem_outgoing {edges : List Edge} {a b : Nat} :
    b ∈ (adjacencyOf edges).outgoing a ↔ edgeRel edges a b := by
  induction edges using List.reverseRecOn generalizing a b with
  | nil =>
      simp only [edgeRel, List.not_mem_nil, false_and, exists_false, iff_false]
      exact OrderedSet.notMem_empty b
  | append_singleton edges edge ih =>
      rw [adjacencyOf_concat, edgeRel_concat, ← ih]
      unfold Adjacency.addEdge
      split
      · next hold =>
          refine ⟨Or.inl, ?_⟩
          rintro (h | ⟨rfl, rfl⟩)
          · exact h
          · exact hold
      · by_cases ha : a = edge.fromSlot
        · subst ha
          simp [eq_comm]
        · simp [Function.update_of_ne ha, Ne.symm ha]

theorem incoming_eq {edges : List Edge} {b : Nat} :
    (adjacencyOf edges).incoming b = waitingOn (predecessors edges) ∅ b := by
  rw [waitingOn, Finset.sdiff_empty]
  induction edges using List.reverseRecOn with
  | nil => rfl
  | append_singleton edges edge ih =>
      rw [adjacencyOf_concat, predecessors_concat]
      unfold Adjacency.addEdge
      split
      · next hold =>
          rw [mem_outgoing, ← mem_predecessors] at hold
          split
          · next hto => rw [ih, Finset.insert_eq_of_mem (hto ▸ hold)]
          · exact ih
      · next hnew =>
          rw [mem_outgoing, ← mem_predecessors] at hnew
          split
          · next hto =>
              subst hto
              rw [Finset.card_insert_of_notMem hnew]
              simp [ih]
          · next hto => simp [Function.update_of_ne (Ne.symm hto), ih]

/-! ### Reachability -/

theorem sum_outgoing_le (edges : List Edge) (vertices : Finset Nat) :
    ∑ a ∈ vertices, ((adjacencyOf edges).outgoing a).members.length ≤ edges.length := by
  induction edges using List.reverseRecOn with
  | nil => exact le_of_eq (Finset.sum_eq_zero fun _ _ => rfl)
  | append_singleton edges edge ih =>
      rw [adjacencyOf_concat, List.length_append, List.length_singleton]
      unfold Adjacency.addEdge
      split
      · exact ih.trans (Nat.le_succ _)
      · next hnew =>
          have hlength : ∀ a,
              (Function.update (adjacencyOf edges).outgoing edge.fromSlot
                (((adjacencyOf edges).outgoing edge.fromSlot).add edge.toSlot) a).members.length
                = ((adjacencyOf edges).outgoing a).members.length
                  + if a = edge.fromSlot then 1 else 0 := by
            intro a
            by_cases ha : a = edge.fromSlot
            · subst ha
              rw [Function.update_self, if_pos rfl]
              exact OrderedSet.size_add_of_notMem hnew
            · rw [Function.update_of_ne ha, if_neg ha, add_zero]
          have hone : (∑ a ∈ vertices, if a = edge.fromSlot then 1 else 0) ≤ 1 := by
            rw [Finset.sum_ite_eq']
            split <;> omega
          simp only [hlength, Finset.sum_add_distrib]
          omega

theorem mem_buildReachability {edges : List Edge} {a b : Nat} :
    b ∈ buildReachability edges a ↔ TransGen (edgeRel edges) a b := by
  have hnext : (fun x y => y ∈ ((adjacencyOf edges).outgoing x).members) = edgeRel edges := by
    funext x y
    exact propext mem_outgoing
  let vertices : Finset Nat := insert a (edges.map Edge.toSlot).toFinset
  have hclosed : ∀ x ∈ vertices, ∀ y ∈ ((adjacencyOf edges).outgoing x).members,
      y ∈ vertices := by
    intro x _ y hy
    obtain ⟨edge, hedge, -, rfl⟩ := mem_outgoing.mp hy
    exact Finset.mem_insert_of_mem (List.mem_toFinset.mpr (List.mem_map_of_mem hedge))
  have hwork : searchWork (fun x => ((adjacencyOf edges).outgoing x).members) vertices
      (sortBy compareNumber ((adjacencyOf edges).outgoing a).members) ∅ ≤ 2 * edges.length := by
    have hall := sum_outgoing_le edges vertices
    have hone := sum_outgoing_le edges {a}
    rw [Finset.sum_singleton] at hone
    rw [searchWork, length_sortBy, Finset.sdiff_empty]
    omega
  rw [← hnext]
  exact mem_search_next_iff hclosed (fun _ => mem_sortBy) (Finset.mem_insert_self _ _) hwork

end Deckent.ExecutionTopology

namespace Deckent.ExecutionTopology

theorem mem_slotsOf {taskCount slot : Nat} : slot ∈ slotsOf taskCount ↔ 1 ≤ slot ∧ slot ≤ taskCount := by
  rw [slotsOf, List.mem_range'_1]
  omega

theorem nodup_slotsOf (taskCount : Nat) : (slotsOf taskCount).Nodup := List.nodup_range'

theorem length_slotsOf (taskCount : Nat) : (slotsOf taskCount).length = taskCount :=
  List.length_range'

def EdgesWithin (taskCount : Nat) (edges : List Edge) : Prop :=
  ∀ edge ∈ edges, edge.fromSlot ∈ slotsOf taskCount ∧ edge.toSlot ∈ slotsOf taskCount

theorem mem_of_length_slots {taskCount : Nat} {list : List Nat} (hnodup : list.Nodup)
    (hsubset : ∀ a ∈ list, a ∈ slotsOf taskCount) (hlength : taskCount ≤ list.length) {slot : Nat}
    (hslot : slot ∈ slotsOf taskCount) : slot ∈ list := by
  have hperm : list.Perm (slotsOf taskCount) :=
    (List.subperm_of_subset hnodup hsubset).perm_of_length_le (by rwa [length_slotsOf])
  exact hperm.mem_iff.mpr hslot

/-! ### Releasing the dependents of a slot -/

theorem foldl_releaseOne {dependents : List Nat} (hnodup : dependents.Nodup)
    (incoming : Nat → Int) (ready : List Nat) :
    dependents.foldl releaseOne (incoming, ready)
      = (fun slot => incoming slot - if slot ∈ dependents then 1 else 0,
        ready ++ dependents.filter fun slot => incoming slot = 1) := by
  induction dependents generalizing incoming ready with
  | nil => simp
  | cons dependent rest ih =>
      obtain ⟨hfresh, hrest⟩ := List.nodup_cons.mp hnodup
      rw [List.foldl_cons, releaseOne, ih hrest, List.filter_cons]
      refine Prod.ext ?_ ?_
      · funext slot
        by_cases hslot : slot = dependent
        · subst hslot
          simp [hfresh]
        · simp [hslot]
      · have hsame : rest.filter (fun slot => decide (Function.update incoming dependent
            (incoming dependent - 1) slot = 1)) = rest.filter fun slot => incoming slot = 1 := by
          refine List.filter_congr fun slot hslot => ?_
          have hne : slot ≠ dependent := fun heq => hfresh (heq ▸ hslot)
          rw [Function.update_of_ne hne]
        have hone : incoming dependent - 1 = 0 ↔ incoming dependent = 1 := by omega
        simp only [hsame, Function.update_self, hone, decide_eq_true_eq]
        split <;> simp

/-! ### The loop -/

structure OrderInvariant (edges : List Edge) (taskCount : Nat) (state : OrderState) : Prop where
  nodup : state.order.Nodup
  subset : ∀ slot ∈ state.order, slot ∈ slotsOf taskCount
  layering : IsLayering (edgeRel edges) (state.order.map fun slot => [slot])
  waiting : ∀ slot, state.incoming slot = waitingOn (predecessors edges) state.order.toFinset slot
  nodupReady : state.ready.Nodup
  mem_ready : ∀ slot, slot ∈ state.ready
    ↔ slot ∈ slotsOf taskCount ∧ slot ∉ state.order ∧ state.incoming slot = 0

variable {edges : List Edge} {taskCount : Nat}

theorem orderInvariant_iff_peeling {state : OrderState} :
    OrderInvariant edges taskCount state
      ↔ Peeling (predecessors edges) (slotsOf taskCount).toFinset state.order state.ready state.incoming := by
  have hrel : (fun a b => a ∈ predecessors edges b) = edgeRel edges := by
    funext a b
    exact propext mem_predecessors
  constructor
  · intro h
    exact ⟨h.nodup, fun slot hslot => List.mem_toFinset.mpr (h.subset slot hslot), hrel ▸ h.layering,
      h.waiting, h.nodupReady, fun slot => by rw [h.mem_ready, List.mem_toFinset]⟩
  · intro h
    exact ⟨h.nodup, fun slot hslot => List.mem_toFinset.mp (h.subset slot hslot), hrel ▸ h.layering,
      h.waiting, h.nodupReady, fun slot => by rw [h.mem_ready, List.mem_toFinset]⟩

theorem OrderInvariant.initial (edges : List Edge) (taskCount : Nat) :
    OrderInvariant edges taskCount
      { incoming := (adjacencyOf edges).incoming
        ready := (slotsOf taskCount).filter fun slot => (adjacencyOf edges).incoming slot = 0
        order := [] } :=
  orderInvariant_iff_peeling.mpr
    (Peeling.start (fun _ => incoming_eq) ((nodup_slotsOf taskCount).filter _) fun slot => by simp)

theorem OrderInvariant.step {state : OrderState} {slot : Nat} {ready dependents : List Nat}
    (h : OrderInvariant edges taskCount state) (hwithin : EdgesWithin taskCount edges)
    (hready : sortBy compareNumber state.ready = slot :: ready) (hnodupDependents : dependents.Nodup)
    (hdependents : ∀ x, x ∈ dependents ↔ edgeRel edges slot x) :
    OrderInvariant edges taskCount
      { incoming := (dependents.foldl releaseOne (state.incoming, ready)).1
        ready := (dependents.foldl releaseOne (state.incoming, ready)).2
        order := state.order ++ [slot] } := by
  have hperm : state.ready.Perm (slot :: ready) := hready ▸ (perm_sortBy compareNumber state.ready).symm
  have htargets : ∀ x ∈ dependents, x ∈ (slotsOf taskCount).toFinset := by
    intro x hx
    obtain ⟨edge, hedge, -, rfl⟩ := (hdependents x).mp hx
    exact List.mem_toFinset.mpr (hwithin edge hedge).2
  rw [foldl_releaseOne hnodupDependents]
  exact orderInvariant_iff_peeling.mpr ((orderInvariant_iff_peeling.mp h).take hperm hnodupDependents
    (fun x => (hdependents x).trans mem_predecessors.symm) htargets)

theorem OrderInvariant.orderLoop {fuel : Nat} {state : OrderState}
    (h : OrderInvariant edges taskCount state) (hwithin : EdgesWithin taskCount edges)
    (hfuel : taskCount ≤ fuel + state.order.length) :
    OrderInvariant edges taskCount (orderLoop (adjacencyOf edges).outgoing fuel state)
      ∧ (orderLoop (adjacencyOf edges).outgoing fuel state).ready = [] := by
  induction fuel generalizing state with
  | zero =>
      refine ⟨h, List.eq_nil_iff_forall_not_mem.mpr fun slot hslot => ?_⟩
      obtain ⟨hin, hout, -⟩ := (h.mem_ready slot).mp hslot
      exact hout (mem_of_length_slots h.nodup h.subset (by omega) hin)
  | succ fuel ih =>
      cases hready : sortBy compareNumber state.ready with
      | nil =>
          have hempty : state.ready = [] := by
            rw [← List.length_eq_zero_iff, ← length_sortBy compareNumber, hready, List.length_nil]
          simp only [ExecutionTopology.orderLoop, hready]
          exact ⟨h, hempty⟩
      | cons slot ready =>
          simp only [ExecutionTopology.orderLoop, hready]
          refine ih (h.step hwithin hready (nodup_sortBy.mpr (OrderedSet.nodup _)) fun x =>
            mem_sortBy.trans mem_outgoing) ?_
          rw [List.length_append, List.length_singleton]
          omega

/-! ### Its result -/

theorem acyclic_predecessors (hacyclic : Acyclic (edgeRel edges)) :
    Acyclic fun a b => a ∈ predecessors edges b := by
  simpa only [mem_predecessors] using hacyclic

theorem predecessors_subset (hwithin : EdgesWithin taskCount edges) (b : Nat) :
    predecessors edges b ⊆ (slotsOf taskCount).toFinset := by
  intro a ha
  obtain ⟨edge, hedge, rfl, -⟩ := mem_predecessors.mp ha
  exact List.mem_toFinset.mpr (hwithin edge hedge).1

theorem topologicalOrder_layering (hwithin : EdgesWithin taskCount edges) :
    IsLayering (edgeRel edges) ((topologicalOrder taskCount edges).1.map fun slot => [slot]) :=
  ((OrderInvariant.initial edges taskCount).orderLoop hwithin (Nat.le_add_right _ _)).1.layering

theorem mem_topologicalOrder (hwithin : EdgesWithin taskCount edges)
    (hacyclic : Acyclic (edgeRel edges)) {slot : Nat} (hslot : slot ∈ slotsOf taskCount) :
    slot ∈ (topologicalOrder taskCount edges).1 := by
  obtain ⟨h, hready⟩ :=
    (OrderInvariant.initial edges taskCount).orderLoop hwithin (Nat.le_add_right taskCount _)
  have hpeeling := orderInvariant_iff_peeling.mp h
  rw [hready] at hpeeling
  exact hpeeling.mem_order (acyclic_predecessors hacyclic) (predecessors_subset hwithin)
    (List.mem_toFinset.mpr hslot)

theorem topologicalOrder_cycleSlots (hwithin : EdgesWithin taskCount edges)
    (hacyclic : Acyclic (edgeRel edges)) : (topologicalOrder taskCount edges).2 = [] := by
  refine List.filter_eq_nil_iff.mpr fun slot hslot => ?_
  rw [decide_eq_true_eq, not_not]
  exact mem_topologicalOrder hwithin hacyclic hslot

theorem orderIndex_lt (hwithin : EdgesWithin taskCount edges) (hacyclic : Acyclic (edgeRel edges))
    {a b : Nat} (hedge : edgeRel edges a b) :
    orderIndex (topologicalOrder taskCount edges).1 a
      < orderIndex (topologicalOrder taskCount edges).1 b := by
  have hends : a ∈ slotsOf taskCount ∧ b ∈ slotsOf taskCount := by
    obtain ⟨edge, hmem, rfl, rfl⟩ := hedge
    exact hwithin edge hmem
  have ha := mem_topologicalOrder hwithin hacyclic hends.1
  have hb := mem_topologicalOrder hwithin hacyclic hends.2
  have hlt := (topologicalOrder_layering hwithin).layerOf_lt
    (by rwa [flatten_map_singleton]) hedge
  rw [layerOf_map_singleton, layerOf_map_singleton] at hlt
  rwa [orderIndex, orderIndex, if_pos ha, if_pos hb]

end Deckent.ExecutionTopology
