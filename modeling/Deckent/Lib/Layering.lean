import Deckent.Lib.Digraph

/-!
# Layerings of a directed graph

A layering lists vertices in layers so that every predecessor of a vertex stands in an earlier layer.
A topological order is a layering whose layers are single vertices; a schedule by waves is one whose
layers are the waves. The index of a vertex's layer rises along every edge, so a graph with a layering
of all its targets is acyclic.

Both kinds of layering are built by counting, for each vertex, the predecessors that are not done yet:
a vertex may be placed when its count is zero.
-/

namespace Deckent

section Layering

variable {α : Type*} {r : α → α → Prop} {layers : List (List α)}

/-- Every predecessor of a vertex stands in an earlier layer. -/
def IsLayering (r : α → α → Prop) (layers : List (List α)) : Prop :=
  ∀ before layer after, layers = before ++ layer :: after →
    ∀ b ∈ layer, ∀ a, r a b → a ∈ before.flatten

theorem isLayering_nil : IsLayering r [] := by
  intro before layer after hsplit
  simp at hsplit

theorem IsLayering.concat (h : IsLayering r layers) {layer : List α}
    (hlayer : ∀ b ∈ layer, ∀ a, r a b → a ∈ layers.flatten) : IsLayering r (layers ++ [layer]) := by
  intro before last after hsplit b hb a hab
  rcases List.eq_nil_or_concat after with rfl | ⟨after', last', rfl⟩
  · obtain ⟨rfl, hlast⟩ := List.append_inj' hsplit rfl
    obtain rfl : layer = last := by simpa using hlast
    exact hlayer b hb a hab
  · have hsplit' : layers ++ [layer] = (before ++ last :: after') ++ [last'] := by
      rw [hsplit, List.concat_eq_append, List.append_assoc, List.cons_append]
    exact h before last after' (List.append_inj' hsplit' rfl).1 b hb a hab

theorem IsLayering.append (h : IsLayering r layers) {added : List (List α)}
    (hadded : ∀ layer ∈ added, ∀ b ∈ layer, ∀ a, r a b → a ∈ layers.flatten) :
    IsLayering r (layers ++ added) := by
  induction added generalizing layers with
  | nil => simpa using h
  | cons layer rest ih =>
      have hnext : IsLayering r (layers ++ [layer]) := h.concat (hadded layer List.mem_cons_self)
      have hrest := ih hnext fun later hlater b hb a hab => by
        rw [List.flatten_append]
        exact List.mem_append_left _ (hadded later (List.mem_cons_of_mem _ hlater) b hb a hab)
      simpa using hrest

theorem IsLayering.pred_mem (h : IsLayering r layers) {a b : α} (hb : b ∈ layers.flatten)
    (hab : r a b) : a ∈ layers.flatten := by
  obtain ⟨layer, hlayer, hmem⟩ := List.mem_flatten.mp hb
  obtain ⟨before, after, rfl⟩ := List.append_of_mem hlayer
  rw [List.flatten_append]
  exact List.mem_append_left _ (h before layer after rfl b hmem a hab)

variable [DecidableEq α]

def layerOf (layers : List (List α)) (x : α) : Nat := layers.findIdx fun layer => x ∈ layer

theorem layerOf_append_of_mem {before : List (List α)} (after : List (List α)) {x : α}
    (hx : x ∈ before.flatten) :
    layerOf (before ++ after) x < before.length := by
  obtain ⟨layer, hlayer, hx⟩ := List.mem_flatten.mp hx
  have hfound : before.findIdx (fun layer => x ∈ layer) < before.length :=
    List.findIdx_lt_length_of_exists ⟨layer, hlayer, by simpa using hx⟩
  unfold layerOf
  rw [List.findIdx_append, if_pos hfound]
  exact hfound

theorem layerOf_eq_length {before after : List (List α)} {layer : List α} {x : α}
    (hnodup : (before ++ layer :: after).flatten.Nodup) (hx : x ∈ layer) :
    layerOf (before ++ layer :: after) x = before.length := by
  have hbefore : x ∉ before.flatten := by
    intro hmem
    rw [List.flatten_append, List.flatten_cons] at hnodup
    exact (List.nodup_append.mp hnodup).2.2 x hmem x (List.mem_append_left _ hx) rfl
  have hfirst : before.findIdx (fun layer => x ∈ layer) = before.length := by
    rw [List.findIdx_eq_length]
    intro other hother
    simp only [decide_eq_false_iff_not]
    exact fun hmem => hbefore (List.mem_flatten.mpr ⟨other, hother, hmem⟩)
  unfold layerOf
  rw [List.findIdx_append, hfirst, if_neg (lt_irrefl _)]
  simp [List.findIdx_cons, hx]

theorem layerOf_map_singleton (list : List α) (x : α) :
    layerOf (list.map fun y => [y]) x = list.idxOf x := by
  unfold layerOf
  rw [List.findIdx_map, List.idxOf]
  congr 1
  funext y
  by_cases hxy : y = x
  · simp [hxy]
  · simp [hxy, Ne.symm hxy]

theorem IsLayering.layerOf_lt (h : IsLayering r layers) {a b : α} (hb : b ∈ layers.flatten)
    (hab : r a b) : layerOf layers a < layerOf layers b := by
  obtain ⟨layer, hlayer, hmem⟩ := List.mem_flatten.mp hb
  have hfound : layerOf layers b < layers.length :=
    List.findIdx_lt_length_of_exists ⟨layer, hlayer, by simpa using hmem⟩
  have hbin : b ∈ layers[layerOf layers b] := by
    have hhere := List.findIdx_getElem (w := hfound)
    exact of_decide_eq_true hhere
  have hsplit : layers = layers.take (layerOf layers b)
      ++ layers[layerOf layers b] :: layers.drop (layerOf layers b + 1) := by simp
  have ha : a ∈ (layers.take (layerOf layers b)).flatten := h _ _ _ hsplit b hbin a hab
  have hlt := layerOf_append_of_mem (layers.drop (layerOf layers b)) ha
  rw [List.take_append_drop, List.length_take] at hlt
  exact lt_of_lt_of_le hlt (min_le_left _ _)

end Layering

section Waiting

variable {α : Type*} [DecidableEq α] (preds : α → Finset α)

def waitingOn (done : Finset α) (x : α) : Int := ((preds x \ done).card : Int)

variable {preds} {done : Finset α} {x : α}

theorem waitingOn_eq_zero_iff : waitingOn preds done x = 0 ↔ preds x ⊆ done := by
  rw [waitingOn, Int.natCast_eq_zero, Finset.card_eq_zero, Finset.sdiff_eq_empty_iff_subset]

theorem waitingOn_insert {a : α} (ha : a ∉ done) :
    waitingOn preds (insert a done) x = waitingOn preds done x - if a ∈ preds x then 1 else 0 := by
  unfold waitingOn
  rw [Finset.sdiff_insert]
  by_cases hmem : a ∈ preds x
  · have hin : a ∈ preds x \ done := Finset.mem_sdiff.mpr ⟨hmem, ha⟩
    have hcard := Finset.card_erase_add_one hin
    rw [if_pos hmem]
    omega
  · have hout : a ∉ preds x \ done := fun hin => hmem (Finset.mem_sdiff.mp hin).1
    rw [if_neg hmem, Finset.erase_eq_of_notMem hout, sub_zero]

theorem Acyclic.exists_ready {vertices : Finset α} (hacyclic : Acyclic fun a b => a ∈ preds b)
    (hclosed : ∀ b, preds b ⊆ vertices) (hrest : (vertices \ done).Nonempty) :
    ∃ a ∈ vertices, a ∉ done ∧ waitingOn preds done a = 0 := by
  obtain ⟨a, ha, hsource⟩ := hacyclic.exists_source hrest
  rw [Finset.mem_sdiff] at ha
  refine ⟨a, ha.1, ha.2, waitingOn_eq_zero_iff.mpr fun b hb => ?_⟩
  by_contra hnot
  exact hsource b (Finset.mem_sdiff.mpr ⟨hclosed a hb, hnot⟩) hb

end Waiting

/-! ### Taking ready vertices one by one -/

section Peeling

variable {α : Type*} [DecidableEq α] {preds : α → Finset α} {vertices : Finset α} {order ready : List α}
  {count : α → Int}

omit [DecidableEq α] in
theorem flatten_map_singleton (list : List α) : (list.map fun x => [x]).flatten = list := by
  rw [← List.flatMap_def, List.flatMap_singleton']

structure Peeling (preds : α → Finset α) (vertices : Finset α) (order ready : List α)
    (count : α → Int) : Prop where
  nodup : order.Nodup
  subset : ∀ x ∈ order, x ∈ vertices
  layering : IsLayering (fun a b => a ∈ preds b) (order.map fun x => [x])
  waiting : ∀ x, count x = waitingOn preds order.toFinset x
  nodupReady : ready.Nodup
  mem_ready : ∀ x, x ∈ ready ↔ x ∈ vertices ∧ x ∉ order ∧ count x = 0

theorem Peeling.start (hcount : ∀ x, count x = waitingOn preds ∅ x) (hnodup : ready.Nodup)
    (hready : ∀ x, x ∈ ready ↔ x ∈ vertices ∧ count x = 0) : Peeling preds vertices [] ready count where
  nodup := List.nodup_nil
  subset := by simp
  layering := isLayering_nil
  waiting := hcount
  nodupReady := hnodup
  mem_ready x := by simp [hready x]

/-- A ready vertex is taken: its dependents wait for one vertex less, and those that waited for it alone
become ready. -/
theorem Peeling.take (h : Peeling preds vertices order ready count) {a : α} {rest dependents : List α}
    (hready : ready.Perm (a :: rest)) (hnodupDependents : dependents.Nodup)
    (hdependents : ∀ x, x ∈ dependents ↔ a ∈ preds x) (hwithin : ∀ x ∈ dependents, x ∈ vertices) :
    Peeling preds vertices (order ++ [a]) (rest ++ dependents.filter fun x => count x = 1)
      (fun x => count x - if x ∈ dependents then 1 else 0) := by
  obtain ⟨hfresh, hnodupRest⟩ := List.nodup_cons.mp (hready.nodup h.nodupReady)
  have hmem : ∀ x, x ∈ ready ↔ x = a ∨ x ∈ rest := by
    intro x
    rw [hready.mem_iff, List.mem_cons]
  obtain ⟨hvertex, hnew, hzero⟩ := (h.mem_ready a).mp ((hmem a).mpr (Or.inl rfl))
  have hpreds : preds a ⊆ order.toFinset := waitingOn_eq_zero_iff.mp ((h.waiting a).symm.trans hzero)
  -- every vertex of the order has its predecessors in the order, so no taken vertex waits for this one
  have hlate : ∀ x, a ∈ preds x → x ∉ order := by
    intro x hedge hx
    have hpred := h.layering.pred_mem (by rwa [flatten_map_singleton]) hedge
    rw [flatten_map_singleton] at hpred
    exact hnew hpred
  have hloop : a ∉ preds a := fun hedge => hnew (List.mem_toFinset.mp (hpreds hedge))
  have hwaiting : ∀ x, (count x - if x ∈ dependents then 1 else 0)
      = waitingOn preds (order ++ [a]).toFinset x := by
    intro x
    have hinsert : (order ++ [a]).toFinset = insert a order.toFinset := by
      ext y
      simp
    have hnotin : a ∉ order.toFinset := fun hin => hnew (List.mem_toFinset.mp hin)
    rw [hinsert, waitingOn_insert hnotin, ← h.waiting x]
    simp only [hdependents x]
  refine ⟨?_, ?_, ?_, hwaiting, ?_, ?_⟩
  · exact List.nodup_append_comm.mp (List.nodup_cons.mpr ⟨hnew, h.nodup⟩)
  · intro x hx
    rcases List.mem_append.mp hx with hx | hx
    · exact h.subset x hx
    · rw [List.mem_singleton.mp hx]
      exact hvertex
  · rw [List.map_append]
    refine h.layering.concat fun b hb c hedge => ?_
    rw [List.mem_singleton.mp hb] at hedge
    rw [flatten_map_singleton]
    exact List.mem_toFinset.mp (hpreds hedge)
  · refine hnodupRest.append (hnodupDependents.filter _) fun x hx hreleased => ?_
    have hwaits : count x = 0 := ((h.mem_ready x).mp ((hmem x).mpr (Or.inr hx))).2.2
    have hone : count x = 1 := by simpa using (List.mem_filter.mp hreleased).2
    omega
  · intro x
    simp only [List.mem_append, List.mem_filter, decide_eq_true_eq, List.mem_singleton, not_or]
    constructor
    · rintro (hx | ⟨hx, hone⟩)
      · obtain ⟨hin, hout, hwaits⟩ := (h.mem_ready x).mp ((hmem x).mpr (Or.inr hx))
        have hne : x ≠ a := fun heq => hfresh (heq ▸ hx)
        have hfree : x ∉ dependents := by
          intro hdep
          have hsub := waitingOn_eq_zero_iff.mp ((h.waiting x).symm.trans hwaits)
          exact hnew (List.mem_toFinset.mp (hsub ((hdependents x).mp hdep)))
        exact ⟨hin, ⟨hout, hne⟩, by rw [if_neg hfree, hwaits, sub_zero]⟩
      · have hne : x ≠ a := fun heq => hloop (heq ▸ (hdependents x).mp hx)
        refine ⟨hwithin x hx, ⟨hlate x ((hdependents x).mp hx), hne⟩, ?_⟩
        rw [if_pos hx, hone, sub_self]
    · rintro ⟨hin, ⟨hout, hne⟩, hwaits⟩
      by_cases hx : x ∈ dependents
      · rw [if_pos hx] at hwaits
        exact Or.inr ⟨hx, by omega⟩
      · rw [if_neg hx, sub_zero] at hwaits
        exact Or.inl (((hmem x).mp ((h.mem_ready x).mpr ⟨hin, hout, hwaits⟩)).resolve_left hne)

theorem Peeling.mem_order (h : Peeling preds vertices order [] count)
    (hacyclic : Acyclic fun a b => a ∈ preds b) (hclosed : ∀ b, preds b ⊆ vertices) {x : α}
    (hx : x ∈ vertices) : x ∈ order := by
  by_contra hmissing
  have hrest : (vertices \ order.toFinset).Nonempty := ⟨x, by simpa using ⟨hx, hmissing⟩⟩
  obtain ⟨a, ha, hout, hzero⟩ := hacyclic.exists_ready hclosed hrest
  have hin := (h.mem_ready a).mpr
    ⟨ha, fun hmem => hout (List.mem_toFinset.mpr hmem), (h.waiting a).trans hzero⟩
  exact List.not_mem_nil hin

theorem Peeling.length_lt (h : Peeling preds vertices order ready count) {a : α} (ha : a ∈ ready) :
    order.length < vertices.card := by
  obtain ⟨hvertex, hnew, -⟩ := (h.mem_ready a).mp ha
  rw [← List.toFinset_card_of_nodup h.nodup]
  refine Finset.card_lt_card ⟨fun x hx => h.subset x (List.mem_toFinset.mp hx), fun hsub => ?_⟩
  exact hnew (List.mem_toFinset.mp (hsub hvertex))

end Peeling

end Deckent
