import Mathlib.Algebra.BigOperators.Group.Finset.Basic
import Mathlib.Data.Finset.Card
import Mathlib.Data.List.Nodup
import Mathlib.Logic.Relation
import Mathlib.Order.WellFoundedSet

/-!
# Directed graphs: cycles, sources and search

A graph is an edge relation. It is acyclic when no vertex reaches itself by one or more edges. A rank
that rises along every edge rules cycles out, and an acyclic graph has a source in every nonempty
finite set of vertices: these two facts carry every argument about topological orders.

`search` is the worklist loop that computes what a list of vertices reaches. The queue may hold a
vertex many times, so the loop is bounded by the length of the queue plus the out-degrees of the
vertices not yet reached: expanding a vertex moves its out-degree from the second part to the first.
-/

namespace Deckent

open Relation

section Acyclic

variable {α : Type*} {r : α → α → Prop}

def Acyclic (r : α → α → Prop) : Prop := ∀ a, ¬ TransGen r a a

theorem rank_lt_of_transGen {rank : α → Nat} (hrank : ∀ a b, r a b → rank a < rank b) {a b : α}
    (h : TransGen r a b) : rank a < rank b := by
  induction h with
  | single hab => exact hrank _ _ hab
  | tail _ hbc ih => exact ih.trans (hrank _ _ hbc)

theorem acyclic_of_rank (rank : α → Nat) (hrank : ∀ a b, r a b → rank a < rank b) : Acyclic r :=
  fun _ hcycle => absurd (rank_lt_of_transGen hrank hcycle) (lt_irrefl _)

theorem Acyclic.exists_source (hacyclic : Acyclic r) {s : Finset α} (hs : s.Nonempty) :
    ∃ a ∈ s, ∀ b ∈ s, ¬ r b a := by
  have htrans : IsTrans s fun a b => TransGen r a.1 b.1 := ⟨fun _ _ _ => TransGen.trans⟩
  have hirrefl : Std.Irrefl fun a b : s => TransGen r a.1 b.1 := ⟨fun a => hacyclic a.1⟩
  have hwf : WellFounded fun a b : s => TransGen r a.1 b.1 :=
    Finite.wellFounded_of_trans_of_irrefl _
  obtain ⟨x, hx⟩ := hs
  obtain ⟨a, -, hmin⟩ := hwf.has_min Set.univ ⟨⟨x, hx⟩, Set.mem_univ _⟩
  exact ⟨a.1, a.2, fun b hb hba => hmin ⟨b, hb⟩ (Set.mem_univ _) (TransGen.single hba)⟩

def BehindCycle (r : α → α → Prop) (a : α) : Prop :=
  ∃ origin, TransGen r origin origin ∧ ReflTransGen r origin a

theorem BehindCycle.exists_pred {a : α} (h : BehindCycle r a) : ∃ b, r b a ∧ BehindCycle r b := by
  obtain ⟨origin, hcycle, hpath⟩ := h
  rcases ReflTransGen.cases_tail hpath with rfl | ⟨b, hbefore, hba⟩
  · obtain ⟨b, hbefore, hba⟩ := TransGen.tail'_iff.mp hcycle
    exact ⟨b, hba, _, hcycle, hbefore⟩
  · exact ⟨b, hba, origin, hcycle, hbefore⟩

theorem exists_source_of_not_behindCycle {s : Finset α} {a : α} (ha : a ∈ s)
    (hbehind : ¬ BehindCycle r a) : ∃ b ∈ s, ∀ c ∈ s, ¬ r c b := by
  classical
  obtain ⟨leading, hleading⟩ : ∃ leading : Finset α, ∀ b, b ∈ leading ↔ b ∈ s ∧ ReflTransGen r b a :=
    ⟨s.filter fun b => ReflTransGen r b a, fun b => Finset.mem_filter⟩
  have hacyclic : Acyclic fun b c => b ∈ leading ∧ r b c := by
    intro origin hcycle
    obtain ⟨_, hfirst, -⟩ := TransGen.head'_iff.mp hcycle
    exact hbehind ⟨origin, TransGen.mono (fun _ _ h => h.2) _ _ hcycle, ((hleading origin).mp hfirst.1).2⟩
  obtain ⟨b, hb, hsource⟩ := hacyclic.exists_source ⟨a, (hleading a).mpr ⟨ha, .refl⟩⟩
  obtain ⟨hin, hpath⟩ := (hleading b).mp hb
  refine ⟨b, hin, fun c hc hcb => ?_⟩
  have hmem := (hleading c).mpr ⟨hc, .head hcb hpath⟩
  exact hsource c hmem ⟨hmem, hcb⟩

end Acyclic

section Search

variable {α : Type*} [DecidableEq α]

/-- Repeatedly take the first vertex of the queue; if it is new, record it and queue its
successors. -/
def search (next : α → List α) : Nat → List α → Finset α → Finset α
  | 0, _, reached => reached
  | _ + 1, [], reached => reached
  | fuel + 1, current :: queue, reached =>
      if current ∈ reached then search next fuel queue reached
      else search next fuel (queue ++ next current) (insert current reached)

variable {next : α → List α}

theorem subset_search (fuel : Nat) (queue : List α) (reached : Finset α) :
    reached ⊆ search next fuel queue reached := by
  induction fuel generalizing queue reached with
  | zero => exact subset_rfl
  | succ fuel ih =>
      cases queue with
      | nil => exact subset_rfl
      | cons current queue =>
          unfold search
          split
          · exact ih queue reached
          · exact (Finset.subset_insert _ _).trans (ih _ _)

theorem reachable_of_mem_search {fuel : Nat} {queue : List α} {reached : Finset α} {x : α}
    (hx : x ∈ search next fuel queue reached) :
    x ∈ reached ∨ ∃ a ∈ queue, ReflTransGen (fun a b => b ∈ next a) a x := by
  induction fuel generalizing queue reached with
  | zero => exact Or.inl hx
  | succ fuel ih =>
      cases queue with
      | nil => exact Or.inl hx
      | cons current queue =>
          unfold search at hx
          split at hx
          · rcases ih hx with hold | ⟨a, ha, hax⟩
            · exact Or.inl hold
            · exact Or.inr ⟨a, List.mem_cons_of_mem _ ha, hax⟩
          · rcases ih hx with hold | ⟨a, ha, hax⟩
            · rcases Finset.mem_insert.mp hold with rfl | hold
              · exact Or.inr ⟨x, List.mem_cons_self, ReflTransGen.refl⟩
              · exact Or.inl hold
            · rcases List.mem_append.mp ha with ha | ha
              · exact Or.inr ⟨a, List.mem_cons_of_mem _ ha, hax⟩
              · exact Or.inr ⟨current, List.mem_cons_self, ReflTransGen.head ha hax⟩

def searchWork (next : α → List α) (vertices : Finset α) (queue : List α) (reached : Finset α) : Nat :=
  queue.length + ∑ x ∈ vertices \ reached, (next x).length

variable (next) in
theorem searchWork_expand {vertices reached : Finset α} {current : α} (queue : List α)
    (hvertex : current ∈ vertices) (hnew : current ∉ reached) :
    searchWork next vertices (queue ++ next current) (insert current reached) + 1
      = searchWork next vertices (current :: queue) reached := by
  have hmem : current ∈ vertices \ reached := Finset.mem_sdiff.mpr ⟨hvertex, hnew⟩
  have hsplit := Finset.sum_erase_add (vertices \ reached) (fun x => (next x).length) hmem
  have herase : vertices \ insert current reached = (vertices \ reached).erase current := by
    rw [Finset.sdiff_insert]
  simp only [searchWork, herase, List.length_append, List.length_cons]
  omega

/-- With enough fuel the search ends with a set that is closed under successors and holds the whole
queue. -/
theorem search_closed {vertices : Finset α} (hvertices : ∀ a ∈ vertices, ∀ b ∈ next a, b ∈ vertices)
    {fuel : Nat} {queue : List α} {reached : Finset α} (hqueue : ∀ a ∈ queue, a ∈ vertices)
    (hfuel : searchWork next vertices queue reached ≤ fuel)
    (hreached : ∀ a ∈ reached, ∀ b ∈ next a, b ∈ reached ∨ b ∈ queue) :
    (∀ a ∈ queue, a ∈ search next fuel queue reached)
      ∧ ∀ a ∈ search next fuel queue reached, ∀ b ∈ next a, b ∈ search next fuel queue reached := by
  induction fuel generalizing queue reached with
  | zero =>
      have hnil : queue = [] := by
        rw [← List.length_eq_zero_iff]
        unfold searchWork at hfuel
        omega
      subst hnil
      refine ⟨by simp, fun a ha b hb => ?_⟩
      exact (hreached a ha b hb).resolve_right List.not_mem_nil
  | succ fuel ih =>
      cases queue with
      | nil =>
          refine ⟨by simp, fun a ha b hb => ?_⟩
          exact (hreached a ha b hb).resolve_right List.not_mem_nil
      | cons current queue =>
          have htail : ∀ a ∈ queue, a ∈ vertices := fun a ha => hqueue a (List.mem_cons_of_mem _ ha)
          by_cases hold : current ∈ reached
          · have hrun : search next (fuel + 1) (current :: queue) reached
                = search next fuel queue reached := by rw [search, if_pos hold]
            have hwork : searchWork next vertices queue reached ≤ fuel := by
              simp only [searchWork, List.length_cons] at hfuel ⊢
              omega
            have hstep : ∀ a ∈ reached, ∀ b ∈ next a, b ∈ reached ∨ b ∈ queue := by
              intro a ha b hb
              rcases hreached a ha b hb with hb' | hb'
              · exact Or.inl hb'
              · rcases List.mem_cons.mp hb' with rfl | hb'
                · exact Or.inl hold
                · exact Or.inr hb'
            obtain ⟨hin, hclosed⟩ := ih htail hwork hstep
            rw [hrun]
            refine ⟨fun a ha => ?_, hclosed⟩
            rcases List.mem_cons.mp ha with rfl | ha
            · exact subset_search _ _ _ hold
            · exact hin a ha
          · have hrun : search next (fuel + 1) (current :: queue) reached
                = search next fuel (queue ++ next current) (insert current reached) := by
              rw [search, if_neg hold]
            have hvertex : current ∈ vertices := hqueue current List.mem_cons_self
            have hwork : searchWork next vertices (queue ++ next current) (insert current reached)
                ≤ fuel := by
              have := searchWork_expand next queue hvertex hold
              omega
            have hstep : ∀ a ∈ insert current reached, ∀ b ∈ next a,
                b ∈ insert current reached ∨ b ∈ queue ++ next current := by
              intro a ha b hb
              rcases Finset.mem_insert.mp ha with rfl | ha
              · exact Or.inr (List.mem_append_right _ hb)
              · rcases hreached a ha b hb with hb' | hb'
                · exact Or.inl (Finset.mem_insert_of_mem hb')
                · rcases List.mem_cons.mp hb' with rfl | hb'
                  · exact Or.inl (Finset.mem_insert_self _ _)
                  · exact Or.inr (List.mem_append_left _ hb')
            have hqueue' : ∀ a ∈ queue ++ next current, a ∈ vertices := by
              intro a ha
              rcases List.mem_append.mp ha with ha | ha
              · exact htail a ha
              · exact hvertices current hvertex a ha
            obtain ⟨hin, hclosed⟩ := ih hqueue' hwork hstep
            rw [hrun]
            refine ⟨fun a ha => ?_, hclosed⟩
            rcases List.mem_cons.mp ha with rfl | ha
            · exact subset_search _ _ _ (Finset.mem_insert_self _ _)
            · exact hin a (List.mem_append_left _ ha)

theorem mem_search_next_iff {vertices : Finset α}
    (hvertices : ∀ a ∈ vertices, ∀ b ∈ next a, b ∈ vertices) {start x : α} {queue : List α}
    (hqueue : ∀ b, b ∈ queue ↔ b ∈ next start) (hstart : start ∈ vertices) {fuel : Nat}
    (hfuel : searchWork next vertices queue ∅ ≤ fuel) :
    x ∈ search next fuel queue ∅ ↔ TransGen (fun a b => b ∈ next a) start x := by
  constructor
  · intro hx
    rcases reachable_of_mem_search hx with hx | ⟨a, ha, hax⟩
    · exact absurd hx (Finset.notMem_empty x)
    · exact TransGen.head' ((hqueue a).mp ha) hax
  · intro hreach
    have hin : ∀ a ∈ queue, a ∈ vertices := fun a ha => hvertices start hstart a ((hqueue a).mp ha)
    obtain ⟨hqueued, hclosed⟩ := search_closed hvertices hin hfuel (by simp)
    induction hreach with
    | single hb => exact hqueued _ ((hqueue _).mpr hb)
    | tail _ hbc ih => exact hclosed _ ih _ hbc

end Search

end Deckent
