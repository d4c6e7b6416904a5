import Mathlib.Data.List.Nodup
import Mathlib.Data.List.Perm.Subperm
import Mathlib.Data.Set.Insert
import Mathlib.Logic.Relation

/-!
# Depth-first search for a cycle

A depth-first search that stops at the first edge back to its own path decides whether a vertex reaches a
cycle. While it runs, a vertex it has left leads to such vertices only, and none of them lies on a cycle: the
successors of a vertex have been left before it. A vertex of the path reaches the vertex at hand, so an edge
back to the path closes a cycle.

The path visits no vertex twice, and this bounds how deep the search goes.
-/

namespace Deckent

open Relation

section CycleCheck

variable {α : Type*}

def ReachesCycle (r : α → α → Prop) (root : α) : Prop := ∃ a, ReflTransGen r root a ∧ TransGen r a a

variable (next : α → List α)

structure PathTo (root : α) (path : List α) (a : α) : Prop where
  nodup : path.Nodup
  reaches : ReflTransGen (fun a b => b ∈ next a) root a
  reached : ∀ b ∈ path, ReflTransGen (fun a b => b ∈ next a) root b
  below : ∀ b ∈ path, TransGen (fun a b => b ∈ next a) b a

/-- The vertices that the search has left are closed under successors and lie on no cycle. -/
structure Explored (visited : Set α) (path : List α) : Prop where
  onPath : ∀ a ∈ path, a ∈ visited
  closed : ∀ a ∈ visited, a ∉ path → ∀ b ∈ next a, b ∈ visited ∧ b ∉ path
  acyclic : ∀ a ∈ visited, a ∉ path → ¬ TransGen (fun a b => b ∈ next a) a a

variable {next} {root a b : α} {path : List α} {visited : Set α}

/-! ### The path -/

theorem pathTo_root : PathTo next a [] a where
  nodup := List.nodup_nil
  reaches := .refl
  reached := by simp
  below := by simp

theorem PathTo.extend (h : PathTo next root path a) (hnew : a ∉ path) (hb : b ∈ next a) :
    PathTo next root (path ++ [a]) b where
  nodup := h.nodup.append (List.nodup_singleton a) (by simpa using hnew)
  reaches := h.reaches.tail hb
  reached c hc := by
    rcases List.mem_append.mp hc with hc | hc
    · exact h.reached c hc
    · rw [List.mem_singleton.mp hc]
      exact h.reaches
  below c hc := by
    rcases List.mem_append.mp hc with hc | hc
    · exact (h.below c hc).tail hb
    · rw [List.mem_singleton.mp hc]
      exact .single hb

theorem PathTo.reachesCycle (h : PathTo next root path a) (ha : a ∈ path) :
    ReachesCycle (fun a b => b ∈ next a) root :=
  ⟨a, h.reaches, h.below a ha⟩

theorem PathTo.length_le (h : PathTo next root path a) {vertices : List α}
    (hvertices : ∀ b, ReflTransGen (fun a b => b ∈ next a) root b → b ∈ vertices) :
    path.length ≤ vertices.length :=
  (List.subperm_of_subset h.nodup fun b hb => hvertices b (h.reached b hb)).length_le

/-! ### The visited vertices -/

theorem explored_start : Explored next ∅ [] where
  onPath := by simp
  closed := by simp
  acyclic := by simp

theorem Explored.enter (h : Explored next visited path) (hnew : a ∉ visited) :
    Explored next (insert a visited) (path ++ [a]) where
  onPath b hb := by
    rcases List.mem_append.mp hb with hb | hb
    · exact Set.mem_insert_of_mem a (h.onPath b hb)
    · exact Set.mem_insert_iff.mpr (Or.inl (List.mem_singleton.mp hb))
  closed b hb hout c hc := by
    simp only [List.mem_append, List.mem_singleton, not_or] at hout
    have hb' := Set.mem_of_mem_insert_of_ne hb hout.2
    obtain ⟨hvisited, hoff⟩ := h.closed b hb' hout.1 c hc
    refine ⟨Set.mem_insert_of_mem a hvisited, ?_⟩
    simp only [List.mem_append, List.mem_singleton, not_or]
    exact ⟨hoff, fun heq => hnew (heq ▸ hvisited)⟩
  acyclic b hb hout := by
    simp only [List.mem_append, List.mem_singleton, not_or] at hout
    exact h.acyclic b (Set.mem_of_mem_insert_of_ne hb hout.2) hout.1

theorem Explored.left_of_reaches (h : Explored next visited path) (ha : a ∈ visited) (hout : a ∉ path)
    (hreach : ReflTransGen (fun a b => b ∈ next a) a b) : b ∈ visited ∧ b ∉ path := by
  induction hreach with
  | refl => exact ⟨ha, hout⟩
  | tail _ hbc ih => exact h.closed _ ih.1 ih.2 _ hbc

theorem Explored.leave (h : Explored next visited (path ++ [a]))
    (hnext : ∀ b ∈ next a, b ∈ visited ∧ b ∉ path ++ [a]) : Explored next visited path where
  onPath b hb := h.onPath b (List.mem_append_left _ hb)
  closed b hb hout c hc := by
    have hleft : c ∈ visited ∧ c ∉ path ++ [a] := by
      by_cases hba : b = a
      · exact hnext c (hba ▸ hc)
      · exact h.closed b hb (by simp [hout, hba]) c hc
    exact ⟨hleft.1, fun hmem => hleft.2 (List.mem_append_left _ hmem)⟩
  acyclic b hb hout := by
    by_cases hba : b = a
    · rintro hcycle
      rw [hba] at hcycle
      obtain ⟨c, hc, hreach⟩ := (TransGen.head'_iff).mp hcycle
      obtain ⟨hvisited, hoff⟩ := hnext c hc
      exact (h.left_of_reaches hvisited hoff hreach).2 (by simp)
    · exact h.acyclic b hb (by simp [hout, hba])

theorem Explored.not_reachesCycle (h : Explored next visited []) (hroot : root ∈ visited) :
    ¬ ReachesCycle (fun a b => b ∈ next a) root := by
  rintro ⟨a, hreach, hcycle⟩
  obtain ⟨ha, hout⟩ := h.left_of_reaches hroot List.not_mem_nil hreach
  exact h.acyclic a ha hout hcycle

end CycleCheck

end Deckent
