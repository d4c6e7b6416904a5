import Mathlib.Data.List.Basic
import Mathlib.Data.List.Infix
import Mathlib.Algebra.GroupWithZero.Nat

/-!
# Texts cut at a separator

The pieces of a list that is cut at a separator do not hold the separator, each is an infix of the list,
and a sublist of the pieces joins to a shorter list.
-/

namespace Deckent

variable {α : Type*} [DecidableEq α] {separator : α} {list piece : List α}
  {pieces kept : List (List α)}

theorem not_mem_of_mem_splitOn (hpiece : piece ∈ list.splitOn separator) : separator ∉ piece := by
  induction list generalizing piece with
  | nil =>
      rw [List.splitOn_nil, List.mem_singleton] at hpiece
      exact hpiece ▸ List.not_mem_nil
  | cons x rest ih =>
      rw [List.splitOn_cons_eq_if_modifyHead] at hpiece
      split at hpiece
      · rcases List.mem_cons.mp hpiece with rfl | hpiece
        · exact List.not_mem_nil
        · exact ih hpiece
      · next hx =>
          cases hsplit : rest.splitOn separator with
          | nil => exact absurd hsplit (List.splitOn_ne_nil _ _)
          | cons first others =>
              rw [hsplit, List.modifyHead_cons] at hpiece
              rcases List.mem_cons.mp hpiece with rfl | hpiece
              · rw [List.mem_cons, not_or]
                refine ⟨fun heq => hx (by simp [heq]), ih ?_⟩
                rw [hsplit]
                exact List.mem_cons_self
              · refine ih ?_
                rw [hsplit]
                exact List.mem_cons_of_mem _ hpiece

omit [DecidableEq α] in
theorem infix_intercalate {between : List α} (hpiece : piece ∈ pieces) :
    piece <:+: between.intercalate pieces := by
  induction pieces with
  | nil => exact absurd hpiece List.not_mem_nil
  | cons first rest ih =>
      cases rest with
      | nil =>
          rw [List.mem_singleton.mp hpiece]
          simp
      | cons second others =>
          rw [List.intercalate_cons_cons]
          rcases List.mem_cons.mp hpiece with rfl | hpiece
          · rw [List.append_assoc]
            exact (List.prefix_append _ _).isInfix
          · exact (ih hpiece).trans (List.suffix_append _ _).isInfix

theorem infix_of_mem_splitOn (hpiece : piece ∈ list.splitOn separator) : piece <:+: list := by
  have hwithin : piece <:+: [separator].intercalate (list.splitOn separator) := infix_intercalate hpiece
  rwa [List.intercalate_splitOn] at hwithin

omit [DecidableEq α] in
/-- Fewer pieces join to a shorter list. -/
theorem length_intercalate_le (hsublist : kept.Sublist pieces) :
    ([separator].intercalate kept).length ≤ ([separator].intercalate pieces).length := by
  induction hsublist with
  | slnil => exact le_rfl
  | @cons kept pieces first _ ih =>
      refine ih.trans ?_
      cases pieces with
      | nil => simp
      | cons second others =>
          rw [List.intercalate_cons_cons, List.length_append]
          exact Nat.le_add_left _ _
  | @cons_cons kept pieces first hrest ih =>
      cases kept with
      | nil =>
          rw [List.intercalate_singleton]
          exact (infix_intercalate List.mem_cons_self).length_le
      | cons second others =>
          obtain ⟨other, more, rfl⟩ := List.exists_cons_of_ne_nil
            (List.ne_nil_of_mem (hrest.subset List.mem_cons_self))
          simp only [List.intercalate_cons_cons, List.length_append] at ih ⊢
          exact Nat.add_le_add_left ih _

omit [DecidableEq α] in
theorem mem_intercalate {x : α} (hx : x ∈ [separator].intercalate pieces) :
    x = separator ∨ ∃ piece ∈ pieces, x ∈ piece := by
  induction pieces with
  | nil => exact absurd hx List.not_mem_nil
  | cons first rest ih =>
      cases rest with
      | nil =>
          rw [List.intercalate_singleton] at hx
          exact Or.inr ⟨first, List.mem_singleton_self first, hx⟩
      | cons second others =>
          rw [List.intercalate_cons_cons, List.mem_append, List.mem_append, List.mem_singleton] at hx
          rcases hx with (hx | hx) | hx
          · exact Or.inr ⟨first, List.mem_cons_self, hx⟩
          · exact Or.inl hx
          · refine (ih hx).imp_right ?_
            rintro ⟨piece, hpiece, hmem⟩
            exact ⟨piece, List.mem_cons_of_mem _ hpiece, hmem⟩

omit [DecidableEq α] in
theorem head?_intercalate (hne : piece ≠ []) :
    ([separator].intercalate (piece :: pieces)).head? = piece.head? := by
  cases pieces with
  | nil => rw [List.intercalate_singleton]
  | cons second others =>
      rw [List.intercalate_cons_cons, List.append_assoc, List.head?_append_of_ne_nil _ hne]

omit [DecidableEq α] in
theorem getLast?_intercalate (hne : piece ≠ []) :
    ([separator].intercalate (pieces ++ [piece])).getLast? = piece.getLast? := by
  induction pieces with
  | nil => rw [List.nil_append, List.intercalate_singleton]
  | cons first rest ih =>
      have hrest : rest ++ [piece] ≠ [] := by simp
      rw [List.cons_append, List.intercalate_cons_of_ne_nil hrest, List.getLast?_append, ih]
      cases hlast : piece.getLast? with
      | none => exact absurd (List.getLast?_eq_none_iff.mp hlast) hne
      | some x => rfl

def totalLength (pieces : List (List α)) : Nat := (pieces.map fun piece => piece.length + 1).sum

omit [DecidableEq α] in
theorem totalLength_append (left right : List (List α)) :
    totalLength (left ++ right) = totalLength left + totalLength right := by
  rw [totalLength, List.map_append, List.sum_append]
  rfl

omit [DecidableEq α] in
theorem totalLength_pos (hne : pieces ≠ []) : 0 < totalLength pieces := by
  obtain ⟨first, rest, rfl⟩ := List.exists_cons_of_ne_nil hne
  rw [totalLength, List.map_cons, List.sum_cons]
  omega

omit [DecidableEq α] in
theorem length_intercalate (hne : pieces ≠ []) :
    ([separator].intercalate pieces).length + 1 = totalLength pieces := by
  induction pieces with
  | nil => exact absurd rfl hne
  | cons first rest ih =>
      cases rest with
      | nil => simp [totalLength]
      | cons second others =>
          have hrest := ih (List.cons_ne_nil _ _)
          have htotal : totalLength (first :: second :: others)
              = first.length + 1 + totalLength (second :: others) := rfl
          rw [List.intercalate_cons_cons, List.length_append, List.length_append, List.length_singleton, htotal]
          omega

omit [DecidableEq α] in
/-- The joined text tells how many pieces were left out behind its start. -/
theorem drop_inj_of_intercalate {start : List (List α)} {m n : Nat} (hstart : start ≠ [])
    (hm : m ≤ pieces.length) (hn : n ≤ pieces.length)
    (hsame : [separator].intercalate (start ++ pieces.drop m) = [separator].intercalate (start ++ pieces.drop n)) :
    m = n := by
  have hne (rest : List (List α)) : start ++ rest ≠ [] := by simp [hstart]
  have hlength := congrArg (List.length · + 1) hsame
  simp only [length_intercalate (hne _), totalLength_append, Nat.add_left_cancel_iff] at hlength
  have hshorter : ∀ {a b : Nat}, a < b → b ≤ pieces.length →
      totalLength (pieces.drop b) < totalLength (pieces.drop a) := by
    intro a b hab hb
    have hsplit : pieces.drop a = (pieces.drop a).take (b - a) ++ pieces.drop b := by
      have hdrop : (pieces.drop a).drop (b - a) = pieces.drop b := by
        rw [List.drop_drop, Nat.add_sub_cancel' hab.le]
      rw [← hdrop, List.take_append_drop]
    have hkept : (pieces.drop a).take (b - a) ≠ [] := by
      rw [ne_eq, ← List.length_eq_zero_iff, List.length_take, List.length_drop]
      omega
    rw [hsplit, totalLength_append]
    exact Nat.lt_add_of_pos_left (totalLength_pos hkept)
  rcases lt_trichotomy m n with hlt | heq | hlt
  · exact absurd hlength (hshorter hlt hn).ne'
  · exact heq
  · exact absurd hlength (hshorter hlt hm).ne

end Deckent
