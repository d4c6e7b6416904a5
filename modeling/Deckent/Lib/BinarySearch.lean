import Deckent.Lib.StableSort

/-!
# Binary search

The search halves the part of a list in which a member can still stand. In a list that is ordered by a comparator
under which no two different members are equal, it finds exactly the members.

A turn leaves less than the part it has looked at, so the length of the list is enough fuel.
-/

namespace Deckent

section BinarySearch

variable {α : Type*} [DecidableEq α] (cmp : α → α → Int) (list : List α) (x : α)

def binarySearch : Nat → Int → Int → Bool
  | 0, _, _ => false
  | fuel + 1, low, high =>
      if low ≤ high then
        let middle := low + (high - low) / 2
        match list[middle.toNat]? with
        | some candidate =>
            if candidate = x then true
            else if 0 < cmp candidate x then binarySearch fuel low (middle - 1)
            else binarySearch fuel (middle + 1) high
        | none => binarySearch fuel low (middle - 1)
      else false

variable {cmp list x}

theorem mem_of_binarySearch {fuel : Nat} {low high : Int} (hfound : binarySearch cmp list x fuel low high = true) :
    x ∈ list := by
  induction fuel generalizing low high with
  | zero => exact absurd hfound Bool.false_ne_true
  | succ fuel ih =>
      rw [binarySearch] at hfound
      split at hfound
      · dsimp only at hfound
        split at hfound
        · next candidate hcandidate =>
            split at hfound
            · next heq => exact heq ▸ List.mem_of_getElem? hcandidate
            · split at hfound
              · exact ih hfound
              · exact ih hfound
        · exact ih hfound
      · exact absurd hfound Bool.false_ne_true

/-- A member between the two positions is found. -/
theorem binarySearch_of_getElem? (hordered : list.Pairwise fun a b => cmp a b ≤ 0)
    (hantisymm : ∀ a b, cmp a b ≤ 0 → cmp b a ≤ 0 → a = b) {fuel : Nat} {low high : Int} {i : Nat}
    (hlow : 0 ≤ low) (hfuel : high - low < fuel) (hi : low ≤ i ∧ (i : Int) ≤ high) (hx : list[i]? = some x) :
    binarySearch cmp list x fuel low high = true := by
  have hle : ∀ {j k : Nat} {a b : α}, j < k → list[j]? = some a → list[k]? = some b → cmp a b ≤ 0 := by
    intro j k a b hjk hj hk
    obtain ⟨hjlt, rfl⟩ := List.getElem?_eq_some_iff.mp hj
    obtain ⟨hklt, rfl⟩ := List.getElem?_eq_some_iff.mp hk
    exact List.pairwise_iff_getElem.mp hordered j k hjlt hklt hjk
  induction fuel generalizing low high with
  | zero => omega
  | succ fuel ih =>
      rw [binarySearch, if_pos (by omega)]
      dsimp only
      have hmiddle : low ≤ low + (high - low) / 2 ∧ low + (high - low) / 2 ≤ high := by omega
      generalize low + (high - low) / 2 = middle at hmiddle
      have hnat : (middle.toNat : Int) = middle := Int.toNat_of_nonneg (by omega)
      cases hcandidate : list[middle.toNat]? with
      | none =>
          have hbefore : i < middle.toNat := by
            have hlength := List.getElem?_eq_none_iff.mp hcandidate
            obtain ⟨hin, -⟩ := List.getElem?_eq_some_iff.mp hx
            omega
          exact ih hlow (by omega) ⟨hi.1, by omega⟩
      | some candidate =>
          dsimp only
          by_cases heq : candidate = x
          · rw [if_pos heq]
          · have hne : i ≠ middle.toNat := by
              rintro rfl
              exact heq (Option.some.inj (hcandidate.symm.trans hx))
            rw [if_neg heq]
            by_cases hafter : 0 < cmp candidate x
            · have hbefore : i < middle.toNat := by
                by_contra hnot
                exact absurd (hle (by omega) hcandidate hx) (not_le.mpr hafter)
              rw [if_pos hafter]
              exact ih hlow (by omega) ⟨hi.1, by omega⟩
            · have hbehind : middle.toNat < i := by
                by_contra hnot
                exact heq (hantisymm _ _ (not_lt.mp hafter) (hle (by omega) hx hcandidate))
              rw [if_neg hafter]
              exact ih (by omega) (by omega) ⟨by omega, hi.2⟩

theorem binarySearch_iff (hordered : list.Pairwise fun a b => cmp a b ≤ 0)
    (hantisymm : ∀ a b, cmp a b ≤ 0 → cmp b a ≤ 0 → a = b) :
    binarySearch cmp list x list.length 0 (list.length - 1) = true ↔ x ∈ list := by
  refine ⟨mem_of_binarySearch, fun hx => ?_⟩
  obtain ⟨i, hi, hget⟩ := List.getElem_of_mem hx
  exact binarySearch_of_getElem? hordered hantisymm le_rfl (by omega) ⟨by omega, by omega⟩
    (List.getElem?_eq_some_iff.mpr ⟨hi, hget⟩)

end BinarySearch

end Deckent
