import Mathlib.Data.List.Basic

/-!
# Reading a list page by page

A list is kept in the order of a numeric key and only grows at its end. A reader takes a prefix of the
rows behind its cursor and moves the cursor to the last row that it took, so what it takes next joins
on to what it has.
-/

namespace Deckent

universe u

variable {ρ : Type u} {key : ρ → Nat} {rows page : List ρ} {last : ρ}

/-- Behind the last row of a prefix are the rows that the prefix leaves. -/
theorem eq_append_filter_after (hsorted : rows.Pairwise fun a b => key a < key b) (hpage : page <+: rows)
    (hlast : page.getLast? = some last) :
    rows = page ++ rows.filter fun row => key last < key row := by
  obtain ⟨rest, rfl⟩ := hpage
  obtain ⟨init, rfl⟩ := List.getLast?_eq_some_iff.mp hlast
  obtain ⟨hfront, -, hacross⟩ := List.pairwise_append.mp hsorted
  have hlast : last ∈ init ++ [last] := List.mem_append_right _ (List.mem_singleton_self last)
  have hnone : (init ++ [last]).filter (fun row => key last < key row) = [] := by
    rw [List.filter_eq_nil_iff]
    intro row hrow
    rcases List.mem_append.mp hrow with hinit | htail
    · have hlt := (List.pairwise_append.mp hfront).2.2 row hinit last (List.mem_singleton_self last)
      simpa using Nat.le_of_lt hlt
    · obtain rfl := List.mem_singleton.mp htail
      simp
  have hall : rest.filter (fun row => key last < key row) = rest := by
    rw [List.filter_eq_self]
    intro row hrow
    simpa using hacross last hlast row hrow
  rw [List.filter_append, hnone, hall, List.nil_append]

theorem filter_after_filter {covers : ρ → Bool} {after later : Nat} (hle : after ≤ later) :
    (rows.filter fun row => covers row && after < key row).filter (fun row => later < key row)
      = rows.filter fun row => covers row && later < key row := by
  rw [List.filter_filter]
  apply List.filter_congr
  intro row _
  by_cases hlater : later < key row
  · have hafter : after < key row := Nat.lt_of_le_of_lt hle hlater
    simp [hlater, hafter]
  · simp [hlater]

end Deckent
