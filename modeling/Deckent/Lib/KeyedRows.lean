import Mathlib.Data.List.Nodup

/-!
# Tables with a primary key

A table is a list of rows, and a key of a row is one of its columns. A statement selects the row of a
key, deletes it, replaces it by a row of the same key, or adds a row whose key is new. The keys stay
without duplicates, so the row that a key selects is the one row that has it.
-/

namespace Deckent

universe u v

variable {ρ : Type u} {κ : Type v} [DecidableEq κ] {key : ρ → κ} {rows : List ρ} {row other : ρ} {k l : κ}

/-- `SELECT … WHERE key = k`. -/
def selectRow (key : ρ → κ) (k : κ) (rows : List ρ) : Option ρ :=
  rows.find? fun row => key row = k

/-- `DELETE … WHERE key = k`. -/
def deleteRow (key : ρ → κ) (k : κ) (rows : List ρ) : List ρ :=
  rows.filter fun row => key row ≠ k

/-- `UPDATE … WHERE key = k` to a row that keeps the key. -/
def replaceRow (key : ρ → κ) (new : ρ) (rows : List ρ) : List ρ :=
  rows.map fun row => if key row = key new then new else row

theorem mem_of_selectRow (hrow : selectRow key k rows = some row) : row ∈ rows :=
  List.mem_of_find?_eq_some hrow

theorem key_of_selectRow (hrow : selectRow key k rows = some row) : key row = k := by
  simpa using List.find?_some hrow

theorem selectRow_eq_none : selectRow key k rows = none ↔ ∀ row ∈ rows, key row ≠ k := by
  simp [selectRow]

theorem selectRow_eq_some_iff (hkeys : (rows.map key).Nodup) :
    selectRow key k rows = some row ↔ row ∈ rows ∧ key row = k := by
  constructor
  · intro hrow
    exact ⟨mem_of_selectRow hrow, key_of_selectRow hrow⟩
  · rintro ⟨hmem, rfl⟩
    cases hfound : selectRow key (key row) rows with
    | none => exact absurd rfl (selectRow_eq_none.mp hfound row hmem)
    | some found =>
        have hsame := List.inj_on_of_nodup_map hkeys (mem_of_selectRow hfound) hmem
          (key_of_selectRow hfound)
        rw [hsame]

@[simp]
theorem mem_deleteRow : row ∈ deleteRow key k rows ↔ row ∈ rows ∧ key row ≠ k := by
  simp [deleteRow]

theorem selectRow_deleteRow_of_ne (hne : l ≠ k) :
    selectRow key l (deleteRow key k rows) = selectRow key l rows := by
  unfold selectRow deleteRow
  rw [List.find?_filter]
  congr 1
  funext row
  by_cases hkey : key row = l
  · simp [hkey, hne]
  · simp [hkey]

theorem map_replaceRow {σ : Type*} {column : ρ → σ} {new : ρ}
    (hsame : ∀ row ∈ rows, key row = key new → column row = column new) :
    (replaceRow key new rows).map column = rows.map column := by
  unfold replaceRow
  rw [List.map_map]
  apply List.map_congr_left
  intro row hrow
  simp only [Function.comp_apply]
  split_ifs with hkey
  · exact (hsame row hrow hkey).symm
  · rfl

@[simp]
theorem map_key_replaceRow (new : ρ) : (replaceRow key new rows).map key = rows.map key :=
  map_replaceRow fun _ _ hkey => hkey

theorem mem_replaceRow {new : ρ} :
    row ∈ replaceRow key new rows
      ↔ (row = new ∧ key new ∈ rows.map key) ∨ (row ∈ rows ∧ key row ≠ key new) := by
  unfold replaceRow
  simp only [List.mem_map]
  constructor
  · rintro ⟨old, hold, rfl⟩
    split_ifs with hkey
    · exact .inl ⟨rfl, old, hold, hkey⟩
    · exact .inr ⟨hold, hkey⟩
  · rintro (⟨rfl, old, hold, hkey⟩ | ⟨hrow, hkey⟩)
    · exact ⟨old, hold, by rw [if_pos hkey]⟩
    · exact ⟨row, hrow, by rw [if_neg hkey]⟩

theorem selectRow_replaceRow_eq_none {new : ρ} :
    selectRow key k (replaceRow key new rows) = none ↔ selectRow key k rows = none := by
  have hkeys : ∀ list : List ρ, selectRow key k list = none ↔ k ∉ list.map key := by
    intro list
    simp [selectRow_eq_none]
  rw [hkeys, hkeys, map_key_replaceRow]

/-- Under a primary key, a replacement changes the one row that has its key. -/
theorem replaceRow_append_cons {before after : List ρ} {new : ρ}
    (hkeys : ((before ++ row :: after).map key).Nodup) (hkey : key new = key row) :
    replaceRow key new (before ++ row :: after) = before ++ new :: after := by
  rw [List.map_append, List.map_cons, List.nodup_append, List.nodup_cons] at hkeys
  obtain ⟨-, ⟨hafter, -⟩, hbefore⟩ := hkeys
  unfold replaceRow
  rw [List.map_append, List.map_cons, if_pos hkey.symm]
  congr 1
  · conv_rhs => rw [← List.map_id before]
    apply List.map_congr_left
    intro other hother
    rw [if_neg, id]
    rw [hkey]
    exact hbefore _ (List.mem_map_of_mem hother) _ List.mem_cons_self
  · congr 1
    conv_rhs => rw [← List.map_id after]
    apply List.map_congr_left
    intro other hother
    rw [if_neg, id]
    rw [hkey]
    intro heq
    rw [← heq] at hafter
    exact hafter (List.mem_map_of_mem hother)

end Deckent
