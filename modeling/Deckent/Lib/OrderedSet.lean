import Mathlib.Data.List.Nodup
import Mathlib.Data.List.Perm.Subperm

/-!
# Insertion-ordered finite sets

A set that remembers the order in which its members were first added. Adding a member that is present
changes nothing, so the list of members has no repetition and its length is the size of the set.
-/

namespace Deckent

structure OrderedSet (α : Type*) where
  members : List α
  nodup : members.Nodup
  deriving DecidableEq

namespace OrderedSet

variable {α : Type*}

instance : Membership α (OrderedSet α) := ⟨fun set x => x ∈ set.members⟩

theorem mem_def {set : OrderedSet α} {x : α} : x ∈ set ↔ x ∈ set.members := Iff.rfl

def empty : OrderedSet α := ⟨[], List.nodup_nil⟩

instance : EmptyCollection (OrderedSet α) := ⟨empty⟩

def size (set : OrderedSet α) : Nat := set.members.length

@[simp]
theorem notMem_empty (x : α) : x ∉ (∅ : OrderedSet α) := List.not_mem_nil

variable [DecidableEq α]

instance (set : OrderedSet α) (x : α) : Decidable (x ∈ set) :=
  inferInstanceAs (Decidable (x ∈ set.members))

def add (set : OrderedSet α) (x : α) : OrderedSet α :=
  if hmem : x ∈ set.members then set
  else ⟨set.members ++ [x], set.nodup.append (List.nodup_singleton x)
    (List.disjoint_singleton.mpr hmem)⟩

def delete (set : OrderedSet α) (x : α) : OrderedSet α :=
  ⟨set.members.erase x, set.nodup.erase x⟩

def ofList (list : List α) : OrderedSet α := list.foldl add ∅

@[simp]
theorem mem_add {set : OrderedSet α} {x y : α} : x ∈ set.add y ↔ x ∈ set ∨ x = y := by
  unfold add
  split
  · next hmem =>
      refine ⟨Or.inl, ?_⟩
      rintro (hx | rfl)
      · exact hx
      · exact hmem
  · simp [mem_def]

@[simp]
theorem mem_delete {set : OrderedSet α} {x y : α} : x ∈ set.delete y ↔ x ∈ set ∧ x ≠ y := by
  rw [mem_def, delete, set.nodup.mem_erase_iff, mem_def]
  exact and_comm

theorem mem_foldl_add {list : List α} {set : OrderedSet α} {x : α} :
    x ∈ list.foldl add set ↔ x ∈ set ∨ x ∈ list := by
  induction list generalizing set with
  | nil => simp
  | cons y rest ih => rw [List.foldl_cons, ih, mem_add, List.mem_cons, or_assoc]

@[simp]
theorem mem_ofList {list : List α} {x : α} : x ∈ ofList list ↔ x ∈ list := by
  simp [ofList, mem_foldl_add]

theorem members_foldl_add {list : List α} {set : OrderedSet α} (hnodup : list.Nodup)
    (hnew : ∀ x ∈ list, x ∉ set) : (list.foldl add set).members = set.members ++ list := by
  induction list generalizing set with
  | nil => simp
  | cons y rest ih =>
      obtain ⟨hfresh, hrest⟩ := List.nodup_cons.mp hnodup
      have hy : y ∉ set.members := hnew y List.mem_cons_self
      have hadd : (set.add y).members = set.members ++ [y] := by rw [add, dif_neg hy]
      have hnew' : ∀ x ∈ rest, x ∉ set.add y := by
        intro x hx
        rw [mem_add, not_or]
        exact ⟨hnew x (List.mem_cons_of_mem _ hx), fun heq => hfresh (heq ▸ hx)⟩
      rw [List.foldl_cons, ih hrest hnew', hadd, List.append_assoc, List.singleton_append]

@[simp]
theorem ofList_members (set : OrderedSet α) : ofList set.members = set := by
  have hmembers : (ofList set.members).members = set.members :=
    members_foldl_add set.nodup fun x _ => notMem_empty x
  obtain ⟨members, hnodup⟩ := set
  cases hset : ofList members with
  | mk kept hkept =>
      rw [hset] at hmembers
      cases hmembers
      rfl

theorem nodup_of_ofList {list : List α} (hlength : list.length ≤ (ofList list).size) : list.Nodup := by
  have hsubperm := List.subperm_of_subset (ofList list).nodup fun x hx => mem_ofList.mp hx
  exact (hsubperm.perm_of_length_le hlength).nodup_iff.mp (ofList list).nodup

theorem members_ofList {list : List α} (hnodup : list.Nodup) : (ofList list).members = list := by
  have hmembers : (ofList list).members = (∅ : OrderedSet α).members ++ list :=
    members_foldl_add hnodup fun x _ => notMem_empty x
  rwa [show (∅ : OrderedSet α).members = [] from rfl, List.nil_append] at hmembers

theorem ofList_append_cons_of_mem {before after : List α} {x : α} (hx : x ∈ before) :
    ofList (before ++ x :: after) = ofList (before ++ after) := by
  have hmem : x ∈ (before.foldl add ∅).members := mem_foldl_add.mpr (Or.inr hx)
  rw [ofList, ofList, List.foldl_append, List.foldl_append, List.foldl_cons, add, dif_pos hmem]

theorem filter_foldl_add (keep : α → Bool) (list : List α) (set : OrderedSet α) :
    (list.foldl add set).members.filter keep
      = ((list.filter keep).foldl add ⟨set.members.filter keep, set.nodup.filter keep⟩).members := by
  induction list generalizing set with
  | nil => rfl
  | cons x rest ih =>
      have hadd : (⟨(set.add x).members.filter keep, (set.add x).nodup.filter keep⟩ : OrderedSet α)
          = if keep x = true then add ⟨set.members.filter keep, set.nodup.filter keep⟩ x
            else ⟨set.members.filter keep, set.nodup.filter keep⟩ := by
        unfold add
        by_cases hmem : x ∈ set.members <;> cases hkeep : keep x <;> simp [hmem, hkeep]
      rw [List.foldl_cons, ih, List.filter_cons, hadd]
      split <;> rfl

theorem filter_ofList (keep : α → Bool) (list : List α) :
    (ofList list).members.filter keep = (ofList (list.filter keep)).members :=
  filter_foldl_add keep list ∅

theorem size_add_of_notMem {set : OrderedSet α} {x : α} (hx : x ∉ set) :
    (set.add x).size = set.size + 1 := by
  have hnew : x ∉ set.members := hx
  simp [add, hnew, size]

end OrderedSet

end Deckent
