import Mathlib.Data.List.Nodup
import Mathlib.Data.List.Basic
import Deckent.Lib.OrderedSet

/-!
# Insertion-ordered finite maps

A map that remembers the order in which its keys were first written. Writing a key that is present
replaces its value where it stands; writing a new key puts it at the end. The keys are distinct by
construction, so an entry of the map and a successful lookup are the same fact
(`mem_entries_iff`), and every later proof reads the map through `get?`.
-/

namespace Deckent

structure OrderedMap (κ ν : Type*) where
  entries : List (κ × ν)
  nodupKeys : (entries.map Prod.fst).Nodup

namespace OrderedMap

variable {κ ν α : Type*} [DecidableEq κ]

def setEntries (key : κ) (value : ν) : List (κ × ν) → List (κ × ν)
  | [] => [(key, value)]
  | entry :: rest =>
      if entry.1 = key then (key, value) :: rest else entry :: setEntries key value rest

theorem map_fst_setEntries (key : κ) (value : ν) (entries : List (κ × ν)) :
    (setEntries key value entries).map Prod.fst
      = if key ∈ entries.map Prod.fst then entries.map Prod.fst
        else entries.map Prod.fst ++ [key] := by
  induction entries with
  | nil => simp [setEntries]
  | cons entry rest ih =>
      by_cases hkey : entry.1 = key
      · simp [setEntries, hkey]
      · have hne : key ≠ entry.1 := Ne.symm hkey
        simp only [setEntries, if_neg hkey, List.map_cons, ih, List.mem_cons, hne, false_or]
        split <;> simp

theorem nodup_setEntries (key : κ) (value : ν) {entries : List (κ × ν)}
    (hnodup : (entries.map Prod.fst).Nodup) :
    ((setEntries key value entries).map Prod.fst).Nodup := by
  rw [map_fst_setEntries]
  split
  · exact hnodup
  · next hkey =>
      refine hnodup.append (List.nodup_singleton key) ?_
      simpa only [List.disjoint_singleton] using hkey

def empty : OrderedMap κ ν := ⟨[], by simp⟩

def get? (map : OrderedMap κ ν) (key : κ) : Option ν :=
  map.entries.lookup key

def contains (map : OrderedMap κ ν) (key : κ) : Bool :=
  (map.get? key).isSome

def set (map : OrderedMap κ ν) (key : κ) (value : ν) : OrderedMap κ ν :=
  ⟨setEntries key value map.entries, nodup_setEntries key value map.nodupKeys⟩

def upsert (map : OrderedMap κ ν) (key : κ) (f : Option ν → ν) : OrderedMap κ ν :=
  map.set key (f (map.get? key))

def keys (map : OrderedMap κ ν) : List κ := map.entries.map Prod.fst

def values (map : OrderedMap κ ν) : List ν := map.entries.map Prod.snd

@[simp]
theorem get?_empty (key : κ) : (empty : OrderedMap κ ν).get? key = none := rfl

theorem lookup_setEntries (key other : κ) (value : ν) (entries : List (κ × ν)) :
    (setEntries key value entries).lookup other
      = if other = key then some value else entries.lookup other := by
  induction entries with
  | nil =>
      by_cases hother : other = key
      · simp [setEntries, hother]
      · have hbeq : (other == key) = false := by simpa using hother
        simp [setEntries, List.lookup_cons, hbeq, hother]
  | cons entry rest ih =>
      obtain ⟨key', value'⟩ := entry
      by_cases hkey : key' = key
      · subst hkey
        by_cases hother : other = key'
        · simp [setEntries, hother]
        · have hbeq : (other == key') = false := by simpa using hother
          simp [setEntries, List.lookup_cons, hbeq, hother]
      · rw [setEntries, if_neg hkey, List.lookup_cons, List.lookup_cons, ih]
        by_cases hother : other = key'
        · have hne : other ≠ key := fun heq => hkey (hother.symm.trans heq)
          simp [hother, hkey]
        · have hbeq : (other == key') = false := by simpa using hother
          simp [hbeq]

theorem get?_set (map : OrderedMap κ ν) (key other : κ) (value : ν) :
    (map.set key value).get? other = if other = key then some value else map.get? other :=
  lookup_setEntries key other value map.entries

@[simp]
theorem get?_set_self (map : OrderedMap κ ν) (key : κ) (value : ν) :
    (map.set key value).get? key = some value := by
  simp [get?_set]

theorem get?_upsert (map : OrderedMap κ ν) (key other : κ) (f : Option ν → ν) :
    (map.upsert key f).get? other
      = if other = key then some (f (map.get? key)) else map.get? other :=
  get?_set map key other _

theorem mem_entries_iff (map : OrderedMap κ ν) {key : κ} {value : ν} :
    (key, value) ∈ map.entries ↔ map.get? key = some value := by
  obtain ⟨entries, hnodup⟩ := map
  simp only [get?]
  induction entries with
  | nil => simp
  | cons entry rest ih =>
      obtain ⟨key', value'⟩ := entry
      rw [List.map_cons, List.nodup_cons] at hnodup
      obtain ⟨hfresh, hrest⟩ := hnodup
      rw [List.mem_cons, ih hrest, List.lookup_cons]
      by_cases hkey : key = key'
      · subst hkey
        have hnone : rest.lookup key ≠ some value := by
          intro hlookup
          exact hfresh (List.mem_map.mpr ⟨(key, value), (ih hrest).mpr hlookup, rfl⟩)
        simp [hnone, eq_comm]
      · have hbeq : (key == key') = false := by simpa using hkey
        simp [hbeq, hkey]

theorem mem_values_iff (map : OrderedMap κ ν) {value : ν} :
    value ∈ map.values ↔ ∃ key, map.get? key = some value := by
  simp only [values, List.mem_map, Prod.exists, exists_eq_right, mem_entries_iff]

theorem mem_keys_iff (map : OrderedMap κ ν) {key : κ} :
    key ∈ map.keys ↔ ∃ value, map.get? key = some value := by
  simp only [keys, List.mem_map, Prod.exists, exists_and_right, exists_eq_right, mem_entries_iff]

omit [DecidableEq κ] in
theorem nodup_entries (map : OrderedMap κ ν) : map.entries.Nodup :=
  List.Nodup.of_map Prod.fst map.nodupKeys

theorem perm_entries {left right : OrderedMap κ ν} (hlookup : ∀ key, left.get? key = right.get? key) :
    left.entries.Perm right.entries := by
  refine (List.perm_ext_iff_of_nodup left.nodup_entries right.nodup_entries).mpr ?_
  rintro ⟨key, value⟩
  rw [mem_entries_iff, mem_entries_iff, hlookup]

/-! ### Indexing a list by a key -/

def indexBy (key : ν → κ) (list : List ν) : OrderedMap κ ν :=
  list.foldl (fun map x => map.set (key x) x) empty

theorem get?_foldl_set (key : ν → κ) (list : List ν) (map : OrderedMap κ ν) (k : κ) :
    (list.foldl (fun map x => map.set (key x) x) map).get? k
      = (list.reverse.find? fun x => key x = k).or (map.get? k) := by
  induction list generalizing map with
  | nil => simp
  | cons x rest ih =>
      rw [List.foldl_cons, ih, get?_set, List.reverse_cons, List.find?_append, Option.or_assoc]
      congr 1
      by_cases hkey : key x = k
      · simp [hkey]
      · simp [hkey, Ne.symm hkey]

theorem get?_indexBy (key : ν → κ) (list : List ν) (k : κ) :
    (indexBy key list).get? k = list.reverse.find? fun x => key x = k := by
  rw [indexBy, get?_foldl_set, get?_empty, Option.or_none]

theorem mem_of_get?_indexBy {key : ν → κ} {list : List ν} {k : κ} {x : ν}
    (hget : (indexBy key list).get? k = some x) : x ∈ list ∧ key x = k := by
  rw [get?_indexBy] at hget
  exact ⟨List.mem_reverse.mp (List.mem_of_find?_eq_some hget),
    by simpa using List.find?_some hget⟩

theorem contains_indexBy {key : ν → κ} {list : List ν} {k : κ} :
    (indexBy key list).contains k = true ↔ ∃ x ∈ list, key x = k := by
  simp [contains, get?_indexBy]

theorem get?_indexBy_of_nodup {key : ν → κ} {list : List ν} (hnodup : (list.map key).Nodup) {k : κ}
    {x : ν} : (indexBy key list).get? k = some x ↔ x ∈ list ∧ key x = k := by
  refine ⟨mem_of_get?_indexBy, ?_⟩
  rintro ⟨hx, rfl⟩
  have hcontains : (indexBy key list).contains (key x) = true := contains_indexBy.mpr ⟨x, hx, rfl⟩
  obtain ⟨y, hy⟩ := Option.isSome_iff_exists.mp hcontains
  obtain ⟨hymem, hykey⟩ := mem_of_get?_indexBy hy
  rw [hy, List.inj_on_of_nodup_map hnodup hymem hx hykey]

/-! ### Grouping a list by a key -/

variable {β : Type*}

def groupBy (key : α → κ) (value : α → β) (list : List α) : OrderedMap κ (List β) :=
  list.foldl (fun map x => map.upsert (key x) fun group => group.getD [] ++ [value x]) empty

theorem get?_foldl_groupBy (key : α → κ) (value : α → β) (list : List α)
    (map : OrderedMap κ (List β)) (k : κ) :
    (list.foldl (fun map x => map.upsert (key x) fun group => group.getD [] ++ [value x]) map).get? k
      = match list.filter (fun x => key x = k) with
        | [] => map.get? k
        | found => some ((map.get? k).getD [] ++ found.map value) := by
  induction list generalizing map with
  | nil => simp
  | cons x rest ih =>
      rw [List.foldl_cons, ih, List.filter_cons]
      by_cases hkey : key x = k
      · rw [if_pos (by simpa using hkey), get?_upsert, if_pos hkey.symm]
        cases rest.filter (fun x => key x = k) <;> simp [hkey]
      · rw [if_neg (by simpa using hkey), get?_upsert, if_neg (Ne.symm hkey)]

theorem get?_groupBy {key : α → κ} {value : α → β} {list : List α} {k : κ} {group : List β} :
    (groupBy key value list).get? k = some group
      ↔ group = (list.filter (fun x => key x = k)).map value ∧ group ≠ [] := by
  rw [groupBy, get?_foldl_groupBy]
  cases hfilter : list.filter (fun x => key x = k) with
  | nil =>
      simp only [get?_empty, reduceCtorEq, false_iff, List.map_nil]
      tauto
  | cons x rest =>
      simp only [get?_empty, Option.getD_none, List.nil_append, Option.some.injEq]
      constructor
      · rintro rfl
        exact ⟨rfl, by simp⟩
      · exact fun h => h.1.symm

theorem keys_set (map : OrderedMap κ ν) (key : κ) (value : ν) :
    (map.set key value).keys = if key ∈ map.keys then map.keys else map.keys ++ [key] :=
  map_fst_setEntries key value map.entries

theorem keys_groupBy (key : α → κ) (value : α → β) (list : List α) :
    (groupBy key value list).keys = (OrderedSet.ofList (list.map key)).members := by
  have hfold : ∀ (map : OrderedMap κ (List β)) (set : OrderedSet κ), map.keys = set.members →
      (list.foldl (fun map x => map.upsert (key x) fun group => group.getD [] ++ [value x])
        map).keys = ((list.map key).foldl OrderedSet.add set).members := by
    induction list with
    | nil => exact fun _ _ hkeys => hkeys
    | cons x rest ih =>
        intro map set hkeys
        refine ih _ _ ((keys_set _ _ _).trans ?_)
        rw [hkeys, OrderedSet.add]
        split <;> rfl
  exact hfold empty ∅ rfl

/-! ### Deletion -/

def delete (map : OrderedMap κ ν) (key : κ) : OrderedMap κ ν :=
  ⟨map.entries.filter fun entry => entry.1 ≠ key,
    (List.filter_sublist.map Prod.fst).nodup map.nodupKeys⟩

theorem get?_delete (map : OrderedMap κ ν) (key other : κ) :
    (map.delete key).get? other = if other = key then none else map.get? other := by
  refine Option.ext fun value => ?_
  rw [← mem_entries_iff, delete, List.mem_filter, mem_entries_iff]
  by_cases hother : other = key
  · simp [hother]
  · simp [hother]

end OrderedMap

end Deckent
