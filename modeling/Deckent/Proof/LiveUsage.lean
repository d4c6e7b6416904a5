import Deckent.Model.LiveExecutionBudget

/-!
# The tokens that a usage record reports

A provider reports what was read from its cache either inside of the input, or beside it. A counter that is
found in the details of the prompt only is taken from the input, and never counted as read from the cache.
-/

namespace Deckent.LiveBudget

open JsValue (Record member asRecord)

/-! ### What is reported -/

structure Reports (values : List JsValue) (n : Nat) : Prop where
  present : ∃ value ∈ values, value.isUndefined = false
  agree : ∀ value ∈ values, value.isUndefined = false → count value = n

theorem firstCount_of_absent {usage : Record} {keys : List String}
    (habsent : ∀ key ∈ keys, (member usage key).isUndefined = true) : firstCount usage keys = 0 := by
  induction keys with
  | nil => rfl
  | cons key rest ih =>
      obtain ⟨hfirst, hrest⟩ := List.forall_mem_cons.mp habsent
      rw [firstCount, if_pos hfirst, ih hrest]

theorem firstCount_of_present {usage : Record} {keys : List String} {n : Nat}
    (hagree : ∀ key ∈ keys, (member usage key).isUndefined = false → count (member usage key) = n)
    (hpresent : ∃ key ∈ keys, (member usage key).isUndefined = false) : firstCount usage keys = n := by
  induction keys with
  | nil => simp at hpresent
  | cons key rest ih =>
      obtain ⟨hfirst, hrest⟩ := List.forall_mem_cons.mp hagree
      rw [firstCount]
      cases hkey : (member usage key).isUndefined with
      | true =>
          rw [if_pos rfl]
          rw [List.exists_mem_cons_iff] at hpresent
          refine ih hrest (hpresent.resolve_left fun hother => ?_)
          rw [hkey] at hother
          cases hother
      | false => rw [if_neg Bool.false_ne_true, hfirst hkey]

theorem Reports.firstCount_eq {usage : Record} {keys : List String} {n : Nat}
    (hreports : Reports (keys.map (member usage)) n) : firstCount usage keys = n := by
  obtain ⟨⟨value, hvalue, hpresent⟩, hagree⟩ := hreports
  obtain ⟨key, hkey, rfl⟩ := List.mem_map.mp hvalue
  exact firstCount_of_present (fun other hother => hagree _ (List.mem_map_of_mem hother))
    ⟨key, hkey, hpresent⟩

def inputKeys : List String :=
  ["input_tokens", "inputTokens", "prompt_tokens", "promptTokenCount", "prompt_eval_count"]

def disjointCacheKeys : List String := ["cache_read_input_tokens", "cacheReadTokens", "cache_read_tokens"]

def inclusiveCacheKeys : List String := ["cached_input_tokens", "cachedContentTokenCount"]

def nestedCached (usage : Record) : JsValue :=
  member ((asRecord (member usage "prompt_tokens_details")).getD []) "cached_tokens"

/-- The input is reported with the part of it that was cached, and no counter of the cache contradicts. -/
structure InclusiveUsage (usage : Record) (reported cached : Nat) : Prop where
  input : Reports (inputKeys.map (member usage)) reported
  present : ∃ value ∈ nestedCached usage :: inclusiveCacheKeys.map (member usage),
    value.isUndefined = false
  agree : ∀ value ∈ nestedCached usage :: (disjointCacheKeys ++ inclusiveCacheKeys).map (member usage),
    value.isUndefined = false → count value = cached
  cached_le : cached ≤ reported

/-- The input is reported beside what was cached. -/
structure DisjointUsage (usage : Record) (reported cached : Nat) : Prop where
  input : Reports (inputKeys.map (member usage)) reported
  cache : Reports (disjointCacheKeys.map (member usage)) cached
  exclusive : ∀ value ∈ nestedCached usage :: inclusiveCacheKeys.map (member usage),
    value.isUndefined = true

/-! ### What is counted -/

def inclusiveCached (usage : Record) : Nat :=
  if firstCount usage inclusiveCacheKeys ≠ 0 then firstCount usage inclusiveCacheKeys
  else count (nestedCached usage)

theorem usageCounts_inputTokens (usage : Record) :
    (usageCounts usage).inputTokens = firstCount usage inputKeys - inclusiveCached usage := by
  have hinput : (usageCounts usage).inputTokens
      = if inclusiveCached usage > 0 then firstCount usage inputKeys - inclusiveCached usage
        else firstCount usage inputKeys := rfl
  rw [hinput]
  split_ifs with hpositive
  · rfl
  · rw [Nat.eq_zero_of_not_pos hpositive, Nat.sub_zero]

theorem usageCounts_cacheReadTokens (usage : Record) :
    (usageCounts usage).cacheReadTokens = firstCount usage (disjointCacheKeys ++ inclusiveCacheKeys) := rfl

theorem count_of_isUndefined {value : JsValue} (hundefined : value.isUndefined = true) : count value = 0 := by
  cases value with
  | undefined => rfl
  | _ => cases hundefined

section Inclusive

variable {usage : Record} {reported cached : Nat}

theorem InclusiveUsage.agree_of_subset (husage : InclusiveUsage usage reported cached) {keys : List String}
    (hsubset : keys ⊆ disjointCacheKeys ++ inclusiveCacheKeys) :
    ∀ key ∈ keys, (member usage key).isUndefined = false → count (member usage key) = cached :=
  fun _ hkey => husage.agree _ (List.mem_cons_of_mem _ (List.mem_map_of_mem (hsubset hkey)))

theorem InclusiveUsage.inclusiveCached_eq (husage : InclusiveUsage usage reported cached) :
    inclusiveCached usage = cached := by
  have hflat := husage.agree_of_subset (List.subset_append_right disjointCacheKeys inclusiveCacheKeys)
  unfold inclusiveCached
  by_cases hpresent : ∃ key ∈ inclusiveCacheKeys, (member usage key).isUndefined = false
  · rw [firstCount_of_present hflat hpresent]
    split_ifs with hzero
    · rfl
    · cases hnested : (nestedCached usage).isUndefined with
      | true => rw [count_of_isUndefined hnested, not_not.mp hzero]
      | false => rw [husage.agree _ List.mem_cons_self hnested]
  · have hzero : firstCount usage inclusiveCacheKeys = 0 := by
      refine firstCount_of_absent fun key hkey => ?_
      by_contra hdefined
      exact hpresent ⟨key, hkey, Bool.eq_false_iff.mpr hdefined⟩
    obtain ⟨value, hvalue, hdefined⟩ := husage.present
    rw [hzero, if_neg (not_not.mpr rfl)]
    obtain rfl | hvalue := List.mem_cons.mp hvalue
    · exact husage.agree _ List.mem_cons_self hdefined
    · obtain ⟨key, hkey, rfl⟩ := List.mem_map.mp hvalue
      exact absurd ⟨key, hkey, hdefined⟩ hpresent

end Inclusive

def detailedUsage : Record :=
  [("prompt_tokens", .number 100), ("prompt_tokens_details", .object [("cached_tokens", .number 40)])]

theorem inclusiveUsage_detailed : InclusiveUsage detailedUsage 100 40 := by
  refine ⟨⟨⟨.number 100, ?_, rfl⟩, ?_⟩, ⟨.number 40, ?_, rfl⟩, ?_, by decide⟩
  · simp [detailedUsage, inputKeys, member, List.lookup_cons]
  · simp [detailedUsage, inputKeys, member, List.lookup_cons, JsValue.isUndefined]
    decide
  · simp [detailedUsage, nestedCached, member, List.lookup_cons, asRecord]
  · simp [detailedUsage, nestedCached, disjointCacheKeys, inclusiveCacheKeys, member, List.lookup_cons, asRecord,
      JsValue.isUndefined]
    decide

end Deckent.LiveBudget
