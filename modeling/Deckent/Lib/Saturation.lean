import Mathlib.Data.Finset.Card
import Mathlib.Data.List.Nodup

/-!
# Sweeping a list until nothing changes

`saturate` visits every member of a list again and again until a whole sweep fires no rule. A member
fires at most once: it is then reached, and what is reached may let other members fire. The rule need
not be monotone. Three facts describe the result: a set that is closed under the rule holds everything
that is reached (`saturate_sound`), no member can fire any more at the end (`saturate_closed`), and the
members fired are distinct and were each fired by what was reached before (`SweepInvariant`).
-/

namespace Deckent

variable {α κ β : Type*} [DecidableEq κ]

structure Sweep (α κ β : Type*) where
  reached : Finset κ
  fired : List (α × β)
  changed : Bool

def Sweep.start (reached : Finset κ) : Sweep α κ β :=
  { reached := reached, fired := [], changed := true }

def visit (key : α → κ) (rule : Finset κ → α → Option β) (state : Sweep α κ β) (x : α) : Sweep α κ β :=
  if key x ∈ state.reached then state
  else match rule state.reached x with
    | none => state
    | some cause =>
        { reached := insert (key x) state.reached
          fired := state.fired ++ [(x, cause)]
          changed := true }

def sweep (key : α → κ) (rule : Finset κ → α → Option β) (list : List α) (state : Sweep α κ β) :
    Sweep α κ β :=
  list.foldl (visit key rule) { state with changed := false }

/-- `while (changed) { changed = false; for (x of list) visit(x) }`. -/
def saturate (key : α → κ) (rule : Finset κ → α → Option β) (list : List α) :
    Nat → Sweep α κ β → Sweep α κ β
  | 0, state => state
  | fuel + 1, state =>
      if state.changed then saturate key rule list fuel (sweep key rule list state) else state

variable {key : α → κ} {rule : Finset κ → α → Option β} {list : List α}

variable (key rule) in
theorem visit_cases (state : Sweep α κ β) (x : α) :
    visit key rule state x = state ∧ (key x ∈ state.reached ∨ rule state.reached x = none)
      ∨ ∃ cause, rule state.reached x = some cause ∧ key x ∉ state.reached
        ∧ visit key rule state x
          = { reached := insert (key x) state.reached
              fired := state.fired ++ [(x, cause)]
              changed := true } := by
  unfold visit
  by_cases hreached : key x ∈ state.reached
  · rw [if_pos hreached]
    exact Or.inl ⟨rfl, Or.inl hreached⟩
  · rw [if_neg hreached]
    cases hrule : rule state.reached x with
    | none => exact Or.inl ⟨rfl, Or.inr rfl⟩
    | some cause => exact Or.inr ⟨cause, rfl, hreached, rfl⟩

theorem saturate_induction {motive : Sweep α κ β → Prop} {fuel : Nat} {state : Sweep α κ β}
    (hstart : motive state)
    (hchanged : ∀ state : Sweep α κ β, motive state → motive { state with changed := false })
    (hvisit : ∀ state : Sweep α κ β, motive state → ∀ x ∈ list, motive (visit key rule state x)) :
    motive (saturate key rule list fuel state) := by
  induction fuel generalizing state with
  | zero => exact hstart
  | succ fuel ih =>
      unfold saturate
      split
      · refine ih ?_
        exact List.foldlRecOn list _ (hchanged state hstart) fun state hstate x hx =>
          hvisit state hstate x hx
      · exact hstart

/-! ### What is reached -/

theorem saturate_sound {reached : Finset κ} (fuel : Nat) (bound : κ → Prop)
    (hstart : ∀ k ∈ reached, bound k)
    (hclosed : ∀ current : Finset κ, (∀ k ∈ current, bound k) → ∀ x ∈ list, ∀ cause,
      rule current x = some cause → bound (key x)) :
    ∀ k ∈ (saturate key rule list fuel (Sweep.start reached)).reached, bound k := by
  refine saturate_induction (motive := fun state => ∀ k ∈ state.reached, bound k) hstart
    (fun _ h => h) fun state hstate x hx => ?_
  rcases visit_cases key rule state x with ⟨hsame, -⟩ | ⟨cause, hrule, -, hfired⟩
  · rw [hsame]
    exact hstate
  · rw [hfired]
    intro k hk
    rcases Finset.mem_insert.mp hk with rfl | hk
    · exact hclosed state.reached hstate x hx cause hrule
    · exact hstate k hk

structure SweepInvariant (key : α → κ) (rule : Finset κ → α → Option β) (list : List α)
    (reached : Finset κ) (state : Sweep α κ β) : Prop where
  mem_reached : ∀ k, k ∈ state.reached ↔ k ∈ reached ∨ ∃ entry ∈ state.fired, key entry.1 = k
  nodup : (state.fired.map fun entry => key entry.1).Nodup
  fresh : ∀ entry ∈ state.fired, key entry.1 ∉ reached
  caused : ∀ entry ∈ state.fired, entry.1 ∈ list
    ∧ ∃ earlier ⊆ state.reached, rule earlier entry.1 = some entry.2

theorem SweepInvariant.visit {reached : Finset κ} {state : Sweep α κ β}
    (h : SweepInvariant key rule list reached state) {x : α} (hx : x ∈ list) :
    SweepInvariant key rule list reached (visit key rule state x) := by
  rcases visit_cases key rule state x with
    ⟨hsame, -⟩ | ⟨cause, hrule, hnew, hfired⟩
  · rw [hsame]
    exact h
  · rw [hfired]
    have hfresh : ∀ entry ∈ state.fired, key entry.1 ≠ key x := by
      intro entry hentry heq
      exact hnew ((h.mem_reached _).mpr (Or.inr ⟨entry, hentry, heq⟩))
    refine ⟨?_, ?_, ?_, ?_⟩
    · intro k
      simp only [Finset.mem_insert, h.mem_reached, List.mem_append, List.mem_singleton]
      constructor
      · rintro (rfl | hold | ⟨entry, hentry, hkey⟩)
        · exact Or.inr ⟨(x, cause), Or.inr rfl, rfl⟩
        · exact Or.inl hold
        · exact Or.inr ⟨entry, Or.inl hentry, hkey⟩
      · rintro (hold | ⟨entry, hentry | rfl, hkey⟩)
        · exact Or.inr (Or.inl hold)
        · exact Or.inr (Or.inr ⟨entry, hentry, hkey⟩)
        · exact Or.inl hkey.symm
    · rw [List.map_append, List.map_singleton]
      refine h.nodup.append (List.nodup_singleton _) ?_
      rw [List.disjoint_singleton]
      intro hmem
      obtain ⟨entry, hentry, heq⟩ := List.mem_map.mp hmem
      exact hfresh entry hentry heq
    · intro entry hentry
      rcases List.mem_append.mp hentry with hold | hlast
      · exact h.fresh entry hold
      · rw [List.mem_singleton.mp hlast]
        exact fun hstart => hnew ((h.mem_reached _).mpr (Or.inl hstart))
    · intro entry hentry
      rcases List.mem_append.mp hentry with hold | hlast
      · obtain ⟨hmem, earlier, hsubset, hcause⟩ := h.caused entry hold
        exact ⟨hmem, earlier, hsubset.trans (Finset.subset_insert _ _), hcause⟩
      · rw [List.mem_singleton.mp hlast]
        exact ⟨hx, state.reached, Finset.subset_insert _ _, hrule⟩

theorem sweepInvariant_saturate (reached : Finset κ) (fuel : Nat) :
    SweepInvariant key rule list reached
      (saturate key rule list fuel (Sweep.start reached)) := by
  refine saturate_induction (motive := SweepInvariant key rule list reached) ?_ ?_ ?_
  · exact ⟨by simp [Sweep.start], List.nodup_nil, by simp [Sweep.start], by simp [Sweep.start]⟩
  · exact fun state h => ⟨h.mem_reached, h.nodup, h.fresh, h.caused⟩
  · exact fun state h x hx => h.visit hx

/-! ### Nothing fires at the end -/

variable (key rule) in
theorem reached_subset_foldl_visit (visited : List α) (state : Sweep α κ β) :
    state.reached ⊆ (visited.foldl (visit key rule) state).reached := by
  refine List.foldlRecOn (motive := fun later : Sweep α κ β => state.reached ⊆ later.reached)
    visited _ subset_rfl fun later hlater x _ => ?_
  rcases visit_cases key rule later x with ⟨hsame, -⟩ | ⟨cause, -, -, hfired⟩
  · rw [hsame]
    exact hlater
  · rw [hfired]
    exact hlater.trans (Finset.subset_insert _ _)

theorem changed_foldl_visit (visited : List α) {state : Sweep α κ β} (hchanged : state.changed = true) :
    (visited.foldl (visit key rule) state).changed = true := by
  refine List.foldlRecOn (motive := fun later : Sweep α κ β => later.changed = true)
    visited _ hchanged fun later hlater x _ => ?_
  rcases visit_cases key rule later x with ⟨hsame, -⟩ | ⟨cause, -, -, hfired⟩
  · rw [hsame]
    exact hlater
  · rw [hfired]

variable (key rule) in
/-- A sweep either fires nothing, and then no member can fire, or it reaches more. -/
theorem foldl_visit_progress (visited : List α) (state : Sweep α κ β) :
    visited.foldl (visit key rule) state = state
        ∧ (∀ x ∈ visited, key x ∈ state.reached ∨ rule state.reached x = none)
      ∨ (visited.foldl (visit key rule) state).changed = true
        ∧ state.reached.card < (visited.foldl (visit key rule) state).reached.card := by
  induction visited with
  | nil => exact Or.inl ⟨rfl, by simp⟩
  | cons x rest ih =>
      rw [List.foldl_cons]
      rcases visit_cases key rule state x with
        ⟨hsame, hquiet⟩ | ⟨cause, -, hnew, hfired⟩
      · rw [hsame]
        rcases ih with ⟨hrest, hall⟩ | hmore
        · refine Or.inl ⟨hrest, ?_⟩
          intro y hy
          rcases List.mem_cons.mp hy with rfl | hy
          · exact hquiet
          · exact hall y hy
        · exact Or.inr hmore
      · refine Or.inr ⟨changed_foldl_visit rest (by rw [hfired]), ?_⟩
        have hsubset := Finset.card_le_card
          (reached_subset_foldl_visit key rule rest (visit key rule state x))
        rw [hfired, Finset.card_insert_of_notMem hnew] at hsubset
        rw [hfired]
        omega

theorem visit_subset {within : Finset κ} {state : Sweep α κ β} {x : α} (hx : key x ∈ within)
    (hstate : state.reached ⊆ within) : (visit key rule state x).reached ⊆ within := by
  rcases visit_cases key rule state x with ⟨hsame, -⟩ | ⟨cause, -, -, hfired⟩
  · rw [hsame]
    exact hstate
  · rw [hfired]
    exact Finset.insert_subset hx hstate

theorem saturate_quiet (within : Finset κ) (hlist : ∀ x ∈ list, key x ∈ within) {fuel : Nat}
    {state : Sweep α κ β} (hstate : state.reached ⊆ within) (hchanged : state.changed = true)
    (hfuel : within.card < fuel + state.reached.card) :
    ∀ x ∈ list, key x ∈ (saturate key rule list fuel state).reached
      ∨ rule (saturate key rule list fuel state).reached x = none := by
  induction fuel generalizing state with
  | zero =>
      have hcard := Finset.card_le_card hstate
      omega
  | succ fuel ih =>
      unfold saturate
      rw [if_pos hchanged]
      rcases foldl_visit_progress key rule list { state with changed := false }
        with ⟨hsame, hquiet⟩ | ⟨hmore, hgrow⟩
      · have hsweep : sweep key rule list state = { state with changed := false } := hsame
        have hstop : ∀ fuel, saturate key rule list fuel { state with changed := false }
            = { state with changed := false } := by
          intro fuel
          cases fuel <;> rfl
        rw [hsweep, hstop]
        exact hquiet
      · have hwithin : (sweep key rule list state).reached ⊆ within :=
          List.foldlRecOn (motive := fun later : Sweep α κ β => later.reached ⊆ within) list _ hstate
            fun later hlater x hx => visit_subset (hlist x hx) hlater
        refine ih hwithin hmore ?_
        change state.reached.card < (sweep key rule list state).reached.card at hgrow
        omega

variable (key rule list) in
theorem saturate_closed (reached : Finset κ) :
    ∀ x ∈ list, key x ∈ (saturate key rule list (list.length + 1) (Sweep.start reached)).reached
      ∨ rule (saturate key rule list (list.length + 1) (Sweep.start reached)).reached x = none := by
  refine saturate_quiet (reached ∪ (list.map key).toFinset) ?_ Finset.subset_union_left rfl ?_
  · intro x hx
    exact Finset.mem_union_right _ (List.mem_toFinset.mpr (List.mem_map_of_mem hx))
  · have hunion := Finset.card_union_le reached (list.map key).toFinset
    have hkeys := List.toFinset_card_le (list.map key)
    rw [List.length_map] at hkeys
    simp only [Sweep.start]
    omega

theorem saturate_ends (within : Finset κ) (hlist : ∀ x ∈ list, key x ∈ within) {fuel : Nat}
    {state : Sweep α κ β} (hstate : state.reached ⊆ within)
    (hfuel : within.card < fuel + state.reached.card) :
    (saturate key rule list fuel state).changed = false := by
  induction fuel generalizing state with
  | zero =>
      have hcard := Finset.card_le_card hstate
      omega
  | succ fuel ih =>
      unfold saturate
      split
      · rcases foldl_visit_progress key rule list { state with changed := false }
          with ⟨hsame, -⟩ | ⟨-, hgrow⟩
        · have hsweep : sweep key rule list state = { state with changed := false } := hsame
          have hstop : saturate key rule list fuel { state with changed := false }
              = { state with changed := false } := by
            cases fuel <;> rfl
          rw [hsweep, hstop]
        · have hwithin : (sweep key rule list state).reached ⊆ within :=
            List.foldlRecOn (motive := fun later : Sweep α κ β => later.reached ⊆ within) list _ hstate
              fun later hlater x hx => visit_subset (hlist x hx) hlater
          refine ih hwithin ?_
          change state.reached.card < (sweep key rule list state).reached.card at hgrow
          omega
      · next hchanged => simpa using hchanged

variable (key rule list) in
theorem saturate_unchanged (reached : Finset κ) :
    (saturate key rule list (list.length + 1) (Sweep.start reached)).changed = false := by
  refine saturate_ends (reached ∪ (list.map key).toFinset) ?_ Finset.subset_union_left ?_
  · intro x hx
    exact Finset.mem_union_right _ (List.mem_toFinset.mpr (List.mem_map_of_mem hx))
  · have hunion := Finset.card_union_le reached (list.map key).toFinset
    have hkeys := List.toFinset_card_le (list.map key)
    rw [List.length_map] at hkeys
    simp only [Sweep.start]
    omega

end Deckent
