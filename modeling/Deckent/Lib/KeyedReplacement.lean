import Mathlib.Data.List.Basic
import Mathlib.Data.List.Perm.Basic

/-!
# Replacing entries by their keys

A list is repaired by steps. A step looks for the first entry with the key of what it replaces, and puts the
replacement there, or removes the entry when an entry with the key of the replacement stands in the list.

The steps come from a suggestion for each entry, in the order of the list. When no entry without a suggestion stands
before one with a suggestion and the same key, every step finds its own entry. Then the list keeps its other entries,
and a suggestion is found in it when it is an entry itself or when it is the first that is made behind the last
entry of its key.
-/

namespace Deckent

variable {α κ : Type*} [DecidableEq κ] (key : α → κ)

def replaceOne (files : List α) (step : α × α) : List α :=
  match files.findIdx? (key · = key step.1) with
  | none => files
  | some index => if files.any (key · = key step.2) then files.eraseIdx index else files.set index step.2

def replaceAll (files : List α) (steps : List (α × α)) : List α := steps.foldl (replaceOne key) files

/-- The steps that come from the suggestions for the entries. -/
def repairSteps (suggestion : α → Option α) (files : List α) : List (α × α) :=
  files.filterMap fun file => (suggestion file).map (file, ·)

variable {key} {suggestion : α → Option α} {files out rest : List α} {w s x : α} {k : κ}

theorem mem_repairSteps {step : α × α} :
    step ∈ repairSteps suggestion files ↔ step.1 ∈ files ∧ suggestion step.1 = some step.2 := by
  rw [repairSteps, List.mem_filterMap]
  constructor
  · rintro ⟨file, hmem, hstep⟩
    obtain ⟨s, hs, rfl⟩ := Option.map_eq_some_iff.mp hstep
    exact ⟨hmem, hs⟩
  · rintro ⟨hmem, hs⟩
    exact ⟨step.1, hmem, by rw [hs]; rfl⟩

theorem lookup_repairSteps [DecidableEq α] (hw : w ∈ files) : (repairSteps suggestion files).lookup w = suggestion w := by
  have hnone : ∀ {rest : List α}, suggestion w = none → (repairSteps suggestion rest).lookup w = none := by
    intro rest hsuggestion
    rw [List.lookup_eq_none_iff]
    intro step hstep
    obtain ⟨-, hsome⟩ := mem_repairSteps.mp hstep
    by_contra hsame
    rw [← of_decide_eq_true (by simpa using hsame : decide (w = step.1) = true), hsuggestion] at hsome
    cases hsome
  cases hsuggestion : suggestion w with
  | none => exact hnone hsuggestion
  | some s =>
      induction files with
      | nil => exact absurd hw List.not_mem_nil
      | cons file rest ih =>
          by_cases hfile : w = file
          · subst hfile
            rw [repairSteps, List.filterMap_cons, hsuggestion]
            exact List.lookup_cons_self
          · have hrest := ih ((List.mem_cons.mp hw).resolve_left hfile)
            rw [repairSteps, List.filterMap_cons]
            cases hother : suggestion file with
            | none => exact hrest
            | some other =>
                have hbeq : (w == file) = false := by simpa using hfile
                rw [Option.map_some, List.lookup_cons, hbeq]
                exact hrest

/-! ### One step -/

theorem replaceOne_of_absent (habsent : ∀ f ∈ files, key f ≠ key w) : replaceOne key files (w, s) = files := by
  have hnone : files.findIdx? (key · = key w) = none := by
    rw [List.findIdx?_eq_none_iff]
    exact fun f hf => decide_eq_false (habsent f hf)
  rw [replaceOne, hnone]

theorem replaceOne_of_split (hbefore : ∀ f ∈ out, key f ≠ key w) (hx : key x = key w) :
    replaceOne key (out ++ x :: rest) (w, s)
      = if ∃ f ∈ out ++ x :: rest, key f = key s then out ++ rest else out ++ s :: rest := by
  have hnone : out.findIdx? (key · = key w) = none := by
    rw [List.findIdx?_eq_none_iff]
    exact fun f hf => decide_eq_false (hbefore f hf)
  have hindex : (out ++ x :: rest).findIdx? (key · = key w) = some out.length := by
    rw [List.findIdx?_append, hnone, List.findIdx?_cons, if_pos (decide_eq_true hx)]
    simp
  have hany : (out ++ x :: rest).any (key · = key s) = true ↔ ∃ f ∈ out ++ x :: rest, key f = key s := by
    simp only [List.any_eq_true, decide_eq_true_eq]
  rw [replaceOne, hindex]
  dsimp only
  by_cases hexists : ∃ f ∈ out ++ x :: rest, key f = key s
  · rw [if_pos (hany.mpr hexists), if_pos hexists, List.eraseIdx_append_of_length_le (Nat.le_refl _), Nat.sub_self]
    rfl
  · rw [if_neg (mt hany.mp hexists), if_neg hexists, List.set_append_right _ _ (Nat.le_refl _), Nat.sub_self]
    rfl

theorem exists_split (hpresent : ∃ f ∈ files, key f = key w) :
    ∃ out x rest, files = out ++ x :: rest ∧ (∀ f ∈ out, key f ≠ key w) ∧ key x = key w := by
  induction files with
  | nil =>
      obtain ⟨f, hf, -⟩ := hpresent
      exact absurd hf List.not_mem_nil
  | cons y ys ih =>
      by_cases hy : key y = key w
      · exact ⟨[], y, ys, rfl, List.forall_mem_nil _, hy⟩
      · obtain ⟨f, hf, hkey⟩ := hpresent
        have hlater : f ∈ ys := (List.mem_cons.mp hf).resolve_left fun heq => hy (heq ▸ hkey)
        obtain ⟨out, x, rest, rfl, hout, hx⟩ := ih ⟨f, hlater, hkey⟩
        exact ⟨y :: out, x, rest, rfl, List.forall_mem_cons.mpr ⟨hy, hout⟩, hx⟩

/-- Of the entries with one key a step takes the first or none, as long as there are any. -/
theorem filter_replaceOne (hne : files.filter (key · = k) ≠ []) :
    (replaceOne key files (w, s)).filter (key · = k)
      = if key w = k then (files.filter (key · = k)).tail else files.filter (key · = k) := by
  obtain ⟨member, hmember⟩ := List.exists_mem_of_ne_nil _ hne
  rw [List.mem_filter, decide_eq_true_eq] at hmember
  by_cases hpresent : ∃ f ∈ files, key f = key w
  · obtain ⟨out, x, rest, rfl, hout, hx⟩ := exists_split hpresent
    rw [replaceOne_of_split hout hx]
    -- the replacement is put in only when there is no entry of its key
    have hinsert : (if ∃ f ∈ out ++ x :: rest, key f = key s then out ++ rest else out ++ s :: rest).filter (key · = k)
        = (out ++ rest).filter (key · = k) := by
      by_cases hexists : ∃ f ∈ out ++ x :: rest, key f = key s
      · rw [if_pos hexists]
      · have hs : key s ≠ k := fun heq => hexists ⟨member, hmember.1, hmember.2.trans heq.symm⟩
        rw [if_neg hexists, List.filter_append, List.filter_append, List.filter_cons_of_neg (by simpa using hs)]
    rw [hinsert, List.filter_append, List.filter_append]
    by_cases hw : key w = k
    · have hnil : out.filter (key · = k) = [] := by
        rw [List.filter_eq_nil_iff]
        exact fun f hf => by simpa using hw ▸ hout f hf
      rw [if_pos hw, hnil, List.filter_cons_of_pos (by simpa using hx.trans hw)]
      rfl
    · rw [if_neg hw, List.filter_cons_of_neg (by simpa using hx ▸ hw)]
  · have habsent : ∀ f ∈ files, key f ≠ key w := fun f hf hkey => hpresent ⟨f, hf, hkey⟩
    rw [replaceOne_of_absent habsent, if_neg]
    exact fun hw => habsent member hmember.1 (hmember.2.trans hw.symm)

/-- While there are more entries of a key than steps, the steps take the first of them. -/
theorem filter_replaceAll {steps : List (α × α)}
    (hless : steps.countP (key ·.1 = k) < (files.filter (key · = k)).length) :
    (replaceAll key files steps).filter (key · = k)
      = (files.filter (key · = k)).drop (steps.countP (key ·.1 = k)) := by
  induction steps generalizing files with
  | nil => rfl
  | cons step steps ih =>
      obtain ⟨w, s⟩ := step
      have hne : files.filter (key · = k) ≠ [] := List.ne_nil_of_length_pos (by omega)
      have hstep := @filter_replaceOne α κ _ key files w s k hne
      rw [List.countP_cons] at hless ⊢
      by_cases hw : key w = k
      · rw [if_pos hw] at hstep
        rw [if_pos (decide_eq_true hw)] at hless ⊢
        have htail : (files.filter (key · = k)).tail.length = (files.filter (key · = k)).length - 1 :=
          List.length_tail
        rw [replaceAll, List.foldl_cons, ← replaceAll, ih (by rw [hstep]; omega), hstep, ← List.drop_one,
          List.drop_drop, Nat.add_comm]
      · rw [if_neg hw] at hstep
        rw [if_neg (by simpa using hw), Nat.add_zero] at hless ⊢
        rw [replaceAll, List.foldl_cons, ← replaceAll, ih (by rwa [hstep]), hstep]

/-! ### All steps of a list -/

def SuggestedFirst (key : α → κ) (suggestion : α → Option α) (files : List α) : Prop :=
  files.Pairwise fun e w => key e = key w → (suggestion w).isSome → (suggestion e).isSome

def repairFrom (key : α → κ) (suggestion : α → Option α) (out : List α) : List α → List α
  | [] => out
  | w :: rest =>
      match suggestion w with
      | none => repairFrom key suggestion (out ++ [w]) rest
      | some s =>
          if ∃ f ∈ out ++ w :: rest, key f = key s then repairFrom key suggestion out rest
          else repairFrom key suggestion (out ++ [s]) rest

theorem repairFrom_of_none (hw : suggestion w = none) :
    repairFrom key suggestion out (w :: rest) = repairFrom key suggestion (out ++ [w]) rest := by
  rw [repairFrom, hw]

theorem repairFrom_of_some (hw : suggestion w = some s) :
    repairFrom key suggestion out (w :: rest)
      = if ∃ f ∈ out ++ w :: rest, key f = key s then repairFrom key suggestion out rest
        else repairFrom key suggestion (out ++ [s]) rest := by
  rw [repairFrom, hw]

/-- Each step finds its own entry: what stands before it has other keys. -/
theorem replaceAll_append_eq_repairFrom (hfirst : SuggestedFirst key suggestion rest)
    (hout : ∀ w ∈ rest, (suggestion w).isSome → ∀ f ∈ out, key f ≠ key w) :
    replaceAll key (out ++ rest) (repairSteps suggestion rest) = repairFrom key suggestion out rest := by
  induction rest generalizing out with
  | nil => exact List.append_nil out
  | cons w rest ih =>
      obtain ⟨hw, hrest⟩ := List.pairwise_cons.mp hfirst
      have hclear : ∀ w' ∈ rest, (suggestion w').isSome → ∀ f ∈ out, key f ≠ key w' :=
        fun w' hw' => hout w' (List.mem_cons_of_mem _ hw')
      have hextend : ∀ {x : α}, (∀ w' ∈ rest, (suggestion w').isSome → key x ≠ key w') →
          ∀ w' ∈ rest, (suggestion w').isSome → ∀ f ∈ out ++ [x], key f ≠ key w' := by
        intro x hx w' hw' hsome f hf
        rcases List.mem_append.mp hf with hf | hf
        · exact hclear w' hw' hsome f hf
        · exact List.mem_singleton.mp hf ▸ hx w' hw' hsome
      have happend : ∀ x : α, out ++ x :: rest = (out ++ [x]) ++ rest := fun x => by simp
      cases hsuggestion : suggestion w with
      | none =>
          have hother : ∀ w' ∈ rest, (suggestion w').isSome → key w ≠ key w' := by
            intro w' hw' hsome hkey
            have hsome' := hw w' hw' hkey hsome
            rw [hsuggestion] at hsome'
            cases hsome'
          have hsteps : repairSteps suggestion (w :: rest) = repairSteps suggestion rest := by
            rw [repairSteps, List.filterMap_cons, hsuggestion]
            rfl
          rw [hsteps, happend, ih hrest (hextend hother), repairFrom_of_none hsuggestion]
      | some s =>
          have hsteps : repairSteps suggestion (w :: rest) = (w, s) :: repairSteps suggestion rest := by
            rw [repairSteps, List.filterMap_cons, hsuggestion]
            rfl
          have hown : ∀ f ∈ out, key f ≠ key w := hout w List.mem_cons_self (by rw [hsuggestion]; rfl)
          rw [hsteps, replaceAll, List.foldl_cons, ← replaceAll, replaceOne_of_split hown rfl,
            repairFrom_of_some hsuggestion]
          by_cases hexists : ∃ f ∈ out ++ w :: rest, key f = key s
          · rw [if_pos hexists, if_pos hexists, ih hrest hclear]
          · have hother : ∀ w' ∈ rest, (suggestion w').isSome → key s ≠ key w' := fun w' hw' _ hkey =>
              hexists ⟨w', by simp [hw'], hkey.symm⟩
            rw [if_neg hexists, if_neg hexists, happend, ih hrest (hextend hother)]

theorem replaceAll_eq_repairFrom (hfirst : SuggestedFirst key suggestion files) :
    replaceAll key files (repairSteps suggestion files) = repairFrom key suggestion [] files := by
  have hnil : ∀ w ∈ files, (suggestion w).isSome → ∀ f ∈ ([] : List α), key f ≠ key w :=
    fun _ _ _ => List.forall_mem_nil _
  have heq := replaceAll_append_eq_repairFrom hfirst hnil
  rwa [List.nil_append] at heq

theorem sublist_repairFrom :
    (out ++ rest.filter (suggestion · |>.isNone)).Sublist (repairFrom key suggestion out rest) := by
  induction rest generalizing out with
  | nil => simp [repairFrom]
  | cons w rest ih =>
      cases hw : suggestion w with
      | none =>
          rw [repairFrom_of_none hw, List.filter_cons_of_pos (by simp [hw])]
          have hsub := @ih (out ++ [w])
          rwa [List.append_assoc] at hsub
      | some s =>
          rw [repairFrom_of_some hw, List.filter_cons_of_neg (by simp [hw])]
          split
          · exact ih
          · exact ((List.sublist_append_left out [s]).append_right _).trans ih

theorem mem_repairFrom (hx : x ∈ repairFrom key suggestion out rest) :
    x ∈ out ∨ (x ∈ rest ∧ suggestion x = none) ∨ ∃ w ∈ rest, suggestion w = some x := by
  induction rest generalizing out with
  | nil => exact .inl hx
  | cons w rest ih =>
      have hlater : (x ∈ rest ∧ suggestion x = none) ∨ (∃ w ∈ rest, suggestion w = some x) →
          (x ∈ w :: rest ∧ suggestion x = none) ∨ ∃ w' ∈ w :: rest, suggestion w' = some x := by
        rintro (⟨hmem, hnone⟩ | ⟨w', hmem, hsome⟩)
        · exact .inl ⟨List.mem_cons_of_mem _ hmem, hnone⟩
        · exact .inr ⟨w', List.mem_cons_of_mem _ hmem, hsome⟩
      cases hw : suggestion w with
      | none =>
          rw [repairFrom_of_none hw] at hx
          rcases ih hx with hmem | hmem
          · rcases List.mem_append.mp hmem with hmem | hmem
            · exact .inl hmem
            · obtain rfl := List.mem_singleton.mp hmem
              exact .inr (.inl ⟨List.mem_cons_self, hw⟩)
          · exact .inr (hlater hmem)
      | some s =>
          rw [repairFrom_of_some hw] at hx
          split at hx
          · exact (ih hx).imp_right hlater
          · rcases ih hx with hmem | hmem
            · rcases List.mem_append.mp hmem with hmem | hmem
              · exact .inl hmem
              · obtain rfl := List.mem_singleton.mp hmem
                exact .inr (.inr ⟨w, List.mem_cons_self, hw⟩)
            · exact .inr (hlater hmem)

def lateSuggestion (key : α → κ) (suggestion : α → Option α) (k : κ) : List α → Option α
  | [] => none
  | w :: rest =>
      if ∃ f ∈ w :: rest, key f = k then lateSuggestion key suggestion k rest
      else ((suggestion w).filter (key · = k)).or (lateSuggestion key suggestion k rest)

theorem lateSuggestion_cons_of_ne (hsuggestion : ∀ s, suggestion w = some s → key s ≠ k) :
    lateSuggestion key suggestion k (w :: rest) = lateSuggestion key suggestion k rest := by
  have hnone : (suggestion w).filter (key · = k) = none := by
    rw [Option.filter_eq_none_iff]
    exact fun s hs => by simpa using hsuggestion s hs
  rw [lateSuggestion, hnone, Option.none_or, ite_self]

/-- When every entry with the key has a suggestion, at most the late suggestion is left with that key. -/
theorem filter_repairFrom (hall : ∀ f ∈ rest, key f = k → (suggestion f).isSome) :
    (repairFrom key suggestion out rest).filter (key · = k)
      = if out.filter (key · = k) = [] then (lateSuggestion key suggestion k rest).toList
        else out.filter (key · = k) := by
  induction rest generalizing out with
  | nil =>
      change out.filter _ = _
      split
      · next hnil => exact hnil
      · rfl
  | cons w rest ih =>
      have hlater : ∀ f ∈ rest, key f = k → (suggestion f).isSome := fun f hf => hall f (List.mem_cons_of_mem _ hf)
      have hextend : ∀ {x : α}, key x ≠ k → (out ++ [x]).filter (key · = k) = out.filter (key · = k) := by
        intro x hx
        rw [List.filter_append, List.filter_cons_of_neg (by simpa using hx), List.filter_nil, List.append_nil]
      cases hw : suggestion w with
      | none =>
          have hother : key w ≠ k := by
            intro hkey
            have hsome := hall w List.mem_cons_self hkey
            rw [hw] at hsome
            cases hsome
          rw [repairFrom_of_none hw, ih hlater, hextend hother,
            lateSuggestion_cons_of_ne fun s hs => by rw [hw] at hs; cases hs]
      | some s =>
          rw [repairFrom_of_some hw]
          by_cases hs : key s = k
          · by_cases hexists : ∃ f ∈ out ++ w :: rest, key f = key s
            · rw [if_pos hexists, ih hlater]
              split
              · next hnil =>
                  have hbehind : ∃ f ∈ w :: rest, key f = k := by
                    obtain ⟨f, hf, hkey⟩ := hexists
                    refine ⟨f, (List.mem_append.mp hf).resolve_left fun hmem => ?_, hkey.trans hs⟩
                    exact absurd (hkey.trans hs) (by simpa using List.filter_eq_nil_iff.mp hnil f hmem)
                  rw [lateSuggestion, if_pos hbehind]
              · rfl
            · have hnil : out.filter (key · = k) = [] := by
                rw [List.filter_eq_nil_iff]
                intro f hf
                simpa using fun hkey => hexists ⟨f, by simp [hf], hkey.trans hs.symm⟩
              have hbehind : ¬ ∃ f ∈ w :: rest, key f = k := by
                rintro ⟨f, hf, hkey⟩
                exact hexists ⟨f, by simp only [List.mem_append]; exact .inr hf, hkey.trans hs.symm⟩
              have hnew : (out ++ [s]).filter (key · = k) = [s] := by
                rw [List.filter_append, hnil, List.filter_cons_of_pos (by simpa using hs)]
                rfl
              rw [if_neg hexists, ih hlater, hnew, if_neg (List.cons_ne_nil _ _), if_pos hnil, lateSuggestion,
                if_neg hbehind, hw, Option.filter_some, if_pos (decide_eq_true hs)]
              rfl
          · have hlate : lateSuggestion key suggestion k (w :: rest) = lateSuggestion key suggestion k rest := by
              refine lateSuggestion_cons_of_ne fun other hother => ?_
              rw [hw] at hother
              cases hother
              exact hs
            rw [hlate]
            split
            · exact ih hlater
            · rw [ih hlater, hextend hs]

/-! ### What is kept and what is delivered -/

theorem countP_repairSteps : (repairSteps suggestion files).countP (key ·.1 = k)
    = (files.filter (key · = k)).countP (suggestion · |>.isSome) := by
  rw [repairSteps, List.countP_filterMap, List.countP_filter]
  refine List.countP_congr fun w _ => ?_
  cases suggestion w <;> simp

omit [DecidableEq κ] in
/-- A list that keeps its other entries when as many are taken from its start as pass a test has the ones that
pass first. -/
theorem pairwise_of_sublist_drop {p : α → Bool}
    (hkept : (files.filter (!p ·)).Sublist (files.drop (files.countP p))) :
    files.Pairwise fun e w => p w → p e := by
  have hlength : (files.filter (!p ·)).length = (files.drop (files.countP p)).length := by
    have hcount := List.length_eq_length_filter_add (l := files) p
    rw [List.length_drop, List.countP_eq_length_filter]
    omega
  have hdrop : files.filter (!p ·) = files.drop (files.countP p) := hkept.eq_of_length hlength
  have hbehind : ∀ w ∈ files.drop (files.countP p), p w = false := by
    rw [← hdrop]
    intro w hw
    simpa using (List.mem_filter.mp hw).2
  have hahead : ∀ e ∈ files.take (files.countP p), p e = true := by
    have hzero : (files.drop (files.countP p)).countP p = 0 := by
      rw [List.countP_eq_zero]
      exact fun w hw => by simp [hbehind w hw]
    have hall : (files.take (files.countP p)).countP p = (files.take (files.countP p)).length := by
      have hsum := congrArg (List.countP p) (List.take_append_drop (files.countP p) files)
      rw [List.countP_append, hzero, Nat.add_zero] at hsum
      rw [hsum, List.length_take, Nat.min_eq_left List.countP_le_length]
    exact List.countP_eq_length.mp hall
  rw [← List.take_append_drop (files.countP p) files, List.pairwise_append]
  refine ⟨?_, ?_, fun e he w _ _ => hahead e he⟩
  · exact List.Pairwise.imp_of_mem (fun he _ _ _ => hahead _ he) (List.pairwise_of_forall fun _ _ => trivial)
  · refine List.Pairwise.imp_of_mem (fun _ hw _ hp => ?_) (List.pairwise_of_forall fun _ _ => trivial)
    rw [hbehind _ hw] at hp
    cases hp

def Delivered (key : α → κ) (suggestion : α → Option α) (files : List α) (s : α) : Prop :=
  s ∈ files ∨ (∀ f ∈ files, key f = key s → (suggestion f).isSome) ∧ lateSuggestion key suggestion (key s) files = some s

/-- The entries without a suggestion are kept exactly when none of them stands before one with a suggestion and the
same key. -/
theorem sublist_replaceAll_iff :
    (files.filter (suggestion · |>.isNone)).Sublist (replaceAll key files (repairSteps suggestion files))
      ↔ SuggestedFirst key suggestion files := by
  constructor
  · intro hkept
    have hclass : ∀ k, (files.filter (key · = k)).Pairwise fun e w => (suggestion w).isSome → (suggestion e).isSome := by
      intro k
      by_cases hless : (files.filter (key · = k)).countP (suggestion · |>.isSome) < (files.filter (key · = k)).length
      · refine pairwise_of_sublist_drop (p := fun w => (suggestion w).isSome) ?_
        have hfilter := hkept.filter (key · = k)
        have hcomm : (files.filter (suggestion · |>.isNone)).filter (key · = k)
            = (files.filter (key · = k)).filter fun w => !(suggestion w).isSome := by
          rw [List.filter_filter, List.filter_filter]
          refine List.filter_congr fun w _ => ?_
          cases suggestion w <;> simp
        rwa [filter_replaceAll (by rwa [countP_repairSteps]), countP_repairSteps, hcomm] at hfilter
      · have hall := List.countP_eq_length.mp (Nat.le_antisymm List.countP_le_length (Nat.le_of_not_lt hless))
        exact List.Pairwise.imp_of_mem (fun he _ _ _ => hall _ he) (List.pairwise_of_forall fun _ _ => trivial)
    rw [SuggestedFirst, List.pairwise_iff_forall_sublist]
    intro e w hsub hkey
    have hpair := hclass (key w)
    rw [List.pairwise_filter, List.pairwise_iff_forall_sublist] at hpair
    exact hpair hsub (decide_eq_true hkey) (decide_eq_true rfl)
  · intro hfirst
    rw [replaceAll_eq_repairFrom hfirst]
    have hsub := @sublist_repairFrom α κ _ key suggestion [] files
    rwa [List.nil_append] at hsub

/-- A suggestion that has none itself is found in the repaired list exactly when it is an entry or the late
suggestion of its key. -/
theorem mem_replaceAll_iff (hfirst : SuggestedFirst key suggestion files) (hs : suggestion s = none) :
    s ∈ replaceAll key files (repairSteps suggestion files) ↔ Delivered key suggestion files s := by
  have hkept := sublist_replaceAll_iff.mpr hfirst
  have hentry : s ∈ files → s ∈ replaceAll key files (repairSteps suggestion files) := fun hmem =>
    hkept.subset (List.mem_filter.mpr ⟨hmem, by rw [hs]; rfl⟩)
  by_cases hall : ∀ f ∈ files, key f = key s → (suggestion f).isSome
  · have hnot : s ∉ files := by
      intro hmem
      have hsome := hall s hmem rfl
      rw [hs] at hsome
      cases hsome
    have hfilter : (repairFrom key suggestion [] files).filter (key · = key s) = _ := filter_repairFrom hall
    rw [List.filter_nil, if_pos rfl, ← replaceAll_eq_repairFrom hfirst] at hfilter
    have hmem : s ∈ replaceAll key files (repairSteps suggestion files)
        ↔ s ∈ (lateSuggestion key suggestion (key s) files).toList := by
      rw [← hfilter, List.mem_filter]
      simp
    rw [hmem, Delivered, Option.mem_toList]
    constructor
    · exact fun hlate => .inr ⟨hall, hlate⟩
    · rintro (hmem | ⟨-, hlate⟩)
      · exact absurd hmem hnot
      · exact hlate
  · constructor
    · intro hmem
      refine .inl ?_
      obtain ⟨f, hf, hkey, hnone⟩ : ∃ f ∈ files, key f = key s ∧ ¬ (suggestion f).isSome = true := by
        by_contra hnot
        refine hall fun f hf hkey => ?_
        by_contra hsome
        exact hnot ⟨f, hf, hkey, hsome⟩
      have hless : (repairSteps suggestion files).countP (key ·.1 = key s)
          < (files.filter (key · = key s)).length := by
        rw [countP_repairSteps]
        refine Nat.lt_of_le_of_ne List.countP_le_length fun heq => hnone ?_
        exact List.countP_eq_length.mp heq f (List.mem_filter.mpr ⟨hf, decide_eq_true hkey⟩)
      have hown : s ∈ (replaceAll key files (repairSteps suggestion files)).filter (key · = key s) :=
        List.mem_filter.mpr ⟨hmem, decide_eq_true rfl⟩
      rw [filter_replaceAll hless] at hown
      exact (List.mem_filter.mp (List.mem_of_mem_drop hown)).1
    · rintro (hmem | ⟨hall', -⟩)
      · exact hentry hmem
      · exact absurd hall' hall

theorem mem_replaceAll (hfirst : SuggestedFirst key suggestion files)
    (hx : x ∈ replaceAll key files (repairSteps suggestion files)) :
    (x ∈ files ∧ suggestion x = none) ∨ ∃ w ∈ files, suggestion w = some x := by
  rw [replaceAll_eq_repairFrom hfirst] at hx
  exact (mem_repairFrom hx).resolve_left List.not_mem_nil

end Deckent
