import Mathlib.Data.Finset.Card
import Mathlib.Data.Finset.SDiff
import Mathlib.Logic.Relation

/-!
# Following a partial function with a guard against cycles

`walkUp` lists what is met on the way up from a start and stops at the first repetition; `follow` runs
the same way down to the last member it can reach. Both carry the set of keys already met. The keys
that lead on lie in a finite set, and once the fuel exceeds the part of it not yet met, more fuel does
not change the result. Where the way ends by itself, the guard never fires and `follow` returns the
end.
-/

namespace Deckent

open Relation

section WalkUp

variable {κ : Type*} [DecidableEq κ]

/-- `while (key && !seen.has(key)) { visit(key); seen.add(key); key = parent(key); }`. -/
def walkUp (parent : κ → Option κ) : Nat → Finset κ → Option κ → List κ
  | 0, _, _ => []
  | _ + 1, _, none => []
  | fuel + 1, seen, some key =>
      if key ∈ seen then [] else key :: walkUp parent fuel (insert key seen) (parent key)

variable {parent : κ → Option κ}

theorem card_sdiff_insert_lt {within : Finset κ} {key : κ} {seen : Finset κ} (hkey : key ∈ within) (hnew : key ∉ seen) :
    (within \ insert key seen).card < (within \ seen).card := by
  have hmem : key ∈ within \ seen := Finset.mem_sdiff.mpr ⟨hkey, hnew⟩
  have herase : within \ insert key seen = (within \ seen).erase key := Finset.sdiff_insert _ _ _
  rw [herase]
  exact Finset.card_erase_lt_of_mem hmem

theorem walkUp_none (fuel : Nat) (seen : Finset κ) : walkUp parent fuel seen none = [] := by
  cases fuel <;> rfl

/-- Enough fuel is as good as any more. -/
theorem walkUp_fuel (within : Finset κ) (hwithin : ∀ key, (parent key).isSome → key ∈ within) {fuel more : Nat}
    {seen : Finset κ} (start : Option κ) (hfuel : (within \ seen).card < fuel) (hmore : fuel ≤ more) :
    walkUp parent more seen start = walkUp parent fuel seen start := by
  induction fuel generalizing more seen start with
  | zero => exact absurd hfuel (Nat.not_lt_zero _)
  | succ fuel ih =>
      obtain ⟨more, rfl⟩ : ∃ rest, more = rest + 1 := ⟨more - 1, by omega⟩
      cases start with
      | none => rfl
      | some key =>
          rw [walkUp, walkUp]
          by_cases hseen : key ∈ seen
          · rw [if_pos hseen, if_pos hseen]
          · rw [if_neg hseen, if_neg hseen]
            cases hparent : parent key with
            | none => rw [walkUp_none, walkUp_none]
            | some next =>
                have hkey : key ∈ within := hwithin key (by rw [hparent]; rfl)
                have hless := card_sdiff_insert_lt hkey hseen
                rw [ih (some next) (by omega) (by omega)]

theorem walkUp_congr {other : κ → Option κ} (met : κ → Prop)
    (hnext : ∀ key, met key → ∀ key' ∈ parent key, met key')
    (hagree : ∀ key, met key → other key = parent key) {fuel : Nat} {seen seen' : Finset κ}
    {start : Option κ} (hstart : ∀ key ∈ start, met key)
    (hseen : ∀ key, met key → (key ∈ seen' ↔ key ∈ seen)) :
    walkUp other fuel seen' start = walkUp parent fuel seen start := by
  induction fuel generalizing seen seen' start with
  | zero => rfl
  | succ fuel ih =>
      cases start with
      | none => rfl
      | some key =>
          have hkey : met key := hstart key rfl
          rw [walkUp, walkUp, hagree key hkey]
          by_cases hmem : key ∈ seen
          · rw [if_pos hmem, if_pos ((hseen key hkey).mpr hmem)]
          · rw [if_neg hmem, if_neg fun h => hmem ((hseen key hkey).mp h)]
            refine congrArg (key :: ·) (ih (hnext key hkey) fun k hk => ?_)
            rw [Finset.mem_insert, Finset.mem_insert, hseen k hk]

theorem mem_walkUp {fuel : Nat} {seen : Finset κ} {start : Option κ} {key : κ}
    (hkey : key ∈ walkUp parent fuel seen start) :
    ∃ first ∈ start, ReflTransGen (fun a b => parent a = some b) first key := by
  induction fuel generalizing seen start with
  | zero => exact absurd hkey List.not_mem_nil
  | succ fuel ih =>
      cases start with
      | none => exact absurd hkey List.not_mem_nil
      | some first =>
          rw [walkUp] at hkey
          split at hkey
          · exact absurd hkey List.not_mem_nil
          · rcases List.mem_cons.mp hkey with rfl | hkey
            · exact ⟨key, rfl, ReflTransGen.refl⟩
            · obtain ⟨second, hsecond, hreach⟩ := ih hkey
              exact ⟨first, rfl, ReflTransGen.head hsecond hreach⟩

end WalkUp

section Follow

variable {α κ : Type*} [DecidableEq κ]

def follow (next : α → Option α) (key : α → κ) : Nat → Finset κ → α → α
  | 0, _, x => x
  | fuel + 1, seen, x =>
      if key x ∈ seen then x
      else match next x with
        | none => x
        | some y => follow next key fuel (insert (key x) seen) y

/-- Enough fuel is as good as any more. -/
theorem follow_fuel {next : α → Option α} {key : α → κ} (domain : α → Prop) (within : Finset κ)
    (hkeys : ∀ x, domain x → key x ∈ within)
    (hnext : ∀ x y, domain x → next x = some y → domain y) {fuel more : Nat} {seen : Finset κ} {x : α}
    (hx : domain x) (hfuel : (within \ seen).card ≤ fuel) (hmore : fuel ≤ more) :
    follow next key more seen x = follow next key fuel seen x := by
  induction fuel generalizing more seen x with
  | zero =>
      have hempty : within \ seen = ∅ := Finset.card_eq_zero.mp (Nat.le_zero.mp hfuel)
      have hmem : key x ∈ seen := Finset.sdiff_eq_empty_iff_subset.mp hempty (hkeys x hx)
      cases more with
      | zero => rfl
      | succ more => exact if_pos hmem
  | succ fuel ih =>
      obtain ⟨more, rfl⟩ : ∃ rest, more = rest + 1 := ⟨more - 1, by omega⟩
      rw [follow, follow]
      by_cases hmem : key x ∈ seen
      · rw [if_pos hmem, if_pos hmem]
      · rw [if_neg hmem, if_neg hmem]
        cases hy : next x with
        | none => rfl
        | some y =>
            have hless := card_sdiff_insert_lt (hkeys x hx) hmem
            exact ih (hnext x y hx hy) (by omega) (by omega)

theorem follow_congr {next other : α → Option α} {key : α → κ} (domain : α → Prop)
    (hnext : ∀ x y, domain x → next x = some y → domain y)
    (hagree : ∀ x, domain x → other x = next x) {fuel : Nat} {seen : Finset κ} {x : α} (hx : domain x) :
    follow other key fuel seen x = follow next key fuel seen x := by
  induction fuel generalizing seen x with
  | zero => rfl
  | succ fuel ih =>
      rw [follow, follow, hagree x hx]
      cases hy : next x with
      | none => rfl
      | some y => simp only [ih (hnext x y hx hy)]

/-- `y` is met on the way from `x`. -/
def LeadsTo (next : α → Option α) (x y : α) : Prop := ReflTransGen (fun a b => next a = some b) x y

variable {next : α → Option α} {key : α → κ}

theorem leadsTo_follow (fuel : Nat) (seen : Finset κ) (x : α) :
    LeadsTo next x (follow next key fuel seen x) := by
  induction fuel generalizing seen x with
  | zero => exact ReflTransGen.refl
  | succ fuel ih =>
      unfold follow
      split
      · exact ReflTransGen.refl
      · split
        · exact ReflTransGen.refl
        · next y hy => exact ReflTransGen.head hy (ih _ y)

theorem LeadsTo.not_cycle {x r : α} (h : LeadsTo next x r) (hend : next r = none) :
    ¬ TransGen (fun a b => next a = some b) x x := by
  intro hcycle
  induction h using ReflTransGen.head_induction_on with
  | refl =>
      obtain ⟨y, hy, -⟩ := TransGen.head'_iff.mp hcycle
      rw [hend] at hy
      exact absurd hy (by simp)
  | head hstep _ ih =>
      obtain ⟨y, hy, hback⟩ := TransGen.head'_iff.mp hcycle
      obtain rfl := Option.some.inj (hstep.symm.trans hy)
      exact ih (TransGen.tail' hback hstep)

theorem LeadsTo.of_leadsTo {x y r : α} (hxr : LeadsTo next x r) (hend : next r = none)
    (hxy : LeadsTo next x y) : LeadsTo next y r := by
  induction hxy with
  | refl => exact hxr
  | tail _ hstep ih =>
      rcases ReflTransGen.cases_head ih with heq | ⟨z, hz, hzr⟩
      · rw [heq, hend] at hstep
        exact absurd hstep (by simp)
      · obtain rfl := Option.some.inj (hz.symm.trans hstep)
        exact hzr

theorem LeadsTo.transfer {other : α → Option α} {x y : α} (h : LeadsTo next x y)
    (hagree : ∀ z, LeadsTo next x z → TransGen (fun a b => next a = some b) z y → other z = next z) :
    LeadsTo other x y := by
  induction h with
  | refl => exact ReflTransGen.refl
  | tail hxy hstep ih =>
      refine (ih fun z hz hpath => hagree z hz (hpath.tail hstep)).tail ?_
      exact (hagree _ hxy (TransGen.single hstep)).trans hstep

/-- Where the way from `x` ends, `follow` returns the end. -/
theorem follow_eq_of_leadsTo (domain : α → Prop) (within : Finset κ)
    (hkeys : ∀ x, domain x → key x ∈ within)
    (hinj : ∀ x y, domain x → domain y → key x = key y → x = y)
    (hnext : ∀ x y, domain x → next x = some y → domain y) {x r : α} (hx : domain x)
    (hlead : LeadsTo next x r) (hend : next r = none) {fuel : Nat} {seen : Finset κ}
    (hfuel : (within \ seen).card ≤ fuel)
    (hseen : ∀ k ∈ seen, ∃ y, domain y ∧ key y = k ∧ TransGen (fun a b => next a = some b) y x) :
    follow next key fuel seen x = r := by
  have hfresh : ∀ {x} {seen : Finset κ}, domain x → LeadsTo next x r →
      (∀ k ∈ seen, ∃ y, domain y ∧ key y = k ∧ TransGen (fun a b => next a = some b) y x) →
      key x ∉ seen := by
    intro x seen hx hlead hseen hmem
    obtain ⟨y, hy, hkey, hpath⟩ := hseen _ hmem
    obtain rfl := hinj y x hy hx hkey
    exact hlead.not_cycle hend hpath
  induction fuel generalizing x seen with
  | zero =>
      have hempty : within \ seen = ∅ := Finset.card_eq_zero.mp (Nat.le_zero.mp hfuel)
      have hmem : key x ∈ within \ seen :=
        Finset.mem_sdiff.mpr ⟨hkeys x hx, hfresh hx hlead hseen⟩
      rw [hempty] at hmem
      exact absurd hmem (Finset.notMem_empty _)
  | succ fuel ih =>
      unfold follow
      rw [if_neg (hfresh hx hlead hseen)]
      rcases ReflTransGen.cases_head hlead with rfl | ⟨y, hy, hyr⟩
      · rw [hend]
      · rw [hy]
        have hless := card_sdiff_insert_lt (hkeys x hx) (hfresh hx hlead hseen)
        refine ih (hnext x y hx hy) hyr (by omega) ?_
        intro k hk
        rcases Finset.mem_insert.mp hk with rfl | hk
        · exact ⟨x, hx, rfl, TransGen.single hy⟩
        · obtain ⟨z, hz, hkey, hpath⟩ := hseen k hk
          exact ⟨z, hz, hkey, hpath.tail hy⟩

end Follow

end Deckent
