import Mathlib.Data.List.Nodup
import Mathlib.Data.List.Pairwise
import Mathlib.Logic.Relation

/-!
# Fenced locks

Holders have keys, and some keys exclude each other. A holder gets the next value of a counter when it
takes its key or takes it over from another holder, so the value tells the generations of holders
apart. Whatever happens, no two holders exclude each other, the granted values increase, and a
generation that lost its key never holds a key again.
-/

namespace Deckent

universe u

variable {κ : Type u}

structure Fence (κ : Type u) where
  counter : Nat
  holders : List (κ × Nat)
  granted : List Nat

namespace Fence

def holding (state : Fence κ) : List Nat := state.holders.map Prod.snd

/-- The next generation is granted to the holders that result. -/
def advance (state : Fence κ) (holders : List (κ × Nat)) : Fence κ where
  counter := state.counter + 1
  holders := holders
  granted := state.granted ++ [state.counter + 1]

def pass [DecidableEq κ] (holders : List (κ × Nat)) (key : κ) (generation next : Nat) :
    List (κ × Nat) :=
  holders.map fun holder => if holder = (key, generation) then (key, next) else holder

inductive Step [DecidableEq κ] (conflict : κ → κ → Prop) : Fence κ → Fence κ → Prop where
  | drop (state : Fence κ) (holders : List (κ × Nat)) (hsublist : holders.Sublist state.holders) :
      Step conflict state { state with holders := holders }
  | grant (state : Fence κ) (key : κ) (hfree : ∀ holder ∈ state.holders, ¬ conflict holder.1 key) :
      Step conflict state (state.advance (state.holders ++ [(key, state.counter + 1)]))
  | transfer (state : Fence κ) (key : κ) (generation : Nat)
      (hheld : (key, generation) ∈ state.holders) :
      Step conflict state
        (state.advance (pass state.holders key generation (state.counter + 1)))

/-- What every run keeps. -/
structure Valid (conflict : κ → κ → Prop) (state : Fence κ) : Prop where
  exclusive : state.holders.Pairwise fun left right => ¬ conflict left.1 right.1
  distinct : state.holding.Nodup
  held : ∀ generation ∈ state.holding, generation ∈ state.granted
  increasing : state.granted.Pairwise (· < ·)
  bounded : ∀ generation ∈ state.granted, generation ≤ state.counter

variable {conflict : κ → κ → Prop} {state next : Fence κ} {generation : Nat}

theorem valid_empty : Valid conflict (⟨0, [], []⟩ : Fence κ) where
  exclusive := List.Pairwise.nil
  distinct := List.nodup_nil
  held := by simp [holding]
  increasing := List.Pairwise.nil
  bounded := by simp

theorem Valid.lt_next (hvalid : Valid conflict state) (hheld : generation ∈ state.holding) :
    generation < state.counter + 1 :=
  Nat.lt_succ_of_le (hvalid.bounded _ (hvalid.held _ hheld))

theorem Valid.increasing_advance (hvalid : Valid conflict state) :
    (state.granted ++ [state.counter + 1]).Pairwise (· < ·) := by
  rw [List.pairwise_append]
  refine ⟨hvalid.increasing, List.pairwise_singleton _ _, ?_⟩
  intro generation hgeneration next hnext
  rw [List.mem_singleton] at hnext
  rw [hnext]
  exact Nat.lt_succ_of_le (hvalid.bounded _ hgeneration)

theorem Valid.bounded_advance (hvalid : Valid conflict state) {generation : Nat}
    (hgeneration : generation ∈ state.granted ++ [state.counter + 1]) :
    generation ≤ state.counter + 1 := by
  rcases List.mem_append.mp hgeneration with hold | hnew
  · exact Nat.le_succ_of_le (hvalid.bounded _ hold)
  · exact Nat.le_of_eq (List.mem_singleton.mp hnew)

variable [DecidableEq κ]

theorem mem_pass {holders : List (κ × Nat)} {key : κ} {old new : Nat} {holder : κ × Nat}
    (hholder : holder ∈ pass holders key old new) :
    holder = (key, new) ∨ (holder ∈ holders ∧ holder ≠ (key, old)) := by
  obtain ⟨before, hbefore, rfl⟩ := List.mem_map.mp hholder
  split_ifs with heq
  · exact .inl rfl
  · exact .inr ⟨hbefore, heq⟩

theorem map_fst_pass (holders : List (κ × Nat)) (key : κ) (old new : Nat) :
    (pass holders key old new).map Prod.fst = holders.map Prod.fst := by
  unfold pass
  rw [List.map_map]
  apply List.map_congr_left
  intro holder _
  simp only [Function.comp_apply]
  split_ifs with heq
  · rw [heq]
  · rfl

theorem Valid.step (hvalid : Valid conflict state) (hstep : Step conflict state next) :
    Valid conflict next := by
  cases hstep with
  | drop holders hsublist =>
      refine ⟨hvalid.exclusive.sublist hsublist, hvalid.distinct.sublist (hsublist.map _), ?_,
        hvalid.increasing, hvalid.bounded⟩
      intro generation hgeneration
      exact hvalid.held _ ((hsublist.map _).subset hgeneration)
  | grant key hfree =>
      refine ⟨?_, ?_, ?_, hvalid.increasing_advance, fun _ => hvalid.bounded_advance⟩
      · change (state.holders ++ [_]).Pairwise _
        rw [List.pairwise_append]
        refine ⟨hvalid.exclusive, List.pairwise_singleton _ _, ?_⟩
        intro holder hholder new hnew
        rw [List.mem_singleton] at hnew
        rw [hnew]
        exact hfree holder hholder
      · change ((state.holders ++ [_]).map Prod.snd).Nodup
        rw [List.map_append, List.nodup_append]
        refine ⟨hvalid.distinct, List.nodup_singleton _, ?_⟩
        intro generation hgeneration new hnew
        rw [List.map_singleton, List.mem_singleton] at hnew
        rw [hnew]
        exact Nat.ne_of_lt (hvalid.lt_next hgeneration)
      · intro generation hgeneration
        change generation ∈ (state.holders ++ [_]).map Prod.snd at hgeneration
        rw [List.map_append, List.mem_append] at hgeneration
        rcases hgeneration with hold | hnew
        · exact List.mem_append_left _ (hvalid.held _ hold)
        · exact List.mem_append_right _ hnew
  | transfer key old hheld =>
      refine ⟨?_, ?_, ?_, hvalid.increasing_advance, fun _ => hvalid.bounded_advance⟩
      · change (pass state.holders key old (state.counter + 1)).Pairwise _
        have hkeys : (state.holders.map Prod.fst).Pairwise fun left right => ¬ conflict left right :=
          List.pairwise_map.mpr hvalid.exclusive
        rw [← map_fst_pass state.holders key old (state.counter + 1)] at hkeys
        exact List.pairwise_map.mp hkeys
      · have hinj : ∀ left ∈ state.holders, ∀ right ∈ state.holders,
            (if left = (key, old) then state.counter + 1 else left.2)
              = (if right = (key, old) then state.counter + 1 else right.2) → left = right := by
          intro left hleft right hright heq
          have hleftLt := hvalid.lt_next (List.mem_map_of_mem hleft)
          have hrightLt := hvalid.lt_next (List.mem_map_of_mem hright)
          split_ifs at heq with hleftOld hrightOld hrightOld
          · rw [hleftOld, hrightOld]
          · omega
          · omega
          · exact List.inj_on_of_nodup_map hvalid.distinct hleft hright heq
        have hmap : (pass state.holders key old (state.counter + 1)).map Prod.snd
            = state.holders.map
              fun holder => if holder = (key, old) then state.counter + 1 else holder.2 := by
          unfold pass
          rw [List.map_map]
          apply List.map_congr_left
          intro holder _
          simp only [Function.comp_apply]
          split_ifs <;> rfl
        change ((pass state.holders key old (state.counter + 1)).map Prod.snd).Nodup
        rw [hmap]
        exact (List.Nodup.of_map _ hvalid.distinct).map_on hinj
      · intro generation hgeneration
        obtain ⟨holder, hholder, rfl⟩ := List.mem_map.mp hgeneration
        rcases mem_pass hholder with rfl | ⟨hbefore, -⟩
        · exact List.mem_append_right _ (List.mem_singleton_self _)
        · exact List.mem_append_left _ (hvalid.held _ (List.mem_map_of_mem hbefore))

def Retired (state : Fence κ) (generation : Nat) : Prop :=
  generation ∈ state.granted ∧ generation ∉ state.holding

theorem Retired.step (hvalid : Valid conflict state) (hretired : state.Retired generation)
    (hstep : Step conflict state next) : next.Retired generation := by
  obtain ⟨hgranted, hgone⟩ := hretired
  have hnew : generation ≠ state.counter + 1 :=
    Nat.ne_of_lt (Nat.lt_succ_of_le (hvalid.bounded _ hgranted))
  cases hstep with
  | drop holders hsublist =>
      refine ⟨hgranted, ?_⟩
      intro hheld
      exact hgone ((hsublist.map _).subset hheld)
  | grant key hfree =>
      refine ⟨List.mem_append_left _ hgranted, ?_⟩
      intro hheld
      change generation ∈ (state.holders ++ [_]).map Prod.snd at hheld
      rw [List.map_append, List.mem_append] at hheld
      rcases hheld with hold | hlast
      · exact hgone hold
      · exact hnew (List.mem_singleton.mp hlast)
  | transfer key old hheld =>
      refine ⟨List.mem_append_left _ hgranted, ?_⟩
      intro hholding
      obtain ⟨holder, hholder, heq⟩ := List.mem_map.mp hholding
      rcases mem_pass hholder with rfl | ⟨hbefore, -⟩
      · exact hnew heq.symm
      · rw [← heq] at hgone
        exact hgone (List.mem_map_of_mem hbefore)

theorem Valid.run (hvalid : Valid conflict state)
    (hrun : Relation.ReflTransGen (Step conflict) state next) : Valid conflict next := by
  induction hrun with
  | refl => exact hvalid
  | tail _ hstep ih => exact ih.step hstep

theorem Retired.run (hvalid : Valid conflict state) (hretired : state.Retired generation)
    (hrun : Relation.ReflTransGen (Step conflict) state next) : next.Retired generation := by
  induction hrun with
  | refl => exact hretired
  | tail hbefore hstep ih => exact ih.step (hvalid.run hbefore) hstep

end Fence

end Deckent
