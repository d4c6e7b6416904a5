import Mathlib.Logic.Relation
import Mathlib.Data.List.Nodup
import Deckent.Lib.Fallible
import Deckent.Model.RepairBirthAuthority

/-!
# The walk along the receipts

A walk visits births with distinct receipts, so it ends before its bound: at a birth from the accepted task, at the
first birth of the lineage, or with a failure. What it finds is whether the chain of the birth reaches the task, and
that does not depend on the order of the births.
-/

namespace Deckent.Repair

variable {births permuted : List RepairBirth} {accepted receiptDigest : UnitText} {birth current : RepairBirth}

def Precedes (births : List RepairBirth) (birth predecessor : RepairBirth) : Prop :=
  ∃ receiptDigest, birth.predecessorRepairReceiptDigest = some receiptDigest
    ∧ byReceipt births receiptDigest = some predecessor

abbrev Chain (births : List RepairBirth) : RepairBirth → RepairBirth → Prop :=
  Relation.ReflTransGen (Precedes births)

def DescendsFrom (births : List RepairBirth) (task : UnitText) (birth : RepairBirth) : Prop :=
  ∃ ancestor, Chain births birth ancestor ∧ ancestor.failedTaskId = task

/-! ### Receipts -/

theorem byReceipt_eq_some (hfound : byReceipt births receiptDigest = some birth) :
    birth ∈ births ∧ birth.receiptDigest = receiptDigest :=
  ⟨List.mem_of_find?_eq_some hfound, by simpa using List.find?_some hfound⟩

theorem byReceipt_of_mem (hreceipts : (births.map (·.receiptDigest)).Nodup) (hbirth : birth ∈ births) :
    byReceipt births birth.receiptDigest = some birth := by
  cases hfound : byReceipt births birth.receiptDigest with
  | none => simpa using List.find?_eq_none.mp hfound birth hbirth
  | some found =>
      obtain ⟨hmem, hsame⟩ := byReceipt_eq_some hfound
      rw [List.inj_on_of_nodup_map hreceipts hmem hbirth hsame]

theorem byReceipt_perm (hreceipts : (births.map (·.receiptDigest)).Nodup) (hperm : births.Perm permuted)
    (receiptDigest : UnitText) : byReceipt births receiptDigest = byReceipt permuted receiptDigest := by
  cases hfound : byReceipt births receiptDigest with
  | none =>
      refine (List.find?_eq_none.mpr fun other hother => ?_).symm
      exact List.find?_eq_none.mp hfound other (hperm.mem_iff.mpr hother)
  | some found =>
      obtain ⟨hmem, rfl⟩ := byReceipt_eq_some hfound
      exact (byReceipt_of_mem ((hperm.map _).nodup_iff.mp hreceipts) (hperm.mem_iff.mp hmem)).symm

/-! ### Walks -/

theorem descendsFrom_of_descends {depth : Nat} {visited : List UnitText}
    (hdescends : descends births accepted depth current visited = some true) :
    DescendsFrom births accepted current := by
  induction depth generalizing current visited with
  | zero => cases hdescends
  | succ depth ih =>
      rw [descends] at hdescends
      split at hdescends
      · cases hdescends
      · split at hdescends
        · next hfailed => exact ⟨current, .refl, hfailed⟩
        · split at hdescends
          · cases hdescends
          · next receiptDigest hreceipt =>
              split at hdescends
              · cases hdescends
              · next predecessor hpredecessor =>
                  split at hdescends
                  · cases hdescends
                  · obtain ⟨ancestor, hchain, hfailed⟩ := ih hdescends
                    exact ⟨ancestor, hchain.head ⟨receiptDigest, hreceipt, hpredecessor⟩, hfailed⟩

theorem not_descendsFrom_of_descends {depth : Nat} {visited : List UnitText} (hcurrent : current ∈ births)
    (hvisited : visited.Nodup) (hknown : visited ⊆ births.map (·.receiptDigest))
    (hdepth : births.length + 1 ≤ depth + visited.length)
    (hdescends : descends births accepted depth current visited = some false) :
    ¬ DescendsFrom births accepted current := by
  induction depth generalizing current visited with
  | zero =>
      have hlength := (List.subperm_of_subset hvisited hknown).length_le
      rw [List.length_map] at hlength
      omega
  | succ depth ih =>
      rw [descends] at hdescends
      split at hdescends
      · cases hdescends
      · next hnew =>
          have hfresh : current.receiptDigest ∉ visited := by simpa using hnew
          split at hdescends
          · cases hdescends
          · next hfailed =>
              rintro ⟨ancestor, hchain, htask⟩
              obtain rfl | ⟨predecessor, ⟨receiptDigest, hreceipt, hpredecessor⟩, hrest⟩ :=
                Relation.ReflTransGen.cases_head hchain
              · exact hfailed htask
              · rw [hreceipt] at hdescends
                dsimp only at hdescends
                rw [hpredecessor] at hdescends
                dsimp only at hdescends
                split at hdescends
                · cases hdescends
                · refine ih (byReceipt_eq_some hpredecessor).1 (List.nodup_cons.mpr ⟨hfresh, hvisited⟩) ?_ ?_
                    hdescends ⟨ancestor, hrest, htask⟩
                  · exact List.cons_subset.mpr ⟨List.mem_map_of_mem hcurrent, hknown⟩
                  · rw [List.length_cons]
                    omega

theorem descends_spec {isDescendant : Bool} (hcurrent : current ∈ births)
    (hdescends : descends births accepted (births.length + 1) current [] = some isDescendant) :
    isDescendant = true ↔ DescendsFrom births accepted current := by
  cases isDescendant with
  | true => exact iff_of_true rfl (descendsFrom_of_descends hdescends)
  | false =>
      refine iff_of_false Bool.false_ne_true ?_
      exact not_descendsFrom_of_descends hcurrent List.nodup_nil (List.nil_subset _) le_rfl hdescends

theorem descends_perm (hreceipts : (births.map (·.receiptDigest)).Nodup) (hperm : births.Perm permuted)
    (depth : Nat) (current : RepairBirth) (visited : List UnitText) :
    descends births accepted depth current visited = descends permuted accepted depth current visited := by
  induction depth generalizing current visited with
  | zero => rfl
  | succ depth ih =>
      rw [descends, descends]
      cases hreceipt : current.predecessorRepairReceiptDigest with
      | none => rfl
      | some receiptDigest =>
          dsimp only
          rw [byReceipt_perm hreceipts hperm receiptDigest]
          cases byReceipt permuted receiptDigest with
          | none => rfl
          | some predecessor => simp only [ih]

/-! ### Descendants -/

def descendantOf (birth : RepairBirth) : SupersededDescendant := ⟨birth.childTaskId, birth.receiptDigest⟩

theorem descendants_eq_some {candidates : List RepairBirth} {found : List SupersededDescendant}
    (hfound : descendants births accepted candidates = some found) :
    (∀ candidate ∈ candidates, ∃ isDescendant,
      descends births accepted (births.length + 1) candidate [] = some isDescendant)
    ∧ found = (candidates.filter fun candidate =>
        descends births accepted (births.length + 1) candidate [] = some true).map descendantOf := by
  induction candidates generalizing found with
  | nil =>
      obtain rfl := Option.some.inj hfound
      exact ⟨fun _ hnone => absurd hnone List.not_mem_nil, rfl⟩
  | cons candidate rest ih =>
      rw [descendants] at hfound
      obtain ⟨isDescendant, hdescends, hrest⟩ := Option.bind_eq_some_iff.mp hfound
      obtain ⟨others, hothers, hsome⟩ := Option.bind_eq_some_iff.mp hrest
      obtain ⟨hwalks, rfl⟩ := ih hothers
      refine ⟨List.forall_mem_cons.mpr ⟨⟨_, hdescends⟩, hwalks⟩, ?_⟩
      cases isDescendant with
      | true =>
          rw [List.filter_cons_of_pos (by simpa using hdescends), List.map_cons]
          exact (Option.some.inj hsome).symm
      | false =>
          rw [List.filter_cons_of_neg (by simp [hdescends])]
          exact (Option.some.inj hsome).symm

theorem descendants_isSome {candidates : List RepairBirth}
    (hwalks : ∀ candidate ∈ candidates, ∃ isDescendant,
      descends births accepted (births.length + 1) candidate [] = some isDescendant) :
    ∃ found, descendants births accepted candidates = some found := by
  induction candidates with
  | nil => exact ⟨[], rfl⟩
  | cons candidate rest ih =>
      obtain ⟨⟨isDescendant, hdescends⟩, hrest⟩ := List.forall_mem_cons.mp hwalks
      obtain ⟨others, hothers⟩ := ih hrest
      rw [descendants, hdescends, hothers]
      cases isDescendant with
      | true => exact ⟨_, rfl⟩
      | false => exact ⟨_, rfl⟩

theorem descendants_perm (hreceipts : (births.map (·.receiptDigest)).Nodup) (hperm : births.Perm permuted)
    {found : List SupersededDescendant} (hfound : descendants births accepted births = some found) :
    ∃ again, descendants permuted accepted permuted = some again ∧ found.Perm again := by
  have hsame (candidate : RepairBirth) : descends permuted accepted (permuted.length + 1) candidate []
      = descends births accepted (births.length + 1) candidate [] := by
    rw [descends_perm hreceipts hperm, hperm.length_eq]
  obtain ⟨hwalks, hkept⟩ := descendants_eq_some hfound
  have hpermuted : ∀ candidate ∈ permuted, ∃ isDescendant,
      descends permuted accepted (permuted.length + 1) candidate [] = some isDescendant := by
    intro candidate hcandidate
    rw [hsame]
    exact hwalks candidate (hperm.mem_iff.mpr hcandidate)
  obtain ⟨again, hagain⟩ := descendants_isSome hpermuted
  refine ⟨again, hagain, ?_⟩
  rw [hkept, (descendants_eq_some hagain).2]
  simp only [hsame]
  exact (hperm.filter _).map _

theorem mem_descendants {found : List SupersededDescendant} {descendant : SupersededDescendant}
    (hfound : descendants births accepted births = some found) :
    descendant ∈ found ↔ ∃ birth ∈ births, DescendsFrom births accepted birth ∧ descendantOf birth = descendant := by
  obtain ⟨hwalks, rfl⟩ := descendants_eq_some hfound
  rw [List.mem_map]
  refine exists_congr fun birth => ?_
  rw [List.mem_filter, decide_eq_true_eq, and_assoc]
  refine and_congr_right fun hbirth => and_congr_left fun _ => ?_
  obtain ⟨isDescendant, hdescends⟩ := hwalks birth hbirth
  rw [← descends_spec hbirth hdescends, hdescends, Option.some.injEq]

end Deckent.Repair
