import Deckent.Proof.RepairLineage

/-!
# What a supersession retires

An admitted supersession names the births that descend from the accepted task, each once and in one order, whatever
order the births come in. Its receipt is within the bounds of its parser, since a child's id is short.
-/

namespace Deckent.Repair

open Terminal
open JsonTree (ascii record Takes)

variable {host : RepairHost} {input : SupersessionInput} {birth : RepairBirth} {text : UnitText}

/-! ### Texts that are printable -/

theorem isPrintable_of_isSafeUnit {unit : CodeUnit} (hsafe : isSafeUnit unit = true) : isPrintable unit = true := by
  simp only [isSafeUnit, isPrintable, Bool.or_eq_true, Bool.and_eq_true, decide_eq_true_eq] at hsafe ⊢
  omega

theorem isPrintable_of_isHexUnit {unit : CodeUnit} (hhex : isHexUnit unit = true) : isPrintable unit = true := by
  simp only [isHexUnit, isPrintable, Bool.or_eq_true, Bool.and_eq_true, decide_eq_true_eq] at hhex ⊢
  omega

theorem isSafeUnit_of_mem_replaceUnsafe {inside : Bool} {value : UnitText} :
    ∀ unit ∈ replaceUnsafe inside value, isSafeUnit unit = true := by
  induction value generalizing inside with
  | nil => exact fun _ hnone => absurd hnone List.not_mem_nil
  | cons unit rest ih =>
      rw [replaceUnsafe]
      split
      · next hsafe => exact List.forall_mem_cons.mpr ⟨hsafe, ih⟩
      · split
        · exact ih
        · exact List.forall_mem_cons.mpr ⟨rfl, ih⟩

theorem mem_of_mem_trimDashes {value : UnitText} {unit : CodeUnit} (hunit : unit ∈ trimDashes value) : unit ∈ value := by
  have hleft := (List.dropWhile_sublist _).subset (List.mem_reverse.mp hunit)
  exact (List.dropWhile_sublist _).subset (List.mem_reverse.mp hleft)

theorem taskFragment_eq_some {value root : UnitText} (hroot : taskFragment host value = some root) :
    root.length ≤ 64 ∧ root.all isPrintable = true := by
  unfold taskFragment at hroot
  split at hroot
  · dsimp only at hroot
    split at hroot
    · obtain rfl := Option.some.inj hroot
      refine ⟨List.length_take_le _ _, List.all_eq_true.mpr fun unit hunit => ?_⟩
      have hsafe := mem_of_mem_trimDashes (List.mem_of_mem_take hunit)
      exact isPrintable_of_isSafeUnit (isSafeUnit_of_mem_replaceUnsafe unit hsafe)
    · cases hroot
  · cases hroot

theorem all_isPrintable_of_isHex64 (hhex : isHex64 text = true) : text.all isPrintable = true := by
  simp only [isHex64, Bool.and_eq_true, List.all_eq_true] at hhex
  exact List.all_eq_true.mpr fun unit hunit => isPrintable_of_isHexUnit (hhex.2 unit hunit)

theorem isSha256Digest_eq_true (hdigest : isSha256Digest text = true) :
    text.length = 71 ∧ text.all isPrintable = true := by
  simp only [isSha256Digest, Bool.and_eq_true, decide_eq_true_eq] at hdigest
  obtain ⟨hstart, hhex⟩ := hdigest
  have hprintable := all_isPrintable_of_isHex64 hhex
  simp only [isHex64, Bool.and_eq_true, decide_eq_true_eq, List.length_drop] at hhex
  refine ⟨by omega, ?_⟩
  rw [← List.take_append_drop 7 text, hstart, List.all_append, hprintable, Bool.and_true]
  decide +kernel

theorem isSha256Digest_digest (host : RepairHost) (domain : String) (value : JsonTree) :
    isSha256Digest (digest host domain value) = true := by
  unfold isSha256Digest digest
  rw [List.take_left' (by decide +kernel), List.drop_left' (by decide +kernel), host.hexadecimal]
  exact Bool.and_true _ ▸ decide_eq_true rfl

theorem repairChildTaskId_eq_some {lineageRootTaskId failedTaskId targetTaskId fingerprint child : UnitText}
    {repairKind : RepairKind}
    (hchild : repairChildTaskId host lineageRootTaskId repairKind failedTaskId targetTaskId fingerprint = some child) :
    child.length ≤ 94 ∧ child.all isPrintable = true := by
  obtain ⟨root, hroot, rfl⟩ := Option.map_eq_some_iff.mp hchild
  obtain ⟨hlength, hprintable⟩ := taskFragment_eq_some hroot
  have hkind : repairKind.lower.length ≤ 4 ∧ repairKind.lower.all isPrintable = true := by
    cases repairKind <;> decide +kernel
  have hsuffix (domain : String) (value : JsonTree) :
      (((digest host domain value).drop 7).take 24).all isPrintable = true := by
    refine List.all_eq_true.mpr fun unit hunit => ?_
    have hall := (isSha256Digest_eq_true (isSha256Digest_digest host domain value)).2
    exact List.all_eq_true.mp hall unit (List.mem_of_mem_drop (List.mem_of_mem_take hunit))
  constructor
  · simp only [List.length_append, List.length_cons, List.length_take]
    omega
  · simp only [List.all_append, List.all_cons, hprintable, hkind.2, hsuffix, Bool.and_true]
    rfl

/-! ### Births that belong -/

theorem isExactRepairBirthAuthorityV1_spec (hbirth : isExactRepairBirthAuthorityV1 host birth = true) :
    isBoundedText host birth.childTaskId = true ∧ isSha256Digest birth.receiptDigest = true
      ∧ birth.childTaskId.length ≤ 94 ∧ birth.childTaskId.all isPrintable = true := by
  simp only [isExactRepairBirthAuthorityV1, hasBirthFields, Bool.and_eq_true] at hbirth
  obtain ⟨⟨⟨-, ⟨⟨-, hbounded⟩, hreceipt⟩⟩, -⟩, hevidence⟩ := hbirth
  refine ⟨hbounded, hreceipt, ?_⟩
  split at hevidence
  · cases hevidence
  · simp only [Bool.and_eq_true, decide_eq_true_eq] at hevidence
    exact repairChildTaskId_eq_some hevidence.2.symm

structure Presentable (host : RepairHost) (descendant : SupersededDescendant) : Prop where
  bounded : isBoundedText host descendant.childTaskId = true
  receipt : isSha256Digest descendant.repairBirthReceiptDigest = true
  short : descendant.childTaskId.length ≤ 94
  printable : descendant.childTaskId.all isPrintable = true

theorem presentable_descendantOf (hbelongs : belongs host input birth = true) :
    Presentable host (descendantOf birth) := by
  simp only [belongs, Bool.and_eq_true] at hbelongs
  obtain ⟨hbounded, hreceipt, hshort, hprintable⟩ := isExactRepairBirthAuthorityV1_spec hbelongs.1.1.1.1.1
  exact ⟨hbounded, hreceipt, hshort, hprintable⟩

/-! ### The order of descendants -/

theorem all_isPrintable_quote (hprintable : text.all isPrintable = true) :
    (UnitText.quote text).all isPrintable = true := by
  have hunits : ∀ unit ∈ text, 0x20 ≤ unit.val ∧ unit.val ≤ 0x7E := by
    intro unit hunit
    simpa [isPrintable] using List.all_eq_true.mp hprintable unit hunit
  have hpoint : ∀ point ∈ text.points, (UnitText.quotePoint point).all isPrintable = true := by
    intro point hpoint
    rw [UnitText.points_ascii fun unit hunit => by have := hunits unit hunit; omega] at hpoint
    obtain ⟨unit, hunit, rfl⟩ := List.mem_map.mp hpoint
    obtain ⟨hlow, hhigh⟩ := hunits unit hunit
    unfold UnitText.quotePoint
    split
    · next letter hletter =>
        have hbound : 0x20 ≤ letter ∧ letter ≤ 0x7E := by
          unfold UnitText.shortEscape at hletter
          split_ifs at hletter <;> (obtain rfl := Option.some.inj hletter; decide)
        simp only [List.all_cons, List.all_nil, Bool.and_true, Bool.and_eq_true]
        refine ⟨rfl, ?_⟩
        simp only [isPrintable, val_codeUnit (by omega : letter < 65536), Bool.and_eq_true, decide_eq_true_eq]
        exact hbound
    · have hplain : ¬ (unit.val < 0x20 ∨ UnitText.IsSurrogate unit.val) := by
        unfold UnitText.IsSurrogate
        omega
      rw [if_neg hplain, UnitText.unitsOf_unit]
      exact List.all_eq_true.mpr fun other hother =>
        List.mem_singleton.mp hother ▸ List.all_eq_true.mp hprintable unit hunit
  unfold UnitText.quote
  rw [List.all_cons, List.all_append, List.all_flatMap, List.all_eq_true.mpr hpoint]
  rfl

theorem sorted_descendant (descendant : SupersededDescendant) : descendant.json.sorted = descendant.json := by
  unfold SupersededDescendant.json record
  simp only [List.map_cons, List.map_nil, JsonTree.sorted, JsonTree.sortedMembers]
  refine congrArg JsonTree.object (JsonTree.byKey_eq_self ?_)
  have hkeys : UnitText.ofAscii "childTaskId" ≤ UnitText.ofAscii "repairBirthReceiptDigest" := by decide +kernel
  exact List.pairwise_pair.mpr hkeys

theorem canonicalJson_inj {left right : SupersededDescendant}
    (hsame : canonicalJson left.json = canonicalJson right.json) : left = right := by
  unfold canonicalJson at hsame
  rw [sorted_descendant, sorted_descendant] at hsame
  have hkeys : [UnitText.ofAscii "childTaskId", UnitText.ofAscii "repairBirthReceiptDigest"].Nodup := by decide +kernel
  have hplain (descendant : SupersededDescendant) : descendant.json.Plain := by
    refine ⟨?_, trivial, trivial, trivial⟩
    simp only [List.map_cons, List.map_nil]
    exact hkeys
  have hread := JsonTree.parse_print .decimal (hplain left)
  rw [hsame, JsonTree.parse_print .decimal (hplain right)] at hread
  injection Option.some.inj hread with hmembers
  simp only [List.map_cons, List.map_nil, List.cons.injEq, Prod.mk.injEq, JsonTree.text.injEq, true_and,
    and_true] at hmembers
  cases left
  cases right
  exact congrArg₂ SupersededDescendant.mk hmembers.1.symm hmembers.2.symm

theorem all_isPrintable_canonicalJson {descendant : SupersededDescendant} (hpresentable : Presentable host descendant) :
    (canonicalJson descendant.json).all isPrintable = true := by
  have hreceipt := (isSha256Digest_eq_true hpresentable.receipt).2
  have hkey (key : String) (hkey : key = "childTaskId" ∨ key = "repairBirthReceiptDigest") :
      (UnitText.quote (UnitText.ofAscii key)).all isPrintable = true := by
    rcases hkey with rfl | rfl <;> exact all_isPrintable_quote (by decide +kernel)
  unfold canonicalJson
  rw [sorted_descendant]
  simp only [SupersededDescendant.json, record, List.map_cons, List.map_nil, JsonTree.print, JsonTree.printMembers,
    List.all_cons, List.all_append, hkey "childTaskId" (.inl rfl), hkey "repairBirthReceiptDigest" (.inr rfl),
    all_isPrintable_quote hpresentable.printable, all_isPrintable_quote hreceipt]
  decide +kernel

theorem sortDescendants_perm {left right : List SupersededDescendant} (hperm : left.Perm right)
    (hpresentable : ∀ descendant ∈ left, Presentable host descendant) :
    sortDescendants host left = sortDescendants host right := by
  have hconsistent : ConsistentComparator (compareJson host SupersededDescendant.json) :=
    (host.consistent.comap fun descendant => canonicalJson (SupersededDescendant.json descendant)).consistent
  refine hconsistent.sortBy_eq_of_perm hperm fun a ha b hb hab hba => canonicalJson_inj ?_
  refine host.separates _ _ (all_isPrintable_canonicalJson (hpresentable a ha))
    (all_isPrintable_canonicalJson (hpresentable b hb)) ?_
  have hswap := host.consistent.swap (canonicalJson a.json) (canonicalJson b.json)
  unfold compareJson at hab hba
  omega

/-! ### Lineages that are admitted -/

theorem indexes_iff {indexed births : List RepairBirth} :
    indexes host input indexed births = true ↔ (∀ birth ∈ births, belongs host input birth = true)
      ∧ (births.map (·.receiptDigest)).Nodup ∧ ∀ birth ∈ births, birth.receiptDigest ∉ indexed.map (·.receiptDigest) := by
  induction births generalizing indexed with
  | nil => simp [indexes]
  | cons birth rest ih =>
      have hnone : (byReceipt indexed birth.receiptDigest).isNone = true
          ↔ birth.receiptDigest ∉ indexed.map (·.receiptDigest) := by
        simp [byReceipt, List.find?_eq_none]
      rw [indexes, Bool.and_eq_true, Bool.and_eq_true, hnone, ih]
      simp only [List.map_cons, List.nodup_cons, List.mem_cons, not_or, forall_eq_or_imp]
      constructor
      · rintro ⟨⟨hbirth, hnew⟩, hrest, hnodup, hout⟩
        refine ⟨⟨hbirth, hrest⟩, ⟨fun hmem => ?_, hnodup⟩, hnew, fun other hother => (hout other hother).2⟩
        obtain ⟨other, hother, hsame⟩ := List.mem_map.mp hmem
        exact (hout other hother).1 hsame
      · rintro ⟨⟨hbirth, hrest⟩, ⟨hfirst, hnodup⟩, hnew, hout⟩
        refine ⟨⟨hbirth, hnew⟩, hrest, hnodup, fun other hother => ⟨fun hsame => hfirst ?_, hout other hother⟩⟩
        exact List.mem_map.mpr ⟨other, hother, hsame⟩

/-- What an admission rests on, with the descendants before they are sorted. -/
structure Admits (host : RepairHost) (input : SupersessionInput) (found : List SupersededDescendant) : Prop where
  sprintId : isBoundedText host input.sprintId = true
  lineageRootTaskId : isBoundedText host input.lineageRootTaskId = true
  acceptedResolvingTaskId : isBoundedText host input.acceptedResolvingTaskId = true
  terminal : validTerminal input.acceptedTerminalAuthority input.acceptedResolvingTaskId = true
  verdict : isAccepted input.acceptedTerminalAuthority.terminalDecisionAuthority.verdict = true
  count : input.repairBirthAuthorities.length ≤ MAX_EVIDENCE_ITEMS
  belong : ∀ birth ∈ input.repairBirthAuthorities, belongs host input birth = true
  receipts : (input.repairBirthAuthorities.map (·.receiptDigest)).Nodup
  follows : input.repairBirthAuthorities.all (followsPredecessor input.repairBirthAuthorities) = true
  decided :
    descendants input.repairBirthAuthorities input.acceptedResolvingTaskId input.repairBirthAuthorities = some found
  children : ((sortDescendants host found).map (·.childTaskId)).Nodup

theorem resolve_eq_ok {authority : Supersession} :
    resolveExactRepairSupersessionAuthority host input = .ok authority
      ↔ ∃ found, Admits host input found ∧ supersession host input (sortDescendants host found) = authority := by
  have hindexes := @indexes_iff host input [] input.repairBirthAuthorities
  simp only [List.map_nil, List.not_mem_nil, not_false_eq_true, implies_true, and_true] at hindexes
  unfold resolveExactRepairSupersessionAuthority
  dsimp only
  constructor
  · intro hok
    split at hok
    · cases hok
    · next htexts =>
        split at hok
        · cases hok
        · next hverdict =>
            split at hok
            · cases hok
            · next hcount =>
                split at hok
                · cases hok
                · next hlineage =>
                    split at hok
                    · cases hok
                    · next found hfound =>
                        split at hok
                        · cases hok
                        · next hchildren =>
                            simp only [Bool.not_eq_true', Bool.not_eq_false, Bool.and_eq_true] at htexts hverdict hlineage
                            obtain ⟨⟨⟨hsprint, hroot⟩, htask⟩, hterminal⟩ := htexts
                            obtain ⟨hbelong, hreceipts⟩ := hindexes.mp hlineage.1
                            exact ⟨found, ⟨hsprint, hroot, htask, hterminal, hverdict, Nat.not_lt.mp hcount, hbelong,
                              hreceipts, hlineage.2, hfound, Decidable.not_not.mp hchildren⟩, Except.ok.inj hok⟩
  · rintro ⟨found, hadmits, rfl⟩
    rw [if_neg (by simp [hadmits.sprintId, hadmits.lineageRootTaskId, hadmits.acceptedResolvingTaskId,
        hadmits.terminal]), if_neg (by simp [hadmits.verdict]), if_neg (Nat.not_lt.mpr hadmits.count),
      if_neg (by rw [hindexes.mpr ⟨hadmits.belong, hadmits.receipts⟩, hadmits.follows]; decide), hadmits.decided]
    exact if_neg (not_not.mpr hadmits.children)

theorem Admits.presentable {found : List SupersededDescendant} (hadmits : Admits host input found) :
    ∀ descendant ∈ found, Presentable host descendant := by
  intro descendant hdescendant
  obtain ⟨birth, hbirth, -, rfl⟩ := (mem_descendants hadmits.decided).mp hdescendant
  exact presentable_descendantOf (hadmits.belong birth hbirth)

theorem resolve_perm {authority : Supersession} (hok : resolveExactRepairSupersessionAuthority host input = .ok authority)
    {permuted : List RepairBirth} (hperm : input.repairBirthAuthorities.Perm permuted) :
    resolveExactRepairSupersessionAuthority host { input with repairBirthAuthorities := permuted } = .ok authority := by
  obtain ⟨found, hadmits, rfl⟩ := resolve_eq_ok.mp hok
  obtain ⟨again, hagain, hsame⟩ := descendants_perm hadmits.receipts hperm hadmits.decided
  have hsorted := sortDescendants_perm hsame hadmits.presentable
  have hfollows : followsPredecessor permuted = followsPredecessor input.repairBirthAuthorities := by
    funext birth
    unfold followsPredecessor
    cases birth.predecessorRepairReceiptDigest with
    | none => rfl
    | some receiptDigest =>
        dsimp only
        rw [byReceipt_perm hadmits.receipts hperm receiptDigest]
  refine resolve_eq_ok.mpr ⟨again, ?_, by rw [← hsorted]; rfl⟩
  exact
    { hadmits with
      count := hperm.length_eq ▸ hadmits.count
      belong := fun birth hbirth => hadmits.belong birth (hperm.mem_iff.mpr hbirth)
      receipts := (hperm.map _).nodup_iff.mp hadmits.receipts
      follows := by
        dsimp only
        rw [hfollows]
        exact List.all_eq_true.mpr fun birth hbirth =>
          List.all_eq_true.mp hadmits.follows birth (hperm.mem_iff.mpr hbirth)
      decided := hagain
      children := hsorted ▸ hadmits.children }

end Deckent.Repair
