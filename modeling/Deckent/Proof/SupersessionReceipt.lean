import Deckent.Proof.RepairSupersession

/-!
# The receipt of a supersession and its parser

A receipt over at most 1024 descendants with short ids is within the bounds of plain data. Its parser asks for the
project and the attempt of the accepted identity to be bounded texts, which the terminal authority does not; where
they are, every admitted receipt is accepted.
-/

namespace Deckent.Repair

open Terminal
open JsonTree (ascii record Takes takes_number takes_text takes_ascii takes_array takes_record_nil takes_record_cons)

variable {host : RepairHost} {input : SupersessionInput} {text : UnitText} {depth : Nat}

/-! ### What a receipt takes -/

theorem takes_bounded (hbounded : isBoundedText host text = true) (hdepth : depth ≤ 16) :
    Takes PLAIN_LIMITS (.text text) depth 1 0 4096 := by
  simp only [isBoundedText, Bool.and_eq_true, decide_eq_true_eq] at hbounded
  exact takes_text hbounded.2 le_rfl hdepth

theorem takes_short {bound : Nat} (hlength : text.length ≤ bound) (hbound : 3 * bound ≤ 4096) (hdepth : depth ≤ 16) :
    Takes PLAIN_LIMITS (.text text) depth 1 0 (3 * bound) :=
  takes_text ((UnitText.length_utf8_le text).trans (Nat.mul_le_mul_left 3 hlength)) hbound hdepth

theorem takes_digest (hdigest : isSha256Digest text = true) (hdepth : depth ≤ 16) :
    Takes PLAIN_LIMITS (.text text) depth 1 0 213 :=
  takes_short (isSha256Digest_eq_true hdigest).1.le (by decide) hdepth

theorem takes_digests (entries : List (String × UnitText))
    (hentries : entries.all (fun entry => isSha256Digest entry.2) = true)
    (hkeys : entries.all (fun entry => Nat.ble entry.1.length 40) = true) (hlength : entries.length ≤ 128)
    (hdepth : depth < 16) :
    Takes PLAIN_LIMITS (record (entries.map fun entry => (entry.1, .text entry.2))) depth (entries.length + 1)
      entries.length (333 * entries.length) := by
  induction entries with
  | nil => exact takes_record_nil hdepth.le
  | cons entry rest ih =>
      simp only [List.all_cons, Bool.and_eq_true, Nat.ble_eq] at hentries hkeys
      rw [List.length_cons] at hlength
      have hrest := ih hentries.2 hkeys.2 (Nat.le_of_succ_le hlength)
      have hroom : (Nat.ble (3 * entry.1.length) 4096 && Nat.blt (rest.map fun entry =>
          (entry.1, JsonTree.text entry.2)).length 128) = true := by
        rw [List.length_map, Bool.and_eq_true, Nat.ble_eq, Nat.blt_eq]
        omega
      have hone := takes_record_cons hroom (takes_digest hentries.1 hdepth) hrest
      rw [List.map_cons, List.length_cons]
      exact hone.mono (by omega) (by omega) (by omega)

theorem takes_identity {identity : CustodyIdentity} (hroot : isHex64 identity.projectRootSha256 = true)
    (hproject : isBoundedText host identity.projectId = true) (htask : isBoundedText host identity.taskId = true)
    (hattempt : isBoundedText host identity.attemptId = true) :
    Takes PLAIN_LIMITS identity.json 2 8 7 14000 := by
  have hlength : identity.projectRootSha256.length ≤ 64 := by
    simp only [isHex64, Bool.and_eq_true, decide_eq_true_eq] at hroot
    exact hroot.1.le
  refine Takes.mono (takes_record_cons rfl (takes_number 2 (by decide))
    (takes_record_cons rfl (takes_ascii "docker" (by decide) (by decide))
    (takes_record_cons rfl (takes_short hlength (by decide) (by decide))
    (takes_record_cons rfl (takes_bounded hproject (by decide))
    (takes_record_cons rfl (takes_bounded htask (by decide))
    (takes_record_cons rfl (takes_bounded hattempt (by decide))
    (takes_record_cons rfl (takes_number _ (by decide)) (takes_record_nil (by decide))))))))) ?_ ?_ ?_ <;> decide

theorem takes_verdict (verdict : EvaluationVerdict) : Takes PLAIN_LIMITS verdict.json 2 1 0 60 := by
  cases verdict with
  | DONE => exact (takes_ascii "DONE" (by decide) (by decide)).mono le_rfl le_rfl (by decide)
  | GO_WITH_TECH_DEBT => exact (takes_ascii "GO_WITH_TECH_DEBT" (by decide) (by decide)).mono le_rfl le_rfl (by decide)
  | NO_GO => exact (takes_ascii "NO_GO" (by decide) (by decide)).mono le_rfl le_rfl (by decide)

theorem takes_binding {binding : TerminalBinding} (hbinding : isTerminalBinding host binding = true) :
    Takes PLAIN_LIMITS binding.json 1 22 21 20000 := by
  simp only [isTerminalBinding, Bool.and_eq_true] at hbinding
  obtain ⟨⟨⟨⟨⟨hroot, hproject⟩, htask⟩, hattempt⟩, -⟩, hdigests⟩ := hbinding
  have hkeys : binding.digests.all (fun entry => Nat.ble entry.1.length 40) = true := by
    simp only [TerminalBinding.digests, List.all_cons, List.all_nil]
    decide
  have hcount : binding.digests.length ≤ 128 := show 12 ≤ 128 by decide
  refine Takes.mono (takes_record_cons rfl (takes_identity hroot hproject htask hattempt)
    (takes_record_cons rfl (takes_verdict binding.verdict)
      (takes_digests binding.digests hdigests hkeys hcount (by decide)))) ?_ ?_ ?_
  · exact show _ + (_ + (12 + 1)) ≤ 22 by decide
  · exact show _ + (_ + 12 + 1) + 1 ≤ 21 by decide
  · exact show _ + (_ + 333 * 12 + _) + _ ≤ 20000 by decide

theorem takes_descendant {descendant : SupersededDescendant} (hpresentable : Presentable host descendant) :
    Takes PLAIN_LIMITS descendant.json 2 3 2 600 := by
  refine Takes.mono (takes_record_cons rfl (takes_short hpresentable.short (by decide) (by decide))
    (takes_record_cons rfl (takes_digest hpresentable.receipt (by decide)) (takes_record_nil (by decide)))) ?_ ?_ ?_ <;>
    decide

theorem isPlain_supersession {candidate : Supersession} (hsprint : isBoundedText host candidate.sprintId = true)
    (hroot : isBoundedText host candidate.lineageRootTaskId = true)
    (htask : isBoundedText host candidate.acceptedResolvingTaskId = true)
    (hbinding : isTerminalBinding host candidate.acceptedTerminal = true)
    (hcount : candidate.supersededDescendants.length ≤ MAX_EVIDENCE_ITEMS)
    (hpresentable : ∀ descendant ∈ candidate.supersededDescendants, Presentable host descendant)
    (hdigest : isSha256Digest candidate.receiptDigest = true) :
    (record (candidate.body ++ [("receiptDigest", .text candidate.receiptDigest)])).isPlain PLAIN_LIMITS = true := by
  have hitems : ∀ item ∈ candidate.supersededDescendants.map SupersededDescendant.json,
      Takes PLAIN_LIMITS item 2 3 2 600 := by
    intro item hitem
    obtain ⟨descendant, hdescendant, rfl⟩ := List.mem_map.mp hitem
    exact takes_descendant (hpresentable descendant hdescendant)
  have hlength : (candidate.supersededDescendants.map SupersededDescendant.json).length ≤ 1024 := by
    rwa [List.length_map]
  have hroom : PLAIN_LIMITS.maxArrayLength.any
      ((candidate.supersededDescendants.map SupersededDescendant.json).length ≤ ·) = true := by
    simpa [PLAIN_LIMITS] using hcount.trans (by decide : 1024 ≤ 4096)
  have harray : Takes PLAIN_LIMITS (.array (candidate.supersededDescendants.map SupersededDescendant.json)) 1 3073 2048
      614400 :=
    (takes_array hitems hroom (by decide)).mono (by omega) (by omega) (by omega)
  refine Takes.isPlain (Takes.mono (takes_record_cons rfl (takes_number 1 (by decide))
    (takes_record_cons rfl (takes_ascii _ (by decide) (by decide))
    (takes_record_cons rfl (takes_bounded hsprint (by decide))
    (takes_record_cons rfl (takes_bounded hroot (by decide))
    (takes_record_cons rfl (takes_bounded htask (by decide))
    (takes_record_cons rfl (takes_binding hbinding)
    (takes_record_cons rfl harray
    (takes_record_cons rfl (takes_digest hdigest (by decide)) (takes_record_nil (by decide)))))))))) ?_ ?_ ?_) <;> decide

/-! ### Receipts that are accepted -/

theorem isExactAcceptedResultTerminalAuthorityV2_spec {authority : ExactTerminalAuthority} {expected : AcceptedAuthority}
    (hexact : isExactAcceptedResultTerminalAuthorityV2 authority expected = true) :
    isSha256Digest authority.acceptedAuthority.acceptedResultRef.artifactReceiptDigest = true
      ∧ isExactTerminalAuthorityMetadata authority.terminalResultAuthority = true
      ∧ authority.terminalResultAuthority.identity = expected.identity := by
  simp only [isExactAcceptedResultTerminalAuthorityV2, Bool.and_eq_true, decide_eq_true_eq] at hexact
  obtain ⟨⟨⟨⟨⟨⟨⟨⟨⟨⟨⟨⟨⟨-, haccepted⟩, -⟩, hterminal⟩, -⟩, hidentity⟩, -⟩, -⟩, -⟩, -⟩, -⟩, -⟩, -⟩, -⟩ := hexact
  refine ⟨?_, hterminal, hidentity⟩
  simp only [isExactAcceptedAuthorityMetadata, isExactArtifactRef, Bool.and_eq_true] at haccepted
  exact haccepted.1.1.2.2

theorem digests_terminalBinding {authority : ExactTerminalAuthority}
    (hreference : isSha256Digest authority.acceptedAuthority.acceptedResultRef.artifactReceiptDigest = true)
    (hterminal : isExactTerminalAuthorityMetadata authority.terminalResultAuthority = true) :
    (terminalBinding authority).digests.all (fun entry => isSha256Digest entry.2) = true := by
  simp only [isExactTerminalAuthorityMetadata, isExactArtifactRef, isExactAuthorityArtifact, Bool.and_eq_true]
    at hterminal
  simp only [TerminalBinding.digests, terminalBinding, List.all_cons, List.all_nil, hreference, hterminal, Bool.and_true]

theorem validTerminal_spec {authority : ExactTerminalAuthority} {task : UnitText}
    (hvalid : validTerminal authority task = true) (htask : isBoundedText host task = true) :
    (terminalBinding authority).identity.taskId = task
      ∧ (isTerminalBinding host (terminalBinding authority) = true
        ↔ isBoundedText host authority.acceptedAuthority.identity.projectId = true
          ∧ isBoundedText host authority.acceptedAuthority.identity.attemptId = true) := by
  simp only [validTerminal, Bool.and_eq_true, decide_eq_true_eq] at hvalid
  obtain ⟨⟨⟨⟨hexact, -⟩, htaskId⟩, -⟩, -⟩ := hvalid
  obtain ⟨hreference, hterminal, hidentity⟩ := isExactAcceptedResultTerminalAuthorityV2_spec hexact
  have hdigests := digests_terminalBinding hreference hterminal
  have hmeta := hterminal
  simp only [isExactTerminalAuthorityMetadata, isExactCustodyIdentity, Bool.and_eq_true] at hmeta
  obtain ⟨⟨⟨⟨⟨⟨⟨⟨⟨⟨⟨⟨⟨hroot, -⟩, -⟩, -⟩, hgeneration⟩, -⟩, -⟩, -⟩, -⟩, -⟩, -⟩, -⟩, -⟩, -⟩ := hmeta
  refine ⟨htaskId, ?_⟩
  have hbound : isBoundedText host authority.terminalResultAuthority.identity.taskId = true := by rwa [htaskId]
  simp only [isTerminalBinding, hdigests, Bool.and_true, Bool.and_eq_true]
  rw [show (terminalBinding authority).identity = authority.terminalResultAuthority.identity from rfl, hroot, hbound,
    hgeneration, hidentity]
  simp only [true_and, and_true]

theorem Admits.length_le {found : List SupersededDescendant} (hadmits : Admits host input found) :
    found.length ≤ MAX_EVIDENCE_ITEMS := by
  rw [(descendants_eq_some hadmits.decided).2, List.length_map]
  exact (List.length_filter_le _ _).trans hadmits.count

theorem Admits.nodup_receipts {found : List SupersededDescendant} (hadmits : Admits host input found) :
    (found.map (·.repairBirthReceiptDigest)).Nodup := by
  rw [(descendants_eq_some hadmits.decided).2, List.map_map]
  exact (hadmits.receipts.sublist (List.filter_sublist.map _))

/-- The parser accepts what is admitted exactly if the texts of the accepted identity are bounded. -/
theorem isExactRepairSupersessionAuthorityV1_iff {found : List SupersededDescendant} (hadmits : Admits host input found) :
    isExactRepairSupersessionAuthorityV1 host (supersession host input (sortDescendants host found)) = true
      ↔ isBoundedText host input.acceptedTerminalAuthority.acceptedAuthority.identity.projectId = true
        ∧ isBoundedText host input.acceptedTerminalAuthority.acceptedAuthority.identity.attemptId = true := by
  obtain ⟨htaskId, hbinding⟩ := validTerminal_spec hadmits.terminal hadmits.acceptedResolvingTaskId
  have hconsistent : ConsistentComparator (compareJson host SupersededDescendant.json) :=
    (host.consistent.comap fun descendant => canonicalJson (SupersededDescendant.json descendant)).consistent
  have hsorted : sortDescendants host (sortDescendants host found) = sortDescendants host found :=
    hconsistent.sortBy_sortBy found
  have hnormalized : sortDescendants host (supersession host input (sortDescendants host found)).supersededDescendants
      = sortDescendants host found := hsorted
  have hpresentable : ∀ descendant ∈ sortDescendants host found, Presentable host descendant := fun descendant hmem =>
    hadmits.presentable descendant (mem_sortBy.mp hmem)
  have hcount : (sortDescendants host found).length ≤ MAX_EVIDENCE_ITEMS :=
    (length_sortBy _ found).le.trans hadmits.length_le
  have hreceipts : ((sortDescendants host found).map (·.repairBirthReceiptDigest)).Nodup :=
    ((perm_sortBy _ found).map _).nodup_iff.mpr hadmits.nodup_receipts
  have hshape : (sortDescendants host found).all (fun descendant => isBoundedText host descendant.childTaskId
      && isSha256Digest descendant.repairBirthReceiptDigest) = true := by
    refine List.all_eq_true.mpr fun descendant hmem => ?_
    rw [(hpresentable descendant hmem).bounded, (hpresentable descendant hmem).receipt, Bool.true_and]
  rw [← hbinding]
  constructor
  · intro haccepted
    simp only [isExactRepairSupersessionAuthorityV1, Bool.and_eq_true] at haccepted
    exact haccepted.1.1.1.1.1.1.1.1.1.2
  · intro hterminal
    have hreceipt : isSha256Digest (supersession host input (sortDescendants host found)).receiptDigest = true :=
      isSha256Digest_digest host _ _
    have hplain := @isPlain_supersession host (supersession host input (sortDescendants host found)) hadmits.sprintId
      hadmits.lineageRootTaskId hadmits.acceptedResolvingTaskId hterminal hcount hpresentable hreceipt
    unfold isExactRepairSupersessionAuthorityV1
    simp only [hplain, hreceipt, Bool.and_eq_true, decide_eq_true_eq]
    refine ⟨⟨⟨⟨⟨⟨⟨⟨⟨⟨⟨⟨⟨trivial, hadmits.sprintId⟩, hadmits.lineageRootTaskId⟩, hadmits.acceptedResolvingTaskId⟩,
      hterminal⟩, htaskId⟩, hadmits.verdict⟩, hcount⟩, trivial⟩, hshape⟩, ?_⟩, ?_⟩, ?_⟩, rfl⟩
    · rw [hnormalized]
      exact decide_eq_true rfl
    · rw [hnormalized]
      exact hadmits.children
    · rw [hnormalized]
      exact hreceipts

/-! ### The whole -/

/-- What a supersession of the descendants of an accepted task says. -/
structure SupersedesExactly (host : RepairHost) (input : SupersessionInput) (authority : Supersession) : Prop where
  exact : ∀ birth ∈ input.repairBirthAuthorities, descendantOf birth ∈ authority.supersededDescendants
    ↔ DescendsFrom input.repairBirthAuthorities input.acceptedResolvingTaskId birth
  births : ∀ descendant ∈ authority.supersededDescendants,
    ∃ birth ∈ input.repairBirthAuthorities, descendantOf birth = descendant
  once : authority.supersededDescendants.Nodup
  unordered : ∀ permuted, input.repairBirthAuthorities.Perm permuted →
    resolveExactRepairSupersessionAuthority host { input with repairBirthAuthorities := permuted } = .ok authority
  parses : isExactRepairSupersessionAuthorityV1 host authority = true
  spares : ∀ birth ∈ input.repairBirthAuthorities, birth.childTaskId = input.acceptedResolvingTaskId →
    ∀ ancestor, Chain input.repairBirthAuthorities birth ancestor →
      descendantOf ancestor ∉ authority.supersededDescendants

theorem mem_of_chain {births : List RepairBirth} {birth ancestor : RepairBirth} (hbirth : birth ∈ births)
    (hchain : Chain births birth ancestor) : ancestor ∈ births := by
  induction hchain with
  | refl => exact hbirth
  | tail _ hprecedes _ =>
      obtain ⟨receiptDigest, -, hfound⟩ := hprecedes
      exact (byReceipt_eq_some hfound).1

theorem Admits.superseded_iff {found : List SupersededDescendant} (hadmits : Admits host input found)
    {birth : RepairBirth} (hbirth : birth ∈ input.repairBirthAuthorities) :
    descendantOf birth ∈ sortDescendants host found
      ↔ DescendsFrom input.repairBirthAuthorities input.acceptedResolvingTaskId birth := by
  rw [sortDescendants, mem_sortBy, mem_descendants hadmits.decided]
  constructor
  · rintro ⟨other, hother, hdescends, hsame⟩
    have hreceipt : other.receiptDigest = birth.receiptDigest := congrArg (·.repairBirthReceiptDigest) hsame
    rwa [List.inj_on_of_nodup_map hadmits.receipts hother hbirth hreceipt] at hdescends
  · exact fun hdescends => ⟨birth, hbirth, hdescends, rfl⟩

/-- An admission is exact if and only if the texts of the accepted identity are bounded, which the parser asks for
and the resolution does not, and no birth of the accepted task descends from it, which would be a cycle of digests. -/
theorem supersedesExactly_iff {authority : Supersession}
    (hok : resolveExactRepairSupersessionAuthority host input = .ok authority) :
    SupersedesExactly host input authority
      ↔ (isBoundedText host input.acceptedTerminalAuthority.acceptedAuthority.identity.projectId = true
          ∧ isBoundedText host input.acceptedTerminalAuthority.acceptedAuthority.identity.attemptId = true)
        ∧ ∀ birth ∈ input.repairBirthAuthorities, birth.childTaskId = input.acceptedResolvingTaskId →
          ¬ DescendsFrom input.repairBirthAuthorities input.acceptedResolvingTaskId birth := by
  obtain ⟨found, hadmits, rfl⟩ := resolve_eq_ok.mp hok
  rw [← isExactRepairSupersessionAuthorityV1_iff hadmits]
  constructor
  · intro hexact
    refine ⟨hexact.parses, fun birth hbirth hchild hdescends => ?_⟩
    exact hexact.spares birth hbirth hchild birth .refl ((hexact.exact birth hbirth).mpr hdescends)
  · rintro ⟨hparses, hacyclic⟩
    exact
      { exact := fun birth hbirth => hadmits.superseded_iff hbirth
        births := fun descendant hdescendant => by
          obtain ⟨birth, hbirth, -, hsame⟩ := (mem_descendants hadmits.decided).mp (mem_sortBy.mp hdescendant)
          exact ⟨birth, hbirth, hsame⟩
        once := hadmits.children.of_map
        unordered := fun permuted hperm => resolve_perm hok hperm
        parses := hparses
        spares := fun birth hbirth hchild ancestor hchain hsuperseded => by
          have hancestor := mem_of_chain hbirth hchain
          obtain ⟨reached, hrest, htask⟩ := (hadmits.superseded_iff hancestor).mp hsuperseded
          exact hacyclic birth hbirth hchild ⟨reached, hchain.trans hrest, htask⟩ }

/-! ### A lineage of one repair -/

def checksum (bytes : List Nat) : UnitText :=
  let sum := bytes.foldl (fun sum byte => (31 * sum + byte) % 65536) 7
  [sum / 4096, sum / 256, sum / 16, sum].map (fun digit => UnitText.hexDigit (digit % 16))
    ++ List.replicate 60 (codeUnit 0x30)

def compareUnits (left right : UnitText) : Int := if left < right then -1 else if left = right then 0 else 1

theorem isHexUnit_hexDigit {digit : Nat} (hdigit : digit < 16) : isHexUnit (UnitText.hexDigit digit) = true := by
  revert digit
  decide

theorem isHex64_checksum (bytes : List Nat) : isHex64 (checksum bytes) = true := by
  have hzeros : (List.replicate 60 (codeUnit 0x30)).all isHexUnit = true := by decide +kernel
  unfold isHex64 checksum
  rw [Bool.and_eq_true, decide_eq_true_eq, List.all_append, hzeros, Bool.and_true]
  refine ⟨rfl, List.all_eq_true.mpr fun unit hunit => ?_⟩
  obtain ⟨digit, -, rfl⟩ := List.mem_map.mp hunit
  exact isHexUnit_hexDigit (Nat.mod_lt digit (by decide))

theorem compareUnits_neg {left right : UnitText} : compareUnits left right < 0 ↔ left < right := by
  unfold compareUnits
  split_ifs with hlt
  · exact iff_of_true (by decide) hlt
  · exact iff_of_false (lt_irrefl 0) hlt
  · exact iff_of_false (by decide) hlt

theorem compareUnits_nonpos {left right : UnitText} : compareUnits left right ≤ 0 ↔ left ≤ right := by
  unfold compareUnits
  split_ifs with hlt heq
  · exact iff_of_true (by decide) hlt.le
  · exact iff_of_true le_rfl heq.le
  · exact iff_of_false (by decide) fun hle => heq (le_antisymm hle (not_lt.mp hlt))

/-- Texts in normal form, compared by their units. -/
def plainHost : RepairHost where
  nfc := id
  nfkc := id
  sha256 := checksum
  localeCompare := compareUnits
  hexadecimal := isHex64_checksum
  consistent :=
    { swap := fun left right => by rw [compareUnits_neg, ← not_le, ← not_le, compareUnits_nonpos]
      trans := fun left middle right hleft hright =>
        compareUnits_nonpos.mpr ((compareUnits_nonpos.mp hleft).trans (compareUnits_nonpos.mp hright)) }
  separates := fun left right _ _ hzero => by
    have hle : left ≤ right := compareUnits_nonpos.mp hzero.le
    exact hle.eq_of_not_lt fun hlt => absurd hzero (compareUnits_neg.mpr hlt).ne

def plainText (value : String) : UnitText := UnitText.ofAscii value

def plainDigest (digits : String) : UnitText :=
  plainText "sha256:" ++ plainText digits ++ List.replicate 60 (codeUnit 0x30)

def plainArtifact : AuthorityArtifact := ⟨plainDigest "0007", plainDigest "0007", plainDigest "0007", 1⟩

def plainTerminal (projectId : String) (verdict : EvaluationVerdict) : ExactTerminalAuthority :=
  let digest := plainDigest "0007"
  let identity : CustodyIdentity :=
    ⟨digest.drop 7, plainText projectId, plainText "root", plainText "attempt", 1⟩
  let ref : ArtifactRef := ⟨identity, plainText "key", digest⟩
  { acceptedAuthority := ⟨identity, digest, ref, digest, digest⟩
    terminalResultAuthority := ⟨identity, digest, ref, digest, digest, digest, digest, digest, plainArtifact,
      plainArtifact⟩
    terminalDecisionAuthority := ⟨identity, verdict, plainArtifact, plainText "terminal-ready", plainArtifact⟩ }

def plainEvidence : SemanticEvidence where
  acceptanceContractDigest := plainDigest "0007"
  sourceEvaluationArtifactSha256 := plainDigest "0007"
  failedCriteria := [⟨plainText "b", .MISSING, plainDigest "0007"⟩]
  verificationChecks := []
  effectEvidenceDigest := plainDigest "0007"

/-- The first repair of the root task. -/
def plainBirth : RepairBirth where
  repairKind := .FIX
  sprintId := plainText "sprint"
  lineageRootTaskId := plainText "root"
  failedTaskId := plainText "root"
  targetTaskId := plainText "root"
  failedTerminal := terminalBinding (plainTerminal "project" .NO_GO)
  targetTerminal := none
  evidence := plainEvidence
  semanticFailureFingerprint := plainDigest "066e"
  predecessorRepairReceiptDigest := none
  childTaskId := plainText "root-fix-7d6900000000000000000000"
  receiptDigest := plainDigest "d08a"

def plainInput (projectId : String) (births : List RepairBirth) : SupersessionInput where
  sprintId := plainText "sprint"
  lineageRootTaskId := plainText "root"
  acceptedResolvingTaskId := plainText "root"
  acceptedTerminalAuthority := plainTerminal projectId .DONE
  repairBirthAuthorities := births

theorem resolve_plainInput {projectId : String} {births : List RepairBirth}
    (hok : (resolveExactRepairSupersessionAuthority plainHost (plainInput projectId births)).isOk = true) :
    ∃ authority, resolveExactRepairSupersessionAuthority plainHost (plainInput projectId births) = .ok authority := by
  cases hresolved : resolveExactRepairSupersessionAuthority plainHost (plainInput projectId births) with
  | error reason => rw [hresolved] at hok; cases hok
  | ok authority => exact ⟨authority, rfl⟩

/-- The root task is accepted, and its first repair is retired. -/
theorem supersedesExactly_plainBirth : ∃ authority,
    resolveExactRepairSupersessionAuthority plainHost (plainInput "project" [plainBirth]) = .ok authority
      ∧ SupersedesExactly plainHost (plainInput "project" [plainBirth]) authority
      ∧ descendantOf plainBirth ∈ authority.supersededDescendants := by
  obtain ⟨authority, hok⟩ := @resolve_plainInput "project" [plainBirth] (by decide +kernel)
  have hexact : SupersedesExactly plainHost (plainInput "project" [plainBirth]) authority := by
    refine (supersedesExactly_iff hok).mpr ⟨⟨by decide +kernel, by decide +kernel⟩, fun birth hbirth hchild => ?_⟩
    obtain rfl := List.mem_singleton.mp hbirth
    exact absurd hchild (by decide +kernel)
  exact ⟨authority, hok, hexact, (hexact.exact plainBirth List.mem_cons_self).mpr ⟨plainBirth, .refl, rfl⟩⟩

/-- A project whose id starts with a blank is admitted, and the receipt is not accepted. -/
theorem not_supersedesExactly_blank : ¬ ∀ authority,
    resolveExactRepairSupersessionAuthority plainHost (plainInput " project" []) = .ok authority →
      SupersedesExactly plainHost (plainInput " project" []) authority := by
  intro hclaim
  obtain ⟨authority, hok⟩ := @resolve_plainInput " project" [] (by decide +kernel)
  have hparses := (hclaim authority hok).parses
  obtain ⟨found, hadmits, rfl⟩ := resolve_eq_ok.mp hok
  exact absurd ((isExactRepairSupersessionAuthorityV1_iff hadmits).mp hparses).1 (by decide +kernel)

end Deckent.Repair
