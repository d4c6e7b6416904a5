import Deckent.Lib.StableSort
import Deckent.Model.ExactTerminalAuthority

/-!
# Births of repairs and their supersession

A repair is born from the evidence of a failed attempt and names the receipt of the birth before it. When an attempt
is accepted, the births that descend from it are superseded: the ones whose chain of receipts reaches a birth from
that attempt's task.

The Unicode normal forms, SHA-256 and the comparison of texts in a language are parameters. Two texts in printable
ASCII are only equal in that comparison if they are the same.
-/

namespace Deckent.Repair

open Terminal
open JsonTree (ascii record)

def isPrintable (unit : CodeUnit) : Bool := 0x20 ≤ unit.val && unit.val ≤ 0x7E

structure RepairHost where
  nfc : UnitText → UnitText
  nfkc : UnitText → UnitText
  /-- SHA-256 in hexadecimal. -/
  sha256 : List Nat → UnitText
  localeCompare : UnitText → UnitText → Int
  hexadecimal : ∀ bytes, isHex64 (sha256 bytes) = true
  consistent : SignedComparator localeCompare
  separates : ∀ left right, left.all isPrintable = true → right.all isPrintable = true →
    localeCompare left right = 0 → left = right

/-! ### Texts -/

def REPAIR_FINGERPRINT_DOMAIN : String := "deckent:exact-repair-failure:v1"
def REPAIR_RECEIPT_DOMAIN : String := "deckent:exact-repair-birth:v1"
def REPAIR_SUPERSESSION_RECEIPT_DOMAIN : String := "deckent:exact-repair-supersession:v1"
def MAX_TEXT_BYTES : Nat := 4096
def MAX_EVIDENCE_ITEMS : Nat := 1024

/-- The bounds of `isBoundedPlainData`. -/
def PLAIN_LIMITS : PlainLimits where
  maxDepth := 16
  maxNodes := 16384
  maxKeys := 16384
  maxObjectKeys := 128
  maxArrayLength := some 4096
  maxTextBytes := MAX_TEXT_BYTES
  maxTotalBytes := 1024 * 1024

def isBlankUnit (unit : CodeUnit) : Bool :=
  (0x09 ≤ unit.val && unit.val ≤ 0x0D) || (0x2000 ≤ unit.val && unit.val ≤ 0x200A)
    || [0x20, 0xA0, 0x1680, 0x2028, 0x2029, 0x202F, 0x205F, 0x3000, 0xFEFF].contains unit.val

def trim (value : UnitText) : UnitText :=
  ((value.dropWhile isBlankUnit).reverse.dropWhile isBlankUnit).reverse

/-- `canonicalJson` of the audit writer. -/
def canonicalJson (value : JsonTree) : UnitText := value.sorted.print .decimal

def sameJson (left right : JsonTree) : Bool := canonicalJson left = canonicalJson right

def isSafeUnit (unit : CodeUnit) : Bool :=
  (0x41 ≤ unit.val && unit.val ≤ 0x5A) || (0x61 ≤ unit.val && unit.val ≤ 0x7A)
    || (0x30 ≤ unit.val && unit.val ≤ 0x39) || unit.val = 0x2E || unit.val = 0x5F || unit.val = 0x2D

def dash : CodeUnit := codeUnit 0x2D

/-- `value.replace(/[^A-Za-z0-9._-]+/gu, '-')`, inside a run that is replaced or not. -/
def replaceUnsafe (inside : Bool) : UnitText → UnitText
  | [] => []
  | unit :: rest =>
      if isSafeUnit unit then unit :: replaceUnsafe false rest
      else if inside then replaceUnsafe true rest
      else dash :: replaceUnsafe true rest

def trimDashes (value : UnitText) : UnitText :=
  ((value.dropWhile (· = dash)).reverse.dropWhile (· = dash)).reverse

section Texts

variable (host : RepairHost)

def isBoundedText (value : UnitText) : Bool :=
  value ≠ [] && value = trim (host.nfc value) && value.utf8.length ≤ MAX_TEXT_BYTES

def digest (domain : String) (value : JsonTree) : UnitText :=
  UnitText.ofAscii "sha256:" ++ host.sha256 ((UnitText.ofAscii domain).utf8 ++ 0 :: (canonicalJson value).utf8)

def taskFragment (value : UnitText) : Option UnitText :=
  if isBoundedText host value then
    let safe := trimDashes (replaceUnsafe false (host.nfkc value))
    if safe ≠ [] then some (safe.take 64) else none
  else none

end Texts

/-! ### Records -/

inductive RepairKind where
  | FIX
  | XFIX
  deriving DecidableEq

def RepairKind.json : RepairKind → JsonTree
  | FIX => ascii "FIX"
  | XFIX => ascii "XFIX"

def RepairKind.lower : RepairKind → UnitText
  | FIX => UnitText.ofAscii "fix"
  | XFIX => UnitText.ofAscii "xfix"

inductive CriterionOutcome where
  | FAILED
  | MISSING
  | CONTRADICTED

inductive VerificationOutcome where
  | FAILED
  | NOT_EXECUTED

structure FailedCriterion where
  criterionId : UnitText
  outcome : CriterionOutcome
  evidenceDigest : UnitText

def FailedCriterion.json (criterion : FailedCriterion) : JsonTree :=
  record [("criterionId", .text criterion.criterionId),
    ("outcome", ascii (match criterion.outcome with
      | .FAILED => "FAILED" | .MISSING => "MISSING" | .CONTRADICTED => "CONTRADICTED")),
    ("evidenceDigest", .text criterion.evidenceDigest)]

structure VerificationCheck where
  commandDigest : UnitText
  outcome : VerificationOutcome
  evidenceDigest : UnitText

def VerificationCheck.json (check : VerificationCheck) : JsonTree :=
  record [("commandDigest", .text check.commandDigest),
    ("outcome", ascii (match check.outcome with | .FAILED => "FAILED" | .NOT_EXECUTED => "NOT_EXECUTED")),
    ("evidenceDigest", .text check.evidenceDigest)]

structure SemanticEvidence where
  acceptanceContractDigest : UnitText
  sourceEvaluationArtifactSha256 : UnitText
  failedCriteria : List FailedCriterion
  verificationChecks : List VerificationCheck
  effectEvidenceDigest : UnitText

def SemanticEvidence.json (evidence : SemanticEvidence) : JsonTree :=
  record [("schemaVersion", .number 1), ("kind", ascii "exact-repair-semantic-evidence-v1"),
    ("acceptanceContractDigest", .text evidence.acceptanceContractDigest),
    ("sourceEvaluationArtifactSha256", .text evidence.sourceEvaluationArtifactSha256),
    ("failedCriteria", .array (evidence.failedCriteria.map FailedCriterion.json)),
    ("verificationChecks", .array (evidence.verificationChecks.map VerificationCheck.json)),
    ("effectEvidenceDigest", .text evidence.effectEvidenceDigest)]

structure TerminalBinding where
  identity : CustodyIdentity
  admissionReceiptDigest : UnitText
  acceptedResultArtifactReceiptDigest : UnitText
  acceptedResultChainDigest : UnitText
  resultDigest : UnitText
  settlementArtifactReceiptDigest : UnitText
  settlementDigest : UnitText
  evaluationArtifactReceiptDigest : UnitText
  evaluationArtifactSha256 : UnitText
  evaluationChainDigest : UnitText
  finalizerArtifactReceiptDigest : UnitText
  finalizerArtifactSha256 : UnitText
  finalizerChainDigest : UnitText
  verdict : EvaluationVerdict

namespace TerminalBinding

def digests (binding : TerminalBinding) : List (String × UnitText) :=
  [("admissionReceiptDigest", binding.admissionReceiptDigest),
    ("acceptedResultArtifactReceiptDigest", binding.acceptedResultArtifactReceiptDigest),
    ("acceptedResultChainDigest", binding.acceptedResultChainDigest), ("resultDigest", binding.resultDigest),
    ("settlementArtifactReceiptDigest", binding.settlementArtifactReceiptDigest),
    ("settlementDigest", binding.settlementDigest),
    ("evaluationArtifactReceiptDigest", binding.evaluationArtifactReceiptDigest),
    ("evaluationArtifactSha256", binding.evaluationArtifactSha256),
    ("evaluationChainDigest", binding.evaluationChainDigest),
    ("finalizerArtifactReceiptDigest", binding.finalizerArtifactReceiptDigest),
    ("finalizerArtifactSha256", binding.finalizerArtifactSha256),
    ("finalizerChainDigest", binding.finalizerChainDigest)]

def json (binding : TerminalBinding) : JsonTree :=
  record (("identity", binding.identity.json)
    :: ("verdict", binding.verdict.json)
    :: binding.digests.map fun entry => (entry.1, .text entry.2))

end TerminalBinding

def terminalBinding (authority : ExactTerminalAuthority) : TerminalBinding :=
  let terminal := authority.terminalResultAuthority
  { identity := terminal.identity
    admissionReceiptDigest := terminal.admissionReceiptDigest
    acceptedResultArtifactReceiptDigest := authority.acceptedAuthority.acceptedResultRef.artifactReceiptDigest
    acceptedResultChainDigest := terminal.acceptedResultChainDigest
    resultDigest := terminal.resultDigest
    settlementArtifactReceiptDigest := terminal.settlementRef.artifactReceiptDigest
    settlementDigest := terminal.settlementDigest
    evaluationArtifactReceiptDigest := terminal.evaluationArtifact.artifactReceiptDigest
    evaluationArtifactSha256 := terminal.evaluationArtifact.artifactSha256
    evaluationChainDigest := terminal.evaluationChainDigest
    finalizerArtifactReceiptDigest := terminal.finalizerArtifact.artifactReceiptDigest
    finalizerArtifactSha256 := terminal.finalizerArtifact.artifactSha256
    finalizerChainDigest := terminal.finalizerChainDigest
    verdict := authority.terminalDecisionAuthority.verdict }

structure RepairBirth where
  repairKind : RepairKind
  sprintId : UnitText
  lineageRootTaskId : UnitText
  failedTaskId : UnitText
  targetTaskId : UnitText
  failedTerminal : TerminalBinding
  targetTerminal : Option TerminalBinding
  evidence : SemanticEvidence
  semanticFailureFingerprint : UnitText
  predecessorRepairReceiptDigest : Option UnitText
  childTaskId : UnitText
  receiptDigest : UnitText

def nullable (value : Option JsonTree) : JsonTree := value.getD .null

def RepairBirth.body (birth : RepairBirth) : List (String × JsonTree) :=
  [("schemaVersion", .number 1), ("kind", ascii "exact-repair-birth-authority-v1"),
    ("repairKind", birth.repairKind.json), ("failureDomain", ascii "PRODUCT_DEFECT"),
    ("sprintId", .text birth.sprintId), ("lineageRootTaskId", .text birth.lineageRootTaskId),
    ("failedTaskId", .text birth.failedTaskId), ("targetTaskId", .text birth.targetTaskId),
    ("failedTerminal", birth.failedTerminal.json),
    ("targetTerminal", nullable (birth.targetTerminal.map TerminalBinding.json)),
    ("evidence", birth.evidence.json), ("semanticFailureFingerprint", .text birth.semanticFailureFingerprint),
    ("predecessorRepairReceiptDigest", nullable (birth.predecessorRepairReceiptDigest.map .text)),
    ("childTaskId", .text birth.childTaskId)]

structure SupersededDescendant where
  childTaskId : UnitText
  repairBirthReceiptDigest : UnitText
  deriving DecidableEq

def SupersededDescendant.json (descendant : SupersededDescendant) : JsonTree :=
  record [("childTaskId", .text descendant.childTaskId),
    ("repairBirthReceiptDigest", .text descendant.repairBirthReceiptDigest)]

structure Supersession where
  sprintId : UnitText
  lineageRootTaskId : UnitText
  acceptedResolvingTaskId : UnitText
  acceptedTerminal : TerminalBinding
  supersededDescendants : List SupersededDescendant
  receiptDigest : UnitText

def Supersession.body (supersession : Supersession) : List (String × JsonTree) :=
  [("schemaVersion", .number 1), ("kind", ascii "exact-repair-supersession-authority-v1"),
    ("sprintId", .text supersession.sprintId), ("lineageRootTaskId", .text supersession.lineageRootTaskId),
    ("acceptedResolvingTaskId", .text supersession.acceptedResolvingTaskId),
    ("acceptedTerminal", supersession.acceptedTerminal.json),
    ("supersededDescendants", .array (supersession.supersededDescendants.map SupersededDescendant.json))]

/-! ### Births -/

section Births

variable (host : RepairHost)

def compareJson {α : Type} (json : α → JsonTree) (left right : α) : Int :=
  host.localeCompare (canonicalJson (json left)) (canonicalJson (json right))

def semanticFingerprint (evidence : SemanticEvidence) : UnitText :=
  digest host REPAIR_FINGERPRINT_DOMAIN
    (record [("acceptanceContractDigest", .text evidence.acceptanceContractDigest),
      ("failedCriteria", .array (evidence.failedCriteria.map FailedCriterion.json)),
      ("verificationChecks", .array (evidence.verificationChecks.map VerificationCheck.json)),
      ("effectEvidenceDigest", .text evidence.effectEvidenceDigest)])

def repairChildTaskId (lineageRootTaskId : UnitText) (repairKind : RepairKind) (failedTaskId targetTaskId : UnitText)
    (fingerprint : UnitText) : Option UnitText :=
  (taskFragment host lineageRootTaskId).map fun root =>
    let suffix := ((digest host "deckent:exact-repair-child-id:v1"
      (record [("lineageRootTaskId", .text lineageRootTaskId), ("repairKind", repairKind.json),
        ("failedTaskId", .text failedTaskId), ("targetTaskId", .text targetTaskId),
        ("semanticFailureFingerprint", .text fingerprint)])).drop 7).take 24
    root ++ dash :: repairKind.lower ++ dash :: suffix

def normalizeCriterion (value : FailedCriterion) : Option FailedCriterion :=
  let criterionId := trim (host.nfc value.criterionId)
  if isBoundedText host criterionId && isSha256Digest value.evidenceDigest then
    some { value with criterionId := criterionId }
  else none

def normalizeCheck (value : VerificationCheck) : Option VerificationCheck :=
  if isSha256Digest value.commandDigest && isSha256Digest value.evidenceDigest then some value else none

def normalizeEvidenceShape (value : SemanticEvidence) : Option SemanticEvidence := do
  if isSha256Digest value.acceptanceContractDigest && isSha256Digest value.sourceEvaluationArtifactSha256
      && isSha256Digest value.effectEvidenceDigest && value.failedCriteria.length ≤ MAX_EVIDENCE_ITEMS
      && value.verificationChecks.length ≤ MAX_EVIDENCE_ITEMS then
    let criteria ← value.failedCriteria.mapM (normalizeCriterion host)
    let checks ← value.verificationChecks.mapM normalizeCheck
    let normalizedCriteria := sortBy (compareJson host FailedCriterion.json) criteria
    let normalizedChecks := sortBy (compareJson host VerificationCheck.json) checks
    if normalizedCriteria.isEmpty && normalizedChecks.isEmpty then none
    else if (normalizedCriteria.map fun item => canonicalJson item.json).Nodup
        ∧ (normalizedChecks.map fun item => canonicalJson item.json).Nodup then
      some { value with failedCriteria := normalizedCriteria, verificationChecks := normalizedChecks }
    else none
  else none

def isTerminalBinding (binding : TerminalBinding) : Bool :=
  isHex64 binding.identity.projectRootSha256 && isBoundedText host binding.identity.projectId
    && isBoundedText host binding.identity.taskId && isBoundedText host binding.identity.attemptId
    && isPositiveSafeInteger binding.identity.generation && binding.digests.all fun entry => isSha256Digest entry.2

def isAccepted (verdict : EvaluationVerdict) : Bool := verdict = .DONE || verdict = .GO_WITH_TECH_DEBT

/-- What `isExactRepairBirthAuthorityV1` asks of the fields by themselves. -/
def hasBirthFields (birth : RepairBirth) : Bool :=
  isBoundedText host birth.sprintId && isBoundedText host birth.lineageRootTaskId
    && isBoundedText host birth.failedTaskId && isBoundedText host birth.targetTaskId
    && isTerminalBinding host birth.failedTerminal && birth.targetTerminal.all (isTerminalBinding host)
    && isSha256Digest birth.semanticFailureFingerprint && birth.predecessorRepairReceiptDigest.all isSha256Digest
    && isBoundedText host birth.childTaskId && isSha256Digest birth.receiptDigest

def hasBirthTasks (birth : RepairBirth) : Bool :=
  (match birth.repairKind with
    | .FIX => birth.targetTaskId = birth.failedTaskId && birth.targetTerminal.isNone
    | .XFIX => birth.targetTaskId ≠ birth.failedTaskId && birth.targetTerminal.any (isAccepted ·.verdict))
    && birth.failedTerminal.verdict = .NO_GO && birth.failedTerminal.identity.taskId = birth.failedTaskId
    && (birth.predecessorRepairReceiptDigest.isSome || birth.failedTaskId = birth.lineageRootTaskId)
    && birth.targetTerminal.all fun target => target.identity.taskId = birth.targetTaskId
      && target.identity.projectRootSha256 = birth.failedTerminal.identity.projectRootSha256
      && target.identity.projectId = birth.failedTerminal.identity.projectId

def isExactRepairBirthAuthorityV1 (birth : RepairBirth) : Bool :=
  (record (birth.body ++ [("receiptDigest", .text birth.receiptDigest)])).isPlain PLAIN_LIMITS
    && hasBirthFields host birth && hasBirthTasks birth
    && match normalizeEvidenceShape host birth.evidence with
      | none => false
      | some evidence => sameJson evidence.json birth.evidence.json
        && evidence.sourceEvaluationArtifactSha256 = birth.failedTerminal.evaluationArtifactSha256
        && semanticFingerprint host evidence = birth.semanticFailureFingerprint
        && birth.receiptDigest = digest host REPAIR_RECEIPT_DOMAIN (record birth.body)
        && some birth.childTaskId = repairChildTaskId host birth.lineageRootTaskId birth.repairKind birth.failedTaskId
          birth.targetTaskId (semanticFingerprint host evidence)

end Births

/-! ### Supersession -/

inductive SupersessionHoldReason where
  | INVALID_ACCEPTED_TERMINAL_AUTHORITY
  | INVALID_REPAIR_LINEAGE
  | REPAIR_LINEAGE_LIMIT
  deriving DecidableEq

structure SupersessionInput where
  sprintId : UnitText
  lineageRootTaskId : UnitText
  acceptedResolvingTaskId : UnitText
  acceptedTerminalAuthority : ExactTerminalAuthority
  repairBirthAuthorities : List RepairBirth

def byReceipt (births : List RepairBirth) (receiptDigest : UnitText) : Option RepairBirth :=
  births.find? fun birth => birth.receiptDigest = receiptDigest

def followsPredecessor (births : List RepairBirth) (birth : RepairBirth) : Bool :=
  match birth.predecessorRepairReceiptDigest with
  | none => true
  | some receiptDigest => (byReceipt births receiptDigest).any fun predecessor =>
      predecessor.childTaskId = birth.failedTaskId && predecessor.repairKind = birth.repairKind
        && (birth.repairKind ≠ .XFIX || predecessor.targetTaskId = birth.targetTaskId)

def descends (births : List RepairBirth) (accepted : UnitText) : Nat → RepairBirth → List UnitText → Option Bool
  | 0, _, _ => some false
  | depth + 1, current, visited =>
      if visited.contains current.receiptDigest then none
      else if current.failedTaskId = accepted then some true
      else
        match current.predecessorRepairReceiptDigest with
        | none => some false
        | some receiptDigest =>
            match byReceipt births receiptDigest with
            | none => none
            | some predecessor =>
                if predecessor.childTaskId ≠ current.failedTaskId then none
                else descends births accepted depth predecessor (current.receiptDigest :: visited)

def descendants (births : List RepairBirth) (accepted : UnitText) : List RepairBirth → Option (List SupersededDescendant)
  | [] => some []
  | candidate :: rest => do
      let isDescendant ← descends births accepted (births.length + 1) candidate []
      let others ← descendants births accepted rest
      if isDescendant then some (⟨candidate.childTaskId, candidate.receiptDigest⟩ :: others) else some others

section Supersede

variable (host : RepairHost)

def validTerminal (authority : ExactTerminalAuthority) (expectedTaskId : UnitText) : Bool :=
  isExactAcceptedResultTerminalAuthorityV2 authority authority.acceptedAuthority
    && authority.acceptedAuthority.identity.taskId = expectedTaskId
    && authority.terminalResultAuthority.identity.taskId = expectedTaskId
    && sameJson authority.acceptedAuthority.identity.json authority.terminalResultAuthority.identity.json
    && sameJson authority.acceptedAuthority.identity.json authority.terminalDecisionAuthority.identity.json

def belongs (input : SupersessionInput) (birth : RepairBirth) : Bool :=
  let identity := input.acceptedTerminalAuthority.acceptedAuthority.identity
  isExactRepairBirthAuthorityV1 host birth && birth.sprintId = input.sprintId
    && birth.lineageRootTaskId = input.lineageRootTaskId
    && (birth.predecessorRepairReceiptDigest.isSome || birth.failedTaskId = birth.lineageRootTaskId)
    && birth.failedTerminal.identity.projectRootSha256 = identity.projectRootSha256
    && birth.failedTerminal.identity.projectId = identity.projectId

def indexes (input : SupersessionInput) (indexed : List RepairBirth) : List RepairBirth → Bool
  | [] => true
  | birth :: rest => belongs host input birth && (byReceipt indexed birth.receiptDigest).isNone
      && indexes input (birth :: indexed) rest

def sortDescendants (list : List SupersededDescendant) : List SupersededDescendant :=
  sortBy (compareJson host SupersededDescendant.json) list

def supersession (input : SupersessionInput) (superseded : List SupersededDescendant) : Supersession :=
  let withoutReceipt : Supersession :=
    { sprintId := input.sprintId
      lineageRootTaskId := input.lineageRootTaskId
      acceptedResolvingTaskId := input.acceptedResolvingTaskId
      acceptedTerminal := terminalBinding input.acceptedTerminalAuthority
      supersededDescendants := superseded
      receiptDigest := [] }
  { withoutReceipt with receiptDigest := digest host REPAIR_SUPERSESSION_RECEIPT_DOMAIN (record withoutReceipt.body) }

def resolveExactRepairSupersessionAuthority (input : SupersessionInput) : Except SupersessionHoldReason Supersession :=
  let births := input.repairBirthAuthorities
  if !(isBoundedText host input.sprintId && isBoundedText host input.lineageRootTaskId
      && isBoundedText host input.acceptedResolvingTaskId
      && validTerminal input.acceptedTerminalAuthority input.acceptedResolvingTaskId) then
    .error .INVALID_ACCEPTED_TERMINAL_AUTHORITY
  else if !isAccepted input.acceptedTerminalAuthority.terminalDecisionAuthority.verdict then
    .error .INVALID_ACCEPTED_TERMINAL_AUTHORITY
  else if MAX_EVIDENCE_ITEMS < births.length then .error .REPAIR_LINEAGE_LIMIT
  else if !(indexes host input [] births && births.all (followsPredecessor births)) then
    .error .INVALID_REPAIR_LINEAGE
  else
    match descendants births input.acceptedResolvingTaskId births with
    | none => .error .INVALID_REPAIR_LINEAGE
    | some found =>
        let superseded := sortDescendants host found
        if ¬ (superseded.map (·.childTaskId)).Nodup then .error .INVALID_REPAIR_LINEAGE
        else .ok (supersession host input superseded)

def isExactRepairSupersessionAuthorityV1 (candidate : Supersession) : Bool :=
  let normalized := sortDescendants host candidate.supersededDescendants
  (record (candidate.body ++ [("receiptDigest", .text candidate.receiptDigest)])).isPlain PLAIN_LIMITS
    && isBoundedText host candidate.sprintId && isBoundedText host candidate.lineageRootTaskId
    && isBoundedText host candidate.acceptedResolvingTaskId && isTerminalBinding host candidate.acceptedTerminal
    && candidate.acceptedTerminal.identity.taskId = candidate.acceptedResolvingTaskId
    && isAccepted candidate.acceptedTerminal.verdict
    && candidate.supersededDescendants.length ≤ MAX_EVIDENCE_ITEMS && isSha256Digest candidate.receiptDigest
    && candidate.supersededDescendants.all (fun descendant =>
      isBoundedText host descendant.childTaskId && isSha256Digest descendant.repairBirthReceiptDigest)
    && sameJson (.array (normalized.map SupersededDescendant.json))
      (.array (candidate.supersededDescendants.map SupersededDescendant.json))
    && decide (normalized.map (·.childTaskId)).Nodup && decide (normalized.map (·.repairBirthReceiptDigest)).Nodup
    && candidate.receiptDigest = digest host REPAIR_SUPERSESSION_RECEIPT_DOMAIN (record candidate.body)

end Supersede

end Deckent.Repair
