import Deckent.Lib.PlainData

/-!
# The terminal authority of an accepted result

An accepted result, its settlement and the decision over it name one identity and repeat each other's digests. What
comes from outside is checked field by field, within bounds on its size.

Fields that have one value in the type (versions, kinds, modes) are written where a value is made plain data.
-/

namespace Deckent.Terminal

open JsonTree (ascii record)

/-! ### Texts -/

def isHexUnit (unit : CodeUnit) : Bool :=
  (0x30 ≤ unit.val && unit.val ≤ 0x39) || (0x61 ≤ unit.val && unit.val ≤ 0x66)

def isHex64 (value : UnitText) : Bool := value.length = 64 && value.all isHexUnit

def isSha256Digest (value : UnitText) : Bool :=
  value.take 7 = UnitText.ofAscii "sha256:" && isHex64 (value.drop 7)

def isPositiveSafeInteger (value : Int) : Bool := 0 < value && value ≤ 9007199254740991

/-! ### Authorities -/

inductive EvaluationVerdict where
  | DONE
  | GO_WITH_TECH_DEBT
  | NO_GO
  deriving DecidableEq

def EvaluationVerdict.json : EvaluationVerdict → JsonTree
  | DONE => ascii "DONE"
  | GO_WITH_TECH_DEBT => ascii "GO_WITH_TECH_DEBT"
  | NO_GO => ascii "NO_GO"

structure CustodyIdentity where
  projectRootSha256 : UnitText
  projectId : UnitText
  taskId : UnitText
  attemptId : UnitText
  generation : Int
  deriving DecidableEq

def CustodyIdentity.json (identity : CustodyIdentity) : JsonTree :=
  record [("schemaVersion", .number 2), ("backend", ascii "docker"),
    ("projectRootSha256", .text identity.projectRootSha256), ("projectId", .text identity.projectId),
    ("taskId", .text identity.taskId), ("attemptId", .text identity.attemptId),
    ("generation", .number identity.generation)]

structure ArtifactRef where
  identity : CustodyIdentity
  artifactKey : UnitText
  artifactReceiptDigest : UnitText
  deriving DecidableEq

def ArtifactRef.json (kind : String) (ref : ArtifactRef) : JsonTree :=
  record [("schemaVersion", .number 2), ("kind", ascii kind), ("identity", ref.identity.json),
    ("artifactKey", .text ref.artifactKey), ("artifactReceiptDigest", .text ref.artifactReceiptDigest)]

structure AcceptedAuthority where
  identity : CustodyIdentity
  admissionReceiptDigest : UnitText
  acceptedResultRef : ArtifactRef
  acceptedResultChainDigest : UnitText
  resultDigest : UnitText
  deriving DecidableEq

def AcceptedAuthority.json (accepted : AcceptedAuthority) : JsonTree :=
  record [("executionMode", ascii "normal-docker"), ("identity", accepted.identity.json),
    ("admissionReceiptDigest", .text accepted.admissionReceiptDigest),
    ("acceptedResultRef", accepted.acceptedResultRef.json "task-accepted-result-v2-ref"),
    ("acceptedResultChainDigest", .text accepted.acceptedResultChainDigest),
    ("resultDigest", .text accepted.resultDigest)]

structure AuthorityArtifact where
  artifactReceiptDigest : UnitText
  chainDigest : UnitText
  artifactSha256 : UnitText
  byteLength : Int

def AuthorityArtifact.members (artifact : AuthorityArtifact) : List (String × JsonTree) :=
  [("artifactReceiptDigest", .text artifact.artifactReceiptDigest), ("artifactSha256", .text artifact.artifactSha256),
    ("byteLength", .number artifact.byteLength), ("chainDigest", .text artifact.chainDigest)]

structure TerminalResultAuthority where
  identity : CustodyIdentity
  admissionReceiptDigest : UnitText
  settlementRef : ArtifactRef
  settlementDigest : UnitText
  resultDigest : UnitText
  acceptedResultChainDigest : UnitText
  evaluationChainDigest : UnitText
  finalizerChainDigest : UnitText
  evaluationArtifact : AuthorityArtifact
  finalizerArtifact : AuthorityArtifact

def TerminalResultAuthority.json (terminal : TerminalResultAuthority) : JsonTree :=
  record [("executionMode", ascii "normal-docker"), ("identity", terminal.identity.json),
    ("admissionReceiptDigest", .text terminal.admissionReceiptDigest),
    ("settlementRef", terminal.settlementRef.json "task-result-settlement-v2-ref"),
    ("settlementDigest", .text terminal.settlementDigest), ("resultDigest", .text terminal.resultDigest),
    ("acceptedResultChainDigest", .text terminal.acceptedResultChainDigest),
    ("evaluationChainDigest", .text terminal.evaluationChainDigest),
    ("finalizerChainDigest", .text terminal.finalizerChainDigest),
    ("evaluationArtifact", record terminal.evaluationArtifact.members),
    ("finalizerArtifact", record terminal.finalizerArtifact.members)]

structure TerminalDecisionAuthority where
  identity : CustodyIdentity
  verdict : EvaluationVerdict
  evaluationReceipt : AuthorityArtifact
  state : UnitText
  finalizerReceipt : AuthorityArtifact

def TerminalDecisionAuthority.json (decision : TerminalDecisionAuthority) : JsonTree :=
  record [("schemaVersion", .number 2), ("kind", ascii "exact-task-terminal-decision-authority-v2"),
    ("identity", decision.identity.json),
    ("evaluationReceipt", record (("verdict", decision.verdict.json) :: decision.evaluationReceipt.members)),
    ("finalizerReceipt", record (("state", .text decision.state) :: decision.finalizerReceipt.members))]

structure ExactTerminalAuthority where
  acceptedAuthority : AcceptedAuthority
  terminalResultAuthority : TerminalResultAuthority
  terminalDecisionAuthority : TerminalDecisionAuthority

def ExactTerminalAuthority.json (authority : ExactTerminalAuthority) : JsonTree :=
  record [("schemaVersion", .number 2), ("kind", ascii "exact-accepted-result-terminal-authority-v2"),
    ("acceptedAuthority", authority.acceptedAuthority.json),
    ("terminalResultAuthority", authority.terminalResultAuthority.json),
    ("terminalDecisionAuthority", authority.terminalDecisionAuthority.json)]

/-! ### The parser -/

def EXACT_AUTHORITY_LIMITS : PlainLimits where
  maxDepth := 12
  maxNodes := 4096
  maxKeys := 512
  maxObjectKeys := 64
  maxArrayLength := none
  maxTextBytes := 32 * 1024
  maxTotalBytes := 256 * 1024

def isExactCustodyIdentity (identity : CustodyIdentity) : Bool :=
  isHex64 identity.projectRootSha256 && identity.projectId ≠ [] && identity.taskId ≠ [] && identity.attemptId ≠ []
    && isPositiveSafeInteger identity.generation

def isExactAuthorityArtifact (artifact : AuthorityArtifact) : Bool :=
  isSha256Digest artifact.artifactReceiptDigest && isSha256Digest artifact.chainDigest
    && isSha256Digest artifact.artifactSha256 && isPositiveSafeInteger artifact.byteLength

def isExactArtifactRef (ref : ArtifactRef) (identity : CustodyIdentity) : Bool :=
  isExactCustodyIdentity ref.identity && ref.identity = identity && ref.artifactKey ≠ []
    && isSha256Digest ref.artifactReceiptDigest

def isExactAcceptedAuthorityMetadata (accepted : AcceptedAuthority) : Bool :=
  isExactCustodyIdentity accepted.identity && isSha256Digest accepted.admissionReceiptDigest
    && isExactArtifactRef accepted.acceptedResultRef accepted.identity
    && isSha256Digest accepted.acceptedResultChainDigest && isSha256Digest accepted.resultDigest

def isExactTerminalAuthorityMetadata (terminal : TerminalResultAuthority) : Bool :=
  isExactCustodyIdentity terminal.identity && isSha256Digest terminal.admissionReceiptDigest
    && isExactArtifactRef terminal.settlementRef terminal.identity && isSha256Digest terminal.settlementDigest
    && isSha256Digest terminal.resultDigest && isSha256Digest terminal.acceptedResultChainDigest
    && isSha256Digest terminal.evaluationChainDigest && isSha256Digest terminal.finalizerChainDigest
    && isExactAuthorityArtifact terminal.evaluationArtifact && isExactAuthorityArtifact terminal.finalizerArtifact

def repeatsArtifact (receipt artifact : AuthorityArtifact) (chainDigest : UnitText) : Bool :=
  receipt.artifactReceiptDigest = artifact.artifactReceiptDigest && receipt.artifactSha256 = artifact.artifactSha256
    && receipt.byteLength = artifact.byteLength && receipt.chainDigest = chainDigest
    && receipt.chainDigest = artifact.chainDigest

def isExactAcceptedResultTerminalAuthorityV2 (authority : ExactTerminalAuthority) (expected : AcceptedAuthority) : Bool :=
  let terminal := authority.terminalResultAuthority
  let decision := authority.terminalDecisionAuthority
  authority.json.isPlain EXACT_AUTHORITY_LIMITS && isExactAcceptedAuthorityMetadata authority.acceptedAuthority
    && authority.acceptedAuthority = expected && isExactTerminalAuthorityMetadata terminal
    && isExactCustodyIdentity decision.identity && terminal.identity = expected.identity
    && terminal.admissionReceiptDigest = expected.admissionReceiptDigest
    && terminal.acceptedResultChainDigest = expected.acceptedResultChainDigest
    && terminal.resultDigest = expected.resultDigest && terminal.settlementRef.identity = expected.identity
    && decision.identity = expected.identity
    && repeatsArtifact decision.evaluationReceipt terminal.evaluationArtifact terminal.evaluationChainDigest
    && decision.state = UnitText.ofAscii "terminal-ready"
    && repeatsArtifact decision.finalizerReceipt terminal.finalizerArtifact terminal.finalizerChainDigest

end Deckent.Terminal
