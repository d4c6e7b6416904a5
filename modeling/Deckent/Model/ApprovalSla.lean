import Deckent.Lib.Sha256
import Deckent.Lib.StableSort
import Deckent.Model.ApprovalLifecycle

/-!
# Reminders of an approval

A request is brought up again at three offsets from its creation and ends when it expires. A cursor says which
stages have been audited, and one event at most is sent at a time. The journal keeps the cursor in one file for
each stage and one for each acknowledgement, none of which is ever replaced.

An instant in a piece of evidence stands for its text. How a text is read as an instant is a parameter.
-/

namespace Deckent.ApprovalSla

open ApprovalLifecycle (SlaOffsets)

/-! ### Requests and evidence -/

inductive ApprovalSlaStage where
  | initial
  | renotify
  | alternateChannel
  | parkAlert
  | expired
  deriving DecidableEq

def ApprovalSlaStage.text : ApprovalSlaStage → String
  | initial => "initial"
  | renotify => "renotify"
  | alternateChannel => "alternate-channel"
  | parkAlert => "park-alert"
  | expired => "expired"

inductive ApprovalSlaEvidenceKind where
  | due
  | skipped
  | expired
  deriving DecidableEq

structure ApprovalSlaPolicy where
  slaMs : JsNumber × JsNumber × JsNumber
  authoredPolicyDigest : String
  appliedPolicyDigest : String

structure ApprovalSlaState where
  requestId : String
  lifecycleGeneration : String
  createdAt : String
  expiresAt : String
  lastAuditOrdinal : Int
  lastOutboundOrdinal : Int
  terminal : Bool
  deriving DecidableEq

structure ApprovalSlaEvidence where
  eventId : String
  requestId : String
  lifecycleGeneration : String
  stage : ApprovalSlaStage
  ordinal : Nat
  kind : ApprovalSlaEvidenceKind
  dueAt : Int
  observedAt : Int
  authoredPolicyDigest : String
  appliedPolicyDigest : String
  reasonCode : Option String
  deriving DecidableEq

/-- `AdvanceApprovalSlaInput` without the clock and the state. -/
structure SlaRequest where
  requestId : String
  lifecycleGeneration : String
  createdAt : String
  expiresAt : String
  policy : ApprovalSlaPolicy

structure AdvanceApprovalSlaResult where
  state : ApprovalSlaState
  audit : List ApprovalSlaEvidence
  outbound : List ApprovalSlaEvidence

section Advance

-- `Date.parse`, where `none` is `NaN`.
variable (parseDate : String → Option Int)

/-- What `validateInput` returns, and the offsets that it has checked. -/
structure SlaInstants where
  createdAtMs : Int
  expiresAtMs : Int
  nowMs : Int
  slaMs : SlaOffsets

def requireSla (condition : Bool) (message : String) : Except String Unit :=
  if condition then .ok () else .error message

def parseInstant (value field : String) : Except String Int :=
  match parseDate value with
  | some instant => .ok instant
  | none => .error (field ++ " must be a valid ISO instant")

def isSha256Digest (value : String) : Bool :=
  value.toList.length = 64 && value.toList.all fun c => c.isDigit || ('a' ≤ c && c ≤ 'f')

def assertDigest (value field : String) : Except String Unit :=
  requireSla (isSha256Digest value) (field ++ " must be a lowercase SHA-256 digest")

def parseOffsets (slaMs : JsNumber × JsNumber × JsNumber) : Option SlaOffsets :=
  match slaMs.1.toPositive?, slaMs.2.1.toPositive?, slaMs.2.2.toPositive? with
  | some first, some second, some third =>
      if first < second ∧ second < third then some ⟨first, second, third⟩ else none
  | _, _, _ => none

def SlaRequest.owns (request : SlaRequest) (state : ApprovalSlaState) : Bool :=
  state.requestId = request.requestId && state.lifecycleGeneration = request.lifecycleGeneration
    && state.createdAt = request.createdAt && state.expiresAt = request.expiresAt

/-- The clock reads `none` where its date is not valid. -/
def validateInput (request : SlaRequest) (clock : Option Int) (state : Option ApprovalSlaState) :
    Except String SlaInstants := do
  requireSla (request.requestId ≠ "") "requestId is required"
  requireSla (1 ≤ (utf16 request.lifecycleGeneration).length && (utf16 request.lifecycleGeneration).length ≤ 128)
    "lifecycleGeneration must be a non-empty string of at most 128 characters"
  let createdAtMs ← parseInstant parseDate request.createdAt "createdAt"
  let expiresAtMs ← parseInstant parseDate request.expiresAt "expiresAt"
  let nowMs ← clock.elim (.error "clock.now() must be valid") .ok
  requireSla (createdAtMs < expiresAtMs) "expiresAt must be after createdAt"
  let slaMs ← (parseOffsets request.policy.slaMs).elim
    (.error "slaMs must contain three positive, strictly increasing integer offsets") .ok
  assertDigest request.policy.authoredPolicyDigest "authoredPolicyDigest"
  assertDigest request.policy.appliedPolicyDigest "appliedPolicyDigest"
  requireSla (state.all request.owns) "persisted SLA state lineage mismatch"
  return ⟨createdAtMs, expiresAtMs, nowMs, slaMs⟩

def approvalSlaEventId (requestId lifecycleGeneration : String) (stage : ApprovalSlaStage) : String :=
  "approval-sla:" ++ sha256Hex (requestId ++ "\x00" ++ lifecycleGeneration ++ "\x00" ++ stage.text)

def maxTimeMs : Nat := 8640000000000000

def isoInstant (ms : Int) : Except String Int :=
  if ms.natAbs ≤ maxTimeMs then .ok ms else .error "Invalid time value"

def evidence (request : SlaRequest) (stage : ApprovalSlaStage) (ordinal : Nat) (kind : ApprovalSlaEvidenceKind)
    (dueAtMs observedAtMs : Int) (reasonCode : Option String) : Except String ApprovalSlaEvidence := do
  let dueAt ← isoInstant dueAtMs
  let observedAt ← isoInstant observedAtMs
  return {
    eventId := approvalSlaEventId request.requestId request.lifecycleGeneration stage
    requestId := request.requestId
    lifecycleGeneration := request.lifecycleGeneration
    stage := stage
    ordinal := ordinal
    kind := kind
    dueAt := dueAt
    observedAt := observedAt
    authoredPolicyDigest := request.policy.authoredPolicyDigest
    appliedPolicyDigest := request.policy.appliedPolicyDigest
    reasonCode := reasonCode }

structure TimedStage where
  stage : ApprovalSlaStage
  ordinal : Nat
  dueAtMs : Int

def SlaInstants.timed (instants : SlaInstants) : List TimedStage := [
  ⟨.renotify, 1, instants.createdAtMs + instants.slaMs.first⟩,
  ⟨.alternateChannel, 2, instants.createdAtMs + instants.slaMs.second⟩,
  ⟨.parkAlert, 3, instants.createdAtMs + instants.slaMs.third⟩]

structure Crossing where
  evidence : ApprovalSlaEvidence
  isActionable : Bool

def crossOne (request : SlaRequest) (instants : SlaInstants) (current : ApprovalSlaState) (item : TimedStage) :
    Except String (List Crossing) :=
  if (item.ordinal : Int) ≤ current.lastAuditOrdinal then .ok []
  else if instants.expiresAtMs ≤ item.dueAtMs then
    (evidence request item.stage item.ordinal .skipped item.dueAtMs instants.nowMs
      (some "effective-expiry-precedes-stage")).map fun skipped => [⟨skipped, false⟩]
  else if item.dueAtMs ≤ instants.nowMs then
    (evidence request item.stage item.ordinal .due item.dueAtMs instants.nowMs none).map fun due =>
      [⟨due, current.lastOutboundOrdinal < item.ordinal⟩]
  else .ok []

def crossTimed (request : SlaRequest) (instants : SlaInstants) (current : ApprovalSlaState) :
    List TimedStage → Except String (List Crossing)
  | [] => .ok []
  | item :: rest => do
      let crossing ← crossOne request instants current item
      let crossings ← crossTimed request instants current rest
      return crossing ++ crossings

def crossInitial (request : SlaRequest) (instants : SlaInstants) (current : ApprovalSlaState) :
    Except String (List Crossing) :=
  if current.lastAuditOrdinal < 0 then
    (evidence request .initial 0 .due instants.createdAtMs instants.nowMs none).map fun initial =>
      [⟨initial, current.lastOutboundOrdinal < 0 && instants.nowMs < instants.expiresAtMs⟩]
  else .ok []

def highest (found : Option ApprovalSlaEvidence) (item : ApprovalSlaEvidence) : Option ApprovalSlaEvidence :=
  match found with
  | none => some item
  | some value => if value.ordinal < item.ordinal then some item else some value

def SlaRequest.freshState (request : SlaRequest) : ApprovalSlaState where
  requestId := request.requestId
  lifecycleGeneration := request.lifecycleGeneration
  createdAt := request.createdAt
  expiresAt := request.expiresAt
  lastAuditOrdinal := -1
  lastOutboundOrdinal := -1
  terminal := false

def advanceApprovalSla (request : SlaRequest) (clock : Option Int) (state : Option ApprovalSlaState) :
    Except String AdvanceApprovalSlaResult := do
  let instants ← validateInput parseDate request clock state
  let current := state.getD request.freshState
  if current.terminal then return ⟨current, [], []⟩
  let initial ← crossInitial request instants current
  let timed ← crossTimed request instants current instants.timed
  let audit := (initial ++ timed).map (·.evidence)
  if instants.expiresAtMs ≤ instants.nowMs ∧ current.lastAuditOrdinal < 4 then
    let expired ← evidence request .expired 4 .expired instants.expiresAtMs instants.nowMs none
    return {
      state := { current with lastAuditOrdinal := 4, lastOutboundOrdinal := 4, terminal := true }
      audit := audit ++ [expired]
      outbound := if current.lastOutboundOrdinal < 4 then [expired] else [] }
  let highestAudit := audit.foldl (fun value item => max value (item.ordinal : Int)) current.lastAuditOrdinal
  let highestActionable := (((initial ++ timed).filter (·.isActionable)).map (·.evidence)).foldl highest none
  return {
    state := { current with
      lastAuditOrdinal := highestAudit
      lastOutboundOrdinal := (highestActionable.map fun item => (item.ordinal : Int)).getD
        current.lastOutboundOrdinal }
    audit := audit
    outbound := highestActionable.toList }

/-! ### The journal -/

structure JournalFiles where
  events : List (Nat × ApprovalSlaEvidence)
  acks : List Nat

def lastOrdinal (ordinals : List Nat) : Int :=
  ordinals.foldl (fun value (ordinal : Nat) => max value (ordinal : Int)) (-1)

def JournalFiles.readEvent (files : JournalFiles) (ordinal : Nat) : Option ApprovalSlaEvidence :=
  files.events.lookup ordinal

def JournalFiles.writeEvent (files : JournalFiles) (item : ApprovalSlaEvidence) : JournalFiles :=
  if (files.readEvent item.ordinal).isSome then files
  else { files with events := files.events ++ [(item.ordinal, item)] }

/-- The state that `advance` reads from the files. -/
def JournalFiles.state (files : JournalFiles) (request : SlaRequest) : ApprovalSlaState :=
  let lastAudit := lastOrdinal (files.events.map Prod.fst)
  let lastAck := lastOrdinal files.acks
  { request.freshState with
    lastAuditOrdinal := lastAudit
    lastOutboundOrdinal := lastAck
    terminal := 4 ≤ lastAudit && 4 ≤ lastAck }

def JournalFiles.retryable (files : JournalFiles) (audit : List ApprovalSlaEvidence) :
    Option ApprovalSlaEvidence :=
  let written := audit.foldl JournalFiles.writeEvent files
  let ordinals := (files.events.map Prod.fst ++ audit.map (·.ordinal)).filter fun (ordinal : Nat) =>
    lastOrdinal files.acks < ordinal
  let items := (ordinals.filterMap fun ordinal =>
    (audit.find? (·.ordinal = ordinal)).or (written.readEvent ordinal)).filter (·.kind ≠ .skipped)
  (sortBy (fun left right => (right.ordinal : Int) - left.ordinal) items).head?

/-- What `advance` writes, one file after the other, and what it returns. -/
def JournalFiles.advance (files : JournalFiles) (request : SlaRequest) (clock : Option Int) :
    Except String AdvanceApprovalSlaResult := do
  let result ← advanceApprovalSla parseDate request clock (some (files.state request))
  return { result with outbound := (files.retryable result.audit).toList }

def JournalFiles.acknowledge (files : JournalFiles) (item : ApprovalSlaEvidence) : Except String JournalFiles :=
  if (files.readEvent item.ordinal).all (·.eventId ≠ item.eventId) then
    .error "cannot acknowledge an SLA event that is not durably journaled"
  else if files.acks.contains item.ordinal then .ok files
  else .ok { files with acks := files.acks ++ [item.ordinal] }

end Advance

end Deckent.ApprovalSla
