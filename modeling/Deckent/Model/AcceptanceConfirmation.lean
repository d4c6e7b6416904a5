import Deckent.Model.CanonicalJson

/-!
# Acceptance confirmation receipts

A terminal event decides a confirmation, whose id is the digest of its lineage. A receipt repeats the
event; it is prepared first, and the applied one names the digest of the prepared one. Every record
carries the digest of its own canonical text.

A value that does not have the members of a record, with the types and the constants that they have,
is no record at all. What is left to check of a record are the formats of its texts and its digests.
-/

namespace Deckent

/-! ### Formats -/

def isIdentifierEdge (c : Char) : Bool := c.isAlphanum

def isIdentifierChar (c : Char) : Bool := c.isAlphanum || "._:-".toList.contains c

def isConfirmationIdentifier (text : String) : Bool :=
  1 ≤ text.length && text.length ≤ 200 && text.toList.all isIdentifierChar
    && text.toList.head?.any isIdentifierEdge && text.toList.getLast?.any isIdentifierEdge

def decimal? (digits : List Char) : Option Nat :=
  if digits.all Char.isDigit then
    some (digits.foldl (fun value c => value * 10 + (c.toNat - 48)) 0)
  else none

def isLeapYear (year : Int) : Bool :=
  year % 4 = 0 && (year % 100 ≠ 0 || year % 400 = 0)

def daysInMonth (year : Int) (month : Nat) : Nat :=
  if month = 2 then (if isLeapYear year then 29 else 28)
  else if [4, 6, 9, 11].contains month then 30
  else 31

def timestampYear? (text : List Char) : Option (Int × List Char) := do
  match text with
  | '+' :: rest =>
      let year ← decimal? (rest.take 6)
      if 9999 < year then some ((year : Int), rest.drop 6) else none
  | '-' :: rest =>
      let year ← decimal? (rest.take 6)
      if 0 < year then some (-(year : Int), rest.drop 6) else none
  | _ =>
      let year ← decimal? (text.take 4)
      some ((year : Int), text.drop 4)

/-- `new Date(value).toISOString() === value`: the text of a date in the range of `Date`. -/
def isUtcTimestamp (value : String) : Bool :=
  ((timestampYear? value.toList).bind fun (year, rest) =>
    match rest with
    | ['-', m, m', '-', d, d', 'T', h, h', ':', i, i', ':', s, s', '.', f, f', f'', 'Z'] => do
        let month ← decimal? [m, m']
        let day ← decimal? [d, d']
        let hour ← decimal? [h, h']
        let minute ← decimal? [i, i']
        let second ← decimal? [s, s']
        let fraction ← decimal? [f, f', f'']
        let time := ((hour * 60 + minute) * 60 + second) * 1000 + fraction
        let date := (year * 100 + month) * 100 + day
        some (decide (1 ≤ month ∧ month ≤ 12 ∧ 1 ≤ day ∧ day ≤ daysInMonth year month
          ∧ hour ≤ 23 ∧ minute ≤ 59 ∧ second ≤ 59
          ∧ (-271821 * 100 + 4) * 100 + 20 ≤ date
          ∧ (date < (275760 * 100 + 9) * 100 + 13 ∨ (date = (275760 * 100 + 9) * 100 + 13 ∧ time = 0))))
    | _ => none).getD false

/-! ### Records -/

structure AcceptanceConfirmationLineage where
  tenantId : String
  projectId : String
  sprintId : String
  taskId : String
  attemptId : String
  generation : Int
  evaluationDigest : String
  resultDigest : String
  policyDigest : String
  sourceDigest : String
  deriving DecidableEq

inductive AcceptanceConfirmationDecision where
  | accepted
  | rejected
  deriving DecidableEq

def AcceptanceConfirmationDecision.text : AcceptanceConfirmationDecision → String
  | accepted => "ACCEPTED"
  | rejected => "REJECTED"

structure AcceptanceConfirmationTerminalEvent where
  confirmationId : String
  lineage : AcceptanceConfirmationLineage
  decision : AcceptanceConfirmationDecision
  terminalAt : String
  eventDigest : String
  deriving DecidableEq

structure AcceptanceConfirmationApplication where
  appliedAt : String
  preparedReceiptDigest : String
  deriving DecidableEq

structure AcceptanceConfirmationReceipt where
  confirmationId : String
  lineage : AcceptanceConfirmationLineage
  terminalEvent : AcceptanceConfirmationTerminalEvent
  preparedAt : String
  application : Option AcceptanceConfirmationApplication
  receiptDigest : String
  deriving DecidableEq

inductive AcceptanceConfirmationState where
  | prepared
  | applied
  deriving DecidableEq

def AcceptanceConfirmationState.text : AcceptanceConfirmationState → String
  | prepared => "PREPARED"
  | applied => "APPLIED"

def AcceptanceConfirmationReceipt.state (receipt : AcceptanceConfirmationReceipt) :
    AcceptanceConfirmationState :=
  match receipt.application with
  | none => .prepared
  | some _ => .applied

/-! ### Canonical texts -/

def AcceptanceConfirmationLineage.json (lineage : AcceptanceConfirmationLineage) : String :=
  canonicalObject [
    ("tenantId", quoteJson lineage.tenantId),
    ("projectId", quoteJson lineage.projectId),
    ("sprintId", quoteJson lineage.sprintId),
    ("taskId", quoteJson lineage.taskId),
    ("attemptId", quoteJson lineage.attemptId),
    ("generation", toString lineage.generation),
    ("evaluationDigest", quoteJson lineage.evaluationDigest),
    ("resultDigest", quoteJson lineage.resultDigest),
    ("policyDigest", quoteJson lineage.policyDigest),
    ("sourceDigest", quoteJson lineage.sourceDigest)]

def AcceptanceConfirmationTerminalEvent.unsigned (event : AcceptanceConfirmationTerminalEvent) :
    List (String × String) := [
  ("schemaVersion", "2"),
  ("type", quoteJson "ACCEPTANCE_CONFIRMATION_TERMINAL"),
  ("confirmationId", quoteJson event.confirmationId),
  ("lineage", event.lineage.json),
  ("decision", quoteJson event.decision.text),
  ("terminalAt", quoteJson event.terminalAt)]

def AcceptanceConfirmationTerminalEvent.json (event : AcceptanceConfirmationTerminalEvent) : String :=
  canonicalObject (event.unsigned ++ [("eventDigest", quoteJson event.eventDigest)])

def AcceptanceConfirmationReceipt.unsigned (receipt : AcceptanceConfirmationReceipt) :
    List (String × String) := [
  ("schemaVersion", "2"),
  ("state", quoteJson receipt.state.text),
  ("confirmationId", quoteJson receipt.confirmationId),
  ("lineage", receipt.lineage.json),
  ("terminalEvent", receipt.terminalEvent.json),
  ("preparedAt", quoteJson receipt.preparedAt)]
  ++ (match receipt.application with
    | none => []
    | some application => [
        ("appliedAt", quoteJson application.appliedAt),
        ("preparedReceiptDigest", quoteJson application.preparedReceiptDigest)])

def AcceptanceConfirmationReceipt.json (receipt : AcceptanceConfirmationReceipt) : String :=
  canonicalObject (receipt.unsigned ++ [("receiptDigest", quoteJson receipt.receiptDigest)])

def acceptanceConfirmationDigest (members : List (String × String)) : String :=
  sha256Hex (canonicalObject members)

/-! ### Checks -/

inductive AcceptanceConfirmationConflictReasonCode where
  | lineageInvalid
  | terminalEventInvalid
  | receiptInvalid
  | confirmationIdMismatch
  | identityMismatch
  | evaluationDigestMismatch
  | resultDigestMismatch
  | policyDigestMismatch
  | sourceDigestMismatch
  | eventDigestMismatch
  | receiptDigestMismatch
  | stateTransitionInvalid
  deriving DecidableEq

structure AcceptanceConfirmationContractError where
  reasonCode : AcceptanceConfirmationConflictReasonCode
  message : String
  deriving DecidableEq

abbrev AcceptanceConfirmationResult (α : Type) := Except AcceptanceConfirmationContractError α

def confirmationRequire (holds : Bool) (reasonCode : AcceptanceConfirmationConflictReasonCode)
    (message : String) : AcceptanceConfirmationResult Unit :=
  if holds then .ok () else .error ⟨reasonCode, message⟩

/-- `AcceptanceConfirmationLineageSchema`. -/
def AcceptanceConfirmationLineage.wellFormed (lineage : AcceptanceConfirmationLineage) : Bool :=
  [lineage.tenantId, lineage.projectId, lineage.sprintId, lineage.taskId, lineage.attemptId].all
      isConfirmationIdentifier
    && (0 ≤ lineage.generation && lineage.generation < 2 ^ 53)
    && [lineage.evaluationDigest, lineage.resultDigest, lineage.policyDigest, lineage.sourceDigest].all
      isSha256Text

/-- `AcceptanceConfirmationTerminalEventSchema`. -/
def AcceptanceConfirmationTerminalEvent.wellFormed (event : AcceptanceConfirmationTerminalEvent) :
    Bool :=
  isSha256Text event.confirmationId && event.lineage.wellFormed && isUtcTimestamp event.terminalAt
    && isSha256Text event.eventDigest

/-- `AcceptanceConfirmationReceiptSchema`. -/
def AcceptanceConfirmationReceipt.wellFormed (receipt : AcceptanceConfirmationReceipt) : Bool :=
  isSha256Text receipt.confirmationId && receipt.lineage.wellFormed && receipt.terminalEvent.wellFormed
    && isUtcTimestamp receipt.preparedAt
    && receipt.application.all (fun application =>
      isUtcTimestamp application.appliedAt && isSha256Text application.preparedReceiptDigest)
    && isSha256Text receipt.receiptDigest

def parseAcceptanceConfirmationLineage (value : Option AcceptanceConfirmationLineage) :
    AcceptanceConfirmationResult AcceptanceConfirmationLineage :=
  match value.filter (·.wellFormed) with
  | some lineage => .ok lineage
  | none => .error ⟨.lineageInvalid, "acceptance confirmation lineage is invalid"⟩

def deriveAcceptanceConfirmationId (lineage : AcceptanceConfirmationLineage) : String :=
  acceptanceConfirmationDigest [
    ("domain", quoteJson "deckent.acceptance-confirmation.v2"),
    ("lineage", lineage.json)]

def confirmationConflict (actual expected : AcceptanceConfirmationLineage) :
    Option AcceptanceConfirmationConflictReasonCode :=
  if actual.tenantId ≠ expected.tenantId ∨ actual.projectId ≠ expected.projectId
      ∨ actual.sprintId ≠ expected.sprintId ∨ actual.taskId ≠ expected.taskId
      ∨ actual.attemptId ≠ expected.attemptId ∨ actual.generation ≠ expected.generation then
    some .identityMismatch
  else if actual.evaluationDigest ≠ expected.evaluationDigest then some .evaluationDigestMismatch
  else if actual.resultDigest ≠ expected.resultDigest then some .resultDigestMismatch
  else if actual.policyDigest ≠ expected.policyDigest then some .policyDigestMismatch
  else if actual.sourceDigest ≠ expected.sourceDigest then some .sourceDigestMismatch
  else none

def requireConfirmationLineage (actual : AcceptanceConfirmationLineage)
    (expected : Option AcceptanceConfirmationLineage) (message : String) :
    AcceptanceConfirmationResult Unit := do
  let expected ← parseAcceptanceConfirmationLineage expected
  match confirmationConflict actual expected with
  | some mismatch => .error ⟨mismatch, message⟩
  | none => .ok ()

def verifyAcceptanceConfirmationTerminalEvent (value : Option AcceptanceConfirmationTerminalEvent)
    (expectedLineage : Option (Option AcceptanceConfirmationLineage)) :
    AcceptanceConfirmationResult AcceptanceConfirmationTerminalEvent := do
  match value.filter (·.wellFormed) with
  | none => .error ⟨.terminalEventInvalid, "acceptance confirmation terminal event is invalid"⟩
  | some event =>
      confirmationRequire (deriveAcceptanceConfirmationId event.lineage = event.confirmationId)
        .confirmationIdMismatch "terminal event confirmation id does not bind its lineage"
      confirmationRequire (acceptanceConfirmationDigest event.unsigned = event.eventDigest)
        .eventDigestMismatch "terminal event digest does not match canonical event bytes"
      match expectedLineage with
      | some expected =>
          requireConfirmationLineage event.lineage expected
            "terminal event lineage does not match expected lineage"
      | none => pure ()
      return event

def validateAcceptanceConfirmationReceipt (value : Option AcceptanceConfirmationReceipt)
    (expectedLineage : Option (Option AcceptanceConfirmationLineage)) :
    AcceptanceConfirmationResult AcceptanceConfirmationReceipt := do
  match value.filter (·.wellFormed) with
  | none => .error ⟨.receiptInvalid, "acceptance confirmation receipt is invalid"⟩
  | some receipt =>
      let event ← verifyAcceptanceConfirmationTerminalEvent receipt.terminalEvent
        (some receipt.lineage)
      confirmationRequire (receipt.confirmationId = event.confirmationId)
        .confirmationIdMismatch "receipt confirmation id does not match terminal event"
      match expectedLineage with
      | some expected =>
          requireConfirmationLineage receipt.lineage expected
            "receipt lineage does not match expected lineage"
      | none => pure ()
      confirmationRequire (acceptanceConfirmationDigest receipt.unsigned = receipt.receiptDigest)
        .receiptDigestMismatch "receipt digest does not match canonical receipt bytes"
      return receipt

/-! ### Making records -/

def createAcceptanceConfirmationTerminalEvent (lineage : Option AcceptanceConfirmationLineage)
    (decision : AcceptanceConfirmationDecision) (terminalAt : String) :
    AcceptanceConfirmationResult AcceptanceConfirmationTerminalEvent := do
  let lineage ← parseAcceptanceConfirmationLineage lineage
  let unsigned : AcceptanceConfirmationTerminalEvent := {
    confirmationId := deriveAcceptanceConfirmationId lineage
    lineage := lineage
    decision := decision
    terminalAt := terminalAt
    eventDigest := "" }
  let event := { unsigned with eventDigest := acceptanceConfirmationDigest unsigned.unsigned }
  confirmationRequire event.wellFormed .terminalEventInvalid
    "acceptance confirmation terminal event is invalid"
  return event

def prepareAcceptanceConfirmationReceipt (terminalEvent : Option AcceptanceConfirmationTerminalEvent)
    (preparedAt : String) (expectedLineage : Option (Option AcceptanceConfirmationLineage)) :
    AcceptanceConfirmationResult AcceptanceConfirmationReceipt := do
  let event ← verifyAcceptanceConfirmationTerminalEvent terminalEvent expectedLineage
  let unsigned : AcceptanceConfirmationReceipt := {
    confirmationId := event.confirmationId
    lineage := event.lineage
    terminalEvent := event
    preparedAt := preparedAt
    application := none
    receiptDigest := "" }
  let receipt := { unsigned with receiptDigest := acceptanceConfirmationDigest unsigned.unsigned }
  confirmationRequire receipt.wellFormed .receiptInvalid
    "prepared acceptance confirmation receipt is invalid"
  return receipt

end Deckent
