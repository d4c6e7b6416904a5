import Mathlib.Logic.Relation
import Deckent.Model.AcceptanceConfirmation

/-!
# The reconciliation store

The store is an append-only table of receipts. Each call is one immediate transaction, so calls of any
number of processes follow one another; a call that throws changes nothing. Legacy files are adopted
through the same append as every other input.

The payload of a row is the record that its text parses to.
-/

namespace Deckent.AcceptanceReconciliation

/-! ### Receipts -/

inductive AcceptanceReconciliationHoldReason where
  | conflictingDigest
  | corruptReceipt
  | missingPredecessor
  | predecessorMismatch
  | transactionConflict
  deriving DecidableEq

structure AcceptanceReconciliationEnvelope where
  sequence : Nat
  reconciliationKey : String
  tenantId : String
  projectId : String
  confirmationId : String
  state : AcceptanceConfirmationState
  predecessorDigest : Option String
  confirmationReceipt : AcceptanceConfirmationReceipt
  confirmationDigest : String
  debtProjectionDigest : String
  recordedAt : String
  deriving DecidableEq

structure AcceptanceReconciliationReceipt extends AcceptanceReconciliationEnvelope where
  receiptDigest : String
  deriving DecidableEq

structure AcceptanceReconciliationWrite where
  confirmationReceipt : Option AcceptanceConfirmationReceipt
  debtProjectionDigest : String
  appliedAt : Option String

inductive AcceptanceReconciliationWriteResult where
  | written (state : AcceptanceConfirmationState) (receipt : AcceptanceReconciliationReceipt)
  | replayed (receipt : AcceptanceReconciliationReceipt)
  | hold (reasonCode : AcceptanceReconciliationHoldReason) (message : String)
  deriving DecidableEq

inductive AcceptanceReconciliationReadResult where
  | found (receipt : AcceptanceReconciliationReceipt)
  | missing
  | hold (message : String)
  deriving DecidableEq

def keyFor (value : AcceptanceConfirmationReceipt) : String :=
  acceptanceConfirmationDigest [
    ("tenantId", quoteJson value.lineage.tenantId),
    ("projectId", quoteJson value.lineage.projectId),
    ("confirmationId", quoteJson value.confirmationId)]

def timeOf (value : AcceptanceConfirmationReceipt) (legacy : Option String) : String :=
  match value.application with
  | some application => application.appliedAt
  | none => legacy.getD value.preparedAt

def predecessorOf (value : AcceptanceConfirmationReceipt) : Option String :=
  value.application.map (·.preparedReceiptDigest)

def unsigned (sequence : Nat) (value : AcceptanceConfirmationReceipt) (debt : String) :
    AcceptanceReconciliationEnvelope where
  sequence := sequence
  reconciliationKey := keyFor value
  tenantId := value.lineage.tenantId
  projectId := value.lineage.projectId
  confirmationId := value.confirmationId
  state := value.state
  predecessorDigest := predecessorOf value
  confirmationReceipt := value
  confirmationDigest := sha256Hex value.json
  debtProjectionDigest := debt
  recordedAt := timeOf value none

def AcceptanceReconciliationEnvelope.digest (body : AcceptanceReconciliationEnvelope) : String :=
  acceptanceConfirmationDigest [
    ("schemaVersion", "1"),
    ("sequence", toString body.sequence),
    ("reconciliationKey", quoteJson body.reconciliationKey),
    ("tenantId", quoteJson body.tenantId),
    ("projectId", quoteJson body.projectId),
    ("confirmationId", quoteJson body.confirmationId),
    ("state", quoteJson body.state.text),
    ("predecessorDigest", (body.predecessorDigest.map quoteJson).getD "null"),
    ("confirmationReceipt", body.confirmationReceipt.json),
    ("confirmationDigest", quoteJson body.confirmationDigest),
    ("debtProjectionDigest", quoteJson body.debtProjectionDigest),
    ("recordedAt", quoteJson body.recordedAt)]

/-! ### Tables -/

structure Row where
  sequence : Nat
  reconciliationKey : String
  tenantId : String
  projectId : String
  confirmationId : String
  receiptState : AcceptanceConfirmationState
  predecessorDigest : Option String
  confirmation : AcceptanceConfirmationReceipt
  confirmationDigest : String
  debtProjectionDigest : String
  recordedAt : String
  receiptDigest : String
  deriving DecidableEq

structure LegacySource where
  sourcePath : String
  sourceDigest : String
  sourceBytes : List UInt8
  adoptedSequence : Option Nat
  validationError : Option String
  deriving DecidableEq

structure ReconciliationTables where
  receipts : List Row
  legacySources : List LegacySource
  deriving DecidableEq

def ReconciliationTables.empty : ReconciliationTables := ⟨[], []⟩

def corrupt (sequence : Nat) (detail : String) : AcceptanceReconciliationReadResult :=
  .hold s!"corrupt reconciliation row {sequence}: {detail}"

def readRow (row : Row) : AcceptanceReconciliationReadResult :=
  match validateAcceptanceConfirmationReceipt row.confirmation none with
  | .error _ => corrupt row.sequence "confirmation payload validation failed"
  | .ok value =>
      let body := unsigned row.sequence value row.debtProjectionDigest
      if row.reconciliationKey ≠ body.reconciliationKey ∨ row.tenantId ≠ body.tenantId
          ∨ row.projectId ≠ body.projectId ∨ row.confirmationId ≠ body.confirmationId
          ∨ row.receiptState ≠ body.state ∨ row.predecessorDigest ≠ body.predecessorDigest
          ∨ row.confirmationDigest ≠ body.confirmationDigest ∨ row.recordedAt ≠ body.recordedAt
          ∨ isSha256Text row.debtProjectionDigest = false ∨ body.digest ≠ row.receiptDigest then
        corrupt row.sequence "persisted receipt digest or envelope mismatch"
      else .found ⟨body, row.receiptDigest⟩

def selectReceipt (tables : ReconciliationTables) (key : String) (state : AcceptanceConfirmationState) :
    Option Row :=
  tables.receipts.find? fun row => row.reconciliationKey = key && row.receiptState = state

def read (tables : ReconciliationTables) (key : String) (state : AcceptanceConfirmationState) :
    AcceptanceReconciliationReadResult :=
  if isSha256Text key then
    match selectReceipt tables key state with
    | some row => readRow row
    | none => .missing
  else .hold "invalid reconciliation key"

def insertReceipt (tables : ReconciliationTables) (row : Row) : Except String ReconciliationTables :=
  if tables.receipts.all fun other => other.sequence ≠ row.sequence
      ∧ (other.reconciliationKey ≠ row.reconciliationKey ∨ other.receiptState ≠ row.receiptState)
      ∧ (other.tenantId ≠ row.tenantId ∨ other.projectId ≠ row.projectId
        ∨ other.confirmationId ≠ row.confirmationId ∨ other.receiptState ≠ row.receiptState) then
    .ok { tables with receipts := tables.receipts ++ [row] }
  else .error "UNIQUE constraint failed"

def nextSequence (tables : ReconciliationTables) : Nat :=
  (tables.receipts.map (·.sequence)).foldl max 0 + 1

/-! ### Writing -/

/-- What an `APPLIED` receipt wants of its predecessor. -/
def predecessorHold (tables : ReconciliationTables) (value : AcceptanceConfirmationReceipt)
    (debtProjectionDigest : String) : Option AcceptanceReconciliationWriteResult :=
  match value.application with
  | none => none
  | some application =>
      match selectReceipt tables (keyFor value) .prepared with
      | none =>
          some (.hold .missingPredecessor "APPLIED requires its durable PREPARED predecessor")
      | some predecessor =>
          match readRow predecessor with
          | .found receipt =>
              if receipt.confirmationReceipt.receiptDigest ≠ application.preparedReceiptDigest
                  ∨ receipt.debtProjectionDigest ≠ debtProjectionDigest then
                some (.hold .predecessorMismatch "APPLIED does not bind the stored PREPARED receipt")
              else none
          | _ =>
              some (.hold .corruptReceipt "stored PREPARED predecessor is missing or corrupt")

def newRow (sequence : Nat) (value : AcceptanceConfirmationReceipt)
    (input : AcceptanceReconciliationWrite) : Row where
  sequence := sequence
  reconciliationKey := keyFor value
  tenantId := value.lineage.tenantId
  projectId := value.lineage.projectId
  confirmationId := value.confirmationId
  receiptState := value.state
  predecessorDigest := predecessorOf value
  confirmation := value
  confirmationDigest := sha256Hex value.json
  debtProjectionDigest := input.debtProjectionDigest
  recordedAt := timeOf value input.appliedAt
  receiptDigest := (unsigned sequence value input.debtProjectionDigest).digest

def appendOne (tables : ReconciliationTables) (input : AcceptanceReconciliationWrite) :
    Except String (AcceptanceReconciliationWriteResult × ReconciliationTables) := do
  match validateAcceptanceConfirmationReceipt input.confirmationReceipt none,
      isSha256Text input.debtProjectionDigest with
  | .ok value, true =>
      match selectReceipt tables (keyFor value) value.state with
      | some existing =>
          match readRow existing with
          | .found receipt =>
              if receipt.receiptDigest
                  = (unsigned existing.sequence value input.debtProjectionDigest).digest then
                return (.replayed receipt, tables)
              return (.hold .conflictingDigest "first writer already owns this confirmation state",
                tables)
          | _ =>
              return (.hold .corruptReceipt "stored reconciliation receipt is missing or corrupt",
                tables)
      | none =>
          match predecessorHold tables value input.debtProjectionDigest with
          | some hold => return (hold, tables)
          | none =>
              let sequence := nextSequence tables
              let row := newRow sequence value input
              let tables ← insertReceipt tables row
              let body := unsigned sequence value input.debtProjectionDigest
              return (.written value.state ⟨body, row.receiptDigest⟩, tables)
  | _, _ => return (.hold .corruptReceipt "reconciliation input is invalid", tables)

inductive BatchEnd where
  | hold (reasonCode : AcceptanceReconciliationHoldReason) (message : String)
  | thrown (message : String)

def appendAll : ReconciliationTables → List AcceptanceReconciliationWrite →
    Except BatchEnd (List AcceptanceReconciliationWriteResult × ReconciliationTables)
  | tables, [] => .ok ([], tables)
  | tables, input :: rest =>
      match appendOne tables input with
      | .error message => .error (.thrown message)
      | .ok (.hold reasonCode message, _) => .error (.hold reasonCode message)
      | .ok (result, tables) =>
          match appendAll tables rest with
          | .error ended => .error ended
          | .ok (results, tables) => .ok (result :: results, tables)

def appendBatch (tables : ReconciliationTables) (inputs : List AcceptanceReconciliationWrite) :
    Except String (List AcceptanceReconciliationWriteResult × ReconciliationTables) :=
  match appendAll tables inputs with
  | .ok done => .ok done
  | .error (.hold reasonCode message) =>
      .ok (inputs.map fun _ => .hold reasonCode s!"transaction rolled back: {message}", tables)
  | .error (.thrown message) => .error message

/-! ### Adopting legacy receipts -/

structure LegacyEnvelope where
  confirmationReceipt : Option AcceptanceConfirmationReceipt
  debtProjectionDigest : Option String
  appliedAt : Option String

structure LegacyFile where
  name : String
  bytes : List UInt8
  envelope : Except String LegacyEnvelope

def adoptEnvelope (tables : ReconciliationTables) (envelope : Except String LegacyEnvelope) :
    Except String Nat × ReconciliationTables :=
  match envelope with
  | .error message => (.error message, tables)
  | .ok envelope =>
      match validateAcceptanceConfirmationReceipt envelope.confirmationReceipt none,
          envelope.debtProjectionDigest.filter isSha256Text with
      | .ok value, some debtProjectionDigest =>
          match appendOne tables ⟨value, debtProjectionDigest, envelope.appliedAt⟩ with
          | .error message => (.error message, tables)
          | .ok (.hold _ message, tables) => (.error message, tables)
          | .ok (.replayed receipt, tables) => (.ok receipt.sequence, tables)
          | .ok (.written _ receipt, tables) => (.ok receipt.sequence, tables)
      | _, _ => (.error "legacy receipt payload is invalid", tables)

structure AcceptanceReconciliationAdoptionResult where
  discovered : Nat
  adopted : Nat
  replayed : Nat
  invalid : Nat
  deriving DecidableEq

def LegacyFile.path (directory : String) (file : LegacyFile) : String := directory ++ "/" ++ file.name

def LegacyFile.sourceDigest (file : LegacyFile) : String := (Sha256.digest file.bytes).hex

def knownSource (directory : String) (tables : ReconciliationTables) (file : LegacyFile) : Bool :=
  tables.legacySources.any fun row =>
    row.sourcePath = file.path directory && row.sourceDigest = file.sourceDigest

/-- One file of the adoption. -/
def adoptFile (directory : String)
    (state : AcceptanceReconciliationAdoptionResult × ReconciliationTables) (file : LegacyFile) :
    AcceptanceReconciliationAdoptionResult × ReconciliationTables :=
  let (counts, tables) := state
  if knownSource directory tables file then
    ({ counts with replayed := counts.replayed + 1 }, tables)
  else
    let (outcome, tables) := adoptEnvelope tables file.envelope
    let (counts, sequence, problem) := match outcome with
      | .ok sequence => ({ counts with adopted := counts.adopted + 1 }, some sequence, none)
      | .error problem => ({ counts with invalid := counts.invalid + 1 }, none, some problem)
    (counts, {
      tables with
      legacySources := tables.legacySources
        ++ [⟨file.path directory, file.sourceDigest, file.bytes, sequence, problem⟩] })

def legacyFiles (files : List LegacyFile) : List LegacyFile :=
  sortBy (fun left right => compareCodePoint left.name right.name)
    (files.filter fun file => file.name.endsWith ".json")

def adoptLegacyReceipts (tables : ReconciliationTables) (directory : String)
    (files : Option (List LegacyFile)) :
    AcceptanceReconciliationAdoptionResult × ReconciliationTables :=
  let files := legacyFiles (files.getD [])
  files.foldl (adoptFile directory) (⟨files.length, 0, 0, 0⟩, tables)

/-! ### Pages -/

structure AcceptanceReconciliationCursor where
  tenantId : String
  projectId : Option String
  afterSequence : Option JsNumber
  limit : Option JsNumber

structure AcceptanceReconciliationCursorPage where
  receipts : List AcceptanceReconciliationReadResult
  nextSequence : Option Nat
  deriving DecidableEq

def AcceptanceReconciliationCursor.covers (cursor : AcceptanceReconciliationCursor) (row : Row) : Bool :=
  row.tenantId = cursor.tenantId && cursor.projectId.all (row.projectId = ·)

def selectPage (tables : ReconciliationTables) (cursor : AcceptanceReconciliationCursor)
    (after limit : Int) : List Row :=
  (sortBy (fun left right => compareNumber left.sequence right.sequence)
    (tables.receipts.filter fun row => cursor.covers row && after < row.sequence)).take limit.toNat

def readTenantPage (tables : ReconciliationTables) (cursor : AcceptanceReconciliationCursor) :
    Except String AcceptanceReconciliationCursorPage :=
  match (cursor.afterSequence.getD (.finite 0)).toSafeInteger?,
      (cursor.limit.getD (.finite 100)).toSafeInteger? with
  | some after, some limit =>
      if cursor.tenantId = "" ∨ after < 0 ∨ limit < 1 ∨ 1000 < limit then
        .error "invalid tenant cursor"
      else
        let rows := selectPage tables cursor after limit
        .ok ⟨rows.map readRow, rows.getLast?.map (·.sequence)⟩
  | _, _ => .error "invalid tenant cursor"

/-! ### Runs -/

inductive ReconciliationCall where
  | append (input : AcceptanceReconciliationWrite)
  | appendBatch (inputs : List AcceptanceReconciliationWrite)
  | adoptLegacyReceipts (directory : String) (files : Option (List LegacyFile))

/-- The tables that a call leaves. -/
def ReconciliationCall.perform (tables : ReconciliationTables) :
    ReconciliationCall → ReconciliationTables
  | append input =>
      match AcceptanceReconciliation.appendBatch tables [input] with
      | .ok (_, next) => next
      | .error _ => tables
  | appendBatch inputs =>
      match AcceptanceReconciliation.appendBatch tables inputs with
      | .ok (_, next) => next
      | .error _ => tables
  | adoptLegacyReceipts directory files =>
      (AcceptanceReconciliation.adoptLegacyReceipts tables directory files).2

end Deckent.AcceptanceReconciliation
