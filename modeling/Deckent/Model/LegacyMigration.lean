import Deckent.Model.RunFlowStore

/-!
# The import of legacy event logs

A store that finds event logs of the time before the database imports them once. Each line becomes a row
under the sequence that it carries, or under the next free one, unless that sequence is taken. From the
imported rows the table of commands is then rebuilt, one row for each command id.

A line is given as its parser leaves it. The texts that the runtime adds to an issue are left out, and a
`sequence` that is no positive safe integer is not kept with the event.
-/

namespace Deckent.RunFlow

structure LegacyRecord where
  flowId : Option String
  sequence : Option JsNumber := none
  commandId : Option String := none
  timestamp : String := ""
  /-- The members that its `type` calls for. -/
  payload : Option RunFlowPayload
  deriving DecidableEq

inductive LegacyLine where
  | blank
  | invalidJson
  | record (record : LegacyRecord)
  deriving DecidableEq

inductive MigrationIssueReason where
  | readFailed
  | invalidJson
  | flowIdMismatch
  | eventTypeMissing
  | canonicalConflict
  deriving DecidableEq

/-- A row of `run_flow_migration_issues`. -/
structure MigrationIssue where
  lineNumber : Nat
  reason : MigrationIssueReason
  deriving DecidableEq

structure Migration where
  table : FlowTable := {}
  issues : List MigrationIssue := []

def Migration.issue (migration : Migration) (lineNumber : Nat) (reason : MigrationIssueReason) :
    Migration :=
  { migration with
    issues := migration.issues ++ [{ lineNumber := lineNumber, reason := reason }] }

def legacyRow (table : FlowTable) (flowId : String) (record : LegacyRecord)
    (payload : RunFlowPayload) : EventRow :=
  let candidate := record.sequence.bind JsNumber.toPositive?
  { sequence := candidate.getD (readFlowEventHead table + 1)
    event := {
      flowId := flowId
      timestamp := record.timestamp
      commandId := record.commandId
      sequence := candidate
      payload := payload } }

def Migration.insert (migration : Migration) (lineNumber : Nat) (row : EventRow) : Migration :=
  if migration.table.events.any fun other => other.sequence = row.sequence then
    migration.issue lineNumber .canonicalConflict
  else
    { migration with
      table := { migration.table with events := migration.table.events ++ [row] } }

def Migration.importLine (flowId : String) (migration : Migration) (lineNumber : Nat) :
    LegacyLine → Migration
  | .blank => migration
  | .invalidJson => migration.issue lineNumber .invalidJson
  | .record record =>
      if record.flowId ≠ some flowId then migration.issue lineNumber .flowIdMismatch
      else
        match record.payload with
        | none => migration.issue lineNumber .eventTypeMissing
        | some payload => migration.insert lineNumber (legacyRow migration.table flowId record payload)

def importLines (flowId : String) : Migration → Nat → List LegacyLine → Migration
  | migration, _, [] => migration
  | migration, lineNumber, line :: rest =>
      importLines flowId (migration.importLine flowId lineNumber line) (lineNumber + 1) rest

def rowsOfCommand (table : FlowTable) (commandId : String) : List EventRow :=
  sortBy (fun a b => compareNumber a.sequence b.sequence)
    (table.events.filter fun row => row.event.commandId = some commandId)

def rebuildCommand (hashPayload : List RunFlowEvent → String) (table : FlowTable)
    (commandId : String) : CommandRow :=
  let rows := rowsOfCommand table commandId
  { payloadHash := eventBatchHash hashPayload (rows.map EventRow.event)
    firstSequence := (rows.head?.map EventRow.sequence).getD 0
    lastSequence := (rows.getLast?.map EventRow.sequence).getD 0
    eventCount := rows.length }

/-- `INSERT OR IGNORE`, for every command id of the rows. -/
def rebuildCommands (hashPayload : List RunFlowEvent → String) (table : FlowTable) : FlowTable :=
  { table with
    commands := (batchCommandIds (table.events.map EventRow.event)).members.foldl
      (fun commands commandId =>
        if commands.contains commandId then commands
        else commands.set commandId (rebuildCommand hashPayload table commandId))
      table.commands }

def migrateLegacyJsonl (hashPayload : List RunFlowEvent → String) (flowId : String)
    (log : Option (List LegacyLine)) : Migration :=
  let imported :=
    match log with
    | none => ({} : Migration).issue 0 .readFailed
    | some lines => importLines flowId {} 1 lines
  { imported with table := rebuildCommands hashPayload imported.table }

/-- The appends that follow. One that is refused leaves the table as it was. -/
def runAppends (hashPayload : List RunFlowEvent → String) (flowId : String)
    (batches : List (List RunFlowEvent × Option Nat)) (table : FlowTable) : FlowTable :=
  batches.foldl
    (fun table batch =>
      match appendFlowEvents hashPayload flowId batch.1 batch.2 table with
      | .ok (_, next) => next
      | .error _ => table)
    table

end Deckent.RunFlow
