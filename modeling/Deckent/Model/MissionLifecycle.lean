import Deckent.Model.KindAdmission

/-!
# The life of a mission in the store

A mission whose items list their dependencies gets a graph of its own in two steps. A first call copies the
lists into edges, or puts the mission into quarantine where the lists are no graph, and a second call makes the
graph the authority. Together with the progress of a mission these are the calls that a mission meets besides
the ones of its engines.
-/

namespace Deckent.Mission

/-! ### Migration to a graph -/

section Migration

variable (runtime : JsonRuntime) (now : Int)

def MissionDb.legacyRows (db : MissionDb) (missionId : String) : List WorkItemRow :=
  sortBy (fun left right => compareText left.id right.id) (db.items.filter (·.missionId = missionId))

def MissionDb.legacyDefinitions (db : MissionDb) (missionId : String) : List (String × List String) :=
  (db.legacyRows missionId).map fun row => (row.id, row.dependsOn.getD [])

def MissionDb.readLegacyGraph (db : MissionDb) (missionId : String) : Except String (List DependencyEdge) :=
  validateGraph runtime missionId (db.legacyDefinitions missionId)

def MissionDb.sourceDigest (db : MissionDb) (missionId : String) : String :=
  sha256Hex (canonicalJson runtime (.array ((db.legacyRows missionId).map fun row => .object [
    ("id", .string row.id),
    ("depends_on", optionJson (row.dependsOn.map fun ids =>
      runtime.stringify (.array (ids.map .string))))])))

def MissionDb.insertAuthority (db : MissionDb) (authority : GraphAuthorityRow) : MissionDb :=
  { db with authorities := db.authorities ++ [authority] }

def MissionDb.prepareNormalizedDependencyMigration (db : MissionDb) (missionId : String) :
    Except String MissionDb :=
  if (db.mission? missionId).isNone then
    .error s!"MISSION_DEPENDENCY_MIGRATION_NOT_FOUND: {missionId}"
  else if (db.authority? missionId).isSome then .ok db
  else match db.readLegacyGraph runtime missionId with
    | .error _ =>
        .ok (db.insertAuthority ⟨missionId, .quarantined, 1, db.sourceDigest runtime missionId⟩)
    | .ok edges =>
        .ok ((db.insertAuthority ⟨missionId, .migrationPending, 1, graphDigest runtime edges⟩).insertEdges
          edges)

/-- The time of an activation is `none` where its text is not canonical. -/
structure MissionDependencyActivation where
  schemaVersion : Nat
  missionId : String
  expectedGraphDigest : String
  approvedBy : String
  approvalRef : String
  approvedAt : Option Int

def MissionDb.persistedEdges (db : MissionDb) (missionId : String) : List DependencyEdge :=
  sortBy (fun left right => thenBy (compareText left.workItemId right.workItemId)
      (compareText left.dependencyItemId right.dependencyItemId))
    (db.edges.filter (·.missionId = missionId))

def MissionDb.activateAuthority (db : MissionDb) (missionId : String) : MissionDb :=
  { db with
    authorities := db.authorities.map fun authority =>
      if authority.missionId = missionId ∧ authority.state = .migrationPending then
        { authority with state := .active }
      else authority }

def MissionDb.activateNormalizedDependencyAuthority (db : MissionDb)
    (activation : MissionDependencyActivation) : Except String MissionDb :=
  let missionId := activation.missionId
  if activation.schemaVersion ≠ 1 ∨ !nonEmptyString missionId
      ∨ !isSha256Text activation.expectedGraphDigest ∨ !nonEmptyString activation.approvedBy
      ∨ !nonEmptyString activation.approvalRef ∨ activation.approvedAt.isNone then
    .error "MISSION_DEPENDENCY_ACTIVATION_INVALID"
  else match db.authority? missionId with
    | none => .error s!"MISSION_DEPENDENCY_ACTIVATION_NOT_PREPARED: {missionId}"
    | some authority =>
        match authority.state with
        | .quarantined => .error s!"MISSION_DEPENDENCY_ACTIVATION_QUARANTINED: {missionId}"
        -- the same activation again, or a conflict with the one that is kept: no table changes
        | .active => .ok db
        | .migrationPending =>
            if authority.graphDigest ≠ activation.expectedGraphDigest then
              .error s!"MISSION_DEPENDENCY_ACTIVATION_DIGEST_MISMATCH: {missionId}"
            else do
              let current ← db.readLegacyGraph runtime missionId
              if graphDigest runtime current ≠ authority.graphDigest then
                .error s!"MISSION_DEPENDENCY_ACTIVATION_SOURCE_CHANGED: {missionId}"
              else if graphDigest runtime (db.persistedEdges missionId) ≠ authority.graphDigest then
                .error s!"MISSION_DEPENDENCY_ACTIVATION_EDGE_MISMATCH: {missionId}"
              else .ok ((db.activateAuthority missionId).seedTerminalDependencyJobs now missionId)

end Migration

/-! ### Runs -/

inductive StoreCall where
  | mission (call : MissionCall)
  | setMissionProgress (id : String) (progress : Json)
  | prepareNormalizedDependencyMigration (missionId : String)
  | activateNormalizedDependencyAuthority (activation : MissionDependencyActivation)

/-- A call and the time at which the store runs it. -/
structure TimedStoreCall where
  now : Int
  call : StoreCall

section Run

variable (runtime : JsonRuntime) (contract : ApprovalContract)

/-- The tables after a call. -/
def MissionDb.after (db : MissionDb) (timed : TimedStoreCall) : MissionDb :=
  match timed.call with
  | .mission call => db.perform runtime contract ⟨timed.now, call⟩
  | .setMissionProgress id progress => db.setMissionProgress timed.now id progress
  | .prepareNormalizedDependencyMigration missionId =>
      db.orKeep (db.prepareNormalizedDependencyMigration runtime missionId)
  | .activateNormalizedDependencyAuthority activation =>
      db.orKeep (db.activateNormalizedDependencyAuthority runtime timed.now activation)

def MissionDb.afterAll (db : MissionDb) (calls : List TimedStoreCall) : MissionDb :=
  calls.foldl (MissionDb.after runtime contract) db

end Run

def MissionCall.isLifecycle : MissionCall → Bool
  | .createMission .. | .createMissionWithItems .. | .importLegacyMissionWithItems ..
  | .enqueueItem .. | .enqueueItems .. => false
  | _ => true

def StoreCall.isLifecycle : StoreCall → Bool
  | .mission call => call.isLifecycle
  | .setMissionProgress .. => true
  | .prepareNormalizedDependencyMigration .. | .activateNormalizedDependencyAuthority .. => false

end Deckent.Mission
