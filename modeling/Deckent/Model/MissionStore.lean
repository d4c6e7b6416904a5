import Deckent.Model.MissionTables

/-!
# The mission store

Engines share the store. Each of its operations is atomic, and a transaction that throws leaves the
tables as they were. Item by item, the store moves work from pending to running and on to an end, to an
approval, or to a place where it stays parked.
-/

namespace Deckent.Mission

/-! ### Quarantine -/

section Quarantine

variable (runtime : JsonRuntime) (now : Int)

def WorkItemRow.concerns (row : WorkItemRow) (itemId : Option String) : Bool := itemId.all (row.id = ·)

def unknownKindResult (row : WorkItemRow) : Json :=
  .object [
    ("ok", .bool false),
    ("reason", .string ("UNKNOWN_KIND: unsupported persisted work-item kind " ++ quoteJson row.kind.text)),
    ("missionAdmission", .object [
      ("code", .string "UNKNOWN_KIND"),
      ("itemId", .string row.id),
      ("persistedKind", .string row.kind.text),
      ("decision", .string "failed-closed")])]

def MissionDb.reconcileUnsupportedKinds (db : MissionDb) (itemId : Option String) : MissionDb :=
  db.updateItems (fun row => row.status.isOpen && row.concerns itemId && !isCanonicalWorkItemKind row.kind)
    fun row => row.closed .failed (some (unknownKindResult row)) now

inductive PersistedTriggerDisposition where
  | oneOff
  | occurrenceAuthorityRequired (triggerType : String)
  | invalid (triggerType : Option String)
  deriving DecidableEq

def classifyPersistedTrigger (trigger : Option Json) : PersistedTriggerDisposition :=
  match trigger with
  | none => .oneOff
  | some trigger =>
      match (trigger.get? "type").bind (·.text?) with
      | some "one-off" => .oneOff
      | some "recurring" => .occurrenceAuthorityRequired "recurring"
      | some "reactive" => .occurrenceAuthorityRequired "reactive"
      | other => .invalid other

def optionJson (value : Option String) : Json := (value.map Json.string).getD .null

/-- The status and the result of a row whose trigger is no one-off. -/
def triggerQuarantine (row : WorkItemRow) : Option (WorkItemStatus × Json) :=
  let result (code decision : String) (triggerType : Option String) : Json :=
    let prior : List (String × Json) :=
      match row.lastResult with
      | some prior =>
          if (prior.get? "triggerAdmission").any (·.isRecord) then [] else [("priorResult", prior)]
      | none => []
    .object ([("ok", .bool false), ("reason", .string code)] ++ prior ++ [
      ("triggerAdmission", .object [
        ("schemaVersion", .number 1),
        ("code", .string code),
        ("itemId", .string row.id),
        ("triggerType", optionJson triggerType),
        ("triggerDigest", .string (sha256Hex (runtime.stringify (row.trigger.getD .null)))),
        ("decision", .string decision)])])
  match classifyPersistedTrigger row.trigger with
  | .oneOff => none
  | .occurrenceAuthorityRequired triggerType =>
      some (.parked,
        result "TRIGGER_OCCURRENCE_AUTHORITY_REQUIRED" "parked-hold" (some triggerType))
  | .invalid triggerType => some (.failed, result "TRIGGER_INVALID" "failed-closed" triggerType)

def WorkItemRow.isQuarantined (row : WorkItemRow) (status : WorkItemStatus) (result : Json) : Bool :=
  row.status = status && row.claimedAt.isNone && row.claimedBy.isNone
    && canonicalJson runtime (row.lastResult.getD .null) = canonicalJson runtime result

def MissionDb.reconcileNonExecutableTriggers (db : MissionDb) (itemId : Option String) : MissionDb :=
  db.updateItems
    (fun row => row.status.isOpen && row.concerns itemId
      && (triggerQuarantine runtime row).any fun quarantine =>
        !row.isQuarantined runtime quarantine.1 quarantine.2)
    fun row =>
      match triggerQuarantine runtime row with
      | some (status, result) => row.closed status (some result) now
      | none => row

def MissionDb.quarantine (db : MissionDb) (itemId : Option String) : MissionDb :=
  (db.reconcileUnsupportedKinds now itemId).reconcileNonExecutableTriggers runtime now itemId

def fenceJson (fence : Option WorkItemAdmissionFence) : Json :=
  match fence with
  | none => .null
  | some fence => .object [
      ("schemaVersion", .number (.finite fence.schemaVersion)),
      ("registryRevision", .string fence.registryRevision),
      ("registryDigest", .string fence.registryDigest),
      ("kind", .string fence.kind.text),
      ("runnerRevision", .string fence.runnerRevision),
      ("itemDefinitionDigest", .string fence.itemDefinitionDigest)]

def AdmissionDisposition.status : AdmissionDisposition → WorkItemStatus
  | failed => .failed
  | parked => .parked

def textMember (value : Option Json) (key : String) : Option String :=
  (value.bind (·.get? key)).bind (·.text?)

def keepsVerdict (row : WorkItemRow) (fence : Option WorkItemAdmissionFence)
    (registry : MissionRunnerRegistry) (rejection : AdmissionRejection) : Bool :=
  let existing := row.lastResult.bind (·.get? "missionAdmission")
  let free := row.claimedAt.isNone && row.claimedBy.isNone
  let sameAuthority := textMember existing "authorityRevision" = some registry.registryRevision
    && textMember existing "authorityDigest" = some registry.registryDigest
  let preservesCurrentLegacyQuarantine := row.status = .parked && rejection.disposition = .parked
    && fence.isNone && free && textMember existing "source" = some "legacy-backlog-import"
    && textMember existing "decision" = some "parked-hold"
    && (textMember existing "code").any (·.endsWith "_UNWIRED")
    && textMember existing "itemId" = some row.id
    && textMember existing "persistedKind" = some row.kind.text && sameAuthority
  preservesCurrentLegacyQuarantine
    || row.status = rejection.disposition.status && free
      && textMember existing "code" = some rejection.code && sameAuthority

def admissionResult (row : WorkItemRow) (fence : Option WorkItemAdmissionFence)
    (registry : MissionRunnerRegistry) (rejection : AdmissionRejection) : Json :=
  let reason := textMember row.lastResult "reason"
  let prior := if row.status = .parked
    then reason.filter (·.startsWith "RECOVERY_RECONCILIATION_REQUIRED") else none
  .object ([
    ("ok", .bool false),
    ("reason", .string (prior.getD (rejection.code ++ ": " ++ rejection.reason)))]
    ++ (if prior.isSome then [("priorRecoveryResult", row.lastResult.getD .null)] else [])
    ++ [("missionAdmission", .object [
      ("schemaVersion", .number 1),
      ("code", .string rejection.code),
      ("itemId", .string row.id),
      ("persistedKind", .string row.kind.text),
      ("authorityRevision", .string registry.registryRevision),
      ("authorityDigest", .string registry.registryDigest),
      ("persistedFence", fenceJson fence),
      ("decision", .string (match rejection.disposition with
        | .parked => "parked-hold"
        | .failed => "failed-closed"))])])

/-- One row of the loop in `reconcileRuntimeAdmission`. -/
def MissionDb.admitRow (db : MissionDb) (registry : MissionRunnerRegistry) (row : WorkItemRow) :
    Except String MissionDb := do
  if classifyPersistedTrigger row.trigger ≠ .oneOff then return db
  let fence := db.fence? row.id
  match ← validateWorkItemAdmission runtime (db.definitionOf row) fence registry with
  | none => return db
  | some rejection =>
      let status := rejection.disposition.status
      let result := admissionResult row fence registry rejection
      if keepsVerdict row fence registry rejection || row.isQuarantined runtime status result then
        return db
      return db.updateItems
        (fun other => other.id = row.id && other.revision = row.revision && other.status.isOpen)
        fun other => other.closed status (some result) now

def admitRows (registry : MissionRunnerRegistry) :
    List WorkItemRow → MissionDb → MissionDb × Except String Unit
  | [], db => (db, .ok ())
  | row :: rest, db =>
      match db.admitRow runtime now registry row with
      | .ok db => admitRows registry rest db
      | .error error => (db, .error error)

def MissionDb.reconcileRuntimeAdmission (db : MissionDb) (registry : MissionRunnerRegistry)
    (itemId : Option String) : MissionDb × Except String Unit :=
  let db := db.reconcileUnsupportedKinds now itemId
  match admitRows runtime now registry
      (db.items.filter fun row => row.status.isOpen && row.concerns itemId) db with
  | (db, .ok ()) => (db.reconcileNonExecutableTriggers runtime now itemId, .ok ())
  | (db, .error error) => (db, .error error)

end Quarantine

def transaction {α : Type} (db : MissionDb) (body : Except String (α × MissionDb)) :
    MissionDb × Except String α :=
  match body with
  | .ok (result, next) => (next, .ok result)
  | .error error => (db, .error error)

/-! ### Creation -/

structure NewMission where
  id : String
  kind : MissionKind
  tenant : Option String
  title : String
  spec : Option Json
  createdBy : Option String
  deliverTo : Option String
  renderAs : Option MissionRenderAs
  progress : Option Json

structure NewWorkItem where
  id : String
  missionId : String
  kind : WorkItemKind
  spec : Option Json
  policy : Option WorkItemPolicy
  renderAs : Option WorkItemRenderAs
  dependsOn : Option (List String)
  trigger : Option Json
  admissionFence : Option WorkItemAdmissionFence

structure NewMissionWorkItem extends NewWorkItem where
  initialStatus : Option WorkItemStatus
  initialResult : Option Json

section Create

variable (runtime : JsonRuntime) (now : Int)

/-- The row of a new mission. -/
def NewMission.row (mission : NewMission) : MissionRow where
  id := mission.id
  kind := mission.kind
  status := .pending
  tenant := mission.tenant.getD "local"
  title := mission.title
  spec := mission.spec
  createdBy := mission.createdBy
  deliverTo := mission.deliverTo
  renderAs := mission.renderAs.getD (if mission.kind = .list then .checklist else .goal)
  progress := mission.progress
  createdAt := now
  updatedAt := now
  completedAt := none
  lastResult := none

/-- `createMission`, where `normalized` is the mode of the engine. -/
def MissionDb.createMission (db : MissionDb) (normalized : Bool) (mission : NewMission) :
    Except String MissionDb :=
  if (db.mission? mission.id).isSome then .error "UNIQUE constraint failed: missions.id"
  else .ok { db with
    missions := db.missions ++ [mission.row now]
    authorities := db.authorities
      ++ if normalized then [⟨mission.id, .active, 1, graphDigest runtime []⟩] else [] }

def NewWorkItem.definition (item : NewWorkItem) : WorkItemDefinition where
  id := item.id
  missionId := item.missionId
  kind := item.kind
  spec := item.spec
  policy := item.policy.getD .auto
  renderAs := item.renderAs.getD (defaultRenderAs item.kind)
  dependsOn := item.dependsOn.getD []
  trigger := item.trigger

/-- The row of a new item. The dependencies are `none` where its mission has edges of its own. -/
def NewWorkItem.row (item : NewWorkItem) (dependsOn : Option (List String)) (status : WorkItemStatus)
    (result : Option Json) : WorkItemRow where
  id := item.id
  missionId := item.missionId
  kind := item.kind
  status := status
  spec := item.spec
  policy := item.policy.getD .auto
  renderAs := item.renderAs.getD (defaultRenderAs item.kind)
  dependsOn := dependsOn
  trigger := item.trigger
  claimedAt := none
  claimedBy := none
  revision := 0
  claimRegistryRevision := none
  claimRegistryDigest := none
  claimAttemptId := none
  claimFenceTokenHash := none
  createdAt := now
  updatedAt := now
  lastResult := result

def assertCanonicalWorkItemKind (item : NewWorkItem) : Except String Unit :=
  if isCanonicalWorkItemKind item.kind then .ok ()
  else .error s!"MISSION_ADMISSION_REJECTED: {item.id} ({item.kind.text}) UNKNOWN_KIND"

def isInvalidTrigger (trigger : Option Json) : Bool :=
  match classifyPersistedTrigger trigger with
  | .invalid _ => true
  | _ => false

def assertPersistableTrigger (item : NewWorkItem) : Except String Unit :=
  if isInvalidTrigger item.trigger then .error s!"MISSION_TRIGGER_INVALID: {item.id}" else .ok ()

def assertPersistableFence (item : NewWorkItem) : Except String Unit :=
  match item.admissionFence with
  | none => .ok ()
  | some fence =>
      if fence.schemaVersion ≠ 1 ∨ fence.kind ≠ item.kind
          ∨ fence.itemDefinitionDigest ≠ computeWorkItemDefinitionDigest runtime item.definition
          ∨ !nonEmptyString fence.registryRevision ∨ !nonEmptyString fence.registryDigest
          ∨ !nonEmptyString fence.runnerRevision then
        .error s!"MISSION_ADMISSION_FENCE_INVALID: {item.id}"
      else .ok ()

/-- `INSERT INTO work_items`, with the fence of the item. Its id is a primary key and its mission a
foreign key. -/
def MissionDb.insertItem (db : MissionDb) (item : NewWorkItem) (row : WorkItemRow) :
    Except String MissionDb :=
  if (db.item? row.id).isSome then .error "UNIQUE constraint failed: work_items.id"
  else if (db.mission? row.missionId).isNone then .error "FOREIGN KEY constraint failed"
  else .ok { db with
    items := db.items ++ [row]
    fences := db.fences ++ (item.admissionFence.map (FenceRow.mk row.id)).toList }

def MissionDb.insertEdges (db : MissionDb) (edges : List DependencyEdge) : MissionDb :=
  { db with edges := db.edges ++ edges }

def MissionDb.validateNormalizedAppend (db : MissionDb) (authority : GraphAuthorityRow)
    (items : List NewWorkItem) : Except String (List DependencyEdge × Nat) :=
  if authority.state ≠ .active then
    .error s!"MISSION_DEPENDENCY_AUTHORITY_HOLD: {authority.missionId}:{authority.state.text}"
  else
    let existing := sortBy compareText
      ((db.items.filter (·.missionId = authority.missionId)).map (·.id))
    (validateGraph runtime authority.missionId
      (existing.map (fun id => (id, db.normalizedDependencies authority.missionId id))
        ++ items.map fun item => (item.id, item.dependsOn.getD []))).map fun edges =>
      (edges.filter fun edge => items.any (·.id = edge.workItemId), authority.graphRevision + 1)

/-- `updateNormalizedGraphDigest`. -/
def MissionDb.updateGraph (db : MissionDb) (missionId : String) (graphRevision : Nat) : MissionDb :=
  { db with
    authorities := db.authorities.map fun authority =>
      if authority.missionId = missionId ∧ authority.state = .active then
        { authority with
          graphRevision := graphRevision
          graphDigest := graphDigest runtime (db.edges.filter (·.missionId = missionId)) }
      else authority }

/-- The transaction of `enqueueItem`. -/
def MissionDb.appendItem (db : MissionDb) (item : NewWorkItem) : Except String MissionDb :=
  match db.authority? item.missionId with
  | none =>
      -- `ON CONFLICT(id) DO NOTHING`
      if (db.item? item.id).isSome then .ok db
      else db.insertItem item (item.row now (some (item.dependsOn.getD [])) .pending none)
  | some authority => do
      let append ← db.validateNormalizedAppend runtime authority [item]
      if (db.item? item.id).isSome then
        .error s!"MISSION_BATCH_CONFLICT: work-item {item.id} already exists"
      else (db.insertItem item (item.row now none .pending none)).map fun inserted =>
        (inserted.insertEdges append.1).updateGraph runtime item.missionId append.2

def MissionDb.enqueueItem (db : MissionDb) (item : NewWorkItem) : Except String MissionDb := do
  assertCanonicalWorkItemKind item
  assertPersistableTrigger item
  assertPersistableFence runtime item
  db.appendItem runtime now item

def insertItems : List (NewWorkItem × WorkItemRow) → MissionDb → Except String MissionDb
  | [], db => .ok db
  | (item, row) :: rest, db => do
      let db ← db.insertItem item row
      insertItems rest db

def MissionDb.appends (db : MissionDb) (items : List NewWorkItem) :
    List String → Except String (List (String × List DependencyEdge × Nat))
  | [] => .ok []
  | missionId :: rest => do
      match db.authority? missionId with
      | none => db.appends items rest
      | some authority =>
          let append ← db.validateNormalizedAppend runtime authority (items.filter (·.missionId = missionId))
          let others ← db.appends items rest
          return (missionId, append) :: others

/-- The checks of `enqueueItems` before its transaction. -/
def MissionDb.checkBatch (db : MissionDb) (items : List NewWorkItem) : Except String Unit := do
  for entry in items.zipIdx do
    if !nonEmptyCanonicalString entry.1.id || (items.take entry.2).any (·.id = entry.1.id) then
      throw s!"MISSION_BATCH_INVALID: duplicate or non-canonical work-item id {entry.1.id}"
    assertCanonicalWorkItemKind entry.1
    assertPersistableTrigger entry.1
    assertPersistableFence runtime entry.1
    if (db.mission? entry.1.missionId).isNone then
      throw s!"MISSION_BATCH_INVALID: mission not found {entry.1.missionId}"

/-- The transaction of `enqueueItems`. -/
def MissionDb.appendItems (db : MissionDb) (items : List NewWorkItem) : Except String MissionDb := do
  let appends ← db.appends runtime items ((items.map (·.missionId)).eraseDups)
  let rowOf (item : NewWorkItem) : WorkItemRow :=
    item.row now (if appends.any (·.1 = item.missionId) then none else some (item.dependsOn.getD []))
      .pending none
  let db ← insertItems (items.map fun item => (item, rowOf item)) db
  return appends.foldl (fun db append =>
    (db.insertEdges append.2.1).updateGraph runtime append.1 append.2.2) db

def batchError (error : String) : String :=
  if error.startsWith "MISSION_BATCH_" then error else "MISSION_BATCH_CONFLICT: " ++ error

def MissionDb.enqueueItems (db : MissionDb) (items : List NewWorkItem) : Except String MissionDb := do
  db.checkBatch runtime items
  (db.appendItems runtime now items).mapError batchError

/-! ### A mission with its items -/

def memberIs (value : Option Json) (key : String) (number : JsNumber) : Bool :=
  match value.bind (·.get? key) with
  | some (.number found) => found = number
  | _ => false

def isExactLegacyUnknownKindQuarantine (mission : NewMission) (item : NewMissionWorkItem) : Bool :=
  let legacyImport := specMember mission.spec "legacyImport"
  let admission := specMember item.initialResult "missionAdmission"
  mission.id = "legacy" && mission.kind = .list && legacyImport.any (·.isRecord)
    && memberIs legacyImport "schemaVersion" 1
    && textMember legacyImport "source" = some "backlog.json"
    && (textMember legacyImport "sourceDigest").any isSha256Text
    && item.initialStatus = some .failed && item.admissionFence.isNone
    && (match specMember item.initialResult "ok" with
      | some (.bool false) => true
      | _ => false)
    && (textMember item.initialResult "reason").any (·.startsWith "MISSION_MIGRATION_QUARANTINED:")
    && admission.any (·.isRecord) && textMember admission "code" = some "UNKNOWN_KIND"
    && textMember admission "itemId" = some item.id
    && textMember admission "persistedKind" = some item.kind.text
    && textMember admission "decision" = some "failed-closed"
    && textMember admission "source" = some "legacy-backlog-import"
    && (textMember admission "authorityRevision").any (· ≠ "")
    && (textMember admission "authorityDigest").any isSha256Text

def hasOutcome (result : Json) : Bool :=
  match result.get? "ok" with
  | some (.bool _) => true
  | _ => false

/-- What `createMissionWithItemsInternal` asks of one of its items. -/
def checkBatchItem (mission : NewMission) (allowLegacyUnknownKindQuarantine : Bool)
    (item : NewMissionWorkItem) : Except String Unit := do
  if !nonEmptyCanonicalString item.id then
    throw "MISSION_BATCH_INVALID: work-item id must be a non-empty canonical string"
  if item.missionId ≠ mission.id then
    throw s!"MISSION_BATCH_INVALID: item {item.id} belongs to foreign mission {item.missionId}"
  if !(allowLegacyUnknownKindQuarantine && isExactLegacyUnknownKindQuarantine mission item) then
    assertCanonicalWorkItemKind item.toNewWorkItem
  if !allowLegacyUnknownKindQuarantine then assertPersistableTrigger item.toNewWorkItem
  assertPersistableFence runtime item.toNewWorkItem
  let dependencies := item.dependsOn.getD []
  if !dependencies.all nonEmptyCanonicalString then
    throw s!"MISSION_BATCH_INVALID: item {item.id} has a non-canonical dependency id"
  if ¬ dependencies.Nodup then
    throw s!"MISSION_BATCH_INVALID: item {item.id} has duplicate dependencies"
  if item.initialResult.any fun result => item.initialStatus.isNone || !hasOutcome result then
    throw s!"MISSION_BATCH_INVALID: item {item.id} has invalid initial result"

def NewMissionWorkItem.normalized (item : NewMissionWorkItem) : NewMissionWorkItem :=
  { item with dependsOn := some (sortBy compareCodePoint (item.dependsOn.getD [])) }

def missingDependencies (items : List NewMissionWorkItem) (item : NewMissionWorkItem) : List String :=
  (item.dependsOn.getD []).filter fun id => !items.any (·.id = id)

def batchGraph (items : List NewMissionWorkItem) : List (String × List String) :=
  items.map fun item => (item.id, item.dependsOn.getD [])

def batchGraphError (error : String) : String :=
  let start := "MISSION_DEPENDENCY_GRAPH_INVALID: "
  let reason := String.ofList (error.toList.drop start.length)
  "MISSION_BATCH_INVALID: " ++ (if reason.startsWith "cycle " then "dependency " ++ reason else reason)

/-- What `createMissionWithItemsInternal` asks of its items, once they are normalized. -/
def checkBatchGraph (mission : NewMission) (items : List NewMissionWorkItem) : Except String Unit := do
  for entry in items.zipIdx do
    if (items.take entry.2).any (·.id = entry.1.id) then
      throw s!"MISSION_BATCH_INVALID: duplicate work-item id {entry.1.id}"
  for item in items do
    if (item.dependsOn.getD []).contains item.id then
      throw s!"MISSION_BATCH_INVALID: self dependency {item.id}"
    let missing := missingDependencies items item
    if missing ≠ [] then
      throw (s!"MISSION_BATCH_INVALID: item {item.id} depends on missing or foreign item "
        ++ ", ".intercalate missing)
  let _ ← (validateGraph runtime mission.id (batchGraph items)).mapError batchGraphError

def checkMissionBatch (mission : NewMission) (allowLegacyUnknownKindQuarantine : Bool)
    (items : List NewMissionWorkItem) : Except String Unit := do
  if !nonEmptyCanonicalString mission.id then
    throw "MISSION_BATCH_INVALID: mission id must be a non-empty canonical string"
  for item in items do
    checkBatchItem runtime mission allowLegacyUnknownKindQuarantine item
  checkBatchGraph runtime mission (items.map (·.normalized))

def MissionRow.creationJson (row : MissionRow) : Json :=
  .object [("id", .string row.id), ("kind", .string row.kind.text), ("tenant", .string row.tenant),
    ("title", .string row.title), ("spec", row.spec.getD .null), ("createdBy", optionJson row.createdBy),
    ("deliverTo", optionJson row.deliverTo), ("renderAs", .string row.renderAs.text),
    ("progress", row.progress.getD .null)]

def WorkItemDefinition.creationJson (item : WorkItemDefinition) : Json :=
  .object [("id", .string item.id), ("missionId", .string item.missionId),
    ("kind", .string item.kind.text), ("spec", item.spec.getD .null),
    ("policy", .string item.policy.text), ("renderAs", .string item.renderAs.text),
    ("dependsOn", .array ((sortBy compareCodePoint item.dependsOn).map .string)),
    ("trigger", item.trigger.getD .null)]

def creationJsons (items : List WorkItemDefinition) : Json :=
  .array ((sortBy (fun left right => runtime.localeCompare left.id right.id) items).map
    (·.creationJson))

def MissionDb.matchesBatch (db : MissionDb) (existing : MissionRow) (mission : NewMission)
    (items : List NewMissionWorkItem) : Bool :=
  canonicalJson runtime existing.creationJson = canonicalJson runtime (mission.row now).creationJson
    && canonicalJson runtime (creationJsons runtime
        ((db.items.filter (·.missionId = mission.id)).map db.definitionOf))
      = canonicalJson runtime (creationJsons runtime (items.map (·.definition)))

/-- `seedTerminalDependencyJobs`. -/
def MissionDb.seedTerminalDependencyJobs (db : MissionDb) (missionId : String) : MissionDb :=
  { db with
    queue := db.queue ++ ((db.items.filter fun row => row.missionId = missionId
        && row.status.isTerminal && !db.queue.any (fun job => job.missionId = missionId
          && job.upstreamItemId = row.id && job.upstreamRevision = row.revision
          && job.outcome = row.status)).map fun row => {
      missionId := missionId
      upstreamItemId := row.id
      upstreamRevision := row.revision
      outcome := row.status
      cursorWorkItemId := ""
      turnSeq := 0
      isDone := false
      updatedAt := now }) }

def MissionDb.setGraphDigest (db : MissionDb) (missionId digest : String) : MissionDb :=
  { db with
    authorities := db.authorities.map fun authority =>
      if authority.missionId = missionId ∧ authority.state = .active then
        { authority with graphDigest := digest }
      else authority }

def NewMissionWorkItem.initialRow (item : NewMissionWorkItem) (normalized : Bool) : WorkItemRow :=
  item.toNewWorkItem.row now (if normalized then none else some (item.dependsOn.getD []))
    (item.initialStatus.getD .pending) item.initialResult

def MissionDb.addBatchGraph (db : MissionDb) (mission : NewMission) (items : List NewMissionWorkItem) :
    Except String MissionDb :=
  (validateGraph runtime mission.id (batchGraph items)).map fun edges =>
    ((db.setGraphDigest mission.id (graphDigest runtime edges)).insertEdges edges)
      |>.seedTerminalDependencyJobs now mission.id

/-- The transaction of `createMissionWithItemsInternal`. -/
def MissionDb.createBatch (db : MissionDb) (normalized : Bool) (mission : NewMission)
    (items : List NewMissionWorkItem) : Except String MissionDb :=
  match db.mission? mission.id with
  | some existing =>
      if items.any fun item => item.initialStatus.isSome || item.initialResult.isSome then
        .error (s!"MISSION_BATCH_CONFLICT: mission {mission.id} import/recovery state requires "
          ++ "external replay provenance")
      else if db.matchesBatch runtime now existing mission items then .ok db
      else .error (s!"MISSION_BATCH_CONFLICT: mission {mission.id} already exists with "
        ++ "different creation data")
  | none => do
      let db ← db.createMission runtime now normalized mission
      let db ← insertItems
        (items.map fun item => (item.toNewWorkItem, item.initialRow now normalized)) db
      if normalized then db.addBatchGraph runtime now mission items else .ok db

/-- `createMissionWithItemsInternal`, for `createMissionWithItems` and `importLegacyMissionWithItems`. -/
def MissionDb.createMissionWithItems (db : MissionDb) (normalized allowLegacyUnknownKindQuarantine : Bool)
    (mission : NewMission) (items : List NewMissionWorkItem) : Except String MissionDb := do
  checkMissionBatch runtime mission allowLegacyUnknownKindQuarantine items
  (db.createBatch runtime now normalized mission (items.map (·.normalized))).mapError batchError

end Create

end Deckent.Mission
