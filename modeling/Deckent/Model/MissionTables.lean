import Deckent.Lib.OrderedMap
import Deckent.Model.MissionAdmission

/-!
# The tables of the mission store

A mission has work items, which depend on one another. Where the mission has a row among the graph
authorities, the edges of its items are rows of their own, else each item's row lists them. Whether an
item needs an approval is in its policy, and the approval is a row of its own.

Times are kept as milliseconds, and a column of JSON as the value that it holds.
-/

namespace Deckent.Mission

/-! ### Rows -/

inductive WorkItemStatus where
  | pending
  | running
  | done
  | failed
  | blocked
  | parked
  deriving DecidableEq

def WorkItemStatus.isOpen : WorkItemStatus → Bool
  | pending | running | parked => true
  | _ => false

/-- `status IN ('done','failed','blocked')`. -/
def WorkItemStatus.isTerminal : WorkItemStatus → Bool
  | done | failed | blocked => true
  | _ => false

inductive MissionKind where
  | list
  | goal
  deriving DecidableEq

def MissionKind.text : MissionKind → String
  | list => "list"
  | goal => "goal"

inductive MissionStatus where
  | pending
  | active
  | completed
  | failed
  | cancelled
  deriving DecidableEq

def MissionStatus.isLive : MissionStatus → Bool
  | pending | active => true
  | _ => false

inductive MissionRenderAs where
  | checklist
  | goal
  deriving DecidableEq

def MissionRenderAs.text : MissionRenderAs → String
  | checklist => "checklist"
  | goal => "goal"

structure MissionRow where
  id : String
  kind : MissionKind
  status : MissionStatus
  tenant : String
  title : String
  spec : Option Json
  createdBy : Option String
  deliverTo : Option String
  renderAs : MissionRenderAs
  progress : Option Json
  createdAt : Int
  updatedAt : Int
  completedAt : Option Int
  lastResult : Option Json

structure WorkItemRow where
  id : String
  missionId : String
  kind : WorkItemKind
  status : WorkItemStatus
  spec : Option Json
  policy : WorkItemPolicy
  renderAs : WorkItemRenderAs
  dependsOn : Option (List String)
  trigger : Option Json
  claimedAt : Option Int
  claimedBy : Option String
  revision : Nat
  claimRegistryRevision : Option String
  claimRegistryDigest : Option String
  claimAttemptId : Option String
  claimFenceTokenHash : Option String
  createdAt : Int
  updatedAt : Int
  lastResult : Option Json

inductive DependencyAuthorityState where
  | migrationPending
  | active
  | quarantined
  deriving DecidableEq

def DependencyAuthorityState.text : DependencyAuthorityState → String
  | migrationPending => "migration-pending"
  | active => "active"
  | quarantined => "quarantined"

structure GraphAuthorityRow where
  missionId : String
  state : DependencyAuthorityState
  graphRevision : Nat
  graphDigest : String

/-- A row of `work_item_dependencies`. -/
structure DependencyEdge where
  missionId : String
  workItemId : String
  dependencyItemId : String
  deriving DecidableEq

/-- A row of `mission_dependency_reconcile_queue`. -/
structure ReconcileJob where
  missionId : String
  upstreamItemId : String
  upstreamRevision : Nat
  outcome : WorkItemStatus
  cursorWorkItemId : String
  turnSeq : Nat
  isDone : Bool
  updatedAt : Int

structure FenceRow where
  workItemId : String
  fence : WorkItemAdmissionFence

structure ApprovalRequest where
  id : String
  body : Json

inductive ApprovalVerdict where
  | allow
  | deny
  | defer
  | escalate
  deriving DecidableEq

structure ApprovalDecision where
  requestId : String
  decision : ApprovalVerdict
  channel : String
  decidedAt : String
  body : Json

inductive ApprovalState where
  | pending
  | allowed
  | denied
  | expired
  | deferred
  | escalated
  deriving DecidableEq

structure ApprovalRow where
  workItemId : String
  requestId : String
  request : ApprovalRequest
  isPublished : Bool
  decisionState : ApprovalState
  decision : Option ApprovalDecision
  createdAt : Int
  publishedAt : Option Int
  decidedAt : Option String
  updatedAt : Int

structure EngineLeaseRow where
  ownerId : String
  epoch : Nat
  leaseTokenHash : String
  expiresAtMs : Int

structure RecoveredDispatchAttempt where
  recoveryId : String
  tenantId : String
  missionId : String
  workItemId : String
  claimedBy : String
  claimedAt : Int
  itemRevision : Nat
  attemptId : String
  fenceTokenHash : String
  claimRegistryRevision : Option String
  claimRegistryDigest : Option String
  observedByEngineOwnerId : String
  observedByEngineEpoch : Nat
  observedAt : Option Int
  deriving DecidableEq

structure MissionDb where
  missions : List MissionRow
  items : List WorkItemRow
  authorities : List GraphAuthorityRow
  edges : List DependencyEdge
  queue : List ReconcileJob
  fences : List FenceRow
  approvals : List ApprovalRow
  engineLease : Option EngineLeaseRow
  recoveries : List RecoveredDispatchAttempt

def MissionDb.empty : MissionDb where
  missions := []
  items := []
  authorities := []
  edges := []
  queue := []
  fences := []
  approvals := []
  engineLease := none
  recoveries := []

/-! ### Reading -/

section Read

variable (db : MissionDb)

def MissionDb.mission? (id : String) : Option MissionRow := db.missions.find? (·.id = id)

def MissionDb.item? (id : String) : Option WorkItemRow := db.items.find? (·.id = id)

def MissionDb.authority? (missionId : String) : Option GraphAuthorityRow :=
  db.authorities.find? (·.missionId = missionId)

def MissionDb.fence? (id : String) : Option WorkItemAdmissionFence :=
  (db.fences.find? (·.workItemId = id)).map (·.fence)

def compareText (left right : String) : Int := if left < right then -1 else if right < left then 1 else 0

def MissionDb.normalizedDependencies (missionId workItemId : String) : List String :=
  sortBy compareText ((db.edges.filter fun edge => edge.missionId = missionId
    && edge.workItemId = workItemId).map (·.dependencyItemId))

/-- The dependencies of an item, as `rowToItem` reads them. -/
def MissionDb.dependsOn (row : WorkItemRow) : List String :=
  match db.authority? row.missionId with
  | some _ => db.normalizedDependencies row.missionId row.id
  | none => row.dependsOn.getD []

def MissionDb.isDone (missionId id : String) : Bool :=
  db.items.any fun upstream => upstream.id = id && upstream.missionId = missionId
    && upstream.status = .done

/-- `dependencySatisfiedPredicate`. -/
def MissionDb.dependencySatisfied (row : WorkItemRow) : Bool :=
  match db.authority? row.missionId with
  | none => (row.dependsOn.getD []).all (db.isDone row.missionId)
  | some authority => authority.state = .active
      && (db.edges.filter fun edge => edge.missionId = row.missionId && edge.workItemId = row.id).all
        fun edge => db.isDone row.missionId edge.dependencyItemId

def MissionDb.missionIsLive (missionId : String) : Bool :=
  db.missions.any fun mission => mission.id = missionId && mission.status.isLive

def MissionDb.policyAllows (row : WorkItemRow) : Bool :=
  row.policy = .auto
    || db.approvals.any fun approval => approval.workItemId = row.id && approval.decisionState = .allowed

def MissionDb.definitionOf (row : WorkItemRow) : WorkItemDefinition where
  id := row.id
  missionId := row.missionId
  kind := row.kind
  spec := row.spec
  policy := row.policy
  renderAs := row.renderAs
  dependsOn := db.dependsOn row
  trigger := row.trigger

end Read

/-! ### Writing -/

section Write

variable (db : MissionDb)

/-- The trigger `normalized_dependency_terminal_update`. -/
def enqueueOutcome (queue : List ReconcileJob) (old new : WorkItemRow) : List ReconcileJob :=
  if new.status.isTerminal && old.status ≠ new.status
      && (db.authority? new.missionId).any (·.state = .active)
      && !queue.any (fun job => job.missionId = new.missionId && job.upstreamItemId = new.id
        && job.upstreamRevision = new.revision && job.outcome = new.status) then
    queue ++ [{
      missionId := new.missionId
      upstreamItemId := new.id
      upstreamRevision := new.revision
      outcome := new.status
      cursorWorkItemId := ""
      turnSeq := 0
      isDone := false
      updatedAt := new.updatedAt }]
  else queue

/-- `UPDATE work_items`, with the trigger on it. -/
def MissionDb.updateItems (selects : WorkItemRow → Bool) (set : WorkItemRow → WorkItemRow) : MissionDb :=
  { db with
    items := db.items.map fun row => if selects row then set row else row
    queue := (db.items.filter selects).foldl (fun queue row => enqueueOutcome db queue row (set row))
      db.queue }

def MissionDb.changes (selects : WorkItemRow → Bool) : Nat := (db.items.filter selects).length

/-- Revoke the claim and count the change. -/
def WorkItemRow.revoked (row : WorkItemRow) (now : Int) : WorkItemRow :=
  { row with
    claimedAt := none
    claimedBy := none
    claimAttemptId := none
    claimFenceTokenHash := none
    revision := row.revision + 1
    updatedAt := now }

def WorkItemRow.closed (row : WorkItemRow) (status : WorkItemStatus) (result : Option Json) (now : Int) :
    WorkItemRow :=
  { row.revoked now with
    status := status
    lastResult := result.or row.lastResult }

end Write

/-! ### Graphs -/

section Graph

variable (runtime : JsonRuntime)

def graphDigest (edges : List DependencyEdge) : String :=
  let ordered := sortBy (fun left right =>
    thenBy (runtime.localeCompare left.workItemId right.workItemId)
      (runtime.localeCompare left.dependencyItemId right.dependencyItemId)) edges
  sha256Hex (canonicalJson runtime (.array (ordered.map fun edge => .object [
    ("missionId", .string edge.missionId), ("workItemId", .string edge.workItemId),
    ("dependencyItemId", .string edge.dependencyItemId)])))

def visitReady (definitions : List (String × List String)) :
    Nat → List String → List (String × Nat) → Nat → Nat × List (String × Nat)
  | 0, _, indegree, visited => (visited, indegree)
  | _ + 1, [], indegree, visited => (visited, indegree)
  | fuel + 1, id :: rest, indegree, visited =>
      let dependants := sortBy compareCodePoint
        ((definitions.filter (·.2.contains id)).map Prod.fst)
      let lowered := indegree.map fun entry =>
        if dependants.contains entry.1 then (entry.1, entry.2 - 1) else entry
      let released := dependants.filter fun dependant => lowered.lookup dependant = some 0
      visitReady definitions fuel (rest ++ released) lowered (visited + 1)

/-- What is wrong with a graph that is not one without cycles on its own items. -/
def checkGraph (definitions : List (String × List String)) : Except String Unit := do
  let ids := definitions.map Prod.fst
  for entry in ids.zipIdx do
    if !nonEmptyCanonicalString entry.1 || (ids.take entry.2).contains entry.1 then
      throw s!"MISSION_DEPENDENCY_GRAPH_INVALID: duplicate or non-canonical item {entry.1}"
  for definition in definitions do
    for entry in definition.2.zipIdx do
      if !nonEmptyCanonicalString entry.1 then
        throw s!"MISSION_DEPENDENCY_GRAPH_INVALID: non-canonical dependency for {definition.1}"
      if entry.1 = definition.1 then
        throw s!"MISSION_DEPENDENCY_GRAPH_INVALID: self dependency {definition.1}"
      if (definition.2.take entry.2).contains entry.1 then
        throw s!"MISSION_DEPENDENCY_GRAPH_INVALID: duplicate dependency {definition.1}->{entry.1}"
      if !ids.contains entry.1 then
        throw s!"MISSION_DEPENDENCY_GRAPH_INVALID: missing or foreign dependency {definition.1}->{entry.1}"
  let indegree := definitions.map fun definition => (definition.1, definition.2.length)
  let ready := sortBy compareCodePoint ((indegree.filter (·.2 = 0)).map Prod.fst)
  let (visited, waiting) := visitReady definitions definitions.length ready indegree 0
  if visited ≠ definitions.length then
    let cyclic := sortBy compareCodePoint ((waiting.filter (0 < ·.2)).map Prod.fst)
    throw ("MISSION_DEPENDENCY_GRAPH_INVALID: cycle " ++ ", ".intercalate cyclic)

def graphEdges (missionId : String) (definitions : List (String × List String)) : List DependencyEdge :=
  sortBy (fun left right =>
      thenBy (runtime.localeCompare left.workItemId right.workItemId)
        (runtime.localeCompare left.dependencyItemId right.dependencyItemId))
    (definitions.flatMap fun definition =>
      definition.2.map fun dependency => ⟨missionId, definition.1, dependency⟩)

def validateGraph (missionId : String) (definitions : List (String × List String)) :
    Except String (List DependencyEdge) := do
  checkGraph definitions
  return graphEdges runtime missionId definitions

end Graph

end Deckent.Mission
