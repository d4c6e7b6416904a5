import Deckent.Model.MissionStore

/-!
# Approvals and failed dependencies

An item whose policy asks for an approval is parked with a request, and a decision on the request lets it
back among the pending items or ends it. An item that depends on one that failed is blocked.
-/

namespace Deckent.Mission

/-! ### Approvals -/

/-- What `validateStoredApprovalRequest` and `validateStoredApprovalDecision` accept. -/
structure ApprovalContract where
  validRequest : ApprovalRequest → Bool
  validDecision : ApprovalDecision → Bool

section Approval

variable (runtime : JsonRuntime) (contract : ApprovalContract) (now : Int)

def WorkItemPolicy.wantsApproval : WorkItemPolicy → Bool
  | auto => false
  | approvalRequired | riskTagged => true

def MissionDb.isApprovalCandidate (db : MissionDb) (itemId : String) (row : WorkItemRow) : Bool :=
  row.id = itemId && row.status = .pending && row.policy.wantsApproval
    && db.missionIsLive row.missionId && db.dependencySatisfied row

def failureResult (reason : String) : Json :=
  .object [("ok", .bool false), ("reason", .string reason)]

def MissionDb.parkCandidate (db : MissionDb) (itemId : String) (result : Option Json) : MissionDb :=
  db.updateItems (db.isApprovalCandidate itemId) fun row => row.closed .parked result now

def MissionDb.parkInvalidApprovalCandidate (db : MissionDb) (itemId reason : String) :
    MissionDb × Bool :=
  let db := db.quarantine runtime now (some itemId)
  (db.parkCandidate now itemId (some (failureResult ("APPROVAL_REQUEST_INVALID: " ++ reason))),
    db.changes (db.isApprovalCandidate itemId) = 1)

/-- `rowToApprovalBinding`, which checks what it reads. -/
def checkApprovalBinding (row : ApprovalRow) : Except String ApprovalRow :=
  if !contract.validRequest row.request || row.request.id ≠ row.requestId then
    .error s!"MISSION_APPROVAL_CORRUPT: invalid request binding {row.requestId}"
  else if row.decision.any fun decision =>
      !contract.validDecision decision || decision.requestId ≠ row.requestId then
    .error s!"MISSION_APPROVAL_CORRUPT: invalid decision binding {row.requestId}"
  else .ok row

def newApprovalRow (itemId : String) (request : ApprovalRequest) : ApprovalRow where
  workItemId := itemId
  requestId := request.id
  request := request
  isPublished := false
  decisionState := .pending
  decision := none
  createdAt := now
  publishedAt := none
  decidedAt := none
  updatedAt := now

/-- `INSERT INTO work_item_approvals`. Both the item and the request are keys. -/
def MissionDb.insertApproval (db : MissionDb) (row : ApprovalRow) : Except String MissionDb :=
  if db.approvals.any (·.workItemId = row.workItemId) then
    .error "UNIQUE constraint failed: work_item_approvals.work_item_id"
  else if db.approvals.any (·.requestId = row.requestId) then
    .error "UNIQUE constraint failed: work_item_approvals.request_id"
  else .ok { db with approvals := db.approvals ++ [row] }

def MissionDb.approval? (db : MissionDb) (selects : ApprovalRow → Bool) : Option ApprovalRow :=
  db.approvals.find? fun row => selects row && (db.item? row.workItemId).isSome

/-- The transaction of `parkItemForApproval`. -/
def MissionDb.bindApproval (db : MissionDb) (itemId : String) (request : ApprovalRequest) :
    Except String (Option ApprovalRow × MissionDb) :=
  match db.approval? (·.workItemId = itemId) with
  | some existing => do
      let binding ← checkApprovalBinding contract existing
      if binding.requestId ≠ request.id then
        .error s!"MISSION_APPROVAL_CONFLICT: item {itemId} already bound to {binding.requestId}"
      else .ok (some binding, db)
  | none =>
      if db.changes (db.isApprovalCandidate itemId) ≠ 1 then
        .ok (none, db.parkCandidate now itemId none)
      else do
        let db ← (db.parkCandidate now itemId none).insertApproval (newApprovalRow now itemId request)
        let binding ← checkApprovalBinding contract (newApprovalRow now itemId request)
        return (some binding, db)

def approvalError (error : String) : String :=
  if error.startsWith "MISSION_APPROVAL_" then error else "MISSION_APPROVAL_CONFLICT: " ++ error

def MissionDb.parkItemForApproval (db : MissionDb) (itemId : String) (request : ApprovalRequest) :
    MissionDb × Except String (Option ApprovalRow) :=
  let db := db.quarantine runtime now (some itemId)
  transaction db ((db.bindApproval contract now itemId request).mapError approvalError)

def MissionDb.markApprovalPublished (db : MissionDb) (requestId : String) : MissionDb :=
  { db with
    approvals := db.approvals.map fun row =>
      if row.requestId = requestId then
        { row with isPublished := true, publishedAt := row.publishedAt.or (some now), updatedAt := now }
      else row }

def ApprovalState.text : ApprovalState → String
  | pending => "pending"
  | allowed => "allowed"
  | denied => "denied"
  | expired => "expired"
  | deferred => "deferred"
  | escalated => "escalated"

inductive SettledApproval where
  | allowed
  | denied
  | expired
  | deferred
  | escalated
  deriving DecidableEq

def SettledApproval.state : SettledApproval → ApprovalState
  | allowed => .allowed
  | denied => .denied
  | expired => .expired
  | deferred => .deferred
  | escalated => .escalated

def ApprovalDecision.agreesWith (decision : ApprovalDecision) (state : SettledApproval) : Bool :=
  match state with
  | .allowed => decision.decision = .allow && decision.channel ≠ "ttl-expire"
  | .denied => decision.decision = .deny && decision.channel ≠ "ttl-expire"
  | .expired => decision.channel = "ttl-expire"
  | .deferred => decision.decision = .defer && decision.channel ≠ "ttl-expire"
  | .escalated => decision.decision = .escalate && decision.channel ≠ "ttl-expire"

def SettledApproval.itemStatus : SettledApproval → WorkItemStatus
  | allowed => .pending
  | denied | expired => .blocked
  | deferred | escalated => .parked

def SettledApproval.itemResult (state : SettledApproval) (requestId : String)
    (decision : ApprovalDecision) : Option Json :=
  let blocked (name : String) : Option Json :=
    some (.object [("ok", .bool false), ("reason", .string (s!"APPROVAL_{name}: {requestId}")),
      ("approvalDecision", decision.body)])
  match state with
  | .denied => blocked "DENIED"
  | .expired => blocked "EXPIRED"
  | _ => none

/-- The row with a decision. -/
def ApprovalRow.settled (row : ApprovalRow) (state : SettledApproval) (decision : ApprovalDecision) :
    ApprovalRow :=
  { row with
    decisionState := state.state
    decision := some decision
    decidedAt := some decision.decidedAt
    updatedAt := now }

def MissionDb.settleApproval (db : MissionDb) (requestId : String) (state : SettledApproval)
    (decision : ApprovalDecision) : MissionDb :=
  { db with
    approvals := db.approvals.map fun row =>
      if row.requestId = requestId then row.settled now state decision else row }

def WorkItemRow.awaitsDecision (itemId : String) (row : WorkItemRow) : Bool :=
  row.id = itemId && (row.status = .parked || row.status = .pending)

/-- The transaction of `applyApprovalDecision`. The answer is whether anything changed. -/
def MissionDb.decideApproval (db : MissionDb) (requestId : String) (state : SettledApproval)
    (decision : ApprovalDecision) : Except String (Option Bool × MissionDb) :=
  match db.approval? (·.requestId = requestId) with
  | none => .ok (none, db)
  | some row => do
      let binding ← checkApprovalBinding contract row
      if binding.decisionState = .pending then
        .ok (some true, (db.updateItems (·.awaitsDecision binding.workItemId) fun item =>
          item.closed state.itemStatus (state.itemResult requestId decision) now).settleApproval now
            requestId state decision)
      else if binding.decisionState ≠ state.state
          ∨ canonicalJson runtime ((binding.decision.map (·.body)).getD .null)
            ≠ canonicalJson runtime decision.body then
        .error (s!"MISSION_APPROVAL_DECISION_CONFLICT: request {requestId} already settled as "
          ++ binding.decisionState.text)
      else .ok (some false, db)

def MissionDb.applyApprovalDecision (db : MissionDb) (requestId : String) (state : SettledApproval)
    (decision : ApprovalDecision) : MissionDb × Except String (Option Bool) :=
  if decision.requestId ≠ requestId || !decision.agreesWith state then
    (db, .error (s!"MISSION_APPROVAL_DECISION_INVALID: {requestId} cannot transition to "
      ++ state.state.text))
  else transaction db (db.decideApproval runtime contract now requestId state decision)

end Approval

/-! ### Failed dependencies of the missions without a graph of their own -/

section Legacy

inductive DependencyFailureStatus where
  | failed
  | blocked
  deriving DecidableEq

def DependencyFailureStatus.status : DependencyFailureStatus → WorkItemStatus
  | failed => .failed
  | blocked => .blocked

structure DependencyFailure where
  status : DependencyFailureStatus
  reason : String

structure MissionItems where
  items : List WorkItemRow
  dependsOn : WorkItemRow → List String

variable (mission : MissionItems)

def MissionItems.byId (id : String) : Option WorkItemRow := mission.items.find? (·.id = id)

def MissionItems.pendingIds : List String :=
  (mission.items.filter (·.status = .pending)).map (·.id)

def MissionItems.dependencies (id : String) : List String :=
  ((mission.byId id).map mission.dependsOn).getD []

abbrev DependencyFailures := OrderedMap String DependencyFailure

def MissionItems.missing : DependencyFailures :=
  mission.pendingIds.foldl (fun failures id =>
    match (mission.dependencies id).filter fun dependency => (mission.byId dependency).isNone with
    | [] => failures
    | first :: rest => failures.set id ⟨.failed,
        "DEPENDENCY_NOT_FOUND: " ++ ", ".intercalate (sortBy compareCodePoint (first :: rest))⟩)
    .empty

/-- The state of the search for cycles. The items in `stack` are being visited. -/
structure CycleSearch where
  visited : List String
  stack : List String
  cycleIds : List String

/-- `visit`. The fuel bounds the stack. -/
def MissionItems.visit : Nat → String → CycleSearch → CycleSearch
  | 0, _, search => search
  | fuel + 1, id, search =>
      if search.visited.contains id then search
      else if search.stack.contains id then
        { search with
          cycleIds := search.cycleIds ++ (search.stack.dropWhile (· ≠ id)).filter
            fun cycleId => !search.cycleIds.contains cycleId }
      else
        let entered := { search with stack := search.stack ++ [id] }
        let searched := (mission.dependencies id).foldl (fun search dependency =>
          if mission.pendingIds.contains dependency then MissionItems.visit fuel dependency search
          else search) entered
        { searched with stack := searched.stack.dropLast, visited := searched.visited ++ [id] }

def MissionItems.cycleIds : List String :=
  (mission.pendingIds.foldl (fun search id => mission.visit (mission.pendingIds.length + 1) id search)
    ⟨[], [], []⟩).cycleIds

def MissionItems.withCycles (failures : DependencyFailures) : DependencyFailures :=
  let cycle := ", ".intercalate (sortBy compareCodePoint mission.cycleIds)
  mission.cycleIds.foldl (fun failures id => failures.set id ⟨.failed, "DEPENDENCY_CYCLE: " ++ cycle⟩)
    failures

def MissionItems.propagateOnce (failures : DependencyFailures) : DependencyFailures :=
  mission.pendingIds.foldl (fun failures id =>
    if failures.contains id then failures
    else
      match (mission.dependencies id).find? fun dependency =>
          (mission.byId dependency).any (fun row => row.status = .failed || row.status = .blocked)
            || failures.contains dependency with
      | some dependency =>
          -- `if (failedDependency)`, which an empty text does not pass.
          if dependency = "" then failures
          else failures.set id ⟨.blocked, "DEPENDENCY_FAILED: " ++ dependency⟩
      | none => failures)
    failures

def MissionItems.propagate : Nat → DependencyFailures → DependencyFailures
  | 0, failures => failures
  | fuel + 1, failures =>
      let next := mission.propagateOnce failures
      if next.entries.length = failures.entries.length then next else MissionItems.propagate fuel next

def MissionItems.failures : DependencyFailures :=
  mission.propagate (mission.pendingIds.length + 1) (mission.withCycles mission.missing)

end Legacy

section Reconcile

variable (runtime : JsonRuntime) (now : Int)

def compareTime (left right : Int) : Int := left - right

def MissionDb.missionItems (db : MissionDb) (missionId : String) : MissionItems where
  items := sortBy (fun left right => compareTime left.createdAt right.createdAt)
    (db.items.filter (·.missionId = missionId))
  dependsOn := db.dependsOn

def MissionDb.failPending (db : MissionDb) (selects : WorkItemRow → Bool)
    (failure : DependencyFailure) : MissionDb :=
  db.updateItems (fun row => selects row && row.status = .pending)
    fun row => row.closed failure.status.status (some (failureResult failure.reason)) now

def MissionDb.reconcileMission (db : MissionDb) (missionId : String) : MissionDb :=
  (db.missionItems missionId).failures.entries.foldl (fun db failure =>
    db.failPending now (·.id = failure.1) failure.2) db

def MissionDb.legacyMissions (db : MissionDb) : List String :=
  sortBy compareText (((db.items.filter fun row => row.status = .pending
    && (db.authority? row.missionId).isNone).map (·.missionId)).eraseDups)

/-! ### Failed dependencies of the missions with a graph -/

def ReconcileJob.isTurnOf (job other : ReconcileJob) : Bool :=
  other.missionId = job.missionId && other.upstreamItemId = job.upstreamItemId
    && other.upstreamRevision = job.upstreamRevision && other.outcome = job.outcome && !other.isDone

def WorkItemStatus.text : WorkItemStatus → String
  | pending => "pending"
  | running => "running"
  | done => "done"
  | failed => "failed"
  | blocked => "blocked"
  | parked => "parked"

def compareJobs (left right : ReconcileJob) : Int :=
  thenBy (compareNumber left.turnSeq right.turnSeq) <|
    thenBy (compareTime left.updatedAt right.updatedAt) <|
      thenBy (compareText left.missionId right.missionId) <|
        thenBy (compareText left.upstreamItemId right.upstreamItemId) <|
          thenBy (compareNumber left.upstreamRevision right.upstreamRevision)
            (compareText left.outcome.text right.outcome.text)

def MissionDb.nextJob (db : MissionDb) : Option ReconcileJob :=
  (sortBy compareJobs (db.queue.filter (!·.isDone))).head?

def MissionDb.updateJob (db : MissionDb) (selects : ReconcileJob → Bool)
    (set : ReconcileJob → ReconcileJob) : MissionDb :=
  { db with queue := db.queue.map fun job => if selects job then set job else job }

def MissionDb.nextDependants (db : MissionDb) (job : ReconcileJob) (count : Nat) : List String :=
  (sortBy compareText ((db.edges.filter fun edge => edge.missionId = job.missionId
    && edge.dependencyItemId = job.upstreamItemId
    && job.cursorWorkItemId < edge.workItemId).map (·.workItemId))).take count

def MissionDb.takeTurn (db : MissionDb) (job : ReconcileJob) (dependants : List String) : MissionDb :=
  let db :=
    if job.outcome = .failed || job.outcome = .blocked then
      dependants.foldl (fun db id =>
        db.failPending now (fun row => row.missionId = job.missionId && row.id = id)
          ⟨.blocked, "DEPENDENCY_FAILED: " ++ job.upstreamItemId⟩) db
    else db
  db.updateJob (fun other => job.isTurnOf other && other.cursorWorkItemId = job.cursorWorkItemId)
    fun other => { other with
      cursorWorkItemId := dependants.getLastD ""
      turnSeq := other.turnSeq + 1
      updatedAt := now }

def MissionDb.drainQueue (maxEdgesPerJob : Nat) : Nat → Nat → MissionDb → MissionDb
  | 0, _, db => db
  | fuel + 1, remainingBudget, db =>
      if remainingBudget = 0 then db
      else match db.nextJob with
        | none => db
        | some job =>
            match db.nextDependants job (min maxEdgesPerJob remainingBudget) with
            | [] => MissionDb.drainQueue maxEdgesPerJob fuel remainingBudget
                (db.updateJob job.isTurnOf fun other => { other with isDone := true, updatedAt := now })
            | first :: rest => MissionDb.drainQueue maxEdgesPerJob fuel
                (remainingBudget - (first :: rest).length) (db.takeTurn now job (first :: rest))

structure DependencyReconciliationOptions where
  maxEdges : Option JsNumber
  maxEdgesPerJob : Option JsNumber

def defaultDependencyReconcileMaxEdges : JsNumber := 256

def defaultDependencyReconcileMaxEdgesPerJob : JsNumber := 64

def DependencyReconciliationOptions.bounds (opts : DependencyReconciliationOptions) :
    Option (Nat × Nat) :=
  match (opts.maxEdges.getD defaultDependencyReconcileMaxEdges).toPositive?,
      (opts.maxEdgesPerJob.getD defaultDependencyReconcileMaxEdgesPerJob).toPositive? with
  | some maxEdges, some maxEdgesPerJob =>
      if maxEdgesPerJob ≤ maxEdges then some (maxEdges, maxEdgesPerJob) else none
  | _, _ => none

def MissionDb.reconcileFuel (db : MissionDb) (maxEdges : Nat) : Nat :=
  maxEdges + db.queue.length + db.items.length + 1

def MissionDb.reconcilePendingDependencies (db : MissionDb) (opts : DependencyReconciliationOptions) :
    MissionDb × Except String Unit :=
  match opts.bounds with
  | none => (db, .error "MISSION_DEPENDENCY_RECONCILE_BOUNDS_INVALID")
  | some (maxEdges, maxEdgesPerJob) =>
      let db := db.quarantine runtime now none
      let db := db.legacyMissions.foldl (fun db missionId => db.reconcileMission now missionId) db
      (MissionDb.drainQueue now maxEdgesPerJob (db.reconcileFuel maxEdges) maxEdges db, .ok ())

end Reconcile

end Deckent.Mission
