import Deckent.Model.MissionDispatch

/-!
# Engines that share the mission store
An engine takes the lease, claims and settles items under it, recovers what the engine before it has left
running, and acknowledges a recovery once its receipt has come to an end. Any number of engines do so on
one store. Each call is atomic, and each engine passes a lease that the store has given to it.
-/

namespace Deckent.Mission

/-! ### Acknowledgements -/

inductive MissionDispatchRecoveryOutcome where
  | receiptReconciled
  | receiptAlreadyTerminal
  deriving DecidableEq

structure MissionDispatchRecoveryAcknowledgement where
  schemaVersion : Nat
  recoveryId : String
  outcome : MissionDispatchRecoveryOutcome
  invocationId : String
  receiptEventId : String
  receiptEventHash : String
  acknowledgedAt : String
  deriving DecidableEq

/-- The tables of the store, with the acknowledgements of recoveries. -/
structure EngineStore where
  tables : MissionDb
  acknowledgements : List MissionDispatchRecoveryAcknowledgement

section Acknowledge

variable (dateParse : String → Option Int) (now : Int)

def assertDispatchRecoveryAcknowledgement (value : MissionDispatchRecoveryAcknowledgement) :
    Except String Unit :=
  if value.schemaVersion ≠ 1 ∨ value.recoveryId = "" ∨ value.invocationId = ""
      ∨ value.receiptEventId = "" ∨ !isSha256Text value.receiptEventHash
      ∨ (dateParse value.acknowledgedAt).isNone then
    .error "MISSION_DISPATCH_RECOVERY_ACK_INVALID"
  else .ok ()

def EngineStore.pendingRecoveries (store : EngineStore) : List RecoveredDispatchAttempt :=
  sortBy (fun left right => thenBy (compareTime (left.observedAt.getD 0) (right.observedAt.getD 0))
      (compareText left.recoveryId right.recoveryId))
    (store.tables.recoveries.filter fun recovery =>
      !store.acknowledgements.any (·.recoveryId = recovery.recoveryId))

def EngineStore.recover (store : EngineStore) (runtime : JsonRuntime) (lease : MissionEngineLease) :
    EngineStore × Except String (List RecoveredDispatchAttempt) :=
  match store.tables.recover runtime now lease with
  | (_, .error error) => (store, .error error)
  | (tables, .ok _) =>
      let next : EngineStore := { store with tables := tables }
      (next, .ok next.pendingRecoveries)

/-- The first acknowledgement of a recovery is kept. The answer is whether it is this one. -/
def EngineStore.acknowledgeDispatchRecovery (store : EngineStore)
    (acknowledgement : MissionDispatchRecoveryAcknowledgement) (lease : MissionEngineLease) :
    EngineStore × Except String Bool :=
  if !store.tables.isEngineLeaseActive now lease then
    (store, .error s!"MISSION_ENGINE_LEASE_LOST: recovery acknowledgement {lease.ownerId}")
  else match assertDispatchRecoveryAcknowledgement dateParse acknowledgement with
    | .error error => (store, .error error)
    | .ok () =>
        if !store.tables.recoveries.any (·.recoveryId = acknowledgement.recoveryId) then
          (store, .error s!"MISSION_DISPATCH_RECOVERY_NOT_FOUND: {acknowledgement.recoveryId}")
        else match store.acknowledgements.find? (·.recoveryId = acknowledgement.recoveryId) with
          | none =>
              ({ store with acknowledgements := store.acknowledgements ++ [acknowledgement] }, .ok true)
          | some existing =>
              if existing = acknowledgement then (store, .ok false)
              else (store,
                .error s!"MISSION_DISPATCH_RECOVERY_ACK_CONFLICT: {acknowledgement.recoveryId}")

end Acknowledge

/-! ### Turns of the engines -/

inductive EngineCall where
  | acquireEngineLease (ownerId : String) (ttlMs : JsNumber) (leaseToken : String)
  | renewEngineLease (lease : MissionEngineLease) (ttlMs : JsNumber)
  | releaseEngineLease (lease : MissionEngineLease)
  | claimItemWithAuthority (id : String) (attempt : ClaimAttempt) (fence : Option MissionClaimFence)
      (lease : MissionEngineLease)
  | settleClaimedItem (claim : MissionDispatchClaim) (status : SettlementStatus)
      (result : Option Json) (lease : MissionEngineLease)
  | recover (lease : MissionEngineLease)
  | acknowledgeDispatchRecovery (acknowledgement : MissionDispatchRecoveryAcknowledgement)
      (lease : MissionEngineLease)

def EngineCall.lease? : EngineCall → Option MissionEngineLease
  | acquireEngineLease _ _ _ => none
  | renewEngineLease lease _ | releaseEngineLease lease | claimItemWithAuthority _ _ _ lease
  | settleClaimedItem _ _ _ lease | recover lease | acknowledgeDispatchRecovery _ lease => some lease

inductive EngineAnswer where
  | lease (answer : Except String (Option MissionEngineLease))
  | released (answer : Bool)
  | claimed (answer : Except String (Option MissionDispatchClaim))
  | settled (answer : Except String Bool)
  | recovered (answer : Except String (List RecoveredDispatchAttempt))
  | acknowledged (answer : Except String Bool)

def EngineAnswer.lease? : EngineAnswer → Option MissionEngineLease
  | lease (.ok answer) => answer
  | _ => none

/-- A call, and the milliseconds on the clock when the store runs it. -/
structure EngineTurn where
  now : Nat
  call : EngineCall

/-- The store, and the leases that it has given out. -/
structure EngineWorld where
  store : EngineStore
  issued : List MissionEngineLease

section Turn

variable (runtime : JsonRuntime) (dateParse : String → Option Int)

def EngineStore.on (store : EngineStore) {α : Type} (answer : α → EngineAnswer)
    (result : MissionDb × α) : EngineStore × EngineAnswer :=
  ({ store with tables := result.1 }, answer result.2)

/-- One call on the store, and its answer. -/
def EngineStore.perform (store : EngineStore) (turn : EngineTurn) : EngineStore × EngineAnswer :=
  match turn.call with
  | .acquireEngineLease ownerId ttlMs leaseToken =>
      store.on .lease (store.tables.acquireEngineLease turn.now ownerId ttlMs leaseToken)
  | .renewEngineLease lease ttlMs =>
      store.on .lease (store.tables.renewEngineLease turn.now lease ttlMs)
  | .releaseEngineLease lease => store.on .released (store.tables.releaseEngineLease lease)
  | .claimItemWithAuthority id attempt fence lease =>
      store.on .claimed
        (store.tables.claimItemWithAuthority runtime turn.now id attempt fence (some lease))
  | .settleClaimedItem claim status result lease =>
      store.on .settled
        (store.tables.settleClaimedItem runtime turn.now claim status result (some lease))
  | .recover lease =>
      let (next, answer) := store.recover turn.now runtime lease
      (next, .recovered answer)
  | .acknowledgeDispatchRecovery acknowledgement lease =>
      let (next, answer) :=
        store.acknowledgeDispatchRecovery dateParse turn.now acknowledgement lease
      (next, .acknowledged answer)

def EngineWorld.answer (world : EngineWorld) (turn : EngineTurn) : EngineAnswer :=
  (world.store.perform runtime dateParse turn).2

def EngineWorld.after (world : EngineWorld) (turn : EngineTurn) : EngineWorld where
  store := (world.store.perform runtime dateParse turn).1
  issued := world.issued ++ (world.answer runtime dateParse turn).lease?.toList

def EngineWorld.run (world : EngineWorld) (turns : List EngineTurn) : EngineWorld :=
  turns.foldl (EngineWorld.after runtime dateParse) world

def EngineWorld.OwnLeases (world : EngineWorld) (turns : List EngineTurn) : Prop :=
  ∀ before turn rest, turns = before ++ turn :: rest →
    ∀ lease ∈ turn.call.lease?, lease ∈ (world.run runtime dateParse before).issued

end Turn

end Deckent.Mission

/-! ### What the mission store reports

A reconciliation answers with the missions whose items it has changed, and a query with the items that are
due. The counters of the readiness table are not among the tables, and what they let through is a
parameter. -/

namespace Deckent.Mission

section Report

variable (runtime : JsonRuntime) (now : Int)

/-! ### Reports of the reconciliations -/

def MissionDb.triggerChanges (db : MissionDb) (itemId : Option String) : List String :=
  (db.items.filter fun row => row.status.isOpen && row.concerns itemId
    && (triggerQuarantine runtime row).any fun quarantine =>
      !row.isQuarantined runtime quarantine.1 quarantine.2).map (·.missionId)

/-- The loop of `reconcileRuntimeAdmission` changes the row. -/
def MissionDb.rejectsRow (db : MissionDb) (registry : MissionRunnerRegistry) (row : WorkItemRow) : Bool :=
  if classifyPersistedTrigger row.trigger ≠ .oneOff then false
  else
    let fence := db.fence? row.id
    match validateWorkItemAdmission runtime (db.definitionOf row) fence registry with
    | .error _ | .ok none => false
    | .ok (some rejection) =>
        !keepsVerdict row fence registry rejection
          && !row.isQuarantined runtime rejection.disposition.status
            (admissionResult row fence registry rejection)
          && db.changes (fun other =>
            other.id = row.id && other.revision = row.revision && other.status.isOpen) = 1

def admissionLoopChanges (registry : MissionRunnerRegistry) : List WorkItemRow → MissionDb → List String
  | [], _ => []
  | row :: rest, db =>
      match db.admitRow runtime now registry row with
      | .ok next =>
          (if db.rejectsRow runtime registry row then [row.missionId] else [])
            ++ admissionLoopChanges registry rest next
      | .error _ => []

/-- What `reconcileRuntimeAdmission` returns. The rows of unsupported kinds are not among it. -/
def MissionDb.runtimeAdmissionChanges (db : MissionDb) (registry : MissionRunnerRegistry)
    (itemId : Option String) : List String :=
  let db := db.reconcileUnsupportedKinds now itemId
  let rows := db.items.filter fun row => row.status.isOpen && row.concerns itemId
  admissionLoopChanges runtime now registry rows db
    ++ (admitRows runtime now registry rows db).1.triggerChanges runtime itemId

def MissionDb.failsPending (db : MissionDb) (selects : WorkItemRow → Bool) : Bool :=
  db.changes (fun row => selects row && row.status = .pending) = 1

def MissionDb.failsOne (db : MissionDb) : List (String × DependencyFailure) → Bool
  | [] => false
  | failure :: rest =>
      db.failsPending (·.id = failure.1)
        || MissionDb.failsOne (db.failPending now (·.id = failure.1) failure.2) rest

def MissionDb.legacyChanges (db : MissionDb) : List String → List String
  | [] => []
  | missionId :: rest =>
      (if db.failsOne now (db.missionItems missionId).failures.entries then [missionId] else [])
        ++ MissionDb.legacyChanges (db.reconcileMission now missionId) rest

def MissionDb.blocksOne (db : MissionDb) (job : ReconcileJob) : List String → Bool
  | [] => false
  | id :: rest =>
      db.failsPending (fun row => row.missionId = job.missionId && row.id = id)
        || MissionDb.blocksOne (db.failPending now
          (fun row => row.missionId = job.missionId && row.id = id)
          ⟨.blocked, "DEPENDENCY_FAILED: " ++ job.upstreamItemId⟩) job rest

def MissionDb.queueChanges (maxEdgesPerJob : Nat) : Nat → Nat → MissionDb → List String
  | 0, _, _ => []
  | fuel + 1, remainingBudget, db =>
      if remainingBudget = 0 then []
      else match db.nextJob with
        | none => []
        | some job =>
            match db.nextDependants job (min maxEdgesPerJob remainingBudget) with
            | [] => MissionDb.queueChanges maxEdgesPerJob fuel remainingBudget
                (db.updateJob job.isTurnOf fun other => { other with isDone := true, updatedAt := now })
            | first :: rest =>
                (if (job.outcome = .failed || job.outcome = .blocked)
                    && db.blocksOne now job (first :: rest) then [job.missionId] else [])
                  ++ MissionDb.queueChanges maxEdgesPerJob fuel
                    (remainingBudget - (first :: rest).length) (db.takeTurn now job (first :: rest))

/-- What `reconcilePendingDependencies` returns. The rows that its quarantines change are not among it. -/
def MissionDb.pendingDependencyChanges (db : MissionDb) (opts : DependencyReconciliationOptions) :
    List String :=
  match opts.bounds with
  | none => []
  | some (maxEdges, maxEdgesPerJob) =>
      let db := db.quarantine runtime now none
      let reconciled := db.legacyMissions.foldl (fun db missionId => db.reconcileMission now missionId) db
      db.legacyChanges now db.legacyMissions
        ++ MissionDb.queueChanges now maxEdgesPerJob (reconciled.reconcileFuel maxEdges) maxEdges
          reconciled

def MissionDb.hasPendingDependencyReconciliation (db : MissionDb) : Bool := db.queue.any (!·.isDone)

/-! ### Items that are due -/

structure DueItem where
  row : WorkItemRow
  admissionFence : Option WorkItemAdmissionFence

variable (isReady : MissionDb → WorkItemRow → Bool)

/-- What `queryDue` selects. -/
def MissionDb.isDue (db : MissionDb) (kinds : List WorkItemKind)
    (registry : Option MissionRunnerRegistry) (row : WorkItemRow) : Bool :=
  row.status = .pending && db.missionIsLive row.missionId && kinds.contains row.kind
    && db.policyAllows row && isReady db row && db.dependencySatisfied row
    && registry.all fun registry => (db.fence? row.id).any fun fence =>
      fence.registryRevision = registry.registryRevision
        && fence.registryDigest = registry.registryDigest

def MissionDb.selectDue (db : MissionDb) (kinds : List WorkItemKind)
    (registry : Option MissionRunnerRegistry) (limit : Option Nat) : List DueItem :=
  let rows := sortBy (fun left right => compareTime left.createdAt right.createdAt)
    (db.items.filter (db.isDue isReady kinds registry))
  let rows := match limit with
    | some limit => rows.take limit
    | none => rows
  rows.map fun row => ⟨row, db.fence? row.id⟩

def admitDue (registry : MissionRunnerRegistry) :
    List DueItem → MissionDb → MissionDb × Except String (List DueItem)
  | [], db => (db, .ok [])
  | item :: rest, db =>
      match validateWorkItemAdmission runtime (db.definitionOf item.row) item.admissionFence registry with
      | .error error => (db, .error error)
      | .ok none =>
          let (db, others) := admitDue registry rest db
          (db, others.map (item :: ·))
      | .ok (some _) =>
          match db.reconcileRuntimeAdmission runtime now registry (some item.row.id) with
          | (db, .error error) => (db, .error error)
          | (db, .ok ()) => admitDue registry rest db

def MissionDb.queryDue (db : MissionDb) (registry : Option MissionRunnerRegistry)
    (limit : Option Nat) : MissionDb × Except String (List DueItem) :=
  match registry with
  | none =>
      let db := db.quarantine runtime now none
      (db, .ok (db.selectDue isReady canonicalWorkItemKinds none limit))
  | some registry =>
      match db.reconcileRuntimeAdmission runtime now registry none with
      | (db, .error error) => (db, .error error)
      | (db, .ok ()) =>
          match listRuntimeAdmittedKinds runtime registry with
          | .error error => (db, .error error)
          | .ok [] => (db, .ok [])
          | .ok kinds =>
              admitDue runtime now registry (db.selectDue isReady kinds (some registry) limit) db

end Report

end Deckent.Mission
