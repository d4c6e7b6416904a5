import Deckent.Model.MissionOperations

/-!
# Claims of work items

An engine claims a pending item, runs it and settles the claim. One engine at a time holds the lease, and
the one that takes over recovers what the last one has left running. Any number of engines call the store,
and a run is the sequence of their calls.
-/

namespace Deckent.Mission

/-! ### The lease of the engine -/

structure MissionEngineLease where
  schemaVersion : Nat
  ownerId : String
  epoch : Nat
  acquiredAt : Option Int
  renewedAt : Option Int
  expiresAt : Option Int
  leaseToken : String
  leaseTokenHash : String

section Lease

variable (now : Int)

def claimTokenHash (token : String) : String := sha256Hex token

def validEngineLeaseShape (lease : MissionEngineLease) : Bool :=
  lease.schemaVersion = 1 && nonEmptyCanonicalString lease.ownerId && 1 ≤ lease.epoch
    && lease.leaseToken ≠ "" && lease.leaseTokenHash = claimTokenHash lease.leaseToken

def EngineLeaseRow.isOf (row : EngineLeaseRow) (lease : MissionEngineLease) : Bool :=
  row.ownerId = lease.ownerId && row.epoch = lease.epoch && row.leaseTokenHash = lease.leaseTokenHash

def assertLeaseTtl (ttlMs : JsNumber) : Except String Nat :=
  match ttlMs.toPositive? with
  | some ttl => .ok ttl
  | none => .error "MISSION_ENGINE_LEASE_INVALID: ttlMs"

def maxDateMs : Int := 8640000000000000

def invalidTimeValue : String := "RangeError: Invalid time value"

def MissionDb.acquireEngineLease (db : MissionDb) (ownerId : String) (ttlMs : JsNumber)
    (leaseToken : String) : MissionDb × Except String (Option MissionEngineLease) :=
  if !nonEmptyCanonicalString ownerId then (db, .error "MISSION_ENGINE_LEASE_INVALID: ownerId")
  else match assertLeaseTtl ttlMs with
    | .error error => (db, .error error)
    | .ok ttl =>
        if db.engineLease.any (now < ·.expiresAtMs) then (db, .ok none)
        else if maxDateMs < now + ttl then (db, .error invalidTimeValue)
        else
          let epoch := ((db.engineLease.map (·.epoch)).getD 0) + 1
          let row : EngineLeaseRow := ⟨ownerId, epoch, claimTokenHash leaseToken, now + ttl⟩
          ({ db with engineLease := some row },
            .ok (some ⟨1, ownerId, epoch, some now, some now, some (now + ttl), leaseToken,
              claimTokenHash leaseToken⟩))

def MissionDb.renewEngineLease (db : MissionDb) (lease : MissionEngineLease) (ttlMs : JsNumber) :
    MissionDb × Except String (Option MissionEngineLease) :=
  match assertLeaseTtl ttlMs with
  | .error error => (db, .error error)
  | .ok ttl =>
      if !validEngineLeaseShape lease then (db, .ok none)
      else if maxDateMs < now + ttl then (db, .error invalidTimeValue)
      else if db.engineLease.any (fun row => row.isOf lease && now < row.expiresAtMs) then
        ({ db with engineLease := db.engineLease.map fun row => { row with expiresAtMs := now + ttl } },
          .ok (some { lease with renewedAt := some now, expiresAt := some (now + ttl) }))
      else (db, .ok none)

def MissionDb.releaseEngineLease (db : MissionDb) (lease : MissionEngineLease) : MissionDb × Bool :=
  if validEngineLeaseShape lease && db.engineLease.any (·.isOf lease) then
    ({ db with engineLease := db.engineLease.map fun row => { row with expiresAtMs := 0 } }, true)
  else (db, false)

def MissionDb.isEngineLeaseActive (db : MissionDb) (lease : MissionEngineLease) : Bool :=
  validEngineLeaseShape lease && db.engineLease.any fun row => row.isOf lease && now < row.expiresAtMs

/-- `engineLeasePredicate`: `none` where the lease is malformed, else whether an update may go ahead. -/
def MissionDb.engineLeasePredicate (db : MissionDb) (engineLease : Option MissionEngineLease) :
    Option Bool :=
  match engineLease with
  | none => some true
  | some lease =>
      if validEngineLeaseShape lease then
        some (db.engineLease.any fun row => row.isOf lease && now < row.expiresAtMs)
      else none

end Lease

/-! ### Claims -/

structure MissionClaimFence where
  registry : MissionRunnerRegistry
  itemRevision : Nat
  admissionFence : WorkItemAdmissionFence

structure MissionDispatchClaim where
  schemaVersion : Nat
  workItemId : String
  missionId : String
  claimedBy : String
  claimedAt : Int
  itemRevision : Nat
  attemptId : String
  fenceToken : String
  fenceTokenHash : String
  claimRegistryRevision : Option String
  claimRegistryDigest : Option String

structure ClaimAttempt where
  claimedBy : String
  attemptId : String
  fenceToken : String

section Claim

variable (runtime : JsonRuntime) (now : Int)

def MissionDb.isClaimable (db : MissionDb) (id : String) (itemRevision : Nat) (kinds : List WorkItemKind)
    (row : WorkItemRow) : Bool :=
  row.id = id && row.status = .pending && row.revision = itemRevision && kinds.contains row.kind
    && db.missionIsLive row.missionId && db.policyAllows row && db.dependencySatisfied row

def MissionDb.hasFence (db : MissionDb) (fence : WorkItemAdmissionFence) (row : WorkItemRow) : Bool :=
  (db.fence? row.id).any fun found =>
    found.registryRevision = fence.registryRevision && found.registryDigest = fence.registryDigest
      && found.kind = row.kind && found.runnerRevision = fence.runnerRevision
      && found.itemDefinitionDigest = fence.itemDefinitionDigest

def WorkItemRow.claimed (row : WorkItemRow) (attempt : ClaimAttempt) : WorkItemRow :=
  { row with
    status := .running
    claimedAt := some now
    claimedBy := some attempt.claimedBy
    claimAttemptId := some attempt.attemptId
    claimFenceTokenHash := some (claimTokenHash attempt.fenceToken)
    revision := row.revision + 1
    updatedAt := now }

def WorkItemRow.claimedUnder (row : WorkItemRow) (attempt : ClaimAttempt)
    (fence : WorkItemAdmissionFence) : WorkItemRow :=
  { row.claimed now attempt with
    claimRegistryRevision := some fence.registryRevision
    claimRegistryDigest := some fence.registryDigest }

def dispatchClaim (current : WorkItemRow) (attempt : ClaimAttempt)
    (fence : Option WorkItemAdmissionFence) : MissionDispatchClaim where
  schemaVersion := 1
  workItemId := current.id
  missionId := current.missionId
  claimedBy := attempt.claimedBy
  claimedAt := now
  itemRevision := current.revision + 1
  attemptId := attempt.attemptId
  fenceToken := attempt.fenceToken
  fenceTokenHash := claimTokenHash attempt.fenceToken
  claimRegistryRevision := fence.map (·.registryRevision)
  claimRegistryDigest := fence.map (·.registryDigest)

def canonicalWorkItemKinds : List WorkItemKind := [.task, .sprint, .capability, .process]

/-- `UPDATE work_items` for a claim, and its answer. -/
def MissionDb.takeClaim (db : MissionDb) (selects : WorkItemRow → Bool) (set : WorkItemRow → WorkItemRow)
    (claim : MissionDispatchClaim) : Option MissionDispatchClaim × MissionDb :=
  if db.changes selects = 1 then (some claim, db.updateItems selects set)
  else (none, db.updateItems selects set)

/-- A claim under a registry, after the registry has been reconciled. -/
def MissionDb.claimUnder (db : MissionDb) (id : String) (attempt : ClaimAttempt)
    (fence : MissionClaimFence) (engineHolds : Bool) :
    Except String (Option MissionDispatchClaim × MissionDb) :=
  match db.item? id with
  | none => .ok (none, db)
  | some current =>
      let admissionFence := db.fence? id
      if current.revision ≠ fence.itemRevision || admissionFence.isNone
          || canonicalJson runtime (fenceJson admissionFence)
            ≠ canonicalJson runtime (fenceJson (some fence.admissionFence)) then
        .ok (none, db)
      else do
        let rejection ←
          validateWorkItemAdmission runtime (db.definitionOf current) admissionFence fence.registry
        if rejection.isSome then .ok (none, db)
        else do
          let runtimeKinds ← listRuntimeAdmittedKinds runtime fence.registry
          if runtimeKinds = [] then .ok (none, db)
          else .ok (db.takeClaim
            (fun row => db.isClaimable id fence.itemRevision runtimeKinds row
              && db.hasFence fence.admissionFence row && engineHolds)
            (fun row => row.claimedUnder now attempt fence.admissionFence)
            (dispatchClaim now current attempt (some fence.admissionFence)))

def MissionDb.claimPlain (db : MissionDb) (id : String) (attempt : ClaimAttempt) (engineHolds : Bool) :
    Option MissionDispatchClaim × MissionDb :=
  match db.item? id with
  | none => (none, db)
  | some current =>
      db.takeClaim
        (fun row => db.isClaimable id current.revision canonicalWorkItemKinds row && engineHolds)
        (fun row => row.claimed now attempt) (dispatchClaim now current attempt none)

/-- The transaction of `claimItemWithAuthority`. -/
def MissionDb.claimBody (db : MissionDb) (id : String) (attempt : ClaimAttempt)
    (fence : Option MissionClaimFence) (engineLease : Option MissionEngineLease) :
    Except String (Option MissionDispatchClaim × MissionDb) :=
  match db.engineLeasePredicate now engineLease with
  | none => .ok (none, db)
  | some engineHolds =>
      match fence with
      | some fence =>
          match db.reconcileRuntimeAdmission runtime now fence.registry (some id) with
          | (_, .error error) => .error error
          | (db, .ok ()) => db.claimUnder runtime now id attempt fence engineHolds
      | none => .ok ((db.quarantine runtime now (some id)).claimPlain now id attempt engineHolds)

def MissionDb.claimItemWithAuthority (db : MissionDb) (id : String) (attempt : ClaimAttempt)
    (fence : Option MissionClaimFence) (engineLease : Option MissionEngineLease) :
    MissionDb × Except String (Option MissionDispatchClaim) :=
  if !nonEmptyCanonicalString attempt.claimedBy then
    (db, .error "MISSION_DISPATCH_CLAIM_INVALID: claimedBy")
  else transaction db (db.claimBody runtime now id attempt fence engineLease)

/-! ### Settlement -/

inductive SettlementStatus where
  | done
  | failed
  | parked
  deriving DecidableEq

def SettlementStatus.status : SettlementStatus → WorkItemStatus
  | done => .done
  | failed => .failed
  | parked => .parked

def wellFormedClaim (claim : MissionDispatchClaim) : Bool :=
  claim.schemaVersion = 1 && claim.workItemId ≠ "" && claim.missionId ≠ "" && claim.claimedBy ≠ ""
    && claim.attemptId ≠ "" && claim.fenceToken ≠ ""
    && claim.fenceTokenHash = claimTokenHash claim.fenceToken

def adoptPlan (spec : Option Json) (ref : ExactPlanReference) : Json :=
  let members : List (String × Json) :=
    match spec with
    | some (.object members) => members
    | _ => []
  .object ((OrderedMap.setEntries "exactPlanRef" ref.json members).filter fun member =>
    member.1 ≠ "directivesRef" && member.1 ≠ "intent")

structure PlanAdoption where
  spec : Json
  priorFence : WorkItemAdmissionFence
  definitionDigest : String

def MissionSprintExecutionSource.agreesWith (ref : ExactPlanReference) :
    MissionSprintExecutionSource → Bool
  | .exactRef current => current = ref
  | _ => true

/-- The plan that a result brings along, if the claimed sprint may adopt it. -/
def MissionDb.adoption? (db : MissionDb) (claim : MissionDispatchClaim) (exactPlanRef : Json) :
    Option PlanAdoption :=
  match db.item? claim.workItemId, db.fence? claim.workItemId with
  | some current, some priorFence =>
      if current.kind ≠ .sprint ∨ current.missionId ≠ claim.missionId ∨ current.status ≠ .running
          ∨ current.revision ≠ claim.itemRevision then none
      else
        match resolveMissionSprintExecutionSource current.id (some current.missionId) current.spec,
            resolveMissionSprintExecutionSource current.id none
              (some (.object [("exactPlanRef", exactPlanRef)])) with
        | .ok currentSource, .ok (.exactRef returned) =>
            if currentSource.agreesWith returned then
              let spec := adoptPlan current.spec returned
              some ⟨spec, priorFence, computeWorkItemDefinitionDigest runtime
                { db.definitionOf current with spec := some spec }⟩
            else none
        | _, _ => none
  | _, _ => none

def WorkItemRow.holds (claim : MissionDispatchClaim) (row : WorkItemRow) : Bool :=
  row.id = claim.workItemId && row.missionId = claim.missionId && row.status = .running
    && row.claimedBy = some claim.claimedBy && row.claimedAt = some claim.claimedAt
    && row.revision = claim.itemRevision && row.claimAttemptId = some claim.attemptId
    && row.claimFenceTokenHash = some claim.fenceTokenHash

/-- The row after a settlement. Who has claimed it stays. -/
def WorkItemRow.settled (row : WorkItemRow) (status : SettlementStatus) (spec result : Option Json) :
    WorkItemRow :=
  { row with
    status := status.status
    spec := spec.or row.spec
    lastResult := result.or row.lastResult
    revision := row.revision + 1
    claimAttemptId := none
    claimFenceTokenHash := none
    updatedAt := now }

/-- `UPDATE work_item_admission_fences` for an adoption. -/
def MissionDb.updateFence (db : MissionDb) (id : String) (adoption : PlanAdoption) :
    Except String MissionDb :=
  let selects (row : FenceRow) : Bool := row.workItemId = id && row.fence = adoption.priorFence
  if (db.fences.filter selects).length = 1 then
    .ok { db with
      fences := db.fences.map fun row =>
        if selects row then
          { row with fence := { row.fence with itemDefinitionDigest := adoption.definitionDigest } }
        else row }
  else .error s!"MISSION_EXACT_PLAN_FENCE_CAS_CONFLICT: {id}"

/-- The update of `settleClaimedItem`, and of the fence where a plan is adopted. -/
def MissionDb.settleWith (db : MissionDb) (claim : MissionDispatchClaim) (status : SettlementStatus)
    (result : Option Json) (adoption : Option PlanAdoption) (engineHolds : Bool) :
    Except String (Bool × MissionDb) :=
  let selects (row : WorkItemRow) : Bool := row.holds claim && engineHolds
  let settled := db.updateItems selects fun row =>
    row.settled now status (adoption.map (·.spec)) result
  if db.changes selects ≠ 1 then .ok (false, settled)
  else match adoption with
    | none => .ok (true, settled)
    | some adoption => (settled.updateFence claim.workItemId adoption).map fun db => (true, db)

/-- The transaction of `settleClaimedItem`. -/
def MissionDb.settleBody (db : MissionDb) (claim : MissionDispatchClaim) (status : SettlementStatus)
    (result : Option Json) (engineLease : Option MissionEngineLease) : Except String (Bool × MissionDb) :=
  match db.engineLeasePredicate now engineLease with
  | none => .ok (false, db)
  | some engineHolds =>
      match specMember result "exactPlanRef" with
      | none => db.settleWith now claim status result none engineHolds
      | some exactPlanRef =>
          match db.adoption? runtime claim exactPlanRef with
          | none => .ok (false, db)
          | some adoption => db.settleWith now claim status result (some adoption) engineHolds

def MissionDb.settleClaimedItem (db : MissionDb) (claim : MissionDispatchClaim)
    (status : SettlementStatus) (result : Option Json) (engineLease : Option MissionEngineLease) :
    MissionDb × Except String Bool :=
  if !wellFormedClaim claim then (db, .ok false)
  else transaction db (db.settleBody runtime now claim status result engineLease)

inductive LegacyTerminalStatus where
  | done
  | failed
  deriving DecidableEq

def LegacyTerminalStatus.status : LegacyTerminalStatus → WorkItemStatus
  | done => .done
  | failed => .failed

def WorkItemRow.lacksResult (id : String) (expectedRevision : Nat) (status : LegacyTerminalStatus)
    (row : WorkItemRow) : Bool :=
  row.id = id && row.revision = expectedRevision && row.status = status.status
    && row.lastResult.isNone && row.claimedAt.isNone && row.claimedBy.isNone
    && row.claimAttemptId.isNone && row.claimFenceTokenHash.isNone

def MissionDb.backfillLegacyTerminalResult (db : MissionDb) (id : String) (expectedRevision : Nat)
    (status : LegacyTerminalStatus) (result : Json) : MissionDb × Bool :=
  if !nonEmptyCanonicalString id then (db, false)
  else
    let selects := WorkItemRow.lacksResult id expectedRevision status
    (db.updateItems selects fun row =>
        { row with lastResult := some result, revision := row.revision + 1, updatedAt := now },
      db.changes selects = 1)

/-! ### Recovery -/

def recoveryRequired : Json :=
  failureResult ("RECOVERY_RECONCILIATION_REQUIRED: prior running attempt has no terminal dispatch "
    ++ "evidence; automatic redrive refused")

/-- What recovery keeps of a running row, if the row has a whole claim. -/
def recoveredAttempt? (lease : MissionEngineLease) (tenant : String) (row : WorkItemRow) :
    Option RecoveredDispatchAttempt :=
  match row.claimedBy, row.claimedAt, row.claimAttemptId, row.claimFenceTokenHash with
  | some claimedBy, some claimedAt, some attemptId, some fenceTokenHash =>
      if tenant = "" ∨ row.missionId = "" ∨ row.id = "" ∨ claimedBy = "" ∨ attemptId = ""
          ∨ !isSha256Text fenceTokenHash ∨ row.revision < 1 then none
      else some {
        recoveryId := "mission-dispatch-recovery-" ++ claimTokenHash
          ((String.singleton (Char.ofNat 0)).intercalate
            [tenant, row.missionId, row.id, attemptId, fenceTokenHash])
        tenantId := tenant
        missionId := row.missionId
        workItemId := row.id
        claimedBy := claimedBy
        claimedAt := claimedAt
        itemRevision := row.revision
        attemptId := attemptId
        fenceTokenHash := fenceTokenHash
        claimRegistryRevision := row.claimRegistryRevision
        claimRegistryDigest := row.claimRegistryDigest
        observedByEngineOwnerId := lease.ownerId
        observedByEngineEpoch := lease.epoch
        observedAt := lease.acquiredAt }
  | _, _, _, _ => none

def journalRecoveries : List RecoveredDispatchAttempt → List RecoveredDispatchAttempt →
    Except String (List RecoveredDispatchAttempt)
  | [], kept => .ok kept
  | attempt :: rest, kept =>
      match kept.find? (·.recoveryId = attempt.recoveryId) with
      | some existing =>
          if existing = attempt then journalRecoveries rest kept
          else .error s!"MISSION_DISPATCH_RECOVERY_CONFLICT: {attempt.recoveryId}"
      | none =>
          if kept.any (·.attemptId = attempt.attemptId) then
            .error "UNIQUE constraint failed: mission_dispatch_recoveries.attempt_id"
          else journalRecoveries rest (kept ++ [attempt])

def MissionDb.runningAttempts (db : MissionDb) (lease : MissionEngineLease) :
    List RecoveredDispatchAttempt :=
  (sortBy (fun left right => compareText left.id right.id)
    (db.items.filter (·.status = .running))).filterMap fun row =>
      (db.mission? row.missionId).bind fun mission => recoveredAttempt? lease mission.tenant row

def MissionDb.parkRunning (db : MissionDb) : MissionDb :=
  (db.quarantine runtime now none).updateItems (·.status = .running)
    fun row => row.closed .parked (some recoveryRequired) now

/-- The transaction of `recover`. The answer is every attempt that is kept. -/
def MissionDb.recoverBody (db : MissionDb) (lease : MissionEngineLease) :
    Except String (List RecoveredDispatchAttempt × MissionDb) :=
  if !db.isEngineLeaseActive now lease then
    .error s!"MISSION_ENGINE_LEASE_LOST: recovery authority {lease.ownerId}"
  else do
    let recoveries ← journalRecoveries (db.runningAttempts lease) db.recoveries
    if recoveries.any (·.observedAt.isNone) then .error "MISSION_DISPATCH_RECOVERY_INTEGRITY_FAILURE"
    else .ok (recoveries, { db.parkRunning runtime now with recoveries := recoveries })

def MissionDb.recover (db : MissionDb) (lease : MissionEngineLease) :
    MissionDb × Except String (List RecoveredDispatchAttempt) :=
  transaction db (db.recoverBody runtime now lease)

end Claim

/-! ### Runs -/

inductive MissionCall where
  | createMission (normalized : Bool) (mission : NewMission)
  | createMissionWithItems (normalized : Bool) (mission : NewMission) (items : List NewMissionWorkItem)
  | importLegacyMissionWithItems (normalized : Bool) (mission : NewMission)
      (items : List NewMissionWorkItem)
  | enqueueItem (item : NewWorkItem)
  | enqueueItems (items : List NewWorkItem)
  | reconcileRuntimeAdmission (registry : MissionRunnerRegistry) (itemId : Option String)
  | reconcilePendingDependencies (opts : DependencyReconciliationOptions)
  | updateMissionStatus (id : String) (status : MissionStatus) (result : Option Json)
  | parkInvalidApprovalCandidate (itemId reason : String)
  | parkItemForApproval (itemId : String) (request : ApprovalRequest)
  | markApprovalPublished (requestId : String)
  | applyApprovalDecision (requestId : String) (state : SettledApproval) (decision : ApprovalDecision)
  | acquireEngineLease (ownerId : String) (ttlMs : JsNumber) (leaseToken : String)
  | renewEngineLease (lease : MissionEngineLease) (ttlMs : JsNumber)
  | releaseEngineLease (lease : MissionEngineLease)
  | claimItem (id : String) (attempt : ClaimAttempt) (fence : Option MissionClaimFence)
      (engineLease : Option MissionEngineLease)
  | settleClaimedItem (claim : MissionDispatchClaim) (status : SettlementStatus) (result : Option Json)
      (engineLease : Option MissionEngineLease)
  | backfillLegacyTerminalResult (id : String) (expectedRevision : Nat) (status : LegacyTerminalStatus)
      (result : Json)
  | recover (lease : MissionEngineLease)

/-- A call and the time at which the store runs it. -/
structure TimedCall where
  now : Int
  call : MissionCall

def MissionStatus.isFinal : MissionStatus → Bool
  | completed | failed | cancelled => true
  | _ => false

def MissionDb.updateMissionStatus (db : MissionDb) (now : Int) (id : String) (status : MissionStatus)
    (result : Option Json) : MissionDb :=
  { db with
    missions := db.missions.map fun mission =>
      if mission.id = id then
        { mission with
          status := status
          updatedAt := now
          completedAt := if status.isFinal then some now else none
          lastResult := result.or mission.lastResult }
      else mission }

section Run

variable (runtime : JsonRuntime) (contract : ApprovalContract)

def MissionDb.orKeep (db : MissionDb) (body : Except String MissionDb) : MissionDb :=
  match body with
  | .ok next => next
  | .error _ => db

/-- The tables after a call. -/
def MissionDb.perform (db : MissionDb) (timed : TimedCall) : MissionDb :=
  match timed.call with
  | .createMission normalized mission =>
      db.orKeep (db.createMission runtime timed.now normalized mission)
  | .createMissionWithItems normalized mission items =>
      db.orKeep (db.createMissionWithItems runtime timed.now normalized false mission items)
  | .importLegacyMissionWithItems normalized mission items =>
      db.orKeep (db.createMissionWithItems runtime timed.now normalized true mission items)
  | .enqueueItem item => db.orKeep (db.enqueueItem runtime timed.now item)
  | .enqueueItems items => db.orKeep (db.enqueueItems runtime timed.now items)
  | .reconcileRuntimeAdmission registry itemId =>
      (db.reconcileRuntimeAdmission runtime timed.now registry itemId).1
  | .reconcilePendingDependencies opts => (db.reconcilePendingDependencies runtime timed.now opts).1
  | .updateMissionStatus id status result => db.updateMissionStatus timed.now id status result
  | .parkInvalidApprovalCandidate itemId reason =>
      (db.parkInvalidApprovalCandidate runtime timed.now itemId reason).1
  | .parkItemForApproval itemId request =>
      (db.parkItemForApproval runtime contract timed.now itemId request).1
  | .markApprovalPublished requestId => db.markApprovalPublished timed.now requestId
  | .applyApprovalDecision requestId state decision =>
      (db.applyApprovalDecision runtime contract timed.now requestId state decision).1
  | .acquireEngineLease ownerId ttlMs leaseToken =>
      (db.acquireEngineLease timed.now ownerId ttlMs leaseToken).1
  | .renewEngineLease lease ttlMs => (db.renewEngineLease timed.now lease ttlMs).1
  | .releaseEngineLease lease => (db.releaseEngineLease lease).1
  | .claimItem id attempt fence engineLease =>
      (db.claimItemWithAuthority runtime timed.now id attempt fence engineLease).1
  | .settleClaimedItem claim status result engineLease =>
      (db.settleClaimedItem runtime timed.now claim status result engineLease).1
  | .backfillLegacyTerminalResult id expectedRevision status result =>
      (db.backfillLegacyTerminalResult timed.now id expectedRevision status result).1
  | .recover lease => (db.recover runtime timed.now lease).1

def tablesAfter (calls : List TimedCall) : MissionDb :=
  calls.foldl (MissionDb.perform runtime contract) .empty

end Run

end Deckent.Mission
