import Deckent.Lib.EventLog
import Deckent.Lib.OrderedSet
import Deckent.Model.MissionEngines

/-!
# The mission scheduler

A scheduler claims due items up to the size of its pool and dispatches each of them. Its loop and the
callbacks of its dispatches take turns: a callback runs where the loop awaits something, and the loop goes
on, once it is woken, to its next await. Other processes call the store at any time.

The loop is cut at its calls of the store. A listener of settled missions is one that returns, and a promise
is fulfilled or rejected in one of the moves of a run, in any order.
-/

namespace Deckent.Mission

/-! ### State -/

/-- `MissionEngineLeaseLostError`. -/
structure LeaseLost where
  ownerId : String
  epoch : Nat
  deriving DecidableEq

inductive FatalError where
  | claimSettlement (workItemId attemptId : String)
  | engineLeaseLost (error : LeaseLost)
  deriving DecidableEq

inductive Rejection where
  | engineLeaseLost (error : LeaseLost)
  | other (message : String)
  deriving DecidableEq

inductive SchedulerError where
  | fatal (error : FatalError)
  | other (message : String)
  deriving DecidableEq

inductive ReturnReason where
  | aborted
  | maxIterations
  | drained
  deriving DecidableEq

/-- How far the promise of a dispatch is. The callback of `finally` passes a rejection on. -/
inductive FlightPhase where
  | queued
  | dispatched
  | rejected (error : Rejection)
  | settled (rejection : Option String)
  | finished (rejection : Option String)
  deriving DecidableEq

structure Flight where
  claim : MissionDispatchClaim
  missionId : String
  tenant : String
  providerDispatchCounted : Bool
  phase : FlightPhase

def Flight.isFinished (flight : Flight) : Bool :=
  match flight.phase with
  | .finished _ => true
  | _ => false

inductive SchedulerPoint where
  | top
  | admission
  | dependencies (approved : Bool)
  | approval
  | checks (missionIds : List String)
  | wave
  | visit (due : List DueItem)
  | tail
  | racing (flights : List Nat)
  | sleeping
  | settling (reason : ReturnReason)
  | returned (reason : ReturnReason)
  | thrown (error : SchedulerError)

def SchedulerPoint.isAwait : SchedulerPoint → Bool
  | approval | racing _ | sleeping | settling _ | returned _ | thrown _ => true
  | _ => false

/-- A call of `checkMissionComplete`, and what it has found. -/
structure CompletionCheck where
  missionId : String
  statuses : List WorkItemStatus
  status : Option MissionStatus
  deriving DecidableEq

def CompletionCheck.isComplete (check : CompletionCheck) : Bool :=
  check.statuses ≠ [] && check.statuses.all (·.isTerminal)

/-- The variables of `runMissionScheduler`, and what it has called so far. -/
structure SchedulerState where
  db : MissionDb
  flights : List Flight
  inFlight : OrderedSet Nat
  perTenantFlight : OrderedMap String Int
  iterations : Nat
  dispatched : Nat
  fatalError : Option FatalError
  changedMissions : OrderedSet String
  claimedThisTick : Nat
  point : SchedulerPoint
  /-- The calls of `settleClaimedItem` that have succeeded, by their flights. -/
  settlements : List Nat
  /-- The calls of `checkMissionComplete`. -/
  checks : List CompletionCheck
  /-- The missions that `onMissionSettled` has been called with. -/
  notices : List String
  /-- The missions of the decisions that the coordinator has applied in this tick. -/
  decided : List String

def SchedulerState.start (db : MissionDb) : SchedulerState where
  db := db
  flights := []
  inFlight := ∅
  perTenantFlight := .empty
  iterations := 0
  dispatched := 0
  fatalError := none
  changedMissions := ∅
  claimedThisTick := 0
  point := .top
  settlements := []
  checks := []
  notices := []
  decided := []

structure MissionSchedulerOptions where
  poolSize : Nat
  maxIterations : Option Nat
  perTenantPoolSize : Option Nat
  hasApprovalCoordinator : Bool
  hasSettledListener : Bool
  runtimeRegistry : Option MissionRunnerRegistry
  engineLease : Option MissionEngineLease
  dependencyReconcile : DependencyReconciliationOptions

structure SchedulerHost where
  runtime : JsonRuntime
  contract : ApprovalContract
  isReady : MissionDb → WorkItemRow → Bool
  authorizeClaim : MissionDb → DueItem → Bool

section Scheduler

variable (host : SchedulerHost) (opts : MissionSchedulerOptions) (now : Int)

def SchedulerState.throw (state : SchedulerState) (error : SchedulerError) : SchedulerState :=
  { state with point := .thrown error }

def SchedulerState.report (state : SchedulerState) (missionIds : List String) : SchedulerState :=
  { state with changedMissions := missionIds.foldl OrderedSet.add state.changedMissions }

def SchedulerState.leaseError? (state : SchedulerState) : Option LeaseLost :=
  opts.engineLease.bind fun lease =>
    if state.db.isEngineLeaseActive now lease then none else some ⟨lease.ownerId, lease.epoch⟩

/-! ### Completion of missions -/

def MissionDb.setMissionProgress (db : MissionDb) (id : String) (progress : Json) : MissionDb :=
  { db with
    missions := db.missions.map fun mission =>
      if mission.id = id then { mission with progress := some progress, updatedAt := now } else mission }

def MissionDb.completionCheck (db : MissionDb) (missionId : String) : CompletionCheck where
  missionId := missionId
  statuses := (db.items.filter (·.missionId = missionId)).map (·.status)
  status := (db.mission? missionId).map (·.status)

/-- What `checkMissionComplete` writes once all items have ended. -/
def MissionDb.completeMission (db : MissionDb) (missionId : String) (statuses : List WorkItemStatus) :
    MissionDb :=
  let failed := statuses.any fun status => status = .failed || status = .blocked
  let result : Json := .object [("ok", .bool !failed),
    ("reason", .string (if failed then "one or more items failed" else "all items done"))]
  (db.updateMissionStatus now missionId (if failed then .failed else .completed) (some result))
    |>.setMissionProgress now missionId
      (.object [("done", .number (.finite (statuses.filter (· = .done)).length)),
        ("total", .number (.finite statuses.length))])

/-- `checkMissionCompleteFailSafe`. The answer is what it throws. -/
def SchedulerState.checkMissionComplete (state : SchedulerState) (missionId : String) :
    SchedulerState × Option LeaseLost :=
  match state.leaseError? opts now with
  | some error => (state, some error)
  | none =>
      let check := state.db.completionCheck missionId
      let checked := { state with checks := state.checks ++ [check] }
      if !check.isComplete then (checked, none)
      else
        let db := state.db.completeMission now missionId check.statuses
        ({ checked with
          db := db
          notices := state.notices ++
            if opts.hasSettledListener && (db.mission? missionId).isSome then [missionId] else [] },
          none)

/-! ### The loop -/

def SchedulerState.atTop (state : SchedulerState) (aborted : Bool) : SchedulerState :=
  match state.fatalError with
  | some error => state.throw (.fatal error)
  | none =>
      match state.leaseError? opts now with
      | some error => state.throw (.fatal (.engineLeaseLost error))
      | none =>
          if aborted then { state with point := .settling .aborted }
          else if opts.maxIterations.any (· ≤ state.iterations) then
            { state with point := .settling .maxIterations }
          else
            { state with
              iterations := state.iterations + 1
              changedMissions := ∅
              claimedThisTick := 0
              point := .admission }

def SchedulerState.atAdmission (state : SchedulerState) : SchedulerState :=
  match opts.runtimeRegistry with
  | none => { state with point := .dependencies false }
  | some registry =>
      match state.db.reconcileRuntimeAdmission host.runtime now registry none with
      | (db, .error error) => { state with db := db }.throw (.other error)
      | (db, .ok ()) =>
          { state with db := db, point := .dependencies false }.report
            (state.db.runtimeAdmissionChanges host.runtime now registry none)

def SchedulerState.atDependencies (state : SchedulerState) (approved : Bool) : SchedulerState :=
  match state.db.reconcilePendingDependencies host.runtime now opts.dependencyReconcile with
  | (db, .error error) => { state with db := db }.throw (.other error)
  | (db, .ok ()) =>
      let reported := { state with db := db }.report
        (state.db.pendingDependencyChanges host.runtime now opts.dependencyReconcile)
      if opts.hasApprovalCoordinator && !approved then { reported with point := .approval, decided := [] }
      else { reported with point := .checks reported.changedMissions.members }

def SchedulerState.atChecks (state : SchedulerState) : List String → SchedulerState
  | [] => { state with point := .wave }
  | missionId :: rest =>
      match state.checkMissionComplete opts now missionId with
      | (checked, some error) => checked.throw (.fatal (.engineLeaseLost error))
      | (checked, none) => { checked with point := .checks rest }

def SchedulerState.atWave (state : SchedulerState) : SchedulerState :=
  if state.inFlight.size < opts.poolSize then
    match state.leaseError? opts now with
    | some error => state.throw (.fatal (.engineLeaseLost error))
    | none =>
        match state.db.queryDue host.runtime now host.isReady opts.runtimeRegistry
            (if opts.perTenantPoolSize.isNone then some 1 else none) with
        | (db, .error error) => { state with db := db }.throw (.other error)
        | (db, .ok []) => { state with db := db, point := .tail }
        | (db, .ok due) => { state with db := db, point := .visit due }
  else { state with point := .tail }

def SchedulerState.tenantOf (state : SchedulerState) (item : DueItem) : String :=
  if opts.perTenantPoolSize.isNone then "local"
  else ((state.db.mission? item.row.missionId).map (·.tenant)).getD "local"

def SchedulerState.tenantIsFull (state : SchedulerState) (tenant : String) : Bool :=
  opts.perTenantPoolSize.any fun cap => (cap : Int) ≤ (state.perTenantFlight.get? tenant).getD 0

def claimFence (item : DueItem) : Option MissionClaimFence :=
  match opts.runtimeRegistry, item.admissionFence with
  | some registry, some fence => some ⟨registry, item.row.revision, fence⟩
  | _, _ => none

def SchedulerState.launch (state : SchedulerState) (item : DueItem) (claim : MissionDispatchClaim) :
    SchedulerState :=
  let tenant := state.tenantOf opts item
  { state with
    flights := state.flights ++ [⟨claim, item.row.missionId, tenant, false, .queued⟩]
    inFlight := state.inFlight.add state.flights.length
    perTenantFlight :=
      if opts.perTenantPoolSize.isNone then state.perTenantFlight
      else state.perTenantFlight.upsert tenant fun held => held.getD 0 + 1
    claimedThisTick := state.claimedThisTick + 1
    point := .wave }

structure ClaimTokens where
  attemptId : String
  fenceToken : String
  attemptId_ne : attemptId ≠ ""
  fenceToken_ne : fenceToken ≠ ""

/-- One item of the loop over the due items. -/
def SchedulerState.visitItem (state : SchedulerState) (tokens : ClaimTokens) (item : DueItem)
    (rest : List DueItem) : SchedulerState :=
  if state.tenantIsFull opts (state.tenantOf opts item) then { state with point := .visit rest }
  else match opts.runtimeRegistry, item.admissionFence with
    | some registry, none =>
        match state.db.reconcileRuntimeAdmission host.runtime now registry (some item.row.id) with
        | (db, .error error) => { state with db := db }.throw (.other error)
        | (db, .ok ()) =>
            { state with db := db, point := .visit rest }.report
              (state.db.runtimeAdmissionChanges host.runtime now registry (some item.row.id))
    | _, _ =>
        if item.row.policy ≠ .auto
            && !(opts.hasApprovalCoordinator && host.authorizeClaim state.db item) then
          { state with point := .visit rest }
        else
          match state.db.claimItemWithAuthority host.runtime now item.row.id
              ⟨"scheduler", tokens.attemptId, tokens.fenceToken⟩ (claimFence opts item)
              opts.engineLease with
          | (db, .error error) => { state with db := db }.throw (.other error)
          | (db, .ok (some claim)) => { state with db := db }.launch opts item claim
          | (db, .ok none) =>
              match { state with db := db }.checkMissionComplete opts now item.row.missionId with
              | (checked, some error) => checked.throw (.fatal (.engineLeaseLost error))
              | (checked, none) => { checked with point := .visit rest }

def SchedulerState.atVisit (state : SchedulerState) (tokens : ClaimTokens) :
    List DueItem → SchedulerState
  | [] => { state with point := .tail }
  | item :: rest => state.visitItem host opts now tokens item rest

def SchedulerState.atTail (state : SchedulerState) : SchedulerState :=
  if state.inFlight.size ≠ 0 then { state with point := .racing state.inFlight.members }
  else if state.claimedThisTick ≠ 0 then { state with point := .top }
  else if state.db.hasPendingDependencyReconciliation then { state with point := .sleeping }
  else if opts.maxIterations.isSome then { state with point := .returned .drained }
  else { state with point := .sleeping }

def SchedulerState.advance (state : SchedulerState) (aborted : Bool) (tokens : ClaimTokens) :
    Option SchedulerState :=
  match state.point with
  | .top => some (state.atTop opts now aborted)
  | .admission => some (state.atAdmission host opts now)
  | .dependencies approved => some (state.atDependencies host opts now approved)
  | .checks missionIds => some (state.atChecks opts now missionIds)
  | .wave => some (state.atWave host opts now)
  | .visit due => some (state.atVisit host opts now tokens due)
  | .tail => some (state.atTail opts)
  | _ => none

/-! ### What wakes the loop -/

/-- `approvalCoordinator.tick` is fulfilled. -/
def SchedulerState.ticked (state : SchedulerState) (changedMissionIds : List String) :
    Option SchedulerState :=
  match state.point with
  | .approval =>
      match state.leaseError? opts now with
      | some error => some (state.throw (.fatal (.engineLeaseLost error)))
      | none => some ({ state with point := .dependencies true }.report changedMissionIds)
  | _ => none

/-- `approvalCoordinator.tick` is rejected. -/
def SchedulerState.tickFailed (state : SchedulerState) (message : String) : Option SchedulerState :=
  match state.point with
  | .approval => some (state.throw (.other message))
  | _ => none

/-- `Promise.race` is settled by one of its promises. -/
def SchedulerState.raced (state : SchedulerState) (index : Nat) : Option SchedulerState :=
  match state.point, (state.flights[index]?).map Flight.phase with
  | .racing flights, some (.finished rejection) =>
      if flights.contains index then
        match rejection, state.fatalError with
        | some message, _ => some (state.throw (.other message))
        | none, some error => some (state.throw (.fatal error))
        | none, none => some { state with point := .top }
      else none
  | _, _ => none

def SchedulerState.slept (state : SchedulerState) : Option SchedulerState :=
  match state.point with
  | .sleeping => some { state with point := .top }
  | _ => none

/-- `Promise.allSettled` is fulfilled. -/
def SchedulerState.allSettled (state : SchedulerState) : Option SchedulerState :=
  match state.point with
  | .settling reason =>
      if state.flights.all (·.isFinished) then
        match state.fatalError with
        | some error => some (state.throw (.fatal error))
        | none => some { state with point := .returned reason }
      else none
  | _ => none

/-! ### Callbacks of the dispatches -/

inductive DispatchOutcome where
  | resolved (result : Json)
  | rejected (error : Rejection)

def SchedulerState.setFlight (state : SchedulerState) (index : Nat) (flight : Flight) : SchedulerState :=
  { state with flights := state.flights.set index flight }

def SchedulerState.fail (state : SchedulerState) (error : Option FatalError) : SchedulerState :=
  { state with fatalError := state.fatalError.or error }

def SchedulerState.dispatch (state : SchedulerState) (index : Nat) (flight : Flight) : SchedulerState :=
  match state.leaseError? opts now with
  | some error => state.setFlight index { flight with phase := .rejected (.engineLeaseLost error) }
  | none => state.setFlight index { flight with phase := .dispatched }

def isDisposition (result : Json) (disposition : String) : Bool :=
  textMember (some result) "dispatchDisposition" = some disposition

def isTruthy : Json → Bool
  | .null => false
  | .bool value => value
  | .number value => value ≠ 0 && value ≠ .nan
  | .string text => text ≠ ""
  | .array _ | .object _ => true

def settlementStatus (result : Json) : SettlementStatus :=
  if isDisposition result "parked" || isDisposition result "reconciliation-required" then .parked
  else if (result.get? "ok").any isTruthy then .done
  else .failed

/-- The answer of `settleClaimedItem` is taken up. -/
def SchedulerState.settle (state : SchedulerState) (index : Nat) (flight : Flight) (isSettled : Bool) :
    SchedulerState :=
  let next := state.setFlight index { flight with phase := .settled none }
  if isSettled then { next with settlements := state.settlements ++ [index] }
  else next.fail (some (.claimSettlement flight.claim.workItemId flight.claim.attemptId))

def nullResult : String := "Cannot read properties of null (reading 'dispatchDisposition')"

def isNull : Json → Bool
  | .null => true
  | _ => false

def SchedulerState.answer (state : SchedulerState) (index : Nat) (flight : Flight) (result : Json) :
    SchedulerState :=
  match state.leaseError? opts now with
  | some error => state.setFlight index { flight with phase := .rejected (.engineLeaseLost error) }
  | none =>
    if isNull result then state.setFlight index { flight with phase := .rejected (.other nullResult) }
    else
      let parked := isDisposition result "parked"
      let counted := { flight with providerDispatchCounted := flight.providerDispatchCounted || !parked }
      let state := if parked then state else { state with dispatched := state.dispatched + 1 }
      match state.db.settleClaimedItem host.runtime now flight.claim (settlementStatus result)
          (some result) opts.engineLease with
      | (db, .error error) =>
          { state with db := db }.setFlight index { counted with phase := .rejected (.other error) }
      | (db, .ok isSettled) => { state with db := db }.settle index counted isSettled

/-- The callback of `catch`. -/
def SchedulerState.handle (state : SchedulerState) (index : Nat) (flight : Flight)
    (error : Rejection) : SchedulerState :=
  match error with
  | .engineLeaseLost error =>
      (state.fail (some (.engineLeaseLost error))).setFlight index { flight with phase := .settled none }
  | .other message =>
      match state.leaseError? opts now with
      | some error =>
          (state.fail (some (.engineLeaseLost error))).setFlight index
            { flight with phase := .settled none }
      | none =>
          let state :=
            if flight.providerDispatchCounted then state
            else { state with dispatched := state.dispatched + 1 }
          match state.db.settleClaimedItem host.runtime now flight.claim .failed
              (some (failureResult message)) opts.engineLease with
          | (db, .error error) =>
              { state with db := db }.setFlight index { flight with phase := .settled (some error) }
          | (db, .ok isSettled) => { state with db := db }.settle index flight isSettled

/-- The callback of `finally`. -/
def SchedulerState.finish (state : SchedulerState) (index : Nat) (flight : Flight)
    (rejection : Option String) : SchedulerState :=
  let freed := { state with
    inFlight := state.inFlight.delete index
    perTenantFlight :=
      if opts.perTenantPoolSize.isNone then state.perTenantFlight
      else state.perTenantFlight.upsert flight.tenant fun held => held.getD 1 - 1 }.setFlight index
        { flight with phase := .finished rejection }
  match freed.fatalError with
  | some _ => freed
  | none =>
      match freed.checkMissionComplete opts now flight.missionId with
      | (checked, error) => checked.fail (error.map .engineLeaseLost)

/-- The next callback of a flight. `outcome` is what its dispatch comes to. -/
def SchedulerState.callback (state : SchedulerState) (index : Nat) (outcome : DispatchOutcome) :
    Option SchedulerState :=
  if !state.point.isAwait then none
  else match state.flights[index]? with
    | none => none
    | some flight =>
        match flight.phase with
        | .queued => some (state.dispatch opts now index flight)
        | .dispatched =>
            match outcome with
            | .resolved result => some (state.answer host opts now index flight result)
            | .rejected error => some (state.setFlight index { flight with phase := .rejected error })
        | .rejected error => some (state.handle host opts now index flight error)
        | .settled rejection => some (state.finish opts now index flight rejection)
        | .finished _ => none

/-! ### Runs -/

def MissionDb.decisionChanges (db : MissionDb) (timed : TimedCall) : List String :=
  match timed.call with
  | .applyApprovalDecision requestId state decision =>
      match (db.applyApprovalDecision host.runtime host.contract timed.now requestId state decision).2 with
      | .ok (some true) =>
          ((db.approval? (·.requestId = requestId)).bind fun row => db.item? row.workItemId).toList.map
            (·.missionId)
      | _ => []
  | _ => []

/-- What happens next, and when. -/
inductive SchedulerMove where
  | advance (now : Int) (aborted : Bool) (tokens : ClaimTokens)
  | ticked (now : Int) (changedMissionIds : List String)
  | tickFailed (message : String)
  | raced (index : Nat)
  | slept
  | allSettled
  | callback (now : Int) (index : Nat) (outcome : DispatchOutcome)
  /-- The coordinator calls the store. -/
  | coordinate (timed : TimedCall)
  /-- Any other process does. -/
  | foreign (timed : TimedCall)

def SchedulerState.move? (state : SchedulerState) : SchedulerMove → Option SchedulerState
  | .advance now aborted tokens => state.advance host opts now aborted tokens
  | .ticked now changedMissionIds => state.ticked opts now changedMissionIds
  | .tickFailed message => state.tickFailed message
  | .raced index => state.raced index
  | .slept => state.slept
  | .allSettled => state.allSettled
  | .callback now index outcome => state.callback host opts now index outcome
  | .coordinate timed =>
      match state.point with
      | .approval =>
          some { state with
            db := state.db.perform host.runtime host.contract timed
            decided := state.decided ++ state.db.decisionChanges host timed }
      | _ => none
  | .foreign timed => some { state with db := state.db.perform host.runtime host.contract timed }

def SchedulerState.move (state : SchedulerState) (move : SchedulerMove) : Except Unit SchedulerState :=
  match state.move? host opts move with
  | some next => .ok next
  | none => .error ()

def SchedulerRun (db : MissionDb) (moves : List SchedulerMove) (state : SchedulerState) : Prop :=
  replay (SchedulerState.move host opts) (.start db) moves = .ok state

end Scheduler

end Deckent.Mission
