import Deckent.Lib.OrderedMap
import Deckent.Lib.Saturation
import Deckent.Model.Js
import Deckent.Model.SchedulerState

/-!
# One scheduler tick
`reduceSchedulerTick` maps a snapshot of the queue, the tasks and the id sets to the queue after the
tick, the disposition of each touched task and the ordered effects. Its passes run in this order:
repairs settled as no-mint, the release of blocked marks, the cascade of skips from failed
dependencies, the spawns of the chosen strategy, and the closing of paused branches when nothing else
can happen.
-/

/-! ### The disposition of a failure before dispatch

Every reason for which the host ends an attempt before dispatch has a default disposition, which a
layered configuration may override member by member. -/

namespace Deckent

inductive HostPreDispatchReasonCode where
  | providerAdapterUnavailable
  | forcedSkillUnavailable
  | attributionBaselineCaptureFailed
  | promptCompileFailed
  | scopeCompileFailed
  | scopeUnsatisfiable
  | coordinatorCrashedBeforeDockerPrepare
  | legacyHostPreDispatchRejection
  deriving DecidableEq

namespace HostPreDispatchReasonCode

def text : HostPreDispatchReasonCode → String
  | providerAdapterUnavailable => "PROVIDER_ADAPTER_UNAVAILABLE"
  | forcedSkillUnavailable => "FORCED_SKILL_UNAVAILABLE"
  | attributionBaselineCaptureFailed => "ATTRIBUTION_BASELINE_CAPTURE_FAILED"
  | promptCompileFailed => "PROMPT_COMPILE_FAILED"
  | scopeCompileFailed => "SCOPE_COMPILE_FAILED"
  | scopeUnsatisfiable => "SCOPE_UNSATISFIABLE"
  | coordinatorCrashedBeforeDockerPrepare => "COORDINATOR_CRASHED_BEFORE_DOCKER_PREPARE"
  | legacyHostPreDispatchRejection => "LEGACY_HOST_PRE_DISPATCH_REJECTION"

def all : List HostPreDispatchReasonCode :=
  [providerAdapterUnavailable, forcedSkillUnavailable, attributionBaselineCaptureFailed,
    promptCompileFailed, scopeCompileFailed, scopeUnsatisfiable,
    coordinatorCrashedBeforeDockerPrepare, legacyHostPreDispatchRejection]

def ofText (value : String) : HostPreDispatchReasonCode :=
  (all.find? fun code => code.text = value).getD legacyHostPreDispatchRejection

theorem ofText_text (code : HostPreDispatchReasonCode) : ofText code.text = code := by
  cases code <;> decide

end HostPreDispatchReasonCode

/-- The evaluation of such a failure is always `NOT_DISPATCHED`. -/
structure FailureDisposition where
  fixEligible : Bool
  redispatchEligible : Bool
  cascadeDependents : Bool
  deriving DecidableEq

structure FailureDispositionOverride where
  fixEligible : Option Bool := none
  redispatchEligible : Option Bool := none
  cascadeDependents : Option Bool := none
  deriving DecidableEq

structure FailureDispositionPolicyConfig where
  preDispatch : HostPreDispatchReasonCode → Option FailureDispositionOverride := fun _ => none

def defaultHostPreDispatchDisposition : FailureDisposition :=
  { fixEligible := false, redispatchEligible := false, cascadeDependents := true }

def resolveHostPreDispatchFailureDisposition (reasonCode : HostPreDispatchReasonCode)
    (config : Option FailureDispositionPolicyConfig) : FailureDisposition :=
  match config.bind fun policy => policy.preDispatch reasonCode with
  | none => defaultHostPreDispatchDisposition
  | some override =>
      { fixEligible := override.fixEligible.getD defaultHostPreDispatchDisposition.fixEligible
        redispatchEligible :=
          override.redispatchEligible.getD defaultHostPreDispatchDisposition.redispatchEligible
        cascadeDependents :=
          override.cascadeDependents.getD defaultHostPreDispatchDisposition.cascadeDependents }

end Deckent

namespace Deckent.SchedulerReducer

inductive DispatchStrategy where
  | continuous
  | legacyFifo
  deriving DecidableEq

structure SchedulerTaskSnapshot where
  id : String
  status : TaskStatus
  dependencies : List String := []
  fixForTaskId : Option String := none
  repairSettlementReasonCode : Option String := none
  deriving DecidableEq

structure SchedulerSnapshot where
  strategy : DispatchStrategy
  costStop : Bool := false
  slotBudget : JsNumber
  orderedQueue : List SchedulerTaskSnapshot
  tasks : List SchedulerTaskSnapshot
  assignedTaskIds : Finset String := ∅
  collectedIds : Finset String := ∅
  completedTaskIds : List String := []
  dependencyPipelineEnabled : Bool
  deferTerminalDependencyFailure : Option Bool := none
  effectiveDependencyState : EffectiveDependencyState
  collisionBlockedIds : Finset String := ∅
  collisionBlockingIds : Option (OrderedMap String String) := none
  failureDispositionPolicy : Option FailureDispositionPolicyConfig := none

inductive SpawnReason where
  | queueDrain
  | pendingSlotFill
  deriving DecidableEq

inductive BlockReason where
  | dependencyPending
  | scopeCollision
  | retryBackoff
  deriving DecidableEq

inductive SchedulerQuiescenceReason where
  | continuousDeadDependency
  deriving DecidableEq

inductive SchedulerEffect where
  | spawnTask (taskId : String) (reason : SpawnReason)
  | killWorker (taskId : String)
  | noMintRepair (taskId failedTaskId : String) (reasonCode : HostPreDispatchReasonCode)
      (idempotencyKey : String)
  | cascadeSkip (taskId failedDependencyId : String)
      (quiescenceReason : Option SchedulerQuiescenceReason) (idempotencyKey : String)
  | blocked (taskId : String) (reason : BlockReason) (blockingId : Option String)
  | clearBlocked (taskId : String)
  | emitMetric (name : String) (value : Nat)
  | writeCheckpoint (reason : String)
  deriving DecidableEq

inductive SchedulerDisposition where
  | spawn
  | blockedDependency
  | blockedCollision
  | blockedRetry
  | noMint
  | cascadeSkip
  deriving DecidableEq

structure Tick where
  orderedEffects : List SchedulerEffect
  dispositions : OrderedMap String SchedulerDisposition

def Tick.emit (tick : Tick) (effects : List SchedulerEffect) : Tick :=
  { tick with orderedEffects := tick.orderedEffects ++ effects }

def Tick.dispose (tick : Tick) (taskId : String) (disposition : SchedulerDisposition) : Tick :=
  { tick with dispositions := tick.dispositions.set taskId disposition }

structure SchedulerDecision where
  nextQueue : List SchedulerTaskSnapshot
  dispositions : OrderedMap String SchedulerDisposition
  orderedEffects : List SchedulerEffect

/-! ### Repairs settled as no-mint -/

def noMintSettlement (snapshot : SchedulerSnapshot) (task : SchedulerTaskSnapshot) :
    Option (String × HostPreDispatchReasonCode) :=
  match truthy task.fixForTaskId, truthy task.repairSettlementReasonCode with
  | some failedTaskId, some reason =>
      let reasonCode := HostPreDispatchReasonCode.ofText reason
      let disposition :=
        resolveHostPreDispatchFailureDisposition reasonCode snapshot.failureDispositionPolicy
      if disposition.fixEligible then none else some (failedTaskId, reasonCode)
  | _, _ => none

structure NoMintScan where
  noMintIds : Finset String
  tick : Tick

def settleNoMint (snapshot : SchedulerSnapshot) (scan : NoMintScan) (task : SchedulerTaskSnapshot) :
    NoMintScan :=
  match noMintSettlement snapshot task with
  | none => scan
  | some (failedTaskId, reasonCode) =>
      { noMintIds := insert task.id scan.noMintIds
        tick := (scan.tick.dispose task.id .noMint).emit
          [.noMintRepair task.id failedTaskId reasonCode s!"no-mint:{task.id}:{reasonCode.text}"] }

def noMintPass (snapshot : SchedulerSnapshot) : NoMintScan :=
  snapshot.tasks.foldl (settleNoMint snapshot)
    { noMintIds := ∅, tick := { orderedEffects := [], dispositions := OrderedMap.empty } }

def clearBlockedEffects (snapshot : SchedulerSnapshot) : List SchedulerEffect :=
  if snapshot.strategy = .continuous ∧ snapshot.dependencyPipelineEnabled then
    (snapshot.tasks.filter fun task => task.status ≠ .pending).map fun task => .clearBlocked task.id
  else []

/-! ### The cascade of skips -/

def noMintTargets (snapshot : SchedulerSnapshot) (noMintIds : Finset String) : Finset String :=
  (snapshot.tasks.filterMap fun task =>
    if task.id ∈ noMintIds then truthy task.fixForTaskId else none).toFinset

def cascadeRule (snapshot : SchedulerSnapshot) (noMintIds failedIds cascadeSkippedIds : Finset String)
    (task : SchedulerTaskSnapshot) : Option String :=
  if task.id ∈ snapshot.collectedIds ∨ task.id ∈ noMintIds then none
  else if task.status ≠ .pending then none
  else if task.id ∈ snapshot.assignedTaskIds then none
  else truthy (task.dependencies.find? fun d => d ∈ failedIds ∪ cascadeSkippedIds)

abbrev Cascade := Sweep SchedulerTaskSnapshot String String

def cascadePass (snapshot : SchedulerSnapshot) (noMintIds : Finset String) : Cascade :=
  let failedIds :=
    snapshot.effectiveDependencyState.terminalFailureIds ∪ noMintTargets snapshot noMintIds
  saturate SchedulerTaskSnapshot.id (cascadeRule snapshot noMintIds failedIds) snapshot.tasks
    (snapshot.tasks.length + 1)
    { reached := ∅
      fired := []
      changed := !snapshot.deferTerminalDependencyFailure.getD false || decide (noMintIds ≠ ∅) }

def cascadeSkipEffect (quiescenceReason : Option SchedulerQuiescenceReason)
    (entry : SchedulerTaskSnapshot × String) : SchedulerEffect :=
  .cascadeSkip entry.1.id entry.2 quiescenceReason s!"cascade-skip:{entry.1.id}:{entry.2}"

def Tick.skip (tick : Tick) (quiescenceReason : Option SchedulerQuiescenceReason) (cascade : Cascade) :
    Tick :=
  cascade.fired.foldl
    (fun tick entry =>
      (tick.emit [cascadeSkipEffect quiescenceReason entry]).dispose entry.1.id .cascadeSkip) tick

/-! ### Block classification -/

structure BlockClassification where
  reason : BlockReason
  disposition : SchedulerDisposition
  blockingId : Option String := none
  deriving DecidableEq

def classifyBlock (task : SchedulerTaskSnapshot) (snapshot : SchedulerSnapshot) :
    Option BlockClassification :=
  if task.id ∈ snapshot.collisionBlockedIds then
    some { reason := .scopeCollision
           disposition := .blockedCollision
           blockingId := snapshot.collisionBlockingIds.bind fun blocking => blocking.get? task.id }
  else if task.id ∉ snapshot.effectiveDependencyState.retryEligibleIds then
    some { reason := .retryBackoff, disposition := .blockedRetry }
  else if snapshot.dependencyPipelineEnabled ∧ task.dependencies ≠ [] then
    -- the first unsatisfied dependency blocks unless it is the empty string
    match truthy (task.dependencies.find? fun d =>
        d ∉ snapshot.effectiveDependencyState.satisfyingIds) with
    | some blockingId =>
        some { reason := .dependencyPending
               disposition := .blockedDependency
               blockingId := some blockingId }
    | none => none
  else none

def Tick.block (tick : Tick) (taskId : String) (block : BlockClassification) : Tick :=
  (tick.emit [.blocked taskId block.reason (truthy block.blockingId)]).dispose taskId block.disposition

/-! ### Continuous strategy -/

structure DrainState where
  queue : List SchedulerTaskSnapshot
  slots : JsNumber
  chosen : Finset String
  tick : Tick

def DrainState.spawn (state : DrainState) (taskId : String) (reason : SpawnReason) : DrainState :=
  { state with
    slots := state.slots.pred
    chosen := insert taskId state.chosen
    tick := (state.tick.emit [.spawnTask taskId reason]).dispose taskId .spawn }

def drainEntry (snapshot : SchedulerSnapshot) (cascadeSkippedIds : Finset String) (state : DrainState)
    (candidate : SchedulerTaskSnapshot) : DrainState :=
  if !JsNumber.lt 0 state.slots then { state with queue := state.queue ++ [candidate] }
  else if candidate.id ∈ snapshot.assignedTaskIds then state
  else if candidate.id ∈ cascadeSkippedIds
      ∨ state.tick.dispositions.get? candidate.id = some .noMint then state
  else
    match classifyBlock candidate snapshot with
    | some block =>
        { state with
          queue := state.queue ++ [candidate]
          tick := state.tick.block candidate.id block }
    | none => state.spawn candidate.id .queueDrain

def fillEntry (snapshot : SchedulerSnapshot) (cascadeSkippedIds stillQueuedIds : Finset String)
    (state : DrainState) (task : SchedulerTaskSnapshot) : DrainState :=
  if JsNumber.le state.slots 0 then state
  else if task.status ≠ .pending then state
  else if task.id ∈ snapshot.assignedTaskIds then state
  else if task.id ∈ snapshot.collectedIds then state
  else if task.id ∈ state.chosen then state
  else if task.id ∈ cascadeSkippedIds
      ∨ state.tick.dispositions.get? task.id = some .noMint then state
  else if task.id ∈ stillQueuedIds then state
  else
    match classifyBlock task snapshot with
    | some block => { state with tick := state.tick.block task.id block }
    | none => state.spawn task.id .pendingSlotFill

def reduceContinuous (snapshot : SchedulerSnapshot) (cascadeSkippedIds : Finset String) (tick : Tick) :
    List SchedulerTaskSnapshot × Tick :=
  let drained := snapshot.orderedQueue.foldl (drainEntry snapshot cascadeSkippedIds)
    { queue := [], slots := snapshot.slotBudget, chosen := ∅, tick := tick }
  if JsNumber.lt 0 drained.slots then
    let stillQueuedIds := (drained.queue.map SchedulerTaskSnapshot.id).toFinset
    let filled := snapshot.tasks.foldl (fillEntry snapshot cascadeSkippedIds stillQueuedIds) drained
    (filled.queue, filled.tick)
  else (drained.queue, drained.tick)

/-! ### Legacy FIFO strategy -/

structure FifoScan where
  picked : Option SchedulerTaskSnapshot
  queue : List SchedulerTaskSnapshot
  tick : Tick

/-- Scan the queue for the first entry that is not blocked; `kept` are the blocked entries before the
scan position. -/
def pickFifo (snapshot : SchedulerSnapshot) (cascadeSkippedIds : Finset String) :
    List SchedulerTaskSnapshot → List SchedulerTaskSnapshot → Tick → FifoScan
  | [], kept, tick => { picked := none, queue := kept, tick := tick }
  | candidate :: rest, kept, tick =>
      if candidate.id ∈ snapshot.assignedTaskIds then
        pickFifo snapshot cascadeSkippedIds rest kept tick
      else if candidate.id ∈ cascadeSkippedIds
          ∨ tick.dispositions.get? candidate.id = some .noMint then
        pickFifo snapshot cascadeSkippedIds rest kept tick
      else
        match classifyBlock candidate snapshot with
        | some block =>
            pickFifo snapshot cascadeSkippedIds rest (kept ++ [candidate])
              (tick.block candidate.id block)
        | none => { picked := some candidate, queue := kept ++ rest, tick := tick }

def fifoLoop (snapshot : SchedulerSnapshot) (cascadeSkippedIds : Finset String) :
    List String → List SchedulerTaskSnapshot → Tick → List SchedulerTaskSnapshot × Tick
  | [], queue, tick => (queue, tick)
  | completedId :: rest, queue, tick =>
      let scan := pickFifo snapshot cascadeSkippedIds queue [] tick
      match scan.picked with
      | none => (scan.queue, scan.tick)
      | some next =>
          fifoLoop snapshot cascadeSkippedIds rest scan.queue
            ((scan.tick.emit [.killWorker completedId, .spawnTask next.id .queueDrain]).dispose
              next.id .spawn)

def reduceLegacyFifo (snapshot : SchedulerSnapshot) (cascadeSkippedIds : Finset String) (tick : Tick) :
    List SchedulerTaskSnapshot × Tick :=
  fifoLoop snapshot cascadeSkippedIds snapshot.completedTaskIds snapshot.orderedQueue tick

/-! ### Quiescence -/

def hasLiveWork (snapshot : SchedulerSnapshot) : Bool :=
  (snapshot.tasks.any fun task =>
      task.status = .claimed || task.status = .executing || task.status = .testing)
    || decide (∃ id ∈ snapshot.assignedTaskIds, id ∉ snapshot.collectedIds)

def quiescenceRule (snapshot : SchedulerSnapshot) (alreadySkippedIds : Finset String)
    (task : SchedulerTaskSnapshot) : Option String :=
  if task.status ≠ .paused then none
  else if task.id ∈ snapshot.collectedIds then none
  else if task.id ∈ snapshot.assignedTaskIds then none
  else truthy (task.dependencies.find? fun d =>
    d ∈ snapshot.effectiveDependencyState.terminalFailureIds ∪ alreadySkippedIds)

def cascadePausedAtQuiescence (snapshot : SchedulerSnapshot) (cascadeSkippedIds : Finset String) :
    Cascade :=
  saturate SchedulerTaskSnapshot.id (quiescenceRule snapshot) snapshot.tasks
    (snapshot.tasks.length + 1) (Sweep.start cascadeSkippedIds)

/-! ### The tick -/

def SchedulerEffect.isSpawn : SchedulerEffect → Bool
  | spawnTask _ _ => true
  | _ => false

def metricEffects (cascade : Cascade) : List SchedulerEffect :=
  if cascade.reached ≠ ∅ then [.emitMetric "scheduler.cascade_skip" cascade.reached.card] else []

def quiescencePass (snapshot : SchedulerSnapshot) (cascade : Cascade) (tick : Tick) :
    Finset String × Tick :=
  if snapshot.strategy = .continuous ∧ !snapshot.deferTerminalDependencyFailure.getD false
      ∧ !tick.orderedEffects.any SchedulerEffect.isSpawn ∧ !hasLiveWork snapshot then
    let paused := cascadePausedAtQuiescence snapshot cascade.reached
    (paused.reached, tick.skip (some .continuousDeadDependency) paused)
  else (cascade.reached, tick)

def reduceSchedulerTick (snapshot : SchedulerSnapshot) : SchedulerDecision :=
  let noMint := noMintPass snapshot
  let cascade := cascadePass snapshot noMint.noMintIds
  let tick := ((noMint.tick.emit (clearBlockedEffects snapshot)).skip none cascade).emit
    (metricEffects cascade)
  if snapshot.costStop then
    { nextQueue := snapshot.orderedQueue
      dispositions := tick.dispositions
      orderedEffects := tick.orderedEffects
        ++ if cascade.reached ≠ ∅ then [.writeCheckpoint "cascade-skip-under-cost-stop"] else [] }
  else
    let reduced := match snapshot.strategy with
      | .legacyFifo => reduceLegacyFifo snapshot cascade.reached tick
      | .continuous => reduceContinuous snapshot cascade.reached tick
    let quiet := quiescencePass snapshot cascade reduced.2
    { nextQueue := reduced.1
      dispositions := quiet.2.dispositions
      orderedEffects := quiet.2.orderedEffects
        ++ if quiet.2.orderedEffects.any SchedulerEffect.isSpawn || decide (quiet.1 ≠ ∅) then
            [.writeCheckpoint "tick-progressed"] else [] }

end Deckent.SchedulerReducer
