import Deckent.Model.TaskLineage

/-!
# Settlements of task lineages

A lineage is settled by its head. A head that was evaluated as not dispatched may be dispatched again, unless
that has been tried, a policy rules it out, or a dependency will never be there. The circuit breaker asks which
of the logical tasks wait for a lineage that has failed.

The two loops carry fuel. A round of the first one that changes anything skips one head for good, and the
second one takes the dependencies of each task once.
-/

namespace Deckent.TaskLineage

inductive TaskEvaluation where
  | done
  | goWithTechDebt
  | noGo
  | deferred
  | notDispatched
  deriving DecidableEq

abbrev Evaluations := OrderedMap String TaskEvaluation

/-! ### Heads that were not dispatched -/

inductive SkipReason where
  | dependencyStarved
  | policyFixExempt
  deriving DecidableEq

inductive NotDispatchedSettlement where
  | resumable
  | failed
  | skipped (reasonCode : SkipReason)
  deriving DecidableEq

abbrev NotDispatchedSettlements := OrderedMap String NotDispatchedSettlement

/-- `state === 'FAILED' || state === 'SKIPPED'`. -/
def NotDispatchedSettlement.isTerminal : NotDispatchedSettlement → Bool
  | resumable => false
  | failed | skipped _ => true

/-- What the host knows of the heads. -/
structure DispatchEvidence where
  evaluations : Evaluations
  redispatchAttemptedIds : Finset String
  policyTerminalIds : Option (Finset String)

namespace DispatchEvidence

variable (evidence : DispatchEvidence)

def isNotDispatched (id : String) : Bool := evidence.evaluations.get? id = some .notDispatched

def isPolicyTerminal (id : String) : Bool := evidence.policyTerminalIds.any fun ids => decide (id ∈ ids)

def settlement (id : String) : NotDispatchedSettlement :=
  if evidence.isPolicyTerminal id then .skipped .policyFixExempt
  else if id ∈ evidence.redispatchAttemptedIds then .failed
  else .resumable

def projectHead (projected : NotDispatchedSettlements) (lineage : TaskLineage) : NotDispatchedSettlements :=
  if evidence.isNotDispatched lineage.resolvedTask.id then
    projected.set lineage.resolvedTask.id (evidence.settlement lineage.resolvedTask.id)
  else projected

end DispatchEvidence

structure LineageIndex where
  tasksById : OrderedMap String Task
  lineagesByRootId : OrderedMap String TaskLineage

namespace LineageIndex

variable (index : LineageIndex)

def dependencyRootId (dependencyId : String) : String :=
  match index.tasksById.get? dependencyId with
  | some dependency => resolveTaskLineageRootId dependency index.tasksById
  | none => dependencyId

def dependencyStarved (projected : NotDispatchedSettlements) (lineage : TaskLineage) : Bool :=
  (lineage.rootTask.dependencies.getD []).any fun dependencyId =>
    match index.lineagesByRootId.get? (index.dependencyRootId dependencyId) with
    | none => false
    | some dependencyLineage => (projected.get? dependencyLineage.resolvedTask.id).any (·.isTerminal)

structure Starvation where
  projected : NotDispatchedSettlements
  changed : Bool

def starve (state : Starvation) (lineage : TaskLineage) : Starvation :=
  if state.projected.get? lineage.resolvedTask.id = some .resumable
      ∧ index.dependencyStarved state.projected lineage then
    { projected := state.projected.set lineage.resolvedTask.id (.skipped .dependencyStarved)
      changed := true }
  else state

/-- `while (changed)`. -/
def starveAll (lineages : List TaskLineage) : Nat → Starvation → Starvation
  | 0, state => state
  | fuel + 1, state =>
      if state.changed then
        starveAll lineages fuel (lineages.foldl index.starve { state with changed := false })
      else state

end LineageIndex

variable (localeCompare : LocaleCompare)

def lineageIndex (tasks : List Task) : LineageIndex where
  tasksById := indexById tasks
  lineagesByRootId := OrderedMap.indexBy TaskLineage.rootId (foldTaskLineages localeCompare tasks)

def settleNotDispatched (tasks : List Task) (evidence : DispatchEvidence) : LineageIndex.Starvation :=
  let lineages := foldTaskLineages localeCompare tasks
  (lineageIndex localeCompare tasks).starveAll lineages (lineages.length + 1)
    { projected := lineages.foldl evidence.projectHead .empty
      changed := true }

def projectNotDispatchedSettlements (tasks : List Task) (evidence : DispatchEvidence) :
    NotDispatchedSettlements :=
  (settleNotDispatched localeCompare tasks evidence).projected

/-! ### The state of a lineage -/

inductive SettlementState where
  | completed
  | failed
  | active
  | unsettled
  | resumable
  | skipped
  deriving DecidableEq

structure SettlementProjection where
  rootId : String
  rootTask : Task
  resolvedTask : Task
  attemptIds : List String
  evaluation : Option TaskEvaluation
  notDispatchedSettlement : Option NotDispatchedSettlement
  state : SettlementState
  deriving DecidableEq

def isInFlight (status : TaskStatus) : Bool :=
  [TaskStatus.pending, .claimed, .executing, .testing, .documenting].contains status

def settlementState (status : TaskStatus) (evaluation : Option TaskEvaluation)
    (settlement : Option NotDispatchedSettlement) : SettlementState :=
  match evaluation, settlement with
  | some .notDispatched, some .resumable => .resumable
  | some .notDispatched, some (.skipped _) => .skipped
  | some .notDispatched, some .failed => .failed
  | evaluation, _ =>
      if status = .done ∨ evaluation = some .done ∨ evaluation = some .goWithTechDebt then .completed
      else if status = .noGo ∨ evaluation = some .noGo then .failed
      else if isInFlight status then .active
      else .unsettled

def projectTaskLineageSettlements (tasks : List Task) (evaluations : Evaluations)
    (notDispatchedSettlements : NotDispatchedSettlements) : List SettlementProjection :=
  (foldTaskLineages localeCompare tasks).map fun lineage =>
    let evaluation := evaluations.get? lineage.resolvedTask.id
    let settlement := notDispatchedSettlements.get? lineage.resolvedTask.id
    { rootId := lineage.rootId
      rootTask := lineage.rootTask
      resolvedTask := lineage.resolvedTask
      attemptIds := lineage.attemptIds
      evaluation := evaluation
      notDispatchedSettlement := settlement
      state := settlementState lineage.resolvedTask.status evaluation settlement }

/-! ### The circuit breaker -/

structure FixCircuitBreakerConfig where
  enabled : Bool
  maxUnresolvedTasks : ℚ
  minUnresolvedRatioPercent : ℚ

structure FixCircuitBreakerDecision where
  shouldPause : Bool
  totalTasks : Nat
  unresolvedTasks : Nat
  unresolvedRatioPercent : ℚ
  effectiveCountThreshold : ℚ
  unresolvedTaskIds : List String
  blockedDependentTaskIds : List String
  blockedDependencyEdges : List String
  forcedByBlockedDependents : Bool
  deriving DecidableEq

def dependenciesOf (rootsById : OrderedMap String Task) (id : String) : List String :=
  ((rootsById.get? id).bind Task.dependencies).getD []

/-- The loop over the stack `pending`, whose top is the head of the list. -/
def findBlocker (unresolvedIds : List String) (rootsById : OrderedMap String Task) :
    Nat → List String → Finset String → Option String
  | 0, _, _ => none
  | _ + 1, [], _ => none
  | fuel + 1, dependencyId :: pending, seen =>
      if dependencyId = "" ∨ dependencyId ∈ seen then
        findBlocker unresolvedIds rootsById fuel pending seen
      else if unresolvedIds.contains dependencyId then some dependencyId
      else findBlocker unresolvedIds rootsById fuel
        ((dependenciesOf rootsById dependencyId).reverse ++ pending) (insert dependencyId seen)

def blockerFuel (rootsById : OrderedMap String Task) (task : Task) : Nat :=
  (task.dependencies.getD []).length
    + (rootsById.entries.map fun entry => (dependenciesOf rootsById entry.1).length).sum + 1

def findUnresolvedLineageBlocker (unresolvedIds : List String) (rootsById : OrderedMap String Task)
    (task : Task) : Option String :=
  findBlocker unresolvedIds rootsById (blockerFuel rootsById task) (task.dependencies.getD []).reverse ∅

def awaitsDispatch (evaluations : Evaluations) (task : Task) : Bool :=
  task.status = .pending || task.status = .paused || evaluations.get? task.id = some .deferred
    || evaluations.get? task.id = some .notDispatched

def blockedDependents (evaluations : Evaluations) (unresolvedIds : List String) (logicalRoots : List Task) :
    List (Task × String) :=
  let rootsById := indexById logicalRoots
  logicalRoots.filterMap fun task =>
    if awaitsDispatch evaluations task then
      (findUnresolvedLineageBlocker unresolvedIds rootsById task).map fun blocker => (task, blocker)
    else none

def evaluateFixCircuitBreaker (rootTasks : List Task) (evaluations : Evaluations)
    (policy : FixCircuitBreakerConfig) (notDispatchedSettlements : NotDispatchedSettlements) :
    FixCircuitBreakerDecision :=
  let lineages := projectTaskLineageSettlements localeCompare rootTasks evaluations notDispatchedSettlements
  let unresolvedTaskIds := (lineages.filter (·.state = .failed)).map (·.rootId)
  let unresolvedTasks := unresolvedTaskIds.length
  let unresolvedRatioPercent : ℚ :=
    if lineages.length > 0 then (unresolvedTasks : ℚ) / lineages.length * 100 else 0
  let blocked := blockedDependents evaluations unresolvedTaskIds (lineages.map (·.rootTask))
  let forcedByBlockedDependents := 0 < unresolvedTasks && 0 < blocked.length
  { shouldPause := forcedByBlockedDependents || (policy.enabled && 0 < unresolvedTasks
      && policy.maxUnresolvedTasks ≤ unresolvedTasks
      && policy.minUnresolvedRatioPercent ≤ unresolvedRatioPercent)
    totalTasks := lineages.length
    unresolvedTasks := unresolvedTasks
    unresolvedRatioPercent := unresolvedRatioPercent
    effectiveCountThreshold := policy.maxUnresolvedTasks
    unresolvedTaskIds := unresolvedTaskIds
    blockedDependentTaskIds := blocked.map (·.1.id)
    blockedDependencyEdges := blocked.map fun entry => entry.1.id ++ "←" ++ entry.2
    forcedByBlockedDependents := forcedByBlockedDependents }

end Deckent.TaskLineage
