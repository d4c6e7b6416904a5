import Mathlib.Data.Finset.Basic
import Deckent.Model.TaskLineage

/-!
# The effective dependency state

Which task ids satisfy a dependent, which can never satisfy one in this run, and which are past their
retry backoff. The statuses of the tasks are entered as they stand; then every lineage overwrites the
ids of its attempts and of the ancestors of its head.
-/

namespace Deckent

@[ext]
structure EffectiveDependencyState where
  satisfyingIds : Finset String
  terminalFailureIds : Finset String
  retryEligibleIds : Finset String
  deriving DecidableEq

namespace SchedulerState

open TaskLineage

def isDependencySatisfying (status : TaskStatus) : Bool := status = .done

def isSchedulingTerminalFailure (status : TaskStatus) : Bool :=
  status = .noGo || status = .manualReviewRequired

def isRetryEligible (nowMs : JsNumber) (task : Task) : Bool :=
  task.retryAfter.all fun retryAfter => retryAfter.le nowMs

def addTask (nowMs : JsNumber) (state : EffectiveDependencyState) (task : Task) :
    EffectiveDependencyState :=
  { satisfyingIds :=
      if isDependencySatisfying task.status then insert task.id state.satisfyingIds
      else state.satisfyingIds
    terminalFailureIds :=
      if isSchedulingTerminalFailure task.status then insert task.id state.terminalFailureIds
      else state.terminalFailureIds
    retryEligibleIds :=
      if isRetryEligible nowMs task then insert task.id state.retryEligibleIds
      else state.retryEligibleIds }

def projectedIds (tasksById : OrderedMap String Task) (lineage : TaskLineage) : Finset String :=
  (lineage.attemptIds ++ resolveFixAncestorIds lineage.resolvedTask tasksById).toFinset

def projectLineage (tasksById : OrderedMap String Task) (state : EffectiveDependencyState)
    (lineage : TaskLineage) : EffectiveDependencyState :=
  let projected := projectedIds tasksById lineage
  if isDependencySatisfying lineage.resolvedTask.status then
    { state with
      satisfyingIds := state.satisfyingIds ∪ projected
      terminalFailureIds := state.terminalFailureIds \ projected }
  else if isSchedulingTerminalFailure lineage.resolvedTask.status then
    { state with
      terminalFailureIds := state.terminalFailureIds ∪ projected
      satisfyingIds := state.satisfyingIds \ projected }
  else
    { state with
      satisfyingIds := state.satisfyingIds \ projected
      terminalFailureIds := state.terminalFailureIds \ projected }

def computeEffectiveDependencyState (localeCompare : LocaleCompare) (tasks : List Task)
    (nowMs : JsNumber) : EffectiveDependencyState :=
  let raw := tasks.foldl (addTask nowMs) ⟨∅, ∅, ∅⟩
  (foldTaskLineages localeCompare tasks).foldl (projectLineage (indexById tasks)) raw

end SchedulerState

end Deckent
