import Deckent.Model.SchedulerReducer
import Deckent.Model.SchedulerState

/-!
# The dispatch plan of the result collector

`planDispatch` is the plan that the live scheduler is pinned to: which tasks one tick spawns, in either
strategy. It takes entries out of the queue it is given, so a plan carries the queue it leaves. The
shadow path gives the reducer a copy of the same state.
-/

namespace Deckent.ResultCollector

open SchedulerReducer SchedulerState TaskLineage

structure DispatchState where
  tasks : List Task
  dependencyPipelineEnabled : Bool
  maxWorkers : Int
  assignedTaskIds : Finset String := ∅
  collectedIds : Finset String := ∅
  remainingQueue : List Task
  completedTaskIds : List String := []

structure DispatchPlan where
  toSpawn : List Task
  toKill : List String
  remainingQueue : List Task

def DispatchState.slotsAvailable (state : DispatchState) : Nat :=
  (state.maxWorkers - (state.tasks.countP fun task =>
    task.status = .executing || task.status = .claimed || task.status = .testing : Nat)).toNat

def DispatchState.doneIds (state : DispatchState) : Finset String :=
  state.tasks.foldl (fun doneIds task =>
    if !isDependencySatisfying task.status then doneIds
    else match truthy task.fixForTaskId with
      | none => insert task.id doneIds
      | some fixForTaskId => insert fixForTaskId (insert task.id doneIds)) ∅

def DispatchState.depsBlocked (state : DispatchState) (task : Task) : Bool :=
  state.dependencyPipelineEnabled
    && !(task.dependencies.getD []).all fun dependency => dependency ∈ state.doneIds

/-! ### Legacy FIFO -/

def popEligibleFromQueue (assigned : Finset String) : List Task → Option Task × List Task
  | [] => (none, [])
  | candidate :: rest =>
      if candidate.id ∈ assigned then popEligibleFromQueue assigned rest else (some candidate, rest)

def planLegacyFifo (assigned : Finset String) : List String → List Task → DispatchPlan
  | [], queue => { toSpawn := [], toKill := [], remainingQueue := queue }
  | completedId :: rest, queue =>
      match popEligibleFromQueue assigned queue with
      | (none, queue) => { toSpawn := [], toKill := [], remainingQueue := queue }
      | (some next, queue) =>
          let plan := planLegacyFifo assigned rest queue
          { plan with toSpawn := next :: plan.toSpawn, toKill := completedId :: plan.toKill }

/-! ### Continuous -/

def drainQueue (state : DispatchState) : Nat → List Task → List Task × List Task
  | _, [] => ([], [])
  | slots, candidate :: rest =>
      if slots = 0 then ([], candidate :: rest)
      else if candidate.id ∈ state.assignedTaskIds then drainQueue state slots rest
      else if state.depsBlocked candidate then
        let (spawned, kept) := drainQueue state slots rest
        (spawned, candidate :: kept)
      else
        let (spawned, kept) := drainQueue state (slots - 1) rest
        (candidate :: spawned, kept)

def fillSlots (state : DispatchState) (alreadyChosen : Finset String) : Nat → List Task → List Task
  | _, [] => []
  | slots, task :: rest =>
      if slots = 0 then []
      else if task.status ≠ .pending || decide (task.id ∈ state.assignedTaskIds)
          || decide (task.id ∈ state.collectedIds) || decide (task.id ∈ alreadyChosen)
          || state.depsBlocked task then fillSlots state alreadyChosen slots rest
      else task :: fillSlots state alreadyChosen (slots - 1) rest

def planContinuous (state : DispatchState) : DispatchPlan :=
  let (drained, kept) := drainQueue state state.slotsAvailable state.remainingQueue
  { toSpawn := drained ++ fillSlots state (drained.map Task.id).toFinset
      (state.slotsAvailable - drained.length) state.tasks
    toKill := []
    remainingQueue := kept }

def planDispatch (state : DispatchState) : DispatchStrategy → DispatchPlan
  | .legacyFifo => planLegacyFifo state.assignedTaskIds state.completedTaskIds state.remainingQueue
  | .continuous => planContinuous state

/-! ### The shadow of the same tick -/

def toSchedulerTaskSnapshot (task : Task) : SchedulerTaskSnapshot :=
  { id := task.id
    status := task.status
    dependencies := task.dependencies.getD []
    fixForTaskId := task.fixForTaskId }

/-- The tasks that a scope collision blocks are an input. -/
def captureShadowSchedulerSnapshot (localeCompare : LocaleCompare) (nowMs : JsNumber)
    (collisionBlockedIds : Finset String) (state : DispatchState) (strategy : DispatchStrategy) :
    SchedulerSnapshot :=
  { strategy := strategy
    slotBudget := .finite state.slotsAvailable
    orderedQueue := state.remainingQueue.map toSchedulerTaskSnapshot
    tasks := state.tasks.map toSchedulerTaskSnapshot
    assignedTaskIds := state.assignedTaskIds
    collectedIds := state.collectedIds
    completedTaskIds := state.completedTaskIds
    dependencyPipelineEnabled := state.dependencyPipelineEnabled
    effectiveDependencyState := computeEffectiveDependencyState localeCompare state.tasks nowMs
    collisionBlockedIds := collisionBlockedIds }

end Deckent.ResultCollector
