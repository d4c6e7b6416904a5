import Deckent.Lib.BreadthFirst
import Deckent.Model.ExecutionTopology

/-!
# The dependency scheduler

`buildDependencyGraph` translates the edges between the slots of a plan back to sets of task ids, and
adds the references that name no task to the dependencies of the task that declares them.
`enforceWaveDependency` lets a candidate through when its whole dependency set is done.
`cascadeBlockDependents` searches the reverse edges from a failed task and pauses the pending tasks it
finds, and `unblockDependents` lets a paused dependent go when its dependencies are done.

The tasks of an array are told apart by their position, and the caller's listener is the list of the
events it received.
-/

namespace Deckent.DependencyScheduler

open ExecutionTopology

structure DependencyWave where
  waveIndex : Nat
  taskIds : List String
  deriving DecidableEq

/-- `dependencies` holds the ids a task waits for, `dependents` the reverse edges. -/
structure DependencyGraph where
  dependencies : OrderedMap String (OrderedSet String)
  dependents : OrderedMap String (OrderedSet String)
  waveAssignment : OrderedMap String Nat
  waves : List DependencyWave
  hasCycle : Bool
  cycleTaskIds : List String

structure EnforcementResult where
  eligible : List String
  blocked : List String
  reasons : OrderedMap String (List String)

structure CascadeResult where
  blockedTaskIds : List String
  totalBlocked : Nat
  deriving DecidableEq

structure UnblockResult where
  unblockedTaskIds : List String
  totalUnblocked : Nat
  deriving DecidableEq

inductive Transition where
  | blocked
  | unblocked
  deriving DecidableEq

structure CascadeTransitionEvent where
  transition : Transition
  taskId : String
  triggerTaskId : String
  failureCategory : Option String := none
  fromStatus : TaskStatus
  toStatus : TaskStatus
  deriving DecidableEq

/-! ### The graph of a plan -/

def taskIdAt (tasks : List Task) (slot : Nat) : Option String :=
  if slot = 0 then none else (tasks[slot - 1]?).map Task.id

/-- `map.get(key)?.add(member)`. -/
def addMember (map : OrderedMap String (OrderedSet String)) (key member : String) :
    OrderedMap String (OrderedSet String) :=
  match map.get? key with
  | none => map
  | some set => map.set key (set.add member)

structure EdgeMaps where
  dependencies : OrderedMap String (OrderedSet String)
  dependents : OrderedMap String (OrderedSet String)

def EdgeMaps.addTask (maps : EdgeMaps) (task : Task) : EdgeMaps :=
  { dependencies := maps.dependencies.set task.id ∅
    dependents := maps.dependents.set task.id ∅ }

/-- `if (from && to)`: an edge at a task with the empty id is passed over. -/
def EdgeMaps.addEdge (tasks : List Task) (maps : EdgeMaps) (edge : Edge) : EdgeMaps :=
  match truthy (taskIdAt tasks edge.fromSlot), truthy (taskIdAt tasks edge.toSlot) with
  | some fromId, some toId =>
      { dependencies := addMember maps.dependencies toId fromId
        dependents := addMember maps.dependents fromId toId }
  | _, _ => maps

def addFinding (tasks : List Task) (dependencies : OrderedMap String (OrderedSet String))
    (finding : Finding) : OrderedMap String (OrderedSet String) :=
  if finding.code = .unresolvedDependency then
    addMember dependencies
      ((taskIdAt tasks (finding.slots.head?.getD 1)).getD
        ("slot-" ++ (finding.slots.head?.map toString).getD "?"))
      (finding.ref.getD "unresolved-dependency")
  else dependencies

def assignWave (assignment : OrderedMap String Nat) (wave : DependencyWave) : OrderedMap String Nat :=
  wave.taskIds.foldl (fun assignment taskId => assignment.set taskId wave.waveIndex) assignment

def withoutWrites (task : Task) : Task :=
  { task with scope := some { filesWrite := some [] } }

def buildDependencyGraph (tables : UnicodeTables) (tasks : List Task) (includeCollisions : Bool) :
    DependencyGraph :=
  let maxWorkers : JsNumber := .finite (max 1 tasks.length : Nat)
  let topology := deriveExecutionTopology tables tasks maxWorkers
  let selectedEdges := if includeCollisions then topology.effectiveEdges else topology.authoredEdges
  let maps := selectedEdges.foldl (EdgeMaps.addEdge tasks)
    (tasks.foldl EdgeMaps.addTask { dependencies := OrderedMap.empty, dependents := OrderedMap.empty })
  let dependencies := topology.findings.foldl (addFinding tasks) maps.dependencies
  let selectedTopology := if includeCollisions then topology
    else deriveExecutionTopology tables (tasks.map withoutWrites) maxWorkers
  let waves := selectedTopology.waves.map fun wave =>
    { waveIndex := wave.wave - 1, taskIds := wave.slots.filterMap (taskIdAt tasks) }
  let cycleSlots := (selectedTopology.findings.filter fun finding =>
    finding.code = .dependencyCycle).flatMap Finding.slots
  let cycleTaskIds := (OrderedSet.ofList
    (cycleSlots.filterMap fun slot => truthy (taskIdAt tasks slot))).members
  { dependencies := dependencies
    dependents := maps.dependents
    waveAssignment := waves.foldl assignWave OrderedMap.empty
    waves := waves
    hasCycle := cycleTaskIds.length > 0
    cycleTaskIds := cycleTaskIds }

/-! ### Enforcement -/

def DependencyGraph.unresolved (graph : DependencyGraph) (doneTasks : OrderedSet String)
    (taskId : String) : List String :=
  ((graph.dependencies.get? taskId).getD ∅).members.filter fun dependency => dependency ∉ doneTasks

def enforceOne (graph : DependencyGraph) (doneTasks : OrderedSet String) (result : EnforcementResult)
    (taskId : String) : EnforcementResult :=
  if graph.unresolved doneTasks taskId = [] then
    { result with eligible := result.eligible ++ [taskId] }
  else
    { result with
      blocked := result.blocked ++ [taskId]
      reasons := result.reasons.set taskId (graph.unresolved doneTasks taskId) }

def enforceWaveDependency (graph : DependencyGraph) (candidateTaskIds : List String)
    (doneTasks : OrderedSet String) : EnforcementResult :=
  candidateTaskIds.foldl (enforceOne graph doneTasks)
    { eligible := [], blocked := [], reasons := OrderedMap.empty }

/-! ### Cascades -/

def DependencyGraph.dependentsOf (graph : DependencyGraph) (taskId : String) : List String :=
  ((graph.dependents.get? taskId).getD ∅).members

structure Cascade where
  tasks : List Task
  result : CascadeResult
  events : List CascadeTransitionEvent

def blockTask (failedTaskId : String) (blockedTaskIds : List String) (task : Task) :
    Task × List CascadeTransitionEvent :=
  if task.id ∈ OrderedSet.ofList blockedTaskIds ∧ task.status = .pending then
    ({ task with status := .paused },
      [{ transition := .blocked
         taskId := task.id
         triggerTaskId := failedTaskId
         fromStatus := task.status
         toStatus := .paused }])
  else (task, [])

def cascadeBlockDependents (fuel : Nat) (graph : DependencyGraph) (failedTaskId : String)
    (tasks : List Task) : Option Cascade :=
  ((Frontier.start failedTaskId).explore graph.dependentsOf fuel).map fun blockedTaskIds =>
    let marked := tasks.map (blockTask failedTaskId blockedTaskIds)
    { tasks := marked.map Prod.fst
      result := { blockedTaskIds := blockedTaskIds, totalBlocked := blockedTaskIds.length }
      events := marked.flatMap Prod.snd }

structure CascadeBlockOptions where
  shouldCascade : Bool
  failureCategory : String

structure ApplyFailureCascadeResult where
  cascade : CascadeResult
  cascadeApplied : Bool
  failureCategory : String
  deriving DecidableEq

def applyFailureCascade (fuel : Nat) (graph : DependencyGraph) (failedTaskId : String)
    (tasks : List Task) (options : CascadeBlockOptions) :
    Option (List Task × ApplyFailureCascadeResult × List CascadeTransitionEvent) :=
  if options.shouldCascade then
    (cascadeBlockDependents fuel graph failedTaskId tasks).map fun cascade =>
      (cascade.tasks,
        { cascade := cascade.result
          cascadeApplied := true
          failureCategory := options.failureCategory },
        cascade.events.map fun event =>
          { event with failureCategory := some options.failureCategory })
  else
    some (tasks,
      { cascade := { blockedTaskIds := [], totalBlocked := 0 }
        cascadeApplied := false
        failureCategory := options.failureCategory }, [])

/-! ### Unblocking -/

structure Unblocking where
  tasks : List Task
  unblockedTaskIds : List String
  events : List CascadeTransitionEvent

def setLastStatus (taskId : String) (status : TaskStatus) (tasks : List Task) : List Task :=
  match tasks.reverse.findIdx? fun task => task.id = taskId with
  | none => tasks
  | some index => tasks.modify (tasks.length - 1 - index) fun task => { task with status := status }

def unblockOne (graph : DependencyGraph) (resolvedTaskId : String) (doneTasks : OrderedSet String)
    (state : Unblocking) (dependent : String) : Unblocking :=
  match (OrderedMap.indexBy Task.id state.tasks).get? dependent with
  | none => state
  | some task =>
      if task.status = .paused ∧ graph.unresolved doneTasks dependent = [] then
        { tasks := setLastStatus dependent .pending state.tasks
          unblockedTaskIds := state.unblockedTaskIds ++ [dependent]
          events := state.events ++
            [{ transition := .unblocked
               taskId := dependent
               triggerTaskId := resolvedTaskId
               fromStatus := task.status
               toStatus := .pending }] }
      else state

def unblockDependents (graph : DependencyGraph) (resolvedTaskId : String) (tasks : List Task)
    (doneTasks : OrderedSet String) : List Task × UnblockResult × List CascadeTransitionEvent :=
  let final := (graph.dependentsOf resolvedTaskId).foldl (unblockOne graph resolvedTaskId doneTasks)
    { tasks := tasks, unblockedTaskIds := [], events := [] }
  (final.tasks,
    { unblockedTaskIds := final.unblockedTaskIds, totalUnblocked := final.unblockedTaskIds.length },
    final.events)

end Deckent.DependencyScheduler
