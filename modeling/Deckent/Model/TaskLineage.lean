import Deckent.Lib.OrderedMap
import Deckent.Lib.Walk
import Deckent.Model.Task

/-!
# Task lineages

A repair task names the task it repairs in `fixForTaskId`. `foldTaskLineages` groups the tasks of a
list by the last known ancestor on that edge, sorts every group by attempt depth, birth time and id,
and follows from the root of the group the first attempt that repairs each failed head.

The loops that climb the edge carry the set of ids they have met. Such a loop meets each id of the list
once and at most one id outside it, which bounds the fuel.
-/

namespace Deckent

structure TaskLineage where
  rootId : String
  rootTask : Task
  resolvedTask : Task
  attempts : List Task
  attemptIds : List String
  deriving DecidableEq

namespace TaskLineage

/-- `String.prototype.localeCompare`, which the language requires to be a consistent comparison. Two
different strings may compare equal. -/
structure LocaleCompare where
  compare : String → String → Int
  signed : SignedComparator compare

/-- `new Map(tasks.map(task => [task.id, task]))`. -/
def indexById (tasks : List Task) : OrderedMap String Task :=
  OrderedMap.indexBy Task.id tasks

def timestamp (task : Task) : String :=
  (task.createdAt <|> task.updatedAt).getD ""

def flagged (task : Task) : Bool := task.isPriorityFix.getD false

def walkFuel (tasksById : OrderedMap String Task) : Nat := tasksById.entries.length + 1

/-! ### Climbing the repair edge -/

def parentOf (tasksById : OrderedMap String Task) (id : String) : Option String :=
  (tasksById.get? id).bind fun task => truthy task.fixForTaskId

def resolveFixAncestorIds (task : Task) (tasksById : OrderedMap String Task) : List String :=
  walkUp (parentOf tasksById) (walkFuel tasksById) {task.id} (truthy task.fixForTaskId)

def isFlaggedId (tasksById : OrderedMap String Task) (id : String) : Bool :=
  (tasksById.get? id).any flagged

def flaggedParentOf (tasksById : OrderedMap String Task) (id : String) : Option String :=
  if isFlaggedId tasksById id then parentOf tasksById id else none

def resolveFixAttemptDepth (task : Task) (tasksById : OrderedMap String Task) : Nat :=
  if flagged task then
    1 + (walkUp (flaggedParentOf tasksById) (walkFuel tasksById) {task.id}
      (truthy task.fixForTaskId)).countP (isFlaggedId tasksById)
  else 0

def resolveTaskLineageRootId (task : Task) (tasksById : OrderedMap String Task) : String :=
  match truthy task.fixForTaskId with
  | none => task.id
  | some _ =>
      ((resolveFixAncestorIds task tasksById).reverse.find? tasksById.contains).getD task.id

/-! ### The attempt order and the causal head -/

variable (localeCompare : LocaleCompare)

def compareAttempts (tasksById : OrderedMap String Task) (left right : Task) : Int :=
  thenBy
    (compareNumber (resolveFixAttemptDepth left tasksById) (resolveFixAttemptDepth right tasksById))
    (thenBy (localeCompare.compare (timestamp left) (timestamp right))
      (localeCompare.compare left.id right.id))

def successorOf (tasksById : OrderedMap String Task) (attempts : List Task) (head : Task) :
    Option Task :=
  if head.status = .noGo then
    (sortBy (compareAttempts localeCompare tasksById)
      (attempts.filter fun attempt => attempt.fixForTaskId = some head.id)).head?
  else none

def resolveCausalLineageHead (rootTask : Task) (attempts : List Task)
    (tasksById : OrderedMap String Task) : Task :=
  follow (successorOf localeCompare tasksById attempts) Task.id (attempts.length + 1) ∅ rootTask

/-! ### Lineages -/

def lineageOf (tasksById : OrderedMap String Task) (rootId : String) (attempts : List Task) :
    TaskLineage :=
  let sorted := sortBy (compareAttempts localeCompare tasksById) attempts
  let rootTask := (tasksById.get? rootId <|> sorted.head?).getD { id := rootId }
  { rootId := rootId
    rootTask := rootTask
    resolvedTask := resolveCausalLineageHead localeCompare rootTask sorted tasksById
    attempts := sorted
    attemptIds := sorted.map Task.id }

def groupByRoot (tasksById : OrderedMap String Task) (tasks : List Task) :
    OrderedMap String (List Task) :=
  OrderedMap.groupBy (fun task => resolveTaskLineageRootId task tasksById) id tasks

def foldTaskLineages (tasks : List Task) : List TaskLineage :=
  let tasksById := indexById tasks
  sortBy (fun left right => localeCompare.compare left.rootId right.rootId)
    ((groupByRoot tasksById tasks).entries.map fun group =>
      lineageOf localeCompare tasksById group.1 group.2)

end TaskLineage

end Deckent
