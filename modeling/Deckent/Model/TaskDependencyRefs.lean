import Deckent.Lib.Fallible
import Deckent.Lib.OrderedSet
import Deckent.Model.Js

/-!
# References to the tasks of a sprint

A dependency is authored as an id, as an index, as `Task N`, as a plan slot or as a label of a title, and is
written back as the id of the task it is resolved to.

A regular expression that ignores case compares code units after `canonicalize`, which depends on the Unicode
tables and is a parameter. It takes no unit outside ASCII to one inside, and letters within ASCII to upper case.
-/

namespace Deckent.TaskDependencyRefs

structure SprintTask where
  id : String
  title : String
  dependencies : List String
  isPriorityFix : Option Bool
  deriving DecidableEq

structure DependencyRefWarning where
  taskId : String
  ref : String
  message : String
  deriving DecidableEq

def dependencyRefReserved : List String := ["NONE", "AUTO"]

def isReserved (trimmed : String) : Bool := dependencyRefReserved.contains trimmed.toUpper

def isDigits (text : List Char) : Bool := !text.isEmpty && text.all Char.isDigit

def parseDigits (digits : List Char) : Nat := digits.foldl (fun value c => value * 10 + (c.toNat - 48)) 0

/-- The number of `TASK_N_RE`, `/^task\s+(\d+)$/i`. -/
def taskNumber (trimmed : String) : Option Nat :=
  let rest := trimmed.toList.drop 4
  let digits := rest.dropWhile isJsSpace
  if (trimmed.toList.take 4).map Char.toLower = ['t', 'a', 's', 'k'] && rest.head?.any isJsSpace
      && isDigits digits then some (parseDigits digits)
  else none

/-- `PLAN_SLOT_ID_RE`, `/^\d{1,4}-\d{1,4}$/`. -/
def isPlanSlotId (trimmed : String) : Bool :=
  let sprint := trimmed.toList.takeWhile Char.isDigit
  let rest := trimmed.toList.dropWhile Char.isDigit
  let task := rest.drop 1
  1 ≤ sprint.length && sprint.length ≤ 4 && rest.head? = some '-' && isDigits task && task.length ≤ 4

section Titles

variable (canonicalize : Nat → Nat)

def isRefBoundary (codeUnit : Nat) : Bool :=
  !(0x30 ≤ codeUnit && codeUnit ≤ 0x39 || 0x41 ≤ codeUnit && codeUnit ≤ 0x5A
    || 0x61 ≤ codeUnit && codeUnit ≤ 0x7A || codeUnit = 0x5F || codeUnit = 0x2D)

def isTokenAt (ref units : List Nat) : Bool :=
  (units.take ref.length).map canonicalize = ref.map canonicalize
    && (units.drop ref.length).head?.all isRefBoundary

def hasTokenFrom (ref : List Nat) : Bool → List Nat → Bool
  | atBoundary, [] => atBoundary && isTokenAt canonicalize ref []
  | atBoundary, codeUnit :: rest =>
      (atBoundary && isTokenAt canonicalize ref (codeUnit :: rest)) || hasTokenFrom ref (isRefBoundary codeUnit) rest

def titleHasRefToken (title ref : String) : Bool :=
  title ≠ "" && ref ≠ "" && hasTokenFrom canonicalize (utf16 ref) true (utf16 title)

def resolveDependencyRef (ref : String) (tasks : List SprintTask) : Option String :=
  let trimmed := trim ref
  if trimmed = "" then none
  else if isReserved trimmed then none
  else match tasks.find? (·.id = trimmed) with
    | some exactTask => some exactTask.id
    | none =>
        let directiveTasks := tasks.filter (·.isPriorityFix ≠ some true)
        if isDigits trimmed.toList then (directiveTasks[parseDigits trimmed.toList]?).map (·.id)
        else match taskNumber trimmed with
          | some n => if n = 0 then none else (directiveTasks[n - 1]?).map (·.id)
          | none =>
              if isPlanSlotId trimmed then none
              else (tasks.find? fun task => titleHasRefToken canonicalize task.title trimmed).map (·.id)

def unresolvedMessage (ownerTaskId ref : String) : String :=
  "[deckent] WARN: dependency ref '" ++ ref ++ "' çözülemedi (task " ++ ownerTaskId ++ ")"

structure ResolveTaskDependenciesLoudResult where
  resolved : OrderedSet String
  warnings : List DependencyRefWarning

def resolveLoop (strict : Bool) (ownerTaskId : String) (tasks : List SprintTask) :
    List String → ResolveTaskDependenciesLoudResult → Except String ResolveTaskDependenciesLoudResult
  | [], result => .ok result
  | ref :: refs, result =>
      match truthy (resolveDependencyRef canonicalize ref tasks) with
      | some id => resolveLoop strict ownerTaskId tasks refs { result with resolved := result.resolved.add id }
      | none =>
          let message := unresolvedMessage ownerTaskId ref
          if strict then .error message
          else resolveLoop strict ownerTaskId tasks refs
            { result with warnings := result.warnings ++ [⟨ownerTaskId, ref, message⟩] }

def resolveTaskDependenciesLoud (strict : Bool) (ownerTaskId : String) (refs : List String)
    (tasks : List SprintTask) : Except String ResolveTaskDependenciesLoudResult :=
  resolveLoop canonicalize strict ownerTaskId tasks refs ⟨∅, []⟩

def normalizeTask (strict : Bool) (tasks : List SprintTask) (task : SprintTask) :
    Except String (SprintTask × List DependencyRefWarning) :=
  if task.dependencies = [] then .ok (task, [])
  else do
    let result ← resolveTaskDependenciesLoud canonicalize strict task.id task.dependencies tasks
    return ({ task with dependencies := result.resolved.members }, result.warnings)

def normalizeStructuredTaskDependencies (strict : Bool) (tasks : List SprintTask) :
    Except String (List SprintTask × List DependencyRefWarning) := do
  let normalized ← tasks.mapM (normalizeTask canonicalize strict tasks)
  return (normalized.map Prod.fst, normalized.flatMap Prod.snd)

end Titles

end Deckent.TaskDependencyRefs
