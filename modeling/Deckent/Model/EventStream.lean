import Deckent.Lib.OrderedMap
import Deckent.Model.JsValue

/-!
# The event stream of a sprint

Events are appended to the file of their sprint. An event that says that a task is blocked by the same
dependencies as before is suppressed: the process keeps, for every sprint and task, the joined ids of the
dependencies of the last such event.

A write fails where the host does. The sequence number, the time and the parties of an event are left out: the
suppression does not read them.
-/

namespace Deckent.EventStream

def dependencyBlocked : String := "BRAIN→WORKER:DEPENDENCY_BLOCKED"

structure DeckentEvent where
  sprintId : String
  channel : String
  payload : JsValue

inductive EventWriteResult where
  | written (event : DeckentEvent)
  | suppressed
  | failed

/-- `previousBlockedState`: the texts of the blocked tasks of every sprint. -/
abbrev BlockedState := OrderedMap String (OrderedMap String String)

def hashUnresolvedDeps (deps : List String) : String := ",".intercalate (sortBy compareCodePoint deps)

structure DependencyBlockedPayload where
  taskId : String
  unresolvedDeps : List String

def dependencyBlockedPayload (payload : JsValue) : Option DependencyBlockedPayload :=
  match payload.asRecord with
  | none => none
  | some record =>
      match JsValue.member record "taskId", JsValue.member record "unresolvedDeps" with
      | .string taskId, .array items => some ⟨taskId, items.filterMap (·.text?)⟩
      | _, _ => none

namespace BlockedState

variable (state : BlockedState)

def text? (sprintId taskId : String) : Option String :=
  (state.get? sprintId).bind fun sprintMap => sprintMap.get? taskId

def clearTask (sprintId taskId : String) : BlockedState :=
  match state.get? sprintId with
  | none => state
  | some sprintMap =>
      if (sprintMap.delete taskId).entries = [] then state.delete sprintId
      else state.set sprintId (sprintMap.delete taskId)

/-- `clearDependencyBlockedState`. -/
def clear : Option String → Option String → BlockedState
  | none, _ => .empty
  | some sprintId, none => state.delete sprintId
  | some sprintId, some taskId => state.clearTask sprintId taskId

def setText (sprintId taskId text : String) : BlockedState :=
  state.set sprintId (((state.get? sprintId).getD .empty).set taskId text)

/-- `applyDependencyBlockedDedupe`. The answer is whether the event is emitted. -/
def dedupe (sprintId : String) (payload : JsValue) : Bool × BlockedState :=
  match dependencyBlockedPayload payload with
  | none => (true, state)
  | some blocked =>
      if blocked.unresolvedDeps = [] then (true, state.clearTask sprintId blocked.taskId)
      else
        let hash := hashUnresolvedDeps blocked.unresolvedDeps
        let sprintMap := (state.get? sprintId).getD .empty
        if sprintMap.get? blocked.taskId = some hash then (false, state)
        else (true, state.setText sprintId blocked.taskId hash)

end BlockedState

/-- The calls of a process. A write that the host does not let through fails. -/
inductive Call where
  | write (sprintId channel : String) (payload : JsValue) (passes : Bool)
  | clear (sprintId taskId : Option String)

/-- `writeEventDetailed`. -/
def writeEventDetailed (state : BlockedState) (sprintId channel : String) (payload : JsValue) (passes : Bool) :
    EventWriteResult × BlockedState :=
  let emitted := if channel = dependencyBlocked then state.dedupe sprintId payload else (true, state)
  if emitted.1 then
    (if passes then .written ⟨sprintId, channel, payload⟩ else .failed, emitted.2)
  else (.suppressed, emitted.2)

def Call.run (state : BlockedState) : Call → BlockedState
  | write sprintId channel payload passes => (writeEventDetailed state sprintId channel payload passes).2
  | clear sprintId taskId => state.clear sprintId taskId

def stateAfter (calls : List Call) : BlockedState := calls.foldl Call.run .empty

def answer (before : List Call) (sprintId channel : String) (payload : JsValue) (passes : Bool) :
    EventWriteResult :=
  (writeEventDetailed (stateAfter before) sprintId channel payload passes).1

end Deckent.EventStream
