import Deckent.Model.Js

/-!
# Tasks

The members of a task record that planning, scheduling and repair lineage read.
-/

namespace Deckent

inductive TaskStatus where
  | draft
  | pending
  | claimed
  | executing
  | testing
  | documenting
  | done
  | noGo
  | paused
  | manualReviewRequired
  deriving DecidableEq

structure TaskScope where
  filesWrite : Option (List String) := none
  deriving DecidableEq

structure Task where
  id : String
  title : String := ""
  scope : Option TaskScope := none
  dependencies : Option (List String) := none
  status : TaskStatus := .pending
  isPriorityFix : Option Bool := none
  fixForTaskId : Option String := none
  createdAt : Option String := none
  updatedAt : Option String := none
  retryAfter : Option JsNumber := none
  deriving DecidableEq

end Deckent
