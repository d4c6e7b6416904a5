import Deckent.Lib.OrderedMap
import Deckent.Model.ScheduledFlow

/-!
# The scheduler of flows

A tick fires the flows that have fallen due since they fired last. A consumer that keeps a cursor asks
for all occurrences behind it, works on them one by one and moves the cursor after each of them; it may
die in between, or the work may fail.

A date is its time value, and `none` is an invalid date.
-/

namespace Deckent.ScheduledFlow

structure Flow where
  id : String
  cronExpr : String
  enabled : Bool
  timezone : Option String := none
  deriving DecidableEq

structure DueFlow where
  flow : Flow
  nextRun : Option Int
  deriving DecidableEq

def atOrBefore (occurrence : Option Int) (now : Int) : Bool := occurrence.any fun t => t ≤ now

def isAfter (occurrence : Option Int) (now : Int) : Bool := occurrence.any fun t => now < t

section Scheduler

variable (formatter : String → Except String (Int → LocalDateTime))

/-- The loop of `missedOccurrences`, with as many turns left as the limit allows, and the check behind it. -/
def missedFrom (flow : Flow) (now : Int) (maxOccurrences : Nat) :
    Nat → Option Int → Except String (List DueFlow)
  | 0, cursor => do
      let next ← nextRun formatter flow.cronExpr cursor flow.timezone
      if atOrBefore next now then
        .error ("Flow " ++ flow.id ++ " exceeded catch-up limit " ++ toString maxOccurrences)
      else .ok []
  | turns + 1, cursor => do
      let occurrence ← nextRun formatter flow.cronExpr cursor flow.timezone
      if isAfter occurrence now then .ok []
      else do
        let due ← missedFrom flow now maxOccurrences turns occurrence
        .ok ({ flow := flow, nextRun := occurrence } :: due)

def missedOccurrences (flow : Flow) (after now : Int) (maxOccurrences : Nat) :
    Except String (List DueFlow) :=
  if !flow.enabled then .ok []
  else if maxOccurrences < 1 then .error "maxOccurrences must be a positive integer"
  else missedFrom formatter flow now maxOccurrences maxOccurrences (some after)

/-! ### A consumer with a cursor -/

/-- What is durable of the watch flow: its cursor, and the occurrences that moved it. -/
structure WatchFlow where
  cursor : Option Int := none
  settled : List Int := []
  deriving DecidableEq

/-- `cursorStore.set`, which cannot write an invalid date. -/
def WatchFlow.settle (watch : WatchFlow) (occurrence : Option Int) : WatchFlow :=
  match occurrence with
  | some t => { cursor := some t, settled := watch.settled ++ [t] }
  | none => watch

/-- One call of `runWatchFlow` that gets through the first `worked` occurrences. -/
def runWatchFlow (flow : Flow) (createdAt now : Int) (worked : Nat) (watch : WatchFlow) : WatchFlow :=
  match missedOccurrences formatter flow (watch.cursor.getD createdAt) now 10000 with
  | .error _ => watch
  | .ok due => (due.take worked).foldl (fun watch occurrence => watch.settle occurrence.nextRun) watch

/-! ### Ticks -/

def compareDue (a b : DueFlow) : Int :=
  match a.nextRun, b.nextRun with
  | some a, some b => a - b
  | _, _ => 0

structure FlowScheduler where
  lastRunAt : OrderedMap String Int := .empty

def FlowScheduler.visit (scheduler : FlowScheduler) (now : Int) (flow : Flow) :
    Except String (Option DueFlow × FlowScheduler) :=
  if !flow.enabled then .ok (none, scheduler)
  else do
    let next ← nextRun formatter flow.cronExpr (some ((scheduler.lastRunAt.get? flow.id).getD 0)) flow.timezone
    if atOrBefore next now then
      .ok (some { flow := flow, nextRun := next }, ⟨scheduler.lastRunAt.set flow.id now⟩)
    else .ok (none, scheduler)

/-- The loop of `tick`. A flow whose next run cannot be found makes it throw; what it has noted of the flows before
stays. -/
def FlowScheduler.tickFrom (now : Int) (due : List DueFlow) :
    List Flow → FlowScheduler → Except String (List DueFlow) × FlowScheduler
  | [], scheduler => (.ok (sortBy compareDue due), scheduler)
  | flow :: rest, scheduler =>
      match scheduler.visit formatter now flow with
      | .error error => (.error error, scheduler)
      | .ok (found, scheduler) => tickFrom now (due ++ found.toList) rest scheduler

def FlowScheduler.tick (flows : List Flow) (now : Int) (scheduler : FlowScheduler) :
    Except String (List DueFlow) × FlowScheduler :=
  scheduler.tickFrom formatter now [] flows

end Scheduler

end Deckent.ScheduledFlow
