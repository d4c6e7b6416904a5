import Deckent.Lib.IndexedHeap

/-!
# The heartbeats of admissions

The leases of the admissions of a process are renewed by one timer. Their entries stand in a heap by the time at
which they are due, and a tick renews those that are. The callbacks of an entry may register and stop entries
themselves, and either of them may throw.
-/

namespace Deckent.AdmissionHeartbeat

def MAX_ADMISSION_HEARTBEAT_RENEWALS_PER_TICK : Nat := 256

/-- An entry without its callbacks and its `heapIndex`, which the heap holds. -/
structure ScheduledAdmissionHeartbeat where
  intervalMs : Nat
  nextDueMs : Int
  active : Bool := true
  failed : Bool := false
  error : Option String := none

/-- The entry objects by their ids; `active` has the ids in the map, and `timer` whether one is set. -/
structure AdmissionHeartbeatScheduler where
  entries : Nat → Option ScheduledAdmissionHeartbeat := fun _ => none
  heap : IndexedHeap Nat := ⟨[], fun _ => none⟩
  active : List Nat := []
  timer : Bool := false
  scheduledForMs : Option Int := none
  nextId : Nat := 1

/-- What a callback calls: `register` with the first word of the task key's digest and the clock, and the `stop`
that was returned for an entry. -/
inductive Operation where
  | register (jitter intervalMs : Nat) (nowMs : Int)
  | stop (id : Nat)

structure Callback where
  operations : List Operation := []
  throws : Option String := none

structure Renewal where
  renew : Callback := {}
  onFailure : Callback := {}
  renewedAtMs : Int
  nowMs : Int

def initialDelay (jitter intervalMs : Nat) : Nat :=
  let spreadWindowMs := max 1 ((intervalMs + 1) / 2)
  max 1 (intervalMs - spreadWindowMs + jitter % spreadWindowMs)

namespace AdmissionHeartbeatScheduler

variable (scheduler : AdmissionHeartbeatScheduler)

def dueOf (id : Nat) : Int :=
  ((scheduler.entries id).map (·.nextDueMs)).getD 0

def isActive (id : Nat) : Bool :=
  (scheduler.entries id).any (·.active)

def compare (left right : Nat) : Int :=
  thenBy (scheduler.dueOf left - scheduler.dueOf right) (left - right)

def push (id : Nat) : AdmissionHeartbeatScheduler :=
  { scheduler with heap := scheduler.heap.push scheduler.compare id }

def remove (id : Nat) : AdmissionHeartbeatScheduler :=
  { scheduler with heap := scheduler.heap.remove scheduler.compare id }

def pop : AdmissionHeartbeatScheduler :=
  { scheduler with heap := scheduler.heap.removeAt scheduler.compare 0 }

def peekActive : Option Nat :=
  scheduler.heap.items[0]?

def clearTimer : AdmissionHeartbeatScheduler :=
  { scheduler with timer := false, scheduledForMs := none }

def schedule (force : Bool := false) : AdmissionHeartbeatScheduler :=
  match scheduler.peekActive with
  | none => scheduler.clearTimer
  | some next =>
      if !force && scheduler.timer && scheduler.scheduledForMs.any (· ≤ scheduler.dueOf next) then scheduler
      else { scheduler with timer := true, scheduledForMs := some (scheduler.dueOf next) }

def setEntry (id : Nat) (entry : ScheduledAdmissionHeartbeat) : AdmissionHeartbeatScheduler :=
  { scheduler with entries := Function.update scheduler.entries id (some entry) }

def add (entry : ScheduledAdmissionHeartbeat) : AdmissionHeartbeatScheduler :=
  { scheduler.setEntry scheduler.nextId entry with
    nextId := scheduler.nextId + 1
    active := scheduler.active ++ [scheduler.nextId] }

def register (jitter intervalMs : Nat) (nowMs : Int) : AdmissionHeartbeatScheduler :=
  let entry := { intervalMs := intervalMs, nextDueMs := nowMs + initialDelay jitter intervalMs }
  ((scheduler.add entry).push scheduler.nextId).schedule

def deactivate (id : Nat) (entry : ScheduledAdmissionHeartbeat) : AdmissionHeartbeatScheduler :=
  { scheduler.setEntry id { entry with active := false } with
    active := scheduler.active.filter fun other => other != id }

def stop (id : Nat) : AdmissionHeartbeatScheduler :=
  match scheduler.entries id with
  | none => scheduler
  | some entry =>
      if entry.active then
        let wasNext := scheduler.peekActive = some id
        let stopped := (scheduler.deactivate id entry).remove id
        if stopped.active.isEmpty then
          { stopped.clearTimer with heap := { stopped.heap with items := [] } }
        else if wasNext then stopped.schedule true
        else stopped
      else scheduler

def operate : Operation → AdmissionHeartbeatScheduler
  | .register jitter intervalMs nowMs => scheduler.register jitter intervalMs nowMs
  | .stop id => scheduler.stop id

def call (callback : Callback) : AdmissionHeartbeatScheduler :=
  callback.operations.foldl operate scheduler

/-- One renewal of an entry that was popped, with the error that `onFailure` throws out of the tick. -/
def renew (id : Nat) (renewal : Renewal) : AdmissionHeartbeatScheduler × Option String :=
  let renewed := scheduler.call renewal.renew
  match renewal.renew.throws, renewed.entries id with
  | some error, some entry =>
      ((renewed.deactivate id { entry with failed := true, error := some error }).call renewal.onFailure,
        renewal.onFailure.throws)
  | none, some entry =>
      if entry.active then
        ((renewed.setEntry id { entry with nextDueMs := renewal.renewedAtMs + entry.intervalMs }).push id, none)
      else (renewed, none)
  | _, none => (renewed, none)

/-- The loop of `tick`, and whether it returns or with what it throws. -/
def tickFrom (renewals : Nat → Renewal) (scheduler : AdmissionHeartbeatScheduler) (nowMs : Int) (done : Nat) :
    AdmissionHeartbeatScheduler × Option String :=
  match _htop : scheduler.heap.items with
  | [] => (scheduler.schedule, none)
  | id :: _ =>
      if nowMs < scheduler.dueOf id then (scheduler.schedule, none)
      else if _hdone : MAX_ADMISSION_HEARTBEAT_RENEWALS_PER_TICK ≤ done then (scheduler.schedule, none)
      else if !scheduler.pop.isActive id then tickFrom renewals scheduler.pop nowMs done
      else
        match scheduler.pop.renew id (renewals done) with
        | (left, some error) => (left, some error)
        | (left, none) => tickFrom renewals left (renewals done).nowMs (done + 1)
termination_by (MAX_ADMISSION_HEARTBEAT_RENEWALS_PER_TICK - done, scheduler.heap.items.length)
decreasing_by
  · exact Prod.Lex.right _ (IndexedHeap.length_removeAt_lt _ (by simp [_htop]))
  · exact Prod.Lex.left _ _ (by omega)

def tick (nowMs : Int) (renewals : Nat → Renewal) : AdmissionHeartbeatScheduler × Option String :=
  tickFrom renewals scheduler.clearTimer nowMs 0

end AdmissionHeartbeatScheduler

/-! ### Runs -/

inductive Event where
  | operation (operation : Operation)
  | tick (nowMs : Int) (renewals : Nat → Renewal)

def AdmissionHeartbeatScheduler.step (scheduler : AdmissionHeartbeatScheduler) :
    Event → AdmissionHeartbeatScheduler × Option String
  | .operation operation => (scheduler.operate operation, none)
  | .tick nowMs renewals => scheduler.tick nowMs renewals

def AdmissionHeartbeatScheduler.after (events : List Event) : AdmissionHeartbeatScheduler :=
  events.foldl (fun scheduler event => (scheduler.step event).1) {}

end Deckent.AdmissionHeartbeat
