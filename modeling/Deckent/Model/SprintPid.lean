import Deckent.Lib.Interleaving

/-!
# The PID file of a sprint

The coordinator of a sprint has a PID file while it runs. A process that wants to be the coordinator
looks whether the file names a live process, and if not it moves a file of its own into place; it removes
the file when it is done. Another process can end the coordinator: it sends SIGTERM, waits, looks at the
file again and then sends SIGKILL. Each operation on the files and on the process table is one step, and
between two of them any other process may act, start or end.

A process is one lifetime, and a later one may have the same process id. The file at the path remembers
its version and which process wrote it. No process reads these.
-/

namespace Deckent.SprintPid

/-! ### Records -/

/-- What `readPidRecord` makes of a file. -/
structure PidRecord where
  pid : Nat
  sprintId : String
  startedAt : Option String
  startToken : Option String
  leaseId : Option String
  deriving DecidableEq

structure PidFile (ι : Type) where
  version : Nat
  writer : Option ι
  /-- The record in the file, if it can be read. -/
  record : Option PidRecord
  deriving DecidableEq

structure CoordinatorTerminationPolicy where
  coordinatorTerminationGraceMs : Nat
  terminationPollIntervalMs : Nat
  forcedTerminationVerifyMs : Nat

inductive OwnershipStatus where
  | owned
  | reused
  | dead
  | unknown
  deriving DecidableEq

inductive TerminationAction where
  | terminated
  | alreadyStopped
  | skippedReused
  | ownershipUnverified
  | staleFence
  | terminationFailed
  | self
  | stillAlive
  deriving DecidableEq

inductive TerminationEscalation where
  | none
  | sigterm
  | sigkill
  deriving DecidableEq

structure VerifiedCoordinatorTermination where
  action : TerminationAction
  pid : Option Nat
  escalation : TerminationEscalation
  deriving DecidableEq

def samePidFence (left : PidRecord) (right : Option PidRecord) : Bool :=
  match right with
  | none => false
  | some right => left.pid = right.pid && left.sprintId = right.sprintId && left.startToken ≠ none
      && left.startToken = right.startToken

/-! ### What the processes share -/

structure SprintHost (ι : Type) where
  sprintId : String
  pid : ι → Nat
  startToken : ι → Option String
  /-- The policy of each call that ends a coordinator. -/
  policy : ι → Nat → CoordinatorTerminationPolicy

inductive SprintPidEvent (ι : Type) where
  | published (process : ι) (record : PidRecord)
  | ended (process : ι)
  /-- SIGKILL is sent by a call that read the first record first, while the file is at the path. -/
  | killed (first : PidRecord) (file : Option (PidFile ι))
  | returned (first : Option PidRecord) (result : VerifiedCoordinatorTermination)
  deriving DecidableEq

structure SprintPids (ι : Type) where
  file : Option (PidFile ι)
  versions : Nat
  running : List ι
  ended : List ι
  log : List (SprintPidEvent ι)

section Shared

variable {ι : Type} (host : SprintHost ι) (shared : SprintPids ι)

def SprintPids.readPidRecord : Option PidRecord := shared.file.bind (·.record)

def SprintPids.isProcessAlive (pid : Nat) : Bool := shared.running.any (host.pid · = pid)

def SprintPids.processStartToken (pid : Nat) : Option String :=
  (shared.running.find? (host.pid · = pid)).bind host.startToken

def SprintPids.logs (event : SprintPidEvent ι) : SprintPids ι :=
  { shared with log := shared.log ++ [event] }

def SprintPids.publish (process : ι) (record : PidRecord) : SprintPids ι :=
  { shared with
    file := some ⟨shared.versions, some process, some record⟩
    versions := shared.versions + 1
    log := shared.log ++ [.published process record] }

def SprintPids.unlink : SprintPids ι := { shared with file := none }

end Shared

/-! ### Processes -/

/-- Where a process is in `writePid` or `clearPid`. -/
inductive PidPhase where
  | idle
  /-- About to look whether there is a file. -/
  | looking (startedAt : String)
  /-- About to read it. -/
  | reading (startedAt : String)
  /-- About to ask whether the process is alive that the file of the version names. -/
  | probing (startedAt : String) (pid version : Nat)
  /-- About to write a record of its own. The check has found a file of the version, or none. -/
  | writing (startedAt : String) (judged : Option Nat)
  /-- About to move the record to the path. -/
  | publishing (judged : Option Nat) (record : PidRecord)
  | clearing
  | unlinking
  deriving DecidableEq

/-- Where a process is in `terminateOwnedSprintProcessAndWait`. Before SIGKILL the record is read again,
which is the fence. -/
inductive TerminationPhase where
  | idle
  | reading
  | probing (first : PidRecord)
  /-- In `verifyOwnership`, about to read the record, to ask whether its process is alive, and to read
  the start token of the process. -/
  | owning (first : PidRecord) (fence : Option PidRecord)
  | owningAlive (first : PidRecord) (fence : Option PidRecord) (record : PidRecord)
  | owningToken (first : PidRecord) (fence : Option PidRecord) (record : PidRecord)
  | signalling (first : PidRecord) (fence : Option PidRecord)
  /-- The signal could not be sent. -/
  | unsent (first : PidRecord) (fence : Option PidRecord)
  | polling (first : PidRecord) (fence : Option PidRecord) (elapsedMs : Nat)
  | lastPolling (first : PidRecord) (fence : Option PidRecord)
  | fencing (first : PidRecord)
  /-- About to call `verifyGeneration`. -/
  | confirming (first fence : PidRecord)
  deriving DecidableEq

structure SprintProcess where
  /-- The record that `writePid` has returned, until `clearPid` is called. -/
  held : Option PidRecord
  phase : PidPhase
  terminations : Nat → TerminationPhase

inductive SprintPidAction where
  | start
  | die
  | writePid (startedAt : String)
  | clearPid
  /-- The next operation of `writePid` or `clearPid`. -/
  | proceed
  | write (leaseId : String)
  /-- The next operation throws. -/
  | fail
  | terminate (call : Nat)
  /-- The next operation of a call that ends a coordinator. A signal may throw and `verifyGeneration`
  may say no. -/
  | advance (call : Nat) (ok : Bool)

section Steps

variable {ι : Type} (host : SprintHost ι) (process : ι) (shared : SprintPids ι)

/-- `writePid` and `clearPid`. -/
def pidStep (held : Option PidRecord) :
    SprintPidAction → PidPhase → Option (SprintPids ι × Option PidRecord × PidPhase)
  | .writePid startedAt, .idle => some (shared, held, .looking startedAt)
  | .proceed, .looking startedAt =>
      match shared.file with
      | some _ => some (shared, held, .reading startedAt)
      | none => some (shared, held, .writing startedAt none)
  | .proceed, .reading startedAt =>
      match shared.file with
      | some file =>
          match file.record with
          | some record => some (shared, held, .probing startedAt record.pid file.version)
          | none => some (shared, held, .writing startedAt (some file.version))
      | none => some (shared, held, .writing startedAt none)
  | .proceed, .probing startedAt pid version =>
      if shared.isProcessAlive host pid then some (shared, held, .idle)
      else some (shared, held, .writing startedAt (some version))
  | .write leaseId, .writing startedAt judged =>
      let record : PidRecord := {
        pid := host.pid process
        sprintId := host.sprintId
        startedAt := some startedAt
        startToken := shared.processStartToken host (host.pid process)
        leaseId := some leaseId }
      some (shared, held, .publishing judged record)
  | .fail, .writing _ _ => some (shared, held, .idle)
  | .proceed, .publishing _ record => some (shared.publish process record, some record, .idle)
  | .fail, .publishing _ _ => some (shared, held, .idle)
  | .clearPid, .idle => some (shared, none, .clearing)
  | .proceed, .clearing =>
      match shared.file with
      | some _ => some (shared, held, .unlinking)
      | none => some (shared, held, .idle)
  | .proceed, .unlinking => some (shared.unlink, held, .idle)
  | .fail, .unlinking => some (shared, held, .idle)
  | _, _ => none

/-- The end of `verifyPidOwnership`, which has found the process of the record alive. -/
def ownershipOf (record : PidRecord) (live : Option String) : OwnershipStatus :=
  match record.startToken, live with
  | some startToken, some live =>
      if startToken = "" || live = "" then .unknown
      else if startToken = live then .owned
      else .reused
  | _, _ => .unknown

def returns (first : Option PidRecord) (action : TerminationAction) (escalation : TerminationEscalation) :
    SprintPids ι × TerminationPhase :=
  (shared.logs (.returned first {
    action := action
    pid := first.map (·.pid)
    escalation := escalation }), .idle)

def escalationOf (fence : Option PidRecord) : TerminationEscalation :=
  if fence.isSome then .sigkill else .sigterm

/-- What follows from the answer of `verifyOwnership`. -/
def owns (first : PidRecord) (fence : Option PidRecord) (ownership : OwnershipStatus) :
    SprintPids ι × TerminationPhase :=
  match ownership with
  | .owned => (shared, .signalling first fence)
  | .reused => returns shared (some first) .skippedReused .none
  | .dead | .unknown => returns shared (some first) .ownershipUnverified .none

/-- `terminateOwnedSprintProcessAndWait`. -/
def terminationStep (policy : CoordinatorTerminationPolicy) (ok : Bool) :
    TerminationPhase → Option (SprintPids ι × TerminationPhase)
  | .idle => none
  | .reading =>
      match shared.readPidRecord with
      | none => some (returns shared none .alreadyStopped .none)
      | some first => some (shared, .probing first)
  | .probing first =>
      if !shared.isProcessAlive host first.pid then some (returns shared (some first) .alreadyStopped .none)
      else if first.pid = host.pid process then some (returns shared (some first) .self .none)
      else some (shared, .owning first none)
  | .owning first fence =>
      match shared.readPidRecord with
      | none => some (owns shared first fence .dead)
      | some record => some (shared, .owningAlive first fence record)
  | .owningAlive first fence record =>
      if shared.isProcessAlive host record.pid then some (shared, .owningToken first fence record)
      else some (owns shared first fence .dead)
  | .owningToken first fence record =>
      some (owns shared first fence (ownershipOf record (shared.processStartToken host record.pid)))
  | .signalling first fence =>
      if ok then
        let sent := if fence.isSome then shared.logs (.killed first shared.file) else shared
        some (sent, .polling first fence 0)
      else some (shared, .unsent first fence)
  | .unsent first fence =>
      if shared.isProcessAlive host first.pid then
        some (returns shared (some first) .terminationFailed .none)
      else some (returns shared (some first) .terminated (escalationOf fence))
  | .polling first fence elapsedMs =>
      let timeoutMs := if fence.isSome then policy.forcedTerminationVerifyMs
        else policy.coordinatorTerminationGraceMs
      if !shared.isProcessAlive host first.pid then
        some (returns shared (some first) .terminated (escalationOf fence))
      else if elapsedMs < timeoutMs then
        let sliceMs := min policy.terminationPollIntervalMs (timeoutMs - elapsedMs)
        some (shared, .polling first fence (elapsedMs + sliceMs))
      else some (shared, .lastPolling first fence)
  | .lastPolling first fence =>
      if !shared.isProcessAlive host first.pid then
        some (returns shared (some first) .terminated (escalationOf fence))
      else if fence.isSome then some (returns shared (some first) .stillAlive .sigkill)
      else some (shared, .fencing first)
  | .fencing first =>
      match shared.readPidRecord with
      | none => some (returns shared (some first) .staleFence .none)
      | some fence =>
          if samePidFence first (some fence) then some (shared, .confirming first fence)
          else some (returns shared (some first) .staleFence .none)
  | .confirming first fence =>
      if ok then some (shared, .owning first (some fence))
      else some (returns shared (some first) .staleFence .none)

end Steps

/-- One step of a process. It runs from its start to its end, and no two processes run with one id. -/
def sprintPidStep {ι : Type} [DecidableEq ι] (host : SprintHost ι) (process : ι)
    (action : SprintPidAction) (shared : SprintPids ι) (memory : SprintProcess) :
    Option (SprintPids ι × SprintProcess) :=
  match action with
  | .start =>
      if process ∈ shared.running ∨ process ∈ shared.ended
          ∨ shared.isProcessAlive host (host.pid process) = true then none
      else some ({ shared with running := process :: shared.running }, memory)
  | action =>
      if process ∉ shared.running then none
      else match action with
        | .die =>
            some ({
              shared with
              running := shared.running.filter (· ≠ process)
              ended := process :: shared.ended
              log := shared.log ++ [.ended process] }, memory)
        | .terminate call =>
            if memory.terminations call = .idle then
              some (shared, {
                memory with
                terminations := Function.update memory.terminations call .reading })
            else none
        | .advance call ok =>
            (terminationStep host process shared (host.policy process call) ok
              (memory.terminations call)).map fun (shared, phase) =>
                (shared, {
                  memory with
                  terminations := Function.update memory.terminations call phase })
        | action =>
            (pidStep host process shared memory.held action memory.phase).map
              fun (shared, held, phase) => (shared, { memory with held := held, phase := phase })

/-- No process runs. What is at the path was left by earlier ones. -/
def SprintPidProcesses.initial {ι : Type} (found : Option (Option PidRecord)) :
    Processes ι (SprintPids ι) SprintProcess where
  shared := {
    file := found.map fun record => ⟨0, none, record⟩
    versions := 1
    running := []
    ended := []
    log := [] }
  memory := fun _ => ⟨none, .idle, fun _ => .idle⟩

end Deckent.SprintPid
