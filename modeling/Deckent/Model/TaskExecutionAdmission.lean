import Deckent.Model.ExecutionLockOperation

/-!
# The admission of a task's execution

One admission takes the execution lock of a task, asks its caller whether to dispatch, enters the durable
irreversible boundary, lets the caller create the process, and completes the boundary. Each phase leaves
evidence references, which the admission checks and merges; the lock store checks them again by its own rules.
What fails before the boundary releases the lock, and what fails after it quarantines the lock.

A hook is called at most once, so it is given with what it answers. The lock store is shared with other
processes: for each call there is the turn at which it runs.
-/

namespace Deckent.TaskExecutionAdmission

open ExecutionLock

inductive TaskExecutionAdmissionPhase where
  | acquire
  | revalidate
  | recoveryIntent
  | boundary
  | prepare
  | dispatch
  | persistDispatched
  | verifyDispatched
  | complete
  | release
  deriving DecidableEq

inductive TaskExecutionProcessState where
  | notStarted
  | adopted
  | possiblyStarted
  | dispatchReturned
  deriving DecidableEq

/-! ### Errors -/

/-- An error of the lock store, or another one with the text of its `code` if it has that. -/
inductive AdmissionError where
  | lock (error : ExecutionLockError)
  | other (code : Option String)

def reasonText : ExecutionLockFailureReason → String
  | .held => "held"
  | .maintenanceHeld => "maintenance-held"
  | .projectActive => "project-active"
  | .malformed => "malformed"
  | .foreignHost => "foreign-host"
  | .livenessUnknown => "liveness-unknown"
  | .ownershipLost => "ownership-lost"
  | .authorityLost => "authority-lost"
  | .authorityEpochMismatch => "authority-epoch-mismatch"
  | .quarantined => "quarantined"
  | .mutationConflict => "mutation-conflict"
  | .invalidInput => "invalid-input"

def maxAdmissionDetailCodeBytes : Nat := 128

def validDetailCode (value : String) : Bool :=
  value ≠ "" && value.toList.all (fun c => c.isAlphanum || "._:-".toList.contains c)
    && value.utf8ByteSize ≤ maxAdmissionDetailCodeBytes

def detailCode (error : AdmissionError) : String :=
  let candidate := match error with
    | .lock error => "execution-lock:" ++ reasonText error.reason
    | .other code => code.getD "E_TASK_EXECUTION_ADMISSION_OPERATION_FAILED"
  if validDetailCode candidate then candidate else "E_TASK_EXECUTION_ADMISSION_OPERATION_FAILED"

/-! ### Evidence -/

def maxAdmissionEvidenceRefBytes : Nat := 1024

/-- The options of `validatedEvidenceRefs` with their defaults. -/
structure EvidenceRules where
  allowEmpty : Bool := false
  maxRefs : Nat := 16
  maxTotalBytes : Nat := 8192
  code : String := "E_TASK_EXECUTION_ADMISSION_EVIDENCE_INVALID"

def requestEvidenceRules : EvidenceRules where
  maxRefs := 8
  maxTotalBytes := 3072
  code := "E_TASK_EXECUTION_ADMISSION_BOUNDARY_EVIDENCE_INVALID"

def revalidationEvidenceRules (adopts : Bool) : EvidenceRules where
  allowEmpty := !adopts
  maxRefs := 2
  maxTotalBytes := 1024
  code := "E_TASK_EXECUTION_ADMISSION_REVALIDATION_EVIDENCE_INVALID"

def recoveryEvidenceRules : EvidenceRules where
  maxRefs := 2
  maxTotalBytes := 1024
  code := "E_TASK_EXECUTION_ADMISSION_RECOVERY_EVIDENCE_INVALID"

def boundaryEvidenceRules : EvidenceRules where
  maxRefs := 12
  maxTotalBytes := 5120

def preparedEvidenceRules : EvidenceRules where
  maxRefs := 2
  maxTotalBytes := 1024
  code := "E_TASK_EXECUTION_ADMISSION_PREPARED_EVIDENCE_INVALID"

def preDispatchEvidenceRules : EvidenceRules where
  maxRefs := 14
  maxTotalBytes := 6144
  code := "E_TASK_EXECUTION_ADMISSION_PREPARED_EVIDENCE_INVALID"

def dispatchedEvidenceRules : EvidenceRules where
  maxRefs := 2
  maxTotalBytes := 1024
  code := "E_TASK_EXECUTION_ADMISSION_DISPATCH_EVIDENCE_INVALID"

/-- The loop of `validatedEvidenceRefs`, after the references `seen` and their bytes. -/
def evidenceRefsPass (maxTotalBytes : Nat) (seen : List String) (totalBytes : Nat) : List String → Bool
  | [] => true
  | ref :: rest =>
      let totalBytes' := totalBytes + ref.utf8ByteSize
      trim ref = ref && ref ≠ "" && !ref.toList.any (·.toNat = 0)
        && ref.utf8ByteSize ≤ maxAdmissionEvidenceRefBytes && totalBytes' ≤ maxTotalBytes && ref ∉ seen
        && evidenceRefsPass maxTotalBytes (seen ++ [ref]) totalBytes' rest

def validatedEvidenceRefs (refs : List String) (rules : EvidenceRules) :
    Except AdmissionError (List String) :=
  if refs.length ≤ rules.maxRefs ∧ (rules.allowEmpty = true ∨ refs ≠ [])
      ∧ evidenceRefsPass rules.maxTotalBytes [] 0 refs then
    .ok (sortBy compareCodePoint refs)
  else .error (.other (some rules.code))

def mergeEvidenceRefs (groups : List (List String)) (rules : EvidenceRules) :
    Except AdmissionError (List String) :=
  validatedEvidenceRefs groups.flatten rules

/-- The SHA-256 texts of the JSON of evidence and of a failure. -/
structure EvidenceDigests where
  evidence : List String → String
  failure : TaskExecutionAdmissionPhase → String → List String → String

namespace EvidenceDigests

variable (digests : EvidenceDigests)

def safeOutcomeEvidenceRefs (refs : List String) : List String :=
  match validatedEvidenceRefs refs { allowEmpty := true } with
  | .ok refs => refs
  | .error _ => ["admission-evidence-sha256:" ++ digests.evidence refs]

def failureEvidenceRef (phase : TaskExecutionAdmissionPhase) (code : String) (evidenceRefs : List String) :
    String :=
  "admission-failure-sha256:" ++ digests.failure phase code (digests.safeOutcomeEvidenceRefs evidenceRefs)

end EvidenceDigests

/-! ### The caller -/

structure TaskExecutionAdmissionRequest where
  taskId : String
  boundaryEvidenceRefs : List String

/-- What a hook answers: a value, a thenable, or an error with the text of its `code`. -/
inductive HookAnswer (α : Type) where
  | returned (value : α)
  | thenable
  | threw (code : Option String)

def requireSync {α : Type} : HookAnswer α → Except AdmissionError α
  | .returned value => .ok value
  | .thenable => .error (.other (some "E_TASK_EXECUTION_ADMISSION_SYNC_THENABLE"))
  | .threw code => .error (.other code)

inductive TaskExecutionAdmissionRevalidation (α : Type) where
  | dispatch (evidenceRefs : List String)
  | adopt (value : α) (evidenceRefs : List String)
  | hold (detailCode : String) (evidenceRefs : List String)

structure TaskExecutionAdmissionSyncHooks (α : Type) where
  revalidate : HookAnswer (TaskExecutionAdmissionRevalidation α)
  persistRecoveryIntent : HookAnswer (List String)
  verifyRecoveryIntent : List String → HookAnswer Bool
  verifyAdopted : Option (α → List String → HookAnswer Bool)
  persistPrepared : HookAnswer (List String)
  dispatch : HookAnswer α
  persistDispatched : α → HookAnswer (List String)
  verifyDispatched : α → List String → HookAnswer Bool

/-! ### The lock store -/

/-- The calls of the lock store; one admission makes each of them once at most. -/
inductive LockCall where
  | acquire
  | inspectAcquire
  | renew
  | begin
  | inspectBoundary
  | complete
  | inspectFailure
  | quarantine
  | inspectQuarantine
  | release
  | inspectRelease

/-- What a call finds. -/
structure LockTurn where
  options : ExecutionLockOptions
  host : ExecutionLockHost
  tables : ExecutionLockTables

/-! ### Outcomes -/

inductive TaskExecutionAdmissionOutcome (α : Type) where
  | held (phase : TaskExecutionAdmissionPhase) (detailCode : String) (evidenceRefs : List String)
  | adopted (value : α) (evidenceRefs : List String)
  | dispatched (value : α) (fencingToken : ExecutionLockFencingToken) (quarantineId : String)
      (evidenceRefs : List String)
  | quarantined (phase : TaskExecutionAdmissionPhase) (processState : TaskExecutionProcessState)
      (detailCode : String) (lock : ExecutionLockInfo) (quarantine : ExecutionLockQuarantineInfo)
      (evidenceRefs : List String)
  | inFlight (phase : TaskExecutionAdmissionPhase) (processState : TaskExecutionProcessState)
      (detailCode : String) (lock : ExecutionLockInfo) (boundary : ExecutionLockQuarantineInfo)
      (evidenceRefs : List String)
  | uncertain (phase : TaskExecutionAdmissionPhase) (processState : TaskExecutionProcessState)
      (detailCode : String) (lock : Option ExecutionLockInfo) (evidenceRefs : List String)

/-- An admission with its outcome; `dispatchEntered` where it has called the dispatch hook. -/
structure AdmissionRun (α : Type) where
  dispatchEntered : Bool
  outcome : TaskExecutionAdmissionOutcome α

structure MutableAdmissionState where
  lock : ExecutionLockInfo
  phase : TaskExecutionAdmissionPhase
  boundary : Option ExecutionLockQuarantineInfo
  processState : TaskExecutionProcessState

def exactGeneration (left right : ExecutionLockInfo) : Bool :=
  left.taskId = right.taskId ∧ left.ownerId = right.ownerId ∧ left.fencingToken = right.fencingToken

section Admission

variable {α : Type} (digests : EvidenceDigests) (store : LockCall → LockTurn)
  (request : TaskExecutionAdmissionRequest) (hooks : TaskExecutionAdmissionSyncHooks α)

def inspectAt (call : LockCall) : ExecutionLockInspection :=
  checkExecutionLock (store call).host (store call).tables request.taskId

def inspectedQuarantine (call : LockCall) (state : MutableAdmissionState) :
    MutableAdmissionState × Option ExecutionLockQuarantineInfo :=
  match inspectAt store request call with
  | .quarantined lock quarantine =>
      if exactGeneration lock state.lock then
        ({ state with lock, boundary := some quarantine }, some quarantine)
      else (state, none)
  | .absent | .held _ | .malformed => (state, none)

def releaseBeforeBoundary (state : MutableAdmissionState) : Bool :=
  let turn := store .release
  match releaseExecutionLock turn.options turn.host turn.tables request.taskId state.lock.ownerId with
  | .ok (true, _) => true
  | .ok (false, _) | .error _ => inspectAt store request .inspectRelease = .absent

def heldOutcome (phase : TaskExecutionAdmissionPhase) (code : String) (evidenceRefs : List String) :
    TaskExecutionAdmissionOutcome α :=
  .held phase (if validDetailCode code then code else "E_TASK_EXECUTION_ADMISSION_HELD")
    (digests.safeOutcomeEvidenceRefs evidenceRefs)

def uncertainOutcome (lock : Option ExecutionLockInfo) (phase : TaskExecutionAdmissionPhase)
    (processState : TaskExecutionProcessState) (code : String) (evidenceRefs : List String) :
    TaskExecutionAdmissionOutcome α :=
  .uncertain phase processState
    (if validDetailCode code then code else "E_TASK_EXECUTION_ADMISSION_AUTHORITY_UNCERTAIN") lock
    (digests.safeOutcomeEvidenceRefs evidenceRefs)

def quarantineAfterBoundary (state : MutableAdmissionState) (error : AdmissionError)
    (evidenceRefs : List String) : TaskExecutionAdmissionOutcome α :=
  let code := detailCode error
  let state := (inspectedQuarantine store request .inspectFailure state).1
  let failureEvidence := [digests.failureEvidenceRef state.phase code evidenceRefs]
  let turn := store .quarantine
  match quarantineExecutionLock turn.options turn.host turn.tables state.lock
      ⟨.authorityUncertain, failureEvidence⟩ with
  | .ok (quarantine, _) =>
      .quarantined state.phase state.processState code quarantine.lock quarantine quarantine.evidenceRefs
  | .error _ =>
      match inspectedQuarantine store request .inspectQuarantine state with
      | (_, some quarantine) =>
          match quarantine.state with
          | .quarantined =>
              .quarantined state.phase state.processState code quarantine.lock quarantine
                quarantine.evidenceRefs
          | .inFlight =>
              .inFlight state.phase state.processState code quarantine.lock quarantine
                quarantine.evidenceRefs
      | (state, none) =>
          uncertainOutcome digests (some state.lock) state.phase state.processState code failureEvidence

def validateRevalidation :
    TaskExecutionAdmissionRevalidation α → Except AdmissionError (TaskExecutionAdmissionRevalidation α)
  | .adopt value evidenceRefs => do
      let evidenceRefs ← validatedEvidenceRefs evidenceRefs (revalidationEvidenceRules true)
      return .adopt value evidenceRefs
  | .hold detailCode evidenceRefs => do
      let evidenceRefs ← validatedEvidenceRefs evidenceRefs (revalidationEvidenceRules false)
      if validDetailCode detailCode then return .hold detailCode evidenceRefs
      else throw (.other (some "E_TASK_EXECUTION_ADMISSION_REVALIDATION_INVALID"))
  | .dispatch evidenceRefs => do
      let evidenceRefs ← validatedEvidenceRefs evidenceRefs (revalidationEvidenceRules false)
      return .dispatch evidenceRefs

/-- The failure of `acquireState`. -/
def acquireFailure (error : AdmissionError) : TaskExecutionAdmissionOutcome α :=
  let held := heldOutcome digests .acquire (detailCode error) request.boundaryEvidenceRefs
  match error with
  | .other _ => held
  | .lock lockError =>
      match inspectAt store request .inspectAcquire with
      | .quarantined lock quarantine =>
          match quarantine.state with
          | .inFlight =>
              .inFlight .acquire .possiblyStarted (detailCode error) lock quarantine quarantine.evidenceRefs
          | .quarantined =>
              .quarantined .acquire .possiblyStarted (detailCode error) lock quarantine
                quarantine.evidenceRefs
      | .absent | .held _ | .malformed =>
          match lockError.recoveryLock with
          | some lock =>
              uncertainOutcome digests (some lock) .acquire .notStarted (detailCode error)
                request.boundaryEvidenceRefs
          | none => held

def acquireState : Except AdmissionError MutableAdmissionState := do
  let _ ← validatedEvidenceRefs request.boundaryEvidenceRefs requestEvidenceRules
  let turn := store .acquire
  let (lock, _) ← (acquireExecutionLock turn.options turn.host turn.tables request.taskId .dispatch).mapError
    AdmissionError.lock
  return { lock, phase := .revalidate, boundary := none, processState := .notStarted }

def handlePreBoundaryFailure (state : MutableAdmissionState) (error : AdmissionError)
    (evidenceRefs : List String) : TaskExecutionAdmissionOutcome α :=
  let code := detailCode error
  if releaseBeforeBoundary store request state then heldOutcome digests .revalidate code evidenceRefs
  else uncertainOutcome digests (some state.lock) .release .notStarted code evidenceRefs

def handleBoundaryEntryFailure (state : MutableAdmissionState) (error : AdmissionError)
    (evidenceRefs : List String) : TaskExecutionAdmissionOutcome α :=
  match inspectedQuarantine store request .inspectBoundary state with
  | (state, some _) => quarantineAfterBoundary digests store request state error evidenceRefs
  | (state, none) => handlePreBoundaryFailure digests store request state error evidenceRefs

/-- `adoptOrHold` with the outcome and the process state of a decision that does not dispatch. -/
def adoptOrHold (state : MutableAdmissionState) (processState : TaskExecutionProcessState)
    (revalidationRefs : List String) (settled : List String → TaskExecutionAdmissionOutcome α) :
    TaskExecutionAdmissionOutcome α :=
  match mergeEvidenceRefs [request.boundaryEvidenceRefs, revalidationRefs] {} with
  | .error error =>
      if releaseBeforeBoundary store request state then
        heldOutcome digests .revalidate (detailCode error) request.boundaryEvidenceRefs
      else
        uncertainOutcome digests (some state.lock) .release processState (detailCode error)
          request.boundaryEvidenceRefs
  | .ok evidenceRefs =>
      if releaseBeforeBoundary store request state then settled evidenceRefs
      else
        uncertainOutcome digests (some state.lock) .release processState
          "E_TASK_EXECUTION_ADMISSION_RELEASE_UNCERTAIN" evidenceRefs

def verifyAdoption (value : α) (revalidationRefs : List String) : Except AdmissionError Unit := do
  let adoptionEvidence ← mergeEvidenceRefs [request.boundaryEvidenceRefs, revalidationRefs] {}
  let verified ← match hooks.verifyAdopted with
    | some verify => requireSync (verify value adoptionEvidence)
    | none => pure false
  if verified then return ()
  else throw (.other (some "E_TASK_EXECUTION_ADMISSION_ADOPTION_UNVERIFIED"))

def recoveryIntent : Except AdmissionError (List String) := do
  let recoveryEvidence ← validatedEvidenceRefs (← requireSync hooks.persistRecoveryIntent)
    recoveryEvidenceRules
  let verified ← requireSync (hooks.verifyRecoveryIntent recoveryEvidence)
  if verified then return recoveryEvidence
  else throw (.other (some "E_TASK_EXECUTION_ADMISSION_RECOVERY_EVIDENCE_UNVERIFIED"))

def renewLock (state : MutableAdmissionState) : Except AdmissionError MutableAdmissionState := do
  let turn := store .renew
  let (lock, _) ← (renewExecutionLock turn.options turn.host turn.tables request.taskId
    state.lock.ownerId).mapError AdmissionError.lock
  return { state with lock }

def beginBoundary (state : MutableAdmissionState) (boundaryEvidence : List String) :
    Except AdmissionError ExecutionLockQuarantineInfo := do
  let turn := store .begin
  let (boundary, _) ← (beginExecutionLockIrreversibleBoundary turn.options turn.host turn.tables state.lock
    ⟨boundaryEvidence, none⟩).mapError AdmissionError.lock
  return boundary

def completeBoundary (lock : ExecutionLockInfo) (quarantineId : String) (completionEvidence : List String) :
    Except AdmissionError ExecutionLockBoundaryCompletionResult := do
  let turn := store .complete
  let (completion, _) ← (completeExecutionLockIrreversibleBoundary turn.options turn.host turn.tables lock
    ⟨quarantineId, completionEvidence⟩).mapError AdmissionError.lock
  return completion

structure DispatchProgress where
  phase : TaskExecutionAdmissionPhase
  processState : TaskExecutionProcessState
  preparedEvidence : List String
  dispatchedEvidence : List String

def DispatchProgress.check {β : Type} (progress : DispatchProgress) (result : Except AdmissionError β) :
    Except (AdmissionError × DispatchProgress) β :=
  result.mapError fun error => (error, progress)

/-- The phases from the boundary to its completion. -/
def dispatchPhases (lock : ExecutionLockInfo) (boundary : ExecutionLockQuarantineInfo)
    (boundaryEvidence : List String) :
    Except (AdmissionError × DispatchProgress) (TaskExecutionAdmissionOutcome α) := do
  let progress : DispatchProgress := ⟨.prepare, .notStarted, [], []⟩
  let preparedEvidence ← progress.check (do
    validatedEvidenceRefs (← requireSync hooks.persistPrepared) preparedEvidenceRules)
  let progress := { progress with preparedEvidence }
  let _ ← progress.check (mergeEvidenceRefs [boundaryEvidence, preparedEvidence] preDispatchEvidenceRules)
  let progress := { progress with phase := .dispatch, processState := .possiblyStarted }
  let value ← progress.check (requireSync hooks.dispatch)
  let progress := { progress with phase := .persistDispatched, processState := .dispatchReturned }
  let dispatchedEvidence ← progress.check (do
    validatedEvidenceRefs (← requireSync (hooks.persistDispatched value)) dispatchedEvidenceRules)
  let progress := { progress with phase := .verifyDispatched, dispatchedEvidence }
  let verified ← progress.check (requireSync (hooks.verifyDispatched value dispatchedEvidence))
  progress.check (if verified then .ok ()
    else .error (.other (some "E_TASK_EXECUTION_ADMISSION_DISPATCH_EVIDENCE_UNVERIFIED")))
  let completionEvidence ← progress.check
    (mergeEvidenceRefs [boundaryEvidence, preparedEvidence, dispatchedEvidence] {})
  let progress := { progress with phase := .complete }
  let completion ← progress.check (completeBoundary store lock boundary.quarantineId completionEvidence)
  return .dispatched value lock.fencingToken completion.completed.quarantineId completionEvidence

def afterBoundary (state : MutableAdmissionState) (boundary : ExecutionLockQuarantineInfo)
    (boundaryEvidence : List String) : AdmissionRun α :=
  match dispatchPhases store hooks state.lock boundary boundaryEvidence with
  | .ok outcome => ⟨true, outcome⟩
  | .error (error, progress) =>
      let state := { state with
        boundary := some boundary, phase := progress.phase, processState := progress.processState }
      ⟨progress.processState ≠ .notStarted, quarantineAfterBoundary digests store request state error
        (digests.safeOutcomeEvidenceRefs
          (boundaryEvidence ++ progress.preparedEvidence ++ progress.dispatchedEvidence))⟩

/-- The admission of a task whose caller decides to dispatch. -/
def dispatchAdmission (state : MutableAdmissionState) (revalidationRefs : List String) : AdmissionRun α :=
  match recoveryIntent hooks with
  | .error error =>
      ⟨false, handlePreBoundaryFailure digests store request { state with phase := .recoveryIntent } error
        request.boundaryEvidenceRefs⟩
  | .ok recoveryEvidence =>
      match mergeEvidenceRefs [request.boundaryEvidenceRefs, revalidationRefs, recoveryEvidence]
          boundaryEvidenceRules with
      | .error error =>
          ⟨false, handlePreBoundaryFailure digests store request { state with phase := .recoveryIntent }
            error request.boundaryEvidenceRefs⟩
      | .ok boundaryEvidence =>
          match renewLock store request { state with phase := .boundary } with
          | .error error =>
              ⟨false, handleBoundaryEntryFailure digests store request { state with phase := .boundary }
                error boundaryEvidence⟩
          | .ok state =>
              match beginBoundary store state boundaryEvidence with
              | .error error =>
                  ⟨false, handleBoundaryEntryFailure digests store request state error boundaryEvidence⟩
              | .ok boundary => afterBoundary digests store request hooks state boundary boundaryEvidence

def executeTaskExecutionAdmissionSync : AdmissionRun α :=
  match acquireState store request with
  | .error error => ⟨false, acquireFailure digests store request error⟩
  | .ok state =>
      match requireSync hooks.revalidate >>= validateRevalidation with
      | .error error =>
          ⟨false, handlePreBoundaryFailure digests store request state error request.boundaryEvidenceRefs⟩
      | .ok (.dispatch evidenceRefs) => dispatchAdmission digests store request hooks state evidenceRefs
      | .ok (.hold detailCode evidenceRefs) =>
          ⟨false, adoptOrHold digests store request state .notStarted evidenceRefs
            fun refs => heldOutcome digests .revalidate detailCode refs⟩
      | .ok (.adopt value evidenceRefs) =>
          match verifyAdoption request hooks value evidenceRefs with
          | .error error =>
              ⟨false, handlePreBoundaryFailure digests store request state error
                request.boundaryEvidenceRefs⟩
          | .ok () =>
              ⟨false, adoptOrHold digests store request state .adopted evidenceRefs
                fun refs => .adopted value refs⟩

end Admission

end Deckent.TaskExecutionAdmission
