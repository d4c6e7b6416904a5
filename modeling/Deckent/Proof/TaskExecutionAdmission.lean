import Deckent.Model.TaskExecutionAdmission
import Deckent.Proof.ExecutionLockFencing

/-!
# When an admission settles
An admission settles when it is held before the dispatch hook is called or ends as dispatched after that. Where
the lock store and the hooks do their part, this is a matter of the evidence. What fails up to the boundary is
held. After it, the dispatched evidence may still repeat an earlier reference, and the prepared or the
dispatched evidence may hold a control character that only the lock store turns away: then the completion is
refused and the run is quarantined.
-/

/-! ### What an admission and the lock store accept as evidence

Both check each reference and the sums. The admission sorts what it accepts and the store wants it sorted, so on
what the admission has accepted within the store's bounds the two differ in one point: the admission turns away
the control character NUL alone, and the store turns away all of them. -/

namespace Deckent.TaskExecutionAdmission

open ExecutionLock

def bytesOf (refs : List String) : Nat := (refs.map String.utf8ByteSize).sum

structure AdmittedRef (ref : String) : Prop where
  trimmed : trim ref = ref
  nonempty : ref ≠ ""
  noNul : ref.toList.any (·.toNat = 0) = false
  bytes : ref.utf8ByteSize ≤ maxAdmissionEvidenceRefBytes

def ControlFree (refs : List String) : Prop := ∀ ref ∈ refs, ref.toList.any isControl = false

/-- Evidence that the admission accepts under some rules. -/
structure Accepted (rules : EvidenceRules) (refs : List String) : Prop where
  count : refs.length ≤ rules.maxRefs
  nonempty : rules.allowEmpty = true ∨ refs ≠ []
  admitted : ∀ ref ∈ refs, AdmittedRef ref
  bytes : bytesOf refs ≤ rules.maxTotalBytes
  nodup : refs.Nodup

variable {rules : EvidenceRules} {refs sorted : List String} {ref : String}

@[simp]
theorem bytesOf_nil : bytesOf [] = 0 := rfl

@[simp]
theorem bytesOf_cons (refs : List String) : bytesOf (ref :: refs) = ref.utf8ByteSize + bytesOf refs := rfl

@[simp]
theorem bytesOf_append (left right : List String) :
    bytesOf (left ++ right) = bytesOf left + bytesOf right := by
  simp [bytesOf]

theorem bytesOf_perm {left right : List String} (hperm : left.Perm right) : bytesOf left = bytesOf right :=
  (hperm.map _).sum_eq

theorem evidenceRefsPass_iff {maxTotalBytes totalBytes : Nat} {seen : List String}
    (htotal : totalBytes ≤ maxTotalBytes) (hseen : seen.Nodup) :
    evidenceRefsPass maxTotalBytes seen totalBytes refs = true
      ↔ (∀ ref ∈ refs, AdmittedRef ref) ∧ totalBytes + bytesOf refs ≤ maxTotalBytes
        ∧ (seen ++ refs).Nodup := by
  induction refs generalizing seen totalBytes with
  | nil => simpa [evidenceRefsPass] using ⟨htotal, hseen⟩
  | cons ref rest ih =>
      have happend : seen ++ ref :: rest = (seen ++ [ref]) ++ rest := by simp
      rw [evidenceRefsPass, happend]
      simp only [Bool.and_eq_true, decide_eq_true_eq, Bool.not_eq_true', List.forall_mem_cons, bytesOf_cons]
      constructor
      · rintro ⟨⟨⟨⟨⟨⟨htrim, hne⟩, hnul⟩, hbytes⟩, hsum⟩, hnew⟩, hrest⟩
        have hseen' : (seen ++ [ref]).Nodup :=
          hseen.append (List.nodup_singleton ref) (by simpa using hnew)
        obtain ⟨hadmitted, hall, hnodup⟩ := (ih hsum hseen').mp hrest
        exact ⟨⟨⟨htrim, hne, hnul, hbytes⟩, hadmitted⟩, by omega, hnodup⟩
      · rintro ⟨⟨hfirst, hadmitted⟩, hall, hnodup⟩
        have hseen' : (seen ++ [ref]).Nodup := (List.nodup_append.mp hnodup).1
        have hnew : ref ∉ seen := fun hmem =>
          (List.nodup_append.mp hseen').2.2 ref hmem ref List.mem_cons_self rfl
        have hsum : totalBytes + ref.utf8ByteSize ≤ maxTotalBytes := by omega
        have hrest := (ih hsum hseen').mpr ⟨hadmitted, by omega, hnodup⟩
        exact ⟨⟨⟨⟨⟨⟨hfirst.trimmed, hfirst.nonempty⟩, hfirst.noNul⟩, hfirst.bytes⟩, hsum⟩, hnew⟩, hrest⟩

theorem validatedEvidenceRefs_ok :
    validatedEvidenceRefs refs rules = .ok sorted
      ↔ Accepted rules refs ∧ sorted = sortBy compareCodePoint refs := by
  unfold validatedEvidenceRefs
  constructor
  · intro h
    split at h
    · next hrules =>
        obtain ⟨hcount, hnonempty, hpass⟩ := hrules
        obtain ⟨hadmitted, hbytes, hnodup⟩ :=
          (evidenceRefsPass_iff (Nat.zero_le _) List.nodup_nil).mp hpass
        rw [Nat.zero_add] at hbytes
        exact ⟨⟨hcount, hnonempty, hadmitted, hbytes, hnodup⟩, (Except.ok.inj h).symm⟩
    · cases h
  · rintro ⟨haccepted, rfl⟩
    have hpass : evidenceRefsPass rules.maxTotalBytes [] 0 refs = true :=
      (evidenceRefsPass_iff (Nat.zero_le _) List.nodup_nil).mpr
        ⟨haccepted.admitted, by rw [Nat.zero_add]; exact haccepted.bytes, haccepted.nodup⟩
    rw [if_pos ⟨haccepted.count, haccepted.nonempty, hpass⟩]

theorem validatedEvidenceRefs_error (h : ¬ Accepted rules refs) :
    validatedEvidenceRefs refs rules = .error (.other (some rules.code)) := by
  cases hresult : validatedEvidenceRefs refs rules with
  | ok sorted => exact absurd (validatedEvidenceRefs_ok.mp hresult).1 h
  | error error =>
      unfold validatedEvidenceRefs at hresult
      split at hresult
      · cases hresult
      · exact congrArg Except.error (Except.error.inj hresult).symm

theorem Accepted.of_perm {other : List String} (h : Accepted rules refs) (hperm : refs.Perm other) :
    Accepted rules other where
  count := hperm.length_eq ▸ h.count
  nonempty := h.nonempty.imp_right fun hne hnil => hne (List.perm_nil.mp (hnil ▸ hperm))
  admitted ref href := h.admitted ref (hperm.mem_iff.mpr href)
  bytes := bytesOf_perm hperm ▸ h.bytes
  nodup := hperm.nodup h.nodup

theorem ControlFree.perm {other : List String} (hperm : refs.Perm other) :
    ControlFree refs ↔ ControlFree other := by
  unfold ControlFree
  simp only [hperm.mem_iff]

theorem controlFree_append {left right : List String} :
    ControlFree (left ++ right) ↔ ControlFree left ∧ ControlFree right := by
  unfold ControlFree
  simp only [List.mem_append, or_imp, forall_and]

/-! ### The lock store -/

theorem evidenceRefsFollow_iff {last : Option String} {totalBytes : Nat}
    (htotal : totalBytes ≤ maxExecutionLockEvidenceTotalBytes) :
    evidenceRefsFollow last totalBytes refs = true
      ↔ (∀ ref ∈ refs, validBoundedExecutionLockText ref maxExecutionLockEvidenceRefBytes = true)
        ∧ totalBytes + bytesOf refs ≤ maxExecutionLockEvidenceTotalBytes
        ∧ (last.toList ++ refs).IsChain fun a b => utf16 a < utf16 b := by
  induction refs generalizing last totalBytes with
  | nil => cases last <;> simpa [evidenceRefsFollow] using htotal
  | cons ref rest ih =>
      rw [evidenceRefsFollow]
      simp only [Bool.and_eq_true, decide_eq_true_eq, List.forall_mem_cons, bytesOf_cons]
      have hchain : (last.toList ++ ref :: rest).IsChain (fun a b => utf16 a < utf16 b)
          ↔ last.all (fun previous => utf16 previous < utf16 ref) = true
            ∧ (ref :: rest).IsChain fun a b => utf16 a < utf16 b := by
        cases last with
        | none => simp
        | some previous => simp [List.isChain_cons_cons]
      rw [hchain]
      constructor
      · rintro ⟨⟨⟨hvalid, hlast⟩, hsum⟩, hrest⟩
        obtain ⟨hall, hbytes, hordered⟩ := (ih hsum).mp hrest
        exact ⟨⟨hvalid, hall⟩, by omega, hlast, hordered⟩
      · rintro ⟨⟨hvalid, hall⟩, hbytes, hlast, hordered⟩
        have hsum : totalBytes + ref.utf8ByteSize ≤ maxExecutionLockEvidenceTotalBytes := by omega
        exact ⟨⟨⟨hvalid, hlast⟩, hsum⟩, (ih hsum).mpr ⟨hall, by omega, hordered⟩⟩

theorem AdmittedRef.validBounded (h : AdmittedRef ref) :
    validBoundedExecutionLockText ref maxExecutionLockEvidenceRefBytes = true
      ↔ ref.toList.any isControl = false := by
  have hbytes : ref.utf8ByteSize ≤ maxExecutionLockEvidenceRefBytes := h.bytes
  simp [validBoundedExecutionLockText, h.nonempty, h.trimmed, hbytes]

theorem isSome_parseExecutionLockEvidenceRefs (h : Accepted rules refs)
    (hcount : rules.maxRefs ≤ maxExecutionLockEvidenceRefs)
    (hbytes : rules.maxTotalBytes ≤ maxExecutionLockEvidenceTotalBytes) :
    (parseExecutionLockEvidenceRefs (sortBy compareCodePoint refs)).isSome = true ↔ ControlFree refs := by
  have hperm : refs.Perm (sortBy compareCodePoint refs) := (perm_sortBy compareCodePoint refs).symm
  have hsorted := h.of_perm hperm
  have hchain : (sortBy compareCodePoint refs).IsChain fun a b => utf16 a < utf16 b := by
    have hordered := signed_compareCodePoint.consistent.pairwise_sortBy refs
    refine List.Pairwise.isChain (hordered.imp₂ ?_ hsorted.nodup)
    intro a b hle hne
    by_contra hnot
    exact hne (eq_of_compareCodePoint hle (compareCodePoint_nonpos.mpr hnot))
  have hlength := hsorted.count
  have htotal := hsorted.bytes
  rw [ControlFree.perm hperm, parseExecutionLockEvidenceRefs, Option.isSome_ite,
    evidenceRefsFollow_iff (Nat.zero_le _)]
  constructor
  · rintro ⟨-, hvalid, -, -⟩ ref href
    exact (hsorted.admitted ref href).validBounded.mp (hvalid ref href)
  · intro hfree
    exact ⟨by omega, fun ref href => (hsorted.admitted ref href).validBounded.mpr (hfree ref href),
      by omega, hchain⟩

end Deckent.TaskExecutionAdmission

namespace Deckent.ExecutionLock

variable {options : ExecutionLockOptions} {host : ExecutionLockHost} {tables next : ExecutionLockTables}
  {lock held : ExecutionLockInfo} {taskId : String} {evidenceRefs refs : List String}

theorem checkExecutionLock_eq_held (hcheck : checkExecutionLock host tables taskId = .held lock) :
    LoadedTask tables taskId ⟨some lock, none⟩ ∧ host.reconcileFault taskId = none := by
  unfold checkExecutionLock at hcheck
  split at hcheck
  · cases hcheck
  · cases hcheck
  · next found hloaded =>
      cases hcheck
      exact reconcileExecutionLockProjectionForTask_ok.mp hloaded
  · cases hcheck

theorem begin_of_evidence {boundary : ExecutionLockQuarantineInfo}
    (hcheck : checkExecutionLock host tables lock.taskId = .held held)
    (hbegin : beginExecutionLockIrreversibleBoundary options host tables lock ⟨evidenceRefs, none⟩
      = .ok (boundary, next))
    (hrefs : (parseExecutionLockEvidenceRefs refs).isSome) :
    ∃ entered later, beginExecutionLockIrreversibleBoundary options host tables lock ⟨refs, none⟩
        = .ok (entered, later) ∧ entered.quarantineId = host.quarantineId.text := by
  obtain ⟨hloaded, hfault⟩ := checkExecutionLock_eq_held hcheck
  simp only [beginExecutionLockIrreversibleBoundary, bind_eq_ok, normalizeExecutionLockHandle_ok,
    require_eq_ok, normalizeExecutionLockEvidenceRefs_ok, reconcileExecutionLockProjectionForTask_ok,
    requireSome_eq_ok, executionLockForExactGeneration_eq_some, assertExactLiveExecutionLockOwner_ok]
    at hbegin ⊢
  obtain ⟨_, ⟨rfl, hparses⟩, _, hid, _, ⟨rfl, -⟩, nowMs, hnow, current, ⟨hcurrent, -⟩, lock, ⟨hlock, rfl⟩,
    _, hlive, hrest⟩ := hbegin
  have hsame : current.quarantine = none := by
    rw [hcurrent.quarantine_eq hlock, ← hloaded.quarantine_eq rfl]
  simp only [hsame, bind_eq_ok, insertExecutionLockQuarantineRow_ok, appendExecutionLockQuarantineAudit_ok,
    pure_eq_ok, Prod.mk.injEq] at hrest
  obtain ⟨_, ⟨hnew, rfl⟩, _, ⟨haudit, rfl⟩, -, -⟩ := hrest
  refine ⟨boundaryRecord host.quarantineId.text lock refs nowMs, { tables with
      quarantine := tables.quarantine ++ [boundaryRecord host.quarantineId.text lock refs nowMs]
      quarantineAudit := tables.quarantineAudit ++ [recordAudit .boundaryEntered
        (boundaryRecord host.quarantineId.text lock refs nowMs) (max nowMs lock.renewedAt) host.eventId] },
    ⟨lock, ⟨rfl, hparses⟩, (), hid, refs, ⟨rfl, hrefs⟩, nowMs, hnow, current, ⟨hcurrent, hfault⟩, lock,
      ⟨hlock, rfl⟩, (), hlive, ?_⟩, rfl⟩
  simp only [hsame, bind_eq_ok, insertExecutionLockQuarantineRow_ok, appendExecutionLockQuarantineAudit_ok,
    pure_eq_ok, Prod.mk.injEq]
  exact ⟨_, ⟨hnew, rfl⟩, _, ⟨haudit, rfl⟩, rfl, rfl⟩

theorem complete_of_evidence {quarantineId : String} {result : ExecutionLockBoundaryCompletionResult}
    (hcomplete : completeExecutionLockIrreversibleBoundary options host tables lock
      ⟨quarantineId, evidenceRefs⟩ = .ok (result, next))
    (hrefs : (parseExecutionLockEvidenceRefs refs).isSome) (hnonempty : refs ≠ []) :
    ∃ completed later, completeExecutionLockIrreversibleBoundary options host tables lock
        ⟨quarantineId, refs⟩ = .ok (completed, later) := by
  simp only [completeExecutionLockIrreversibleBoundary, bind_eq_ok, normalizeExecutionLockHandle_ok,
    require_eq_ok, normalizeExecutionLockEvidenceRefs_ok, reconcileExecutionLockProjectionForTask_ok,
    requireSome_eq_ok, executionLockForExactGeneration_eq_some, assertExactLiveExecutionLockOwner_ok,
    Option.filter_eq_some_iff, decide_eq_true_eq, appendExecutionLockQuarantineAudit_ok,
    deleteExecutionLockQuarantineRow_ok, deleteExecutionLockActiveRow_ok, pure_eq_ok,
    Prod.mk.injEq] at hcomplete ⊢
  obtain ⟨_, ⟨rfl, hparses⟩, _, hid, _, ⟨rfl, -⟩, _, -, nowMs, hnow, current, hcurrent, lock, hlock,
    quarantine, hquarantine, _, hlive, _, ⟨haudit, rfl⟩, _, ⟨hrow, rfl⟩, _, ⟨hactive, rfl⟩, -, -⟩ := hcomplete
  exact ⟨_, _, _, ⟨rfl, hparses⟩, (), hid, refs, ⟨rfl, hrefs⟩, (), hnonempty, nowMs, hnow, current,
    hcurrent, lock, hlock, quarantine, hquarantine, (), hlive, _, ⟨haudit, rfl⟩, _, ⟨hrow, rfl⟩, _,
    ⟨hactive, rfl⟩, rfl, rfl⟩

theorem begin_evidence {boundary : ExecutionLockQuarantineInfo}
    (hbegin : beginExecutionLockIrreversibleBoundary options host tables lock ⟨evidenceRefs, none⟩
      = .ok (boundary, next)) : (parseExecutionLockEvidenceRefs evidenceRefs).isSome := by
  simp only [beginExecutionLockIrreversibleBoundary, bind_eq_ok, normalizeExecutionLockEvidenceRefs_ok]
    at hbegin
  obtain ⟨_, -, _, -, _, ⟨-, hevidence⟩, -⟩ := hbegin
  exact hevidence

end Deckent.ExecutionLock

namespace Deckent.TaskExecutionAdmission

open ExecutionLock

variable {α : Type}

/-! ### Runs in which only the evidence decides -/

/-- No call of the lock store fails for another reason than its evidence. -/
structure NoLockFault (store : LockCall → LockTurn) (request : TaskExecutionAdmissionRequest)
    (lock renewed : ExecutionLockInfo) : Prop where
  acquire : ∃ next, acquireExecutionLock (store .acquire).options (store .acquire).host
    (store .acquire).tables request.taskId .dispatch = .ok (lock, next)
  renew : ∃ next, renewExecutionLock (store .renew).options (store .renew).host (store .renew).tables
    request.taskId lock.ownerId = .ok (renewed, next)
  beginHeld : inspectAt store request .begin = .held renewed
  begin : ∃ evidenceRefs boundary next, beginExecutionLockIrreversibleBoundary (store .begin).options
    (store .begin).host (store .begin).tables renewed ⟨evidenceRefs, none⟩ = .ok (boundary, next)
  inspectBoundary : inspectAt store request .inspectBoundary = .held renewed
  complete : ∃ evidenceRefs completion next, completeExecutionLockIrreversibleBoundary
    (store .complete).options (store .complete).host (store .complete).tables renewed
    ⟨(store .begin).host.quarantineId.text, evidenceRefs⟩ = .ok (completion, next)
  release : ∃ next, releaseExecutionLock (store .release).options (store .release).host
    (store .release).tables request.taskId lock.ownerId = .ok (true, next)

namespace TaskExecutionAdmissionRevalidation

def evidenceRefs : TaskExecutionAdmissionRevalidation α → List String
  | dispatch evidenceRefs | adopt _ evidenceRefs | hold _ evidenceRefs => evidenceRefs

def adopts : TaskExecutionAdmissionRevalidation α → Bool
  | adopt _ _ => true
  | dispatch _ | hold _ _ => false

end TaskExecutionAdmissionRevalidation

/-- The references that the phases of a dispatch leave. -/
structure PhaseEvidence where
  recovery : List String
  prepared : List String
  dispatched : List String

structure VerifiedDispatch (hooks : TaskExecutionAdmissionSyncHooks α) (value : α)
    (evidence : PhaseEvidence) : Prop where
  recovery : hooks.persistRecoveryIntent = .returned evidence.recovery
  recoveryAccepted : Accepted recoveryEvidenceRules evidence.recovery
  recoveryVerified : hooks.verifyRecoveryIntent (sortBy compareCodePoint evidence.recovery) = .returned true
  prepared : hooks.persistPrepared = .returned evidence.prepared
  preparedAccepted : Accepted preparedEvidenceRules evidence.prepared
  dispatch : hooks.dispatch = .returned value
  dispatched : hooks.persistDispatched value = .returned evidence.dispatched
  dispatchedAccepted : Accepted dispatchedEvidenceRules evidence.dispatched
  dispatchedVerified :
    hooks.verifyDispatched value (sortBy compareCodePoint evidence.dispatched) = .returned true

/-- Every hook that is called answers with evidence its own phase accepts, all verifications are true, and
the lock store has no fault. -/
structure VerifiedRun (store : LockCall → LockTurn) (request : TaskExecutionAdmissionRequest)
    (hooks : TaskExecutionAdmissionSyncHooks α) (lock renewed : ExecutionLockInfo)
    (revalidation : TaskExecutionAdmissionRevalidation α) (value : α) (evidence : PhaseEvidence) :
    Prop where
  noFault : NoLockFault store request lock renewed
  requestAccepted : Accepted requestEvidenceRules request.boundaryEvidenceRefs
  revalidate : hooks.revalidate = .returned revalidation
  revalidationAccepted :
    Accepted (revalidationEvidenceRules revalidation.adopts) revalidation.evidenceRefs
  adoption : ∀ adopted refs, revalidation = .adopt adopted refs → ∀ verify, hooks.verifyAdopted = some verify →
    ∀ merged, verify adopted merged = .returned true
  dispatch : ∀ refs, revalidation = .dispatch refs → VerifiedDispatch hooks value evidence

/-- Held before the dispatch hook is called, or dispatched after that. -/
def AdmissionRun.Settles (run : AdmissionRun α) : Prop :=
  match run.outcome with
  | .held _ _ _ => run.dispatchEntered = false
  | .dispatched _ _ _ _ => run.dispatchEntered = true
  | .adopted _ _ | .quarantined _ _ _ _ _ _ | .inFlight _ _ _ _ _ _ | .uncertain _ _ _ _ _ => False

def boundaryRefs (request : TaskExecutionAdmissionRequest) (revalidationRefs : List String)
    (evidence : PhaseEvidence) : List String :=
  request.boundaryEvidenceRefs ++ revalidationRefs ++ evidence.recovery

def EntersBoundary (refs : List String) : Prop := refs.Nodup ∧ ControlFree refs

def CompletesBoundary (refs : List String) (evidence : PhaseEvidence) : Prop :=
  (refs ++ evidence.prepared ++ evidence.dispatched).Nodup
    ∧ ControlFree (evidence.prepared ++ evidence.dispatched)

/-- The condition under which a run settles. An adoption does so where it fails. -/
def SettlesWhen (request : TaskExecutionAdmissionRequest) (hooks : TaskExecutionAdmissionSyncHooks α)
    (evidence : PhaseEvidence) : TaskExecutionAdmissionRevalidation α → Prop
  | .hold _ _ => True
  | .adopt _ refs => ¬ (request.boundaryEvidenceRefs ++ refs).Nodup ∨ hooks.verifyAdopted.isNone = true
  | .dispatch refs =>
      EntersBoundary (boundaryRefs request refs evidence) →
        CompletesBoundary (boundaryRefs request refs evidence) evidence

variable {digests : EvidenceDigests} {store : LockCall → LockTurn} {request : TaskExecutionAdmissionRequest}
  {hooks : TaskExecutionAdmissionSyncHooks α} {lock renewed : ExecutionLockInfo} {value : α}
  {revalidation : TaskExecutionAdmissionRevalidation α} {evidence : PhaseEvidence}
  {state : MutableAdmissionState} {error : AdmissionError} {refs : List String} {entered : Bool}

/-! ### Outcomes -/

theorem settles_heldOutcome {phase : TaskExecutionAdmissionPhase} {code : String} :
    (⟨false, heldOutcome digests phase code refs⟩ : AdmissionRun α).Settles := rfl

theorem not_settles_uncertainOutcome {phase : TaskExecutionAdmissionPhase} {code : String}
    {processState : TaskExecutionProcessState} {found : Option ExecutionLockInfo} :
    ¬ (⟨entered, uncertainOutcome digests found phase processState code refs⟩ : AdmissionRun α).Settles :=
  id

theorem not_settles_quarantineAfterBoundary :
    ¬ (⟨entered, quarantineAfterBoundary digests store request state error refs⟩ : AdmissionRun α).Settles := by
  unfold quarantineAfterBoundary
  dsimp only
  split
  · exact id
  · split
    · split <;> exact id
    · exact not_settles_uncertainOutcome

theorem NoLockFault.ownerId (h : NoLockFault store request lock renewed) : renewed.ownerId = lock.ownerId := by
  obtain ⟨_, hrenew⟩ := h.renew
  obtain ⟨_, existing, _, -, howner, rfl⟩ := renewExecutionLock_ok hrenew
  exact howner

theorem NoLockFault.releases (h : NoLockFault store request lock renewed)
    (howner : state.lock.ownerId = lock.ownerId) : releaseBeforeBoundary store request state = true := by
  obtain ⟨_, hrelease⟩ := h.release
  unfold releaseBeforeBoundary
  dsimp only
  rw [howner, hrelease]

theorem settles_handlePreBoundaryFailure (h : NoLockFault store request lock renewed)
    (howner : state.lock.ownerId = lock.ownerId) :
    (⟨false, handlePreBoundaryFailure digests store request state error refs⟩ : AdmissionRun α).Settles := by
  unfold handlePreBoundaryFailure
  dsimp only
  rw [if_pos (h.releases howner)]
  exact settles_heldOutcome

theorem settles_handleBoundaryEntryFailure (h : NoLockFault store request lock renewed)
    (howner : state.lock.ownerId = lock.ownerId) :
    (⟨false, handleBoundaryEntryFailure digests store request state error refs⟩ : AdmissionRun α).Settles := by
  unfold handleBoundaryEntryFailure inspectedQuarantine
  rw [h.inspectBoundary]
  exact settles_handlePreBoundaryFailure h howner

/-! ### The evidence -/

theorem accepted_iff_nodup {rules : EvidenceRules} (hcount : refs.length ≤ rules.maxRefs)
    (hnonempty : refs ≠ []) (hadmitted : ∀ ref ∈ refs, AdmittedRef ref)
    (hbytes : bytesOf refs ≤ rules.maxTotalBytes) : Accepted rules refs ↔ refs.Nodup :=
  ⟨fun h => h.nodup, fun hnodup => ⟨hcount, .inr hnonempty, hadmitted, hbytes, hnodup⟩⟩

theorem perm_boundaryRefs :
    [request.boundaryEvidenceRefs, sortBy compareCodePoint refs,
      sortBy compareCodePoint evidence.recovery].flatten.Perm (boundaryRefs request refs evidence) := by
  rw [List.flatten_cons, List.flatten_cons, List.flatten_singleton, boundaryRefs, List.append_assoc]
  exact ((perm_sortBy _ _).append (perm_sortBy _ _)).append_left _

theorem acceptedRequest_ne_nil (h : Accepted requestEvidenceRules request.boundaryEvidenceRefs) :
    request.boundaryEvidenceRefs ≠ [] :=
  h.nonempty.resolve_left (by decide)

structure WithinBoundary (refs : List String) : Prop where
  count : refs.length ≤ 12
  bytes : bytesOf refs ≤ 5120
  nonempty : refs ≠ []
  admitted : ∀ ref ∈ refs, AdmittedRef ref

theorem withinBoundary_boundaryRefs {adopts : Bool}
    (hrequest : Accepted requestEvidenceRules request.boundaryEvidenceRefs)
    (hrevalidation : Accepted (revalidationEvidenceRules adopts) refs)
    (hrecovery : Accepted recoveryEvidenceRules evidence.recovery) :
    WithinBoundary (boundaryRefs request refs evidence) := by
  have hcounts : _ ≤ 8 ∧ _ ≤ 2 ∧ _ ≤ 2 := ⟨hrequest.count, hrevalidation.count, hrecovery.count⟩
  have hbytes : _ ≤ 3072 ∧ _ ≤ 1024 ∧ _ ≤ 1024 := ⟨hrequest.bytes, hrevalidation.bytes, hrecovery.bytes⟩
  refine ⟨?_, ?_, ?_, ?_⟩
  · simp only [boundaryRefs, List.length_append]
    omega
  · simp only [boundaryRefs, bytesOf_append]
    omega
  · simp [boundaryRefs, acceptedRequest_ne_nil hrequest]
  · intro ref href
    simp only [boundaryRefs, List.mem_append] at href
    rcases href with (href | href) | href
    · exact hrequest.admitted ref href
    · exact hrevalidation.admitted ref href
    · exact hrecovery.admitted ref href

theorem WithinBoundary.of_perm {other : List String} (h : WithinBoundary refs) (hperm : other.Perm refs) :
    WithinBoundary other where
  count := hperm.length_eq ▸ h.count
  bytes := bytesOf_perm hperm ▸ h.bytes
  nonempty hnil := h.nonempty (List.perm_nil.mp (hnil ▸ hperm.symm))
  admitted ref href := h.admitted ref (hperm.mem_iff.mp href)

theorem WithinBoundary.accepted_iff (h : WithinBoundary refs) :
    Accepted boundaryEvidenceRules refs ↔ refs.Nodup :=
  accepted_iff_nodup h.count h.nonempty h.admitted h.bytes

theorem WithinBoundary.accepted_prepared_iff (h : WithinBoundary refs) {prepared : List String}
    (hprepared : Accepted preparedEvidenceRules prepared) :
    Accepted preDispatchEvidenceRules (refs ++ prepared) ↔ (refs ++ prepared).Nodup := by
  have hcounts : _ ≤ 12 ∧ _ ≤ 2 := ⟨h.count, hprepared.count⟩
  have hbytes : _ ≤ 5120 ∧ _ ≤ 1024 := ⟨h.bytes, hprepared.bytes⟩
  refine accepted_iff_nodup ?_ (by simp [h.nonempty]) (fun ref href => ?_) ?_
  · rw [List.length_append]
    exact Nat.add_le_add hcounts.1 hcounts.2
  · rcases List.mem_append.mp href with href | href
    · exact h.admitted ref href
    · exact hprepared.admitted ref href
  · rw [bytesOf_append]
    exact Nat.add_le_add hbytes.1 hbytes.2

theorem WithinBoundary.accepted_completion_iff (h : WithinBoundary refs) {prepared dispatched : List String}
    (hprepared : Accepted preparedEvidenceRules prepared)
    (hdispatched : Accepted dispatchedEvidenceRules dispatched) :
    Accepted {} (refs ++ prepared ++ dispatched) ↔ (refs ++ prepared ++ dispatched).Nodup := by
  have hcounts : _ ≤ 12 ∧ _ ≤ 2 ∧ _ ≤ 2 := ⟨h.count, hprepared.count, hdispatched.count⟩
  have hbytes : _ ≤ 5120 ∧ _ ≤ 1024 ∧ _ ≤ 1024 := ⟨h.bytes, hprepared.bytes, hdispatched.bytes⟩
  refine accepted_iff_nodup ?_ (by simp [h.nonempty]) (fun ref href => ?_) ?_
  · rw [List.length_append, List.length_append]
    exact (Nat.add_le_add (Nat.add_le_add hcounts.1 hcounts.2.1) hcounts.2.2)
  · rcases List.mem_append.mp href with href | href
    · rcases List.mem_append.mp href with href | href
      · exact h.admitted ref href
      · exact hprepared.admitted ref href
    · exact hdispatched.admitted ref href
  · rw [bytesOf_append, bytesOf_append]
    have hsum := Nat.add_le_add (Nat.add_le_add hbytes.1 hbytes.2.1) hbytes.2.2
    exact hsum.trans (by decide)

/-! ### The phases -/

theorem requireSync_ok {β : Type} {answer : HookAnswer β} {b : β} :
    requireSync answer = .ok b ↔ answer = .returned b := by
  cases answer <;> simp [requireSync]

theorem check_ok {β : Type} {progress : DispatchProgress} {result : Except AdmissionError β} {b : β} :
    progress.check result = .ok b ↔ result = .ok b :=
  mapError_eq_ok

theorem acquireState_ok (h : NoLockFault store request lock renewed)
    (hrequest : Accepted requestEvidenceRules request.boundaryEvidenceRefs) :
    acquireState store request
      = .ok { lock, phase := .revalidate, boundary := none, processState := .notStarted } := by
  obtain ⟨next, hacquire⟩ := h.acquire
  simp only [acquireState, bind_eq_ok, validatedEvidenceRefs_ok, mapError_eq_ok, pure_eq_ok]
  exact ⟨_, ⟨hrequest, rfl⟩, (lock, next), hacquire, rfl⟩

theorem recoveryIntent_ok (h : VerifiedDispatch hooks value evidence) :
    recoveryIntent hooks = .ok (sortBy compareCodePoint evidence.recovery) := by
  simp only [recoveryIntent, bind_eq_ok, validatedEvidenceRefs_ok, requireSync_ok]
  exact ⟨_, h.recovery, _, ⟨h.recoveryAccepted, rfl⟩, true, h.recoveryVerified, rfl⟩

theorem renewLock_ok (h : NoLockFault store request lock renewed)
    (howner : state.lock.ownerId = lock.ownerId) :
    renewLock store request state = .ok { state with lock := renewed } := by
  obtain ⟨next, hrenew⟩ := h.renew
  simp only [renewLock, bind_eq_ok, mapError_eq_ok, pure_eq_ok]
  exact ⟨(renewed, next), by rw [howner]; exact hrenew, rfl⟩

theorem NoLockFault.taskId (h : NoLockFault store request lock renewed) : renewed.taskId = request.taskId :=
  (checkExecutionLock_eq_held h.beginHeld).1.lock_taskId rfl

theorem beginBoundary_ok_iff (h : NoLockFault store request lock renewed) (hstate : state.lock = renewed) :
    (∃ boundary, beginBoundary store state refs = .ok boundary)
      ↔ (parseExecutionLockEvidenceRefs refs).isSome := by
  simp only [beginBoundary, bind_eq_ok, mapError_eq_ok, pure_eq_ok, hstate]
  constructor
  · rintro ⟨_, ⟨_, _⟩, hbegin, -⟩
    exact begin_evidence hbegin
  · intro hrefs
    obtain ⟨_, _, _, hbegin⟩ := h.begin
    have hheld := h.beginHeld
    rw [inspectAt, ← h.taskId] at hheld
    obtain ⟨entered, later, hentered, -⟩ := begin_of_evidence hheld hbegin hrefs
    exact ⟨entered, (entered, later), hentered, rfl⟩

theorem quarantineId_of_beginBoundary (h : NoLockFault store request lock renewed)
    (hstate : state.lock = renewed) {boundary : ExecutionLockQuarantineInfo}
    (hbegun : beginBoundary store state refs = .ok boundary) :
    boundary.quarantineId = (store .begin).host.quarantineId.text := by
  have hrefs := (beginBoundary_ok_iff h hstate).mp ⟨boundary, hbegun⟩
  simp only [beginBoundary, bind_eq_ok, mapError_eq_ok, pure_eq_ok, hstate] at hbegun
  obtain ⟨⟨_, _⟩, hbegun, rfl⟩ := hbegun
  obtain ⟨_, _, _, hbegin⟩ := h.begin
  have hheld := h.beginHeld
  rw [inspectAt, ← h.taskId] at hheld
  obtain ⟨entered, later, hentered, hid⟩ := begin_of_evidence hheld hbegin hrefs
  rw [hbegun] at hentered
  cases hentered
  exact hid

theorem completeBoundary_ok_iff (h : NoLockFault store request lock renewed) (hnonempty : refs ≠ []) :
    (∃ completion, completeBoundary store renewed (store .begin).host.quarantineId.text refs = .ok completion)
      ↔ (parseExecutionLockEvidenceRefs refs).isSome := by
  simp only [completeBoundary, bind_eq_ok, mapError_eq_ok, pure_eq_ok]
  constructor
  · rintro ⟨_, ⟨_, _⟩, hcomplete, -⟩
    obtain ⟨_, _, -, -, -, -, hrefs, -⟩ := completeExecutionLockIrreversibleBoundary_ok hcomplete
    exact hrefs
  · intro hrefs
    obtain ⟨_, _, _, hcomplete⟩ := h.complete
    obtain ⟨completed, later, hcompleted⟩ := complete_of_evidence hcomplete hrefs hnonempty
    exact ⟨completed, (completed, later), hcompleted, rfl⟩

/-- A run that has entered the boundary completes it exactly when its later evidence repeats nothing and holds
no control character. -/
theorem dispatchPhases_ok_iff (h : NoLockFault store request lock renewed)
    (hverified : VerifiedDispatch hooks value evidence) {boundary : ExecutionLockQuarantineInfo}
    (hboundary : boundary.quarantineId = (store .begin).host.quarantineId.text) {merged : List String}
    (hperm : merged.Perm refs) (hwithin : WithinBoundary refs) (hfree : ControlFree refs) :
    (∃ outcome, dispatchPhases store hooks renewed boundary merged = .ok outcome)
      ↔ CompletesBoundary refs evidence := by
  have hmerged := hwithin.of_perm hperm
  have hprepared : (sortBy compareCodePoint evidence.prepared).Perm evidence.prepared := perm_sortBy _ _
  have hdispatched : (sortBy compareCodePoint evidence.dispatched).Perm evidence.dispatched :=
    perm_sortBy _ _
  have hafter := (hperm.append hprepared).append hdispatched
  have hpreparedAccepted := hverified.preparedAccepted.of_perm hprepared.symm
  have hdispatchedAccepted := hverified.dispatchedAccepted.of_perm hdispatched.symm
  have hflatten : [merged, sortBy compareCodePoint evidence.prepared,
      sortBy compareCodePoint evidence.dispatched].flatten
      = merged ++ sortBy compareCodePoint evidence.prepared ++ sortBy compareCodePoint evidence.dispatched := by
    simp
  have hparse : Accepted {} (merged ++ sortBy compareCodePoint evidence.prepared
        ++ sortBy compareCodePoint evidence.dispatched) →
      ((parseExecutionLockEvidenceRefs (sortBy compareCodePoint (merged
        ++ sortBy compareCodePoint evidence.prepared ++ sortBy compareCodePoint evidence.dispatched))).isSome
        = true ↔ ControlFree (evidence.prepared ++ evidence.dispatched)) := by
    intro haccepted
    rw [isSome_parseExecutionLockEvidenceRefs haccepted (by decide) (by decide), ControlFree.perm hafter,
      List.append_assoc, controlFree_append]
    exact and_iff_right hfree
  simp only [dispatchPhases, bind_eq_ok, check_ok, requireSync_ok, mergeEvidenceRefs,
    validatedEvidenceRefs_ok, pure_eq_ok]
  constructor
  · rintro ⟨_, _, ⟨prepared, hpersisted, -, rfl⟩, _, -, value', hdispatch, _,
      ⟨dispatched, hpersisted', -, rfl⟩, _, -, _, -, _, ⟨haccepted, rfl⟩, completion, hcomplete, -⟩
    obtain rfl : prepared = evidence.prepared := by
      rw [hverified.prepared] at hpersisted
      exact (HookAnswer.returned.inj hpersisted).symm
    obtain rfl : value' = value := by
      rw [hverified.dispatch] at hdispatch
      exact (HookAnswer.returned.inj hdispatch).symm
    obtain rfl : dispatched = evidence.dispatched := by
      rw [hverified.dispatched] at hpersisted'
      exact (HookAnswer.returned.inj hpersisted').symm
    rw [hflatten] at haccepted hcomplete
    rw [hboundary] at hcomplete
    refine ⟨hafter.nodup_iff.mp haccepted.nodup, (hparse haccepted).mp ?_⟩
    refine (completeBoundary_ok_iff h ?_).mp ⟨completion, hcomplete⟩
    exact fun hnil => by simpa [hmerged.nonempty] using congrArg List.length hnil
  · rintro ⟨hnodup, hlaterFree⟩
    have hnodup' := hafter.nodup_iff.mpr hnodup
    have haccepted : Accepted {} _ :=
      (hmerged.accepted_completion_iff hpreparedAccepted hdispatchedAccepted).mpr hnodup'
    have hpre : Accepted preDispatchEvidenceRules (merged ++ sortBy compareCodePoint evidence.prepared) :=
      (hmerged.accepted_prepared_iff hpreparedAccepted).mpr (List.nodup_append.mp hnodup').1
    have hnonempty : sortBy compareCodePoint (merged ++ sortBy compareCodePoint evidence.prepared
        ++ sortBy compareCodePoint evidence.dispatched) ≠ [] := by
      rw [← List.length_pos_iff, length_sortBy]
      simp [List.length_pos_iff, hmerged.nonempty]
    obtain ⟨completion, hcomplete⟩ :=
      (completeBoundary_ok_iff h hnonempty).mpr ((hparse haccepted).mpr hlaterFree)
    refine ⟨_, _, ⟨_, hverified.prepared, hverified.preparedAccepted, rfl⟩, _, ⟨by simpa using hpre, rfl⟩,
      value, hverified.dispatch, _, ⟨_, hverified.dispatched, hverified.dispatchedAccepted, rfl⟩, true,
      hverified.dispatchedVerified, (), rfl, _, ⟨hflatten ▸ haccepted, rfl⟩, completion, ?_, rfl⟩
    rw [hflatten, hboundary]
    exact hcomplete

theorem settles_of_dispatchPhases {boundary : ExecutionLockQuarantineInfo} {merged : List String}
    {outcome : TaskExecutionAdmissionOutcome α}
    (hphases : dispatchPhases store hooks renewed boundary merged = .ok outcome) :
    AdmissionRun.Settles ⟨true, outcome⟩ := by
  simp only [dispatchPhases, bind_eq_ok, pure_eq_ok] at hphases
  obtain ⟨_, -, _, -, _, -, _, -, _, -, _, -, _, -, _, -, rfl⟩ := hphases
  rfl

theorem settles_afterBoundary_iff (h : NoLockFault store request lock renewed)
    (hverified : VerifiedDispatch hooks value evidence) {boundary : ExecutionLockQuarantineInfo}
    (hboundary : boundary.quarantineId = (store .begin).host.quarantineId.text) {merged : List String}
    (hperm : merged.Perm refs) (hwithin : WithinBoundary refs) (hfree : ControlFree refs)
    (hstate : state.lock = renewed) :
    (afterBoundary digests store request hooks state boundary merged).Settles
      ↔ CompletesBoundary refs evidence := by
  rw [← dispatchPhases_ok_iff h hverified hboundary hperm hwithin hfree, afterBoundary, hstate]
  cases hphases : dispatchPhases store hooks renewed boundary merged with
  | ok outcome => exact iff_of_true (settles_of_dispatchPhases hphases) ⟨outcome, rfl⟩
  | error failure =>
      refine iff_of_false not_settles_quarantineAfterBoundary ?_
      rintro ⟨outcome, houtcome⟩
      cases houtcome

/-- A dispatch settles when its evidence stops it before the boundary or lets it complete the boundary. -/
theorem settles_dispatchAdmission_iff (h : NoLockFault store request lock renewed)
    (hrequest : Accepted requestEvidenceRules request.boundaryEvidenceRefs) {adopts : Bool}
    (hrevalidation : Accepted (revalidationEvidenceRules adopts) refs)
    (hverified : VerifiedDispatch hooks value evidence) (howner : state.lock.ownerId = lock.ownerId) :
    (dispatchAdmission digests store request hooks state (sortBy compareCodePoint refs)).Settles
      ↔ (EntersBoundary (boundaryRefs request refs evidence) →
        CompletesBoundary (boundaryRefs request refs evidence) evidence) := by
  have hwithin := withinBoundary_boundaryRefs hrequest hrevalidation hverified.recoveryAccepted
  have hperm : [request.boundaryEvidenceRefs, sortBy compareCodePoint refs,
      sortBy compareCodePoint evidence.recovery].flatten.Perm (boundaryRefs request refs evidence) :=
    perm_boundaryRefs
  rw [dispatchAdmission, recoveryIntent_ok hverified]
  dsimp only
  rw [mergeEvidenceRefs]
  generalize [request.boundaryEvidenceRefs, sortBy compareCodePoint refs,
    sortBy compareCodePoint evidence.recovery].flatten = merged at hperm ⊢
  by_cases hnodup : (boundaryRefs request refs evidence).Nodup
  · have haccepted : Accepted boundaryEvidenceRules merged :=
      (hwithin.of_perm hperm).accepted_iff.mpr (hperm.nodup_iff.mpr hnodup)
    have hparse := isSome_parseExecutionLockEvidenceRefs haccepted (by decide) (by decide)
    rw [ControlFree.perm hperm] at hparse
    have hrenewed : ∀ phase, renewLock store request { state with phase }
        = .ok { state with lock := renewed, phase } := fun _ => renewLock_ok h howner
    have hbegins : (∃ boundary, beginBoundary store { state with lock := renewed, phase := .boundary }
        (sortBy compareCodePoint merged) = .ok boundary) ↔ _ := beginBoundary_ok_iff h rfl
    rw [validatedEvidenceRefs_ok.mpr ⟨haccepted, rfl⟩]
    dsimp only
    rw [hrenewed]
    dsimp only
    cases hbegun : beginBoundary store { state with lock := renewed, phase := .boundary }
        (sortBy compareCodePoint merged) with
    | error error =>
        have hcontrol : ¬ ControlFree (boundaryRefs request refs evidence) := by
          rw [← hparse, ← hbegins]
          rintro ⟨boundary, hok⟩
          exact absurd (hbegun.symm.trans hok) (by simp)
        exact iff_of_true (settles_handleBoundaryEntryFailure h h.ownerId)
          fun henters => absurd henters.2 hcontrol
    | ok boundary =>
        have hfree := hparse.mp (hbegins.mp ⟨boundary, hbegun⟩)
        have hid := quarantineId_of_beginBoundary h rfl hbegun
        rw [forall_prop_of_true ⟨hnodup, hfree⟩]
        exact settles_afterBoundary_iff h hverified hid ((perm_sortBy _ _).trans hperm) hwithin hfree rfl
  · have hrefused : ¬ Accepted boundaryEvidenceRules merged :=
      fun haccepted => hnodup (hperm.nodup_iff.mp haccepted.nodup)
    rw [validatedEvidenceRefs_error hrefused]
    exact iff_of_true (settles_handlePreBoundaryFailure h howner) fun henters => absurd henters.1 hnodup

/-! ### Decisions that do not dispatch -/

theorem accepted_adoption_iff {adopts : Bool}
    (hrequest : Accepted requestEvidenceRules request.boundaryEvidenceRefs)
    (hrevalidation : Accepted (revalidationEvidenceRules adopts) refs) :
    Accepted {} [request.boundaryEvidenceRefs, sortBy compareCodePoint refs].flatten
      ↔ (request.boundaryEvidenceRefs ++ refs).Nodup := by
  have hperm : [request.boundaryEvidenceRefs, sortBy compareCodePoint refs].flatten.Perm
      (request.boundaryEvidenceRefs ++ refs) := by
    rw [List.flatten_cons, List.flatten_singleton]
    exact (perm_sortBy _ _).append_left _
  have hcounts : _ ≤ 8 ∧ _ ≤ 2 := ⟨hrequest.count, hrevalidation.count⟩
  have hbytes : _ ≤ 3072 ∧ _ ≤ 1024 := ⟨hrequest.bytes, hrevalidation.bytes⟩
  have haccepted : Accepted {} (request.boundaryEvidenceRefs ++ refs)
      ↔ (request.boundaryEvidenceRefs ++ refs).Nodup := by
    refine accepted_iff_nodup ?_ (by simp [acceptedRequest_ne_nil hrequest]) (fun ref href => ?_) ?_
    · rw [List.length_append]
      exact (Nat.add_le_add hcounts.1 hcounts.2).trans (by decide)
    · rcases List.mem_append.mp href with href | href
      · exact hrequest.admitted ref href
      · exact hrevalidation.admitted ref href
    · rw [bytesOf_append]
      exact (Nat.add_le_add hbytes.1 hbytes.2).trans (by decide)
  rw [← haccepted]
  exact ⟨fun h => h.of_perm hperm, fun h => h.of_perm hperm.symm⟩

theorem settles_hold (h : NoLockFault store request lock renewed) (howner : state.lock.ownerId = lock.ownerId)
    {processState : TaskExecutionProcessState} {code : String} :
    (⟨false, adoptOrHold digests store request state processState refs
      fun merged => heldOutcome digests .revalidate code merged⟩ : AdmissionRun α).Settles := by
  unfold adoptOrHold
  split
  · rw [if_pos (h.releases howner)]
    exact settles_heldOutcome
  · rw [if_pos (h.releases howner)]
    exact settles_heldOutcome

theorem not_settles_adopt {processState : TaskExecutionProcessState} {adopted : α}
    (haccepted : Accepted {} [request.boundaryEvidenceRefs, refs].flatten) :
    ¬ AdmissionRun.Settles ⟨false, adoptOrHold digests store request state processState refs
      fun merged => .adopted adopted merged⟩ := by
  unfold adoptOrHold mergeEvidenceRefs
  rw [validatedEvidenceRefs_ok.mpr ⟨haccepted, rfl⟩]
  dsimp only
  split
  · exact id
  · exact not_settles_uncertainOutcome

theorem verifyAdoption_ok_iff {adopted : α}
    (hverify : ∀ verify, hooks.verifyAdopted = some verify → ∀ merged, verify adopted merged = .returned true) :
    (∃ passed, verifyAdoption request hooks adopted refs = .ok passed)
      ↔ Accepted {} [request.boundaryEvidenceRefs, refs].flatten ∧ hooks.verifyAdopted.isNone = false := by
  simp only [verifyAdoption, bind_eq_ok, mergeEvidenceRefs, validatedEvidenceRefs_ok]
  cases hverifier : hooks.verifyAdopted with
  | none => simp
  | some verify =>
      simp only [bind_eq_ok, requireSync_ok, hverify verify hverifier, HookAnswer.returned.injEq,
        Option.isNone_some, and_true]
      constructor
      · rintro ⟨_, _, ⟨haccepted, -⟩, -⟩
        exact haccepted
      · exact fun haccepted => ⟨(), _, ⟨haccepted, rfl⟩, true, rfl, rfl⟩

/-! ### The whole admission -/

theorem settles_iff_of_dispatch (digests : EvidenceDigests)
    (h : VerifiedRun store request hooks lock renewed (.dispatch refs) value evidence) :
    (executeTaskExecutionAdmissionSync digests store request hooks).Settles
      ↔ (EntersBoundary (boundaryRefs request refs evidence) →
        CompletesBoundary (boundaryRefs request refs evidence) evidence) := by
  have hanswer : requireSync (.returned (.dispatch refs : TaskExecutionAdmissionRevalidation α))
      >>= validateRevalidation = .ok (.dispatch (sortBy compareCodePoint refs)) := by
    simp only [bind_eq_ok, requireSync_ok]
    exact ⟨_, rfl, bind_eq_ok.mpr ⟨_, validatedEvidenceRefs_ok.mpr ⟨h.revalidationAccepted, rfl⟩, rfl⟩⟩
  rw [executeTaskExecutionAdmissionSync, acquireState_ok h.noFault h.requestAccepted]
  dsimp only
  rw [h.revalidate, hanswer]
  exact settles_dispatchAdmission_iff h.noFault h.requestAccepted h.revalidationAccepted
    (h.dispatch refs rfl) rfl

/-- Where only the evidence decides, a run settles exactly under the condition on its evidence. -/
theorem executeTaskExecutionAdmissionSync_settles_iff (digests : EvidenceDigests)
    (h : VerifiedRun store request hooks lock renewed revalidation value evidence) :
    (executeTaskExecutionAdmissionSync digests store request hooks).Settles
      ↔ SettlesWhen request hooks evidence revalidation := by
  cases revalidation with
  | dispatch refs => exact settles_iff_of_dispatch digests h
  | hold code refs =>
      rw [executeTaskExecutionAdmissionSync, acquireState_ok h.noFault h.requestAccepted]
      dsimp only
      rw [h.revalidate]
      refine iff_of_true ?_ trivial
      split
      · exact settles_handlePreBoundaryFailure h.noFault rfl
      · next hanswer =>
          simp only [bind_eq_ok, requireSync_ok, validateRevalidation] at hanswer
          obtain ⟨_, hreturned, hanswer⟩ := hanswer
          cases hreturned
          obtain ⟨_, -, hanswer⟩ := bind_eq_ok.mp hanswer
          split at hanswer <;> cases hanswer
      · exact settles_hold h.noFault rfl
      · next hanswer =>
          simp only [bind_eq_ok, requireSync_ok, validateRevalidation] at hanswer
          obtain ⟨_, hreturned, hanswer⟩ := hanswer
          cases hreturned
          obtain ⟨_, -, hanswer⟩ := bind_eq_ok.mp hanswer
          split at hanswer <;> cases hanswer
  | adopt adopted refs =>
      have hadopted : Accepted (revalidationEvidenceRules true) refs := h.revalidationAccepted
      have hanswer : requireSync (.returned (TaskExecutionAdmissionRevalidation.adopt adopted refs))
          >>= validateRevalidation = .ok (.adopt adopted (sortBy compareCodePoint refs)) := by
        simp only [bind_eq_ok, requireSync_ok]
        exact ⟨_, rfl, bind_eq_ok.mpr ⟨_, validatedEvidenceRefs_ok.mpr ⟨hadopted, rfl⟩, rfl⟩⟩
      rw [executeTaskExecutionAdmissionSync, acquireState_ok h.noFault h.requestAccepted]
      dsimp only
      rw [h.revalidate, hanswer]
      dsimp only
      have hverification : (∃ passed, verifyAdoption request hooks adopted (sortBy compareCodePoint refs)
          = .ok passed) ↔ _ := verifyAdoption_ok_iff (h.adoption adopted refs rfl)
      rw [accepted_adoption_iff h.requestAccepted hadopted] at hverification
      cases hverified : verifyAdoption request hooks adopted (sortBy compareCodePoint refs) with
      | error error =>
          refine iff_of_true (settles_handlePreBoundaryFailure h.noFault rfl) ?_
          by_contra hnot
          rw [SettlesWhen, not_or, not_not, Bool.not_eq_true] at hnot
          obtain ⟨passed, hpassed⟩ := hverification.mpr hnot
          exact absurd (hverified.symm.trans hpassed) (by simp)
      | ok passed =>
          obtain ⟨hnodup, hverifier⟩ := hverification.mp ⟨passed, hverified⟩
          refine iff_of_false (not_settles_adopt ?_) ?_
          · exact (accepted_adoption_iff h.requestAccepted hadopted).mpr hnodup
          · rw [SettlesWhen, hverifier]
            simpa using hnodup

/-! ### One worker alone -/

def aliveOptions (now : Int) : ExecutionLockOptions :=
  { workerOptions now with livenessProbe := fun _ _ => .alive }

def renewedLock : ExecutionLockInfo := { workerLock with renewedAt := 2000 }

def renewedTables : ExecutionLockTables := { workerTables with active := [renewedLock] }

def enteredBoundary : ExecutionLockQuarantineInfo :=
  boundaryRecord workerHost.quarantineId.text renewedLock ["boundary:1", "recovery:1"] 2000

def enteredTables : ExecutionLockTables :=
  { renewedTables with
    quarantine := [enteredBoundary]
    quarantineAudit := [recordAudit .boundaryEntered enteredBoundary 2000 workerHost.eventId] }

/-- Each call finds the tables that the calls before it leave. -/
def workerStore : LockCall → LockTurn
  | .acquire | .inspectAcquire =>
      ⟨aliveOptions 1000, workerHost, initializeExecutionLockDatabase workerEpoch⟩
  | .renew => ⟨aliveOptions 2000, workerHost, workerTables⟩
  | .begin | .inspectBoundary | .release | .inspectRelease => ⟨aliveOptions 2000, workerHost, renewedTables⟩
  | .complete | .inspectFailure | .quarantine | .inspectQuarantine =>
      ⟨aliveOptions 3000, { workerHost with eventId := workerHost.completionEventId }, enteredTables⟩

def workerRequest : TaskExecutionAdmissionRequest := ⟨"build", ["boundary:1"]⟩

/-- The hooks of a dispatch that leaves the references `dispatched`. -/
def workerHooks (dispatched : List String) : TaskExecutionAdmissionSyncHooks Unit where
  revalidate := .returned (.dispatch [])
  persistRecoveryIntent := .returned ["recovery:1"]
  verifyRecoveryIntent _ := .returned true
  verifyAdopted := none
  persistPrepared := .returned ["prepared:1"]
  dispatch := .returned ()
  persistDispatched _ := .returned dispatched
  verifyDispatched _ _ := .returned true

theorem noLockFault_worker : NoLockFault workerStore workerRequest workerLock renewedLock where
  acquire := ⟨workerTables, rfl⟩
  renew := ⟨renewedTables, rfl⟩
  beginHeld := rfl
  begin := ⟨["boundary:1", "recovery:1"], enteredBoundary, enteredTables, rfl⟩
  inspectBoundary := rfl
  complete := ⟨["boundary:1"], _, _, rfl⟩
  release := ⟨_, rfl⟩

theorem verifiedRun_worker {dispatched : List String} (h : Accepted dispatchedEvidenceRules dispatched) :
    VerifiedRun workerStore workerRequest (workerHooks dispatched) workerLock renewedLock (.dispatch []) ()
      ⟨["recovery:1"], ["prepared:1"], dispatched⟩ where
  noFault := noLockFault_worker
  requestAccepted := (validatedEvidenceRefs_ok.mp rfl).1
  revalidate := rfl
  revalidationAccepted := (validatedEvidenceRefs_ok.mp rfl).1
  adoption _ _ hadopt := by cases hadopt
  dispatch _ _ := {
    recovery := rfl
    recoveryAccepted := (validatedEvidenceRefs_ok.mp rfl).1
    recoveryVerified := rfl
    prepared := rfl
    preparedAccepted := (validatedEvidenceRefs_ok.mp rfl).1
    dispatch := rfl
    dispatched := rfl
    dispatchedAccepted := h
    dispatchedVerified := rfl }

def workerDigests : EvidenceDigests := ⟨fun _ => "0", fun _ _ _ => "0"⟩

theorem executeTaskExecutionAdmissionSync_settles_worker :
    (executeTaskExecutionAdmissionSync workerDigests workerStore workerRequest
      (workerHooks ["dispatched:1"])).Settles := by
  have hrun : VerifiedRun workerStore workerRequest (workerHooks ["dispatched:1"]) _ _ _ _ _ :=
    verifiedRun_worker (validatedEvidenceRefs_ok.mp rfl).1
  rw [executeTaskExecutionAdmissionSync_settles_iff workerDigests hrun]
  intro _
  refine ⟨by decide +kernel, ?_⟩
  unfold ControlFree
  decide +kernel

/-- The dispatched evidence names the prepared reference again. -/
theorem not_settles_repeatedReference :
    ¬ ∀ (digests : EvidenceDigests) (store : LockCall → LockTurn) (request : TaskExecutionAdmissionRequest)
        (hooks : TaskExecutionAdmissionSyncHooks Unit) (lock renewed : ExecutionLockInfo)
        (revalidation : TaskExecutionAdmissionRevalidation Unit) (value : Unit) (evidence : PhaseEvidence),
        VerifiedRun store request hooks lock renewed revalidation value evidence →
        (executeTaskExecutionAdmissionSync digests store request hooks).Settles := by
  intro hall
  have hrun : VerifiedRun workerStore workerRequest (workerHooks ["prepared:1"]) _ _ _ _ _ :=
    verifiedRun_worker (validatedEvidenceRefs_ok.mp rfl).1
  have henters : EntersBoundary ["boundary:1", "recovery:1"] := by
    refine ⟨by decide +kernel, ?_⟩
    unfold ControlFree
    decide +kernel
  have hsettles := hall workerDigests workerStore workerRequest (workerHooks ["prepared:1"]) _ _ _ _ _ hrun
  rw [settles_iff_of_dispatch workerDigests hrun] at hsettles
  have hcompletes := hsettles henters
  exact absurd hcompletes.1 (by decide +kernel)

end Deckent.TaskExecutionAdmission
