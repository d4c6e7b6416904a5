import Deckent.Proof.ExecutionLockOperation

/-!
# What completions, recoveries, resumes and adoptions do

A completion or a recovery deletes the active row and the quarantine of one generation and leaves its
terminal audit. A resume or an adoption puts a new generation in the place of one whose owner is dead.
-/

namespace Deckent.ExecutionLock

variable {options : ExecutionLockOptions} {host : ExecutionLockHost} {tables next : ExecutionLockTables}
  {lock : ExecutionLockInfo} {taskId : String} {quarantine : ExecutionLockQuarantineInfo}
  {evidenceRefs : List String}

/-! ### Terminal audits -/

def completionAudit (quarantine : ExecutionLockQuarantineInfo) (evidenceRefs : List String)
    (completedAt : Int) (eventId : RandomUuid) : ExecutionLockQuarantineAuditEvent :=
  createExecutionLockQuarantineAudit .completed quarantine
    (.completion ⟨quarantine.quarantineId, quarantine.lock.fencingToken, evidenceRefs, completedAt⟩)
    completedAt eventId

def ExecutionLockTables.settle (tables : ExecutionLockTables)
    (quarantine : ExecutionLockQuarantineInfo) (event : ExecutionLockQuarantineAuditEvent) :
    ExecutionLockTables :=
  { tables with
    active := deleteRow (·.taskId) quarantine.lock.taskId tables.active
    quarantine := deleteRow (·.lock.taskId) quarantine.lock.taskId tables.quarantine
    quarantineAudit := tables.quarantineAudit ++ [event] }

theorem completeExecutionLockIrreversibleBoundary_ok {request : ExecutionLockBoundaryCompletionRequest}
    {result : ExecutionLockBoundaryCompletionResult}
    (hcomplete : completeExecutionLockIrreversibleBoundary options host tables lock request
      = .ok (result, next)) :
    ∃ current nowMs, HoldsExactly options tables lock current nowMs
      ∧ current.quarantine = some result.completed
      ∧ result.completed.quarantineId = request.quarantineId
      ∧ result.completed.state = .inFlight
      ∧ (parseExecutionLockEvidenceRefs request.evidenceRefs).isSome ∧ request.evidenceRefs ≠ []
      ∧ result.audit = completionAudit result.completed request.evidenceRefs
        (max nowMs result.completed.enteredAt) host.eventId
      ∧ NewAudit tables result.audit
      ∧ next = tables.settle result.completed result.audit := by
  simp only [completeExecutionLockIrreversibleBoundary, bind_eq_ok, normalizeExecutionLockHandle_ok,
    require_eq_ok, normalizeExecutionLockEvidenceRefs_ok, reconcileExecutionLockProjectionForTask_ok,
    requireSome_eq_ok, executionLockForExactGeneration_eq_some, assertExactLiveExecutionLockOwner_ok,
    Option.filter_eq_some_iff, decide_eq_true_eq, appendExecutionLockQuarantineAudit_ok,
    deleteExecutionLockQuarantineRow_ok, deleteExecutionLockActiveRow_ok, pure_eq_ok,
    Prod.mk.injEq] at hcomplete
  obtain ⟨_, ⟨rfl, -⟩, -, -, _, ⟨rfl, hevidence⟩, -, hnonempty, nowMs, hnow, current, ⟨hloaded, -⟩, lock,
    ⟨hlock, rfl⟩, quarantine, ⟨hquarantine, hid, hstate⟩, -, hlive, _, ⟨haudit, rfl⟩, _, ⟨-, rfl⟩, _,
    ⟨-, rfl⟩, rfl, rfl⟩ := hcomplete
  have hlocks := hloaded.quarantine_lock hlock hquarantine
  have hevent : createExecutionLockQuarantineAudit .completed quarantine
      (.completion ⟨quarantine.quarantineId, lock.fencingToken, request.evidenceRefs,
        max nowMs quarantine.enteredAt⟩) (max nowMs quarantine.enteredAt) host.eventId
      = completionAudit quarantine request.evidenceRefs (max nowMs quarantine.enteredAt)
        host.eventId := by
    rw [completionAudit, hlocks]
  refine ⟨current, nowMs, ⟨hnow, hloaded, hlock, hlive⟩, hquarantine, hid, hstate, hevidence, hnonempty,
    hevent, haudit, ?_⟩
  rw [ExecutionLockTables.settle, hlocks]

def recoveryAudit (quarantine : ExecutionLockQuarantineInfo)
    (attestation : ExecutionLockRecoveryAttestation) (eventId : RandomUuid) :
    ExecutionLockQuarantineAuditEvent :=
  createExecutionLockQuarantineAudit .recovered quarantine (.recovery attestation)
    attestation.attestedAt eventId

/-- The tests that an attestation passes. -/
structure AttestsRecovery (attestation : ExecutionLockRecoveryAttestation)
    (quarantine : ExecutionLockQuarantineInfo) (nowMs : Int) : Prop where
  parses : (parseExecutionLockFencingToken attestation.fencingToken).isSome
    ∧ (parseExecutionLockEvidenceRefs attestation.evidenceRefs).isSome
    ∧ attestation.evidenceRefs ≠ []
  texts : validBoundedExecutionLockText attestation.operatorId maxExecutionLockRecoveryOperatorBytes
    ∧ isExecutionLockIdentity attestation.operatorId
    ∧ validBoundedExecutionLockText attestation.justification
      maxExecutionLockRecoveryJustificationBytes
  quarantineId : attestation.quarantineId = quarantine.quarantineId
  fencingToken : attestation.fencingToken = quarantine.lock.fencingToken
  attestedAt : canonicalExecutionLockTimestamp attestation.attestedAt
    ∧ quarantine.quarantinedAt.getD quarantine.enteredAt ≤ attestation.attestedAt

theorem normalizeExecutionLockRecoveryAttestation_ok {nowMs : Int}
    {value attestation : ExecutionLockRecoveryAttestation}
    (hnormalize : normalizeExecutionLockRecoveryAttestation value quarantine nowMs = .ok attestation) :
    attestation = value ∧ AttestsRecovery value quarantine nowMs := by
  simp only [normalizeExecutionLockRecoveryAttestation, bind_eq_ok, require_eq_ok, decide_eq_true_eq,
    pure_eq_ok] at hnormalize
  obtain ⟨-, ⟨hid, hoperator, hidentity, hjustification, hcanonical⟩, -,
    ⟨htoken, hsame, hevidence, hnonempty, hlate, -, -⟩, rfl⟩ := hnormalize
  exact ⟨rfl, ⟨htoken, hevidence, hnonempty⟩, ⟨hoperator, hidentity, hjustification⟩, hid, hsame,
    hcanonical, hlate⟩

theorem recoverQuarantinedExecutionLock_ok {attestation : ExecutionLockRecoveryAttestation}
    {verifier : ExecutionLockRecoveryAttestation → ExecutionLockQuarantineInfo → Bool}
    {result : ExecutionLockRecoveryResult}
    (hrecover : recoverQuarantinedExecutionLock options host tables lock attestation verifier
      = .ok (result, next)) :
    ∃ current nowMs, LoadedTask tables lock.taskId current ∧ current.lock = some lock
      ∧ current.quarantine = some result.recovered
      ∧ AttestsRecovery attestation result.recovered nowMs
      ∧ verifier attestation result.recovered = true
      ∧ result.audit = recoveryAudit result.recovered attestation host.eventId
      ∧ NewAudit tables result.audit
      ∧ next = tables.settle result.recovered result.audit := by
  simp only [recoverQuarantinedExecutionLock, bind_eq_ok, normalizeExecutionLockHandle_ok,
    require_eq_ok, reconcileExecutionLockProjectionForTask_ok, requireSome_eq_ok,
    executionLockForExactGeneration_eq_some, appendExecutionLockQuarantineAudit_ok,
    deleteExecutionLockQuarantineRow_ok, deleteExecutionLockActiveRow_ok, pure_eq_ok,
    Prod.mk.injEq] at hrecover
  obtain ⟨_, ⟨rfl, -⟩, nowMs, -, current, ⟨hloaded, -⟩, lock, ⟨hlock, rfl⟩, quarantine, hquarantine, _,
    hnormalize, -, hverified, _, ⟨haudit, rfl⟩, _, ⟨-, rfl⟩, _, ⟨-, rfl⟩, rfl, rfl⟩ := hrecover
  obtain ⟨rfl, hattests⟩ := normalizeExecutionLockRecoveryAttestation_ok hnormalize
  refine ⟨current, nowMs, hloaded, hlock, hquarantine, hattests, hverified, rfl, haudit, ?_⟩
  rw [ExecutionLockTables.settle, hloaded.quarantine_lock hlock hquarantine]

structure EntersAndCompletes (tables next : ExecutionLockTables) (lock : ExecutionLockInfo)
    (entered completed : ExecutionLockQuarantineAuditEvent) : Prop where
  absent : selectRow (·.lock.taskId) lock.taskId tables.quarantine = none
  newEntered : NewAudit tables entered
  newCompleted : NewAudit { tables with quarantineAudit := tables.quarantineAudit ++ [entered] } completed
  next_eq : next = {
    tables with
    active := deleteRow (·.taskId) lock.taskId tables.active
    quarantineAudit := tables.quarantineAudit ++ [entered] ++ [completed] }

theorem completeExecutionLockNoChangeBoundary_ok {request : ExecutionLockNoChangeCompletionRequest}
    {result : ExecutionLockBoundaryCompletionResult}
    (hcomplete : completeExecutionLockNoChangeBoundary options host tables lock request
      = .ok (result, next)) :
    isExecutionLockUuid request.quarantineId = true ∧
      ((next = tables ∧ completedExecutionLockBoundaryResultFromDb tables request.quarantineId
          = .ok (some result))
      ∨ (completedExecutionLockBoundaryResultFromDb tables request.quarantineId = .ok none
        ∧ ∃ current nowMs, HoldsExactly options tables lock current nowMs
          ∧ current.quarantine = none
          ∧ (parseExecutionLockEvidenceRefs request.boundaryEvidenceRefs).isSome
          ∧ (parseExecutionLockEvidenceRefs request.completionEvidenceRefs).isSome
          ∧ request.completionEvidenceRefs ≠ []
          ∧ result.completed
            = boundaryRecord request.quarantineId lock request.boundaryEvidenceRefs nowMs
          ∧ result.audit = completionAudit result.completed request.completionEvidenceRefs
            result.completed.enteredAt host.completionEventId
          ∧ EntersAndCompletes tables next lock
            (recordAudit .boundaryEntered result.completed result.completed.enteredAt host.eventId)
            result.audit)) := by
  simp only [completeExecutionLockNoChangeBoundary, bind_eq_ok, normalizeExecutionLockHandle_ok,
    require_eq_ok, normalizeExecutionLockEvidenceRefs_ok] at hcomplete
  obtain ⟨_, ⟨rfl, -⟩, -, hid, _, ⟨rfl, hboundary⟩, _, ⟨rfl, hcompletion⟩, -, hnonempty, nowMs, hnow,
    existing, hexisting, hrest⟩ := hcomplete
  refine ⟨hid, ?_⟩
  cases existing with
  | some existing =>
      simp only [bind_eq_ok, require_eq_ok, pure_eq_ok, Prod.mk.injEq] at hrest
      obtain ⟨-, -, rfl, rfl⟩ := hrest
      exact .inl ⟨rfl, hexisting⟩
  | none =>
      simp only [bind_eq_ok, reconcileExecutionLockProjectionForTask_ok, requireSome_eq_ok,
        Option.filter_eq_some_iff, executionLockForExactGeneration_eq_some,
        assertExactLiveExecutionLockOwner_ok, insertExecutionLockQuarantineRow_ok,
        appendExecutionLockQuarantineAudit_ok, deleteExecutionLockQuarantineRow_ok,
        deleteExecutionLockActiveRow_ok, pure_eq_ok, Prod.mk.injEq, Option.isNone_iff_eq_none]
        at hrest
      obtain ⟨current, ⟨hloaded, -⟩, lock, ⟨⟨hlock, rfl⟩, hquarantine⟩, -, hlive, _, ⟨hnew, rfl⟩, _,
        ⟨hentered, rfl⟩, _, ⟨hcompleted, rfl⟩, _, ⟨-, rfl⟩, _, ⟨-, rfl⟩, rfl, rfl⟩ := hrest
      have habsent : selectRow (·.lock.taskId) lock.taskId tables.quarantine = none := by
        rw [← hloaded.quarantine_eq hlock, hquarantine]
      have hkept : deleteRow (·.lock.taskId) lock.taskId
          (tables.quarantine ++ [boundaryRecord request.quarantineId lock request.boundaryEvidenceRefs
            nowMs]) = tables.quarantine := by
        unfold deleteRow
        rw [List.filter_append, List.filter_eq_self.mpr, List.filter_eq_nil_iff.mpr,
          List.append_nil]
        · intro row hrow
          obtain rfl := List.mem_singleton.mp hrow
          simp [boundaryRecord]
        · intro row hrow
          simpa using selectRow_eq_none.mp habsent row hrow
      refine .inr ⟨hexisting, current, nowMs, ⟨hnow, hloaded, hlock, hlive⟩, hquarantine, hboundary,
        hcompletion, (decide_eq_true_eq.mp hnonempty).2, rfl, rfl, habsent, hentered, hcompleted, ?_⟩
      simp only [boundaryRecord] at hkept
      rw [hkept]
      rfl

/-! ### Successors -/

def resumeAudit (previous : ExecutionLockQuarantineInfo) (resumedLock : ExecutionLockInfo)
    (evidenceRefs : List String) (eventId : RandomUuid) : ExecutionLockQuarantineAuditEvent :=
  createExecutionLockQuarantineAudit .resumed (previous.around resumedLock)
    (.resume ⟨previous.quarantineId, previous.lock, resumedLock, evidenceRefs, resumedLock.acquiredAt⟩)
    resumedLock.acquiredAt eventId

structure Succeeds (options : ExecutionLockOptions) (host : ExecutionLockHost)
    (tables : ExecutionLockTables) (previous successor : ExecutionLockInfo)
    (validated : ExecutionLockAcquireInput) (since : Int) : Prop where
  accepted : AcceptedInput options previous.taskId previous.actor validated
  retirable : RetirableLock options previous validated.nowMs
  room : tables.fencingCounter < 9007199254740991 ∧ isExecutionLockUuid tables.authorityEpoch = true
  later : validated.nowMs ≤ since ∧ previous.renewedAt ≤ since
  successor_eq : successor = succeedExecutionLock host validated previous
    ⟨tables.authorityEpoch, tables.fencingCounter + 1, host.nonce.text⟩ since
  advances : advancesExecutionLock previous successor = true

theorem resumeExecutionLockIrreversibleBoundary_ok {exactQuarantine : ExecutionLockQuarantineInfo}
    {result : ExecutionLockBoundaryResumeResult}
    (hresume : resumeExecutionLockIrreversibleBoundary options host tables exactQuarantine evidenceRefs
      = .ok (result, next)) :
    ∃ current validated lineage, LoadedTask tables exactQuarantine.lock.taskId current
      ∧ current.lock = some exactQuarantine.lock ∧ current.quarantine = some exactQuarantine
      ∧ exactQuarantine.state = .inFlight
      ∧ (parseExecutionLockEvidenceRefs evidenceRefs).isSome ∧ evidenceRefs ≠ []
      ∧ Succeeds options host tables exactQuarantine.lock result.resumed.lock validated
        (max validated.nowMs (max exactQuarantine.lock.renewedAt exactQuarantine.enteredAt))
      ∧ (∃ events, loadExecutionLockQuarantineAuditChain tables exactQuarantine.quarantineId = .ok events
        ∧ executionLockBoundaryAuditLineage events exactQuarantine.quarantineId = some lineage)
      ∧ lineage.resumes.length < maxExecutionLockBoundaryResumes
      ∧ result.resumed = exactQuarantine.around result.resumed.lock
      ∧ result.audit = resumeAudit exactQuarantine result.resumed.lock evidenceRefs host.eventId
      ∧ NewAudit tables result.audit
      ∧ next = {
        tables with
        fencingCounter := tables.fencingCounter + 1
        active := replaceRow (·.taskId) result.resumed.lock tables.active
        quarantine := replaceRow (·.lock.taskId) result.resumed tables.quarantine
        quarantineAudit := tables.quarantineAudit ++ [result.audit] } := by
  simp only [resumeExecutionLockIrreversibleBoundary, bind_eq_ok, normalizeExecutionLockQuarantineHandle,
    requireSome_eq_ok, parseExecutionLockQuarantine_eq_some, require_eq_ok,
    normalizeExecutionLockEvidenceRefs_ok, validateExecutionLockAcquireInput_ok,
    reconcileExecutionLockProjectionForTask_ok, executionLockForExactGeneration_eq_some,
    Option.filter_eq_some_iff, decide_eq_true_eq] at hresume
  obtain ⟨_, ⟨rfl, -⟩, -, ⟨hstate, -⟩, _, ⟨rfl, hevidence⟩, -, hnonempty, validated, haccepted,
    current, ⟨hloaded, -⟩, _, ⟨hlock, rfl⟩, _, ⟨hquarantine, rfl⟩, _, hstale, -, rfl, events, hevents,
    lineage, ⟨hlineage, -⟩, -, -, -, hlimit, ⟨token, allocated⟩, hallocate, -, -, _, haudit, _,
    htransfer, _, hrow, hresult⟩ := hresume
  obtain ⟨hroom, rfl, rfl⟩ := allocateExecutionLockFencingToken_ok.mp hallocate
  obtain ⟨hnew, rfl⟩ := appendExecutionLockQuarantineAudit_ok.mp haudit
  obtain ⟨-, hadvances, -, rfl⟩ := transferExecutionLockActiveRow_ok.mp htransfer
  obtain ⟨-, -, rfl⟩ := resumeExecutionLockQuarantineRow_ok hrow
  simp only [pure_eq_ok, Prod.mk.injEq] at hresult
  obtain ⟨rfl, rfl⟩ := hresult
  refine ⟨current, validated, lineage, hloaded, hlock, hquarantine, hstate, hevidence, hnonempty, ?_,
    ⟨events, hevents, hlineage⟩, hlimit, rfl, rfl, hnew, rfl⟩
  exact ⟨haccepted, staleExecutionLockCanRetire_ok.mp hstale, hroom, by omega, rfl, hadvances⟩

def adoptionAudit (previous adopted : ExecutionLockInfo) (evidenceRefs : List String)
    (eventId : RandomUuid) : ExecutionLockActiveAdoptionAudit where
  eventId := eventId.text
  previousLock := previous
  adoptedLock := adopted
  evidenceRefs := evidenceRefs
  adoptedAt := adopted.acquiredAt

theorem adoptExecutionLockActiveGeneration_ok {result : ExecutionLockActiveAdoptionResult}
    (hadopt : adoptExecutionLockActiveGeneration options host tables lock evidenceRefs
      = .ok (result, next)) :
    (next = tables ∧ ∃ audit ∈ tables.activeAdoptionAudit,
        audit.previousLock = lock ∧ audit.adoptedLock ∈ tables.active)
      ∨ ∃ current validated lineage, LoadedTask tables lock.taskId current ∧ current.lock = some lock
        ∧ current.quarantine = none
        ∧ (parseExecutionLockEvidenceRefs evidenceRefs).isSome ∧ evidenceRefs ≠ []
        ∧ loadExecutionLockActiveAdoptionLineage tables lock = .ok lineage
        ∧ Succeeds options host tables lock result.adopted validated
          (max validated.nowMs lock.renewedAt)
        ∧ result.previous = lock
        ∧ result.audit = adoptionAudit lock result.adopted evidenceRefs host.eventId
        ∧ next = {
          tables with
          fencingCounter := tables.fencingCounter + 1
          active := replaceRow (·.taskId) result.adopted tables.active
          activeAdoptionAudit := tables.activeAdoptionAudit ++ [result.audit] } := by
  simp only [adoptExecutionLockActiveGeneration, bind_eq_ok, normalizeExecutionLockHandle_ok,
    requireAdoptionEvidence, normalizeExecutionLockEvidenceRefs_ok, require_eq_ok, pure_eq_ok,
    validateExecutionLockAcquireInput_ok, replayExecutionLockAdoption,
    reconcileExecutionLockProjectionForTask_ok] at hadopt
  obtain ⟨_, ⟨rfl, -⟩, _, ⟨_, ⟨rfl, hevidence⟩, -, hnonempty, rfl⟩, validated, haccepted, replay,
    ⟨current, ⟨hreplayed, -⟩, audit, haudit, hreplay⟩, hrest⟩ := hadopt
  cases audit with
  | some audit =>
      simp only [bind_eq_ok, require_eq_ok, decide_eq_true_eq, pure_eq_ok] at hreplay
      obtain ⟨-, ⟨hprevious, -, -, hlock⟩, rfl⟩ := hreplay
      simp only [pure_eq_ok, Prod.mk.injEq] at hrest
      obtain ⟨-, rfl⟩ := hrest
      refine .inl ⟨rfl, audit, ?_, hprevious, hreplayed.lock_mem hlock⟩
      unfold loadExecutionLockActiveAdoptionForPrevious at haudit
      split at haudit
      · simp at haudit
      · next row hfind =>
          simp only [map_eq_ok, requireSome_eq_ok, parseExecutionLockActiveAdoptionAudit_eq_some]
            at haudit
          obtain ⟨_, ⟨rfl, -⟩, hsome⟩ := haudit
          obtain rfl := Option.some.inj hsome
          exact List.mem_of_find?_eq_some hfind
  | none =>
      rw [pure_eq_ok] at hreplay
      subst hreplay
      simp only [bind_eq_ok, reconcileExecutionLockProjectionForTask_ok, requireSome_eq_ok,
        Option.filter_eq_some_iff, executionLockForExactGeneration_eq_some, require_eq_ok,
        decide_eq_true_eq, Option.isNone_iff_eq_none] at hrest
      obtain ⟨current, ⟨hloaded, -⟩, _, ⟨⟨hlock, rfl⟩, hquarantine⟩, lineage, hlineage, -, -, -, -, _,
        hstale, -, rfl, ⟨token, allocated⟩, hallocate, -, -, _, hadoption, _, htransfer, hresult⟩ :=
        hrest
      obtain ⟨hroom, rfl, rfl⟩ := allocateExecutionLockFencingToken_ok.mp hallocate
      simp only [appendExecutionLockActiveAdoptionAudit, bind_eq_ok, require_eq_ok, pure_eq_ok]
        at hadoption
      obtain ⟨-, -, rfl⟩ := hadoption
      obtain ⟨-, hadvances, -, rfl⟩ := transferExecutionLockActiveRow_ok.mp htransfer
      simp only [pure_eq_ok, Prod.mk.injEq] at hresult
      obtain ⟨rfl, rfl⟩ := hresult
      refine .inr ⟨current, validated, lineage, hloaded, hlock, hquarantine, hevidence,
        of_decide_eq_true hnonempty, hlineage, ?_, rfl, rfl, rfl⟩
      exact ⟨haccepted, staleExecutionLockCanRetire_ok.mp hstale, hroom, by omega, rfl, hadvances⟩

end Deckent.ExecutionLock
