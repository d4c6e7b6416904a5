import Deckent.Proof.ExecutionLockLoad

/-!
# What an acquisition does

An acquisition deletes locks, each one expired, of a dead owner and under no quarantine, until no lock
conflicts with the new one. The lock of project maintenance conflicts with every lock.
-/

namespace Deckent.ExecutionLock

variable {options : ExecutionLockOptions} {host : ExecutionLockHost} {tables next : ExecutionLockTables}
  {lock : ExecutionLockInfo} {taskId : String} {nowMs : Int}

def ExecutionLockTables.KeyedActive (tables : ExecutionLockTables) : Prop :=
  (tables.active.map (·.taskId)).Nodup

/-! ### Retiring -/

structure Retires (options : ExecutionLockOptions) (nowMs : Int) (tables next : ExecutionLockTables) :
    Prop where
  frame : next = { tables with active := next.active }
  sublist : next.active.Sublist tables.active
  removed : ∀ row ∈ tables.active, row ∉ next.active →
    RetirableLock options row nowMs ∧ selectRow (·.lock.taskId) row.taskId tables.quarantine = none

theorem Retires.refl (options : ExecutionLockOptions) (nowMs : Int) (tables : ExecutionLockTables) :
    Retires options nowMs tables tables :=
  ⟨rfl, List.Sublist.refl _, fun _ hrow hgone => absurd hrow hgone⟩

theorem Retires.trans {middle : ExecutionLockTables} (hfirst : Retires options nowMs tables middle)
    (hsecond : Retires options nowMs middle next) : Retires options nowMs tables next where
  frame := by
    rw [hsecond.frame, hfirst.frame]
  sublist := hsecond.sublist.trans hfirst.sublist
  removed := by
    intro row hrow hgone
    have hquarantine : middle.quarantine = tables.quarantine := by rw [hfirst.frame]
    by_cases hmiddle : row ∈ middle.active
    · rw [← hquarantine]
      exact hsecond.removed row hmiddle hgone
    · exact hfirst.removed row hrow hmiddle

theorem Retires.keyed (hretires : Retires options nowMs tables next) (hkeys : tables.KeyedActive) :
    next.KeyedActive :=
  hkeys.sublist (hretires.sublist.map _)

theorem executionLockGenerationEquals_iff {left right : ExecutionLockInfo} :
    executionLockGenerationEquals left right = true
      ↔ left.taskId = right.taskId ∧ left.ownerId = right.ownerId
        ∧ left.fencingToken = right.fencingToken := by
  simp [executionLockGenerationEquals, and_assoc]

theorem deleteExecutionLockActiveRow_ok :
    deleteExecutionLockActiveRow tables lock = .ok next
      ↔ (∃ row ∈ tables.active, executionLockGenerationEquals row lock = true)
        ∧ next = { tables with active := deleteRow (·.taskId) lock.taskId tables.active } := by
  simp only [deleteExecutionLockActiveRow, requireActiveRow, bind_eq_ok, require_eq_ok, List.any_eq_true,
    pure_eq_ok]
  constructor
  · rintro ⟨-, hrow, rfl⟩
    exact ⟨hrow, rfl⟩
  · rintro ⟨hrow, rfl⟩
    exact ⟨(), hrow, rfl⟩

theorem retireCanonicalExecutionLockIfDead_ok {quarantine : Option ExecutionLockQuarantineInfo}
    {retired : ExecutionLockTables}
    (hretire : retireCanonicalExecutionLockIfDead options host tables lock nowMs (some quarantine)
      = .ok (some retired)) :
    quarantine = none ∧ RetirableLock options lock nowMs
      ∧ (∃ row ∈ tables.active, executionLockGenerationEquals row lock = true)
      ∧ retired = { tables with active := deleteRow (·.taskId) lock.taskId tables.active } := by
  unfold retireCanonicalExecutionLockIfDead at hretire
  obtain ⟨_, hknown, hrest⟩ := bind_eq_ok.mp hretire
  obtain rfl := pure_eq_ok.mp hknown
  cases quarantine with
  | some quarantine => exact absurd hrest throw_ne_ok
  | none =>
      obtain ⟨stale, hstale, hrest⟩ := bind_eq_ok.mp hrest
      cases stale with
      | false => simp at hrest
      | true =>
          simp only [Bool.not_true, Bool.false_eq_true, if_false, bind_eq_ok, withoutFault_eq_ok,
            pure_eq_ok] at hrest
          obtain ⟨deleted, hdeleted, -, -, hsome⟩ := hrest
          obtain rfl := Option.some.inj hsome
          obtain ⟨hrow, hnext⟩ := deleteExecutionLockActiveRow_ok.mp hdeleted
          exact ⟨rfl, staleExecutionLockCanRetire_ok.mp hstale, hrow, hnext⟩

theorem retireOrFail_ok {known : Option (Option ExecutionLockQuarantineInfo)} {message : String}
    {localReason : ExecutionLockFailureReason}
    (hretire : retireOrFail options host tables lock nowMs known message taskId localReason = .ok next) :
    (known = none → selectRow (·.lock.taskId) lock.taskId tables.quarantine = none)
      ∧ (∀ quarantine, known = some quarantine → quarantine = none)
      ∧ RetirableLock options lock nowMs
      ∧ (∃ row ∈ tables.active, executionLockGenerationEquals row lock = true)
      ∧ next = { tables with active := deleteRow (·.taskId) lock.taskId tables.active } := by
  simp only [retireOrFail, bind_eq_ok] at hretire
  obtain ⟨retired, hretired, hnext⟩ := hretire
  cases retired with
  | none =>
      obtain ⟨reason, -, hthrow⟩ := bind_eq_ok.mp hnext
      exact absurd hthrow throw_ne_ok
  | some retired =>
      obtain rfl := pure_eq_ok.mp hnext
      cases known with
      | none =>
          unfold retireCanonicalExecutionLockIfDead at hretired
          obtain ⟨quarantine, hload, hrest⟩ := bind_eq_ok.mp hretired
          -- The rest is what is done under the quarantine that was loaded.
          obtain ⟨rfl, hretirable, hrow, hnext⟩ := retireCanonicalExecutionLockIfDead_ok hrest
          obtain ⟨hselect, -⟩ := loadExecutionLockQuarantineForLock_ok.mp hload
          exact ⟨fun _ => hselect.symm, by simp, hretirable, hrow, hnext⟩
      | some quarantine =>
          obtain ⟨rfl, hretirable, hrow, hnext⟩ := retireCanonicalExecutionLockIfDead_ok hretired
          refine ⟨by simp, ?_, hretirable, hrow, hnext⟩
          rintro other ⟨⟩
          rfl

theorem retires_delete (hkeys : tables.KeyedActive) (hmem : lock ∈ tables.active)
    (hretirable : RetirableLock options lock nowMs)
    (hquarantine : selectRow (·.lock.taskId) lock.taskId tables.quarantine = none) :
    Retires options nowMs tables
      { tables with active := deleteRow (·.taskId) lock.taskId tables.active } where
  frame := rfl
  sublist := List.filter_sublist
  removed := by
    intro row hrow hgone
    have htask : row.taskId = lock.taskId := by
      by_contra hne
      exact hgone (mem_deleteRow.mpr ⟨hrow, hne⟩)
    obtain rfl := List.inj_on_of_nodup_map hkeys hrow hmem htask
    exact ⟨hretirable, hquarantine⟩

/-! ### Loading all quarantines -/

theorem loadExecutionLockActiveRows_ok {active : List ExecutionLockInfo}
    (hload : loadExecutionLockActiveRows tables = .ok active) :
    active = sortBy (fun left right => compareBytes left.taskId right.taskId) tables.active := by
  unfold loadExecutionLockActiveRows at hload
  refine ((mapM_parse_eq_ok ?_).mp hload).1
  intro row result hrow
  exact (parseExecutionLockActiveRow_ok.mp hrow).1.symm

theorem loadExecutionLockQuarantineRows_ok {active : List ExecutionLockInfo}
    {quarantines : List ExecutionLockQuarantineInfo}
    (hload : loadExecutionLockQuarantineRows tables active = .ok quarantines) :
    quarantines
      = sortBy (fun left right => compareBytes left.lock.taskId right.lock.taskId) tables.quarantine := by
  simp only [loadExecutionLockQuarantineRows, bind_eq_ok, pure_eq_ok] at hload
  obtain ⟨loaded, hloaded, audits, -, -, -, rfl⟩ := hload
  refine ((mapM_parse_eq_ok ?_).mp hloaded).1
  intro row result hrow
  exact (parseExecutionLockQuarantineRow_ok.mp hrow).1.symm

theorem reconcileExecutionLockProjections_ok {active : List ExecutionLockInfo}
    (hreconcile : reconcileExecutionLockProjections host tables = .ok active) :
    active = sortBy (fun left right => compareBytes left.taskId right.taskId) tables.active := by
  simp only [reconcileExecutionLockProjections, bind_eq_ok, pure_eq_ok] at hreconcile
  obtain ⟨active, hactive, -, -, -, -, rfl⟩ := hreconcile
  exact loadExecutionLockActiveRows_ok hactive

/-! ### Clearing -/

/-- The loop over the task locks retires each of them. -/
theorem retireTaskLocks_ok {quarantines : List ExecutionLockQuarantineInfo}
    {candidates : List ExecutionLockInfo} (hkeys : tables.KeyedActive)
    (hcandidates : ∀ row ∈ tables.active, ∀ candidate ∈ candidates, row.taskId = candidate.taskId →
      row = candidate)
    (hquarantines : ∀ row ∈ tables.quarantine, row ∈ quarantines)
    (hretire : retireTaskLocks options host nowMs quarantines tables candidates = .ok next) :
    Retires options nowMs tables next
      ∧ ∀ candidate ∈ candidates, candidate.taskId ≠ projectMaintenanceLockTaskId →
        candidate ∉ next.active := by
  induction candidates generalizing tables with
  | nil =>
      obtain rfl := pure_eq_ok.mp hretire
      exact ⟨Retires.refl _ _ _, by simp⟩
  | cons candidate rest ih =>
      have hrest : ∀ row ∈ tables.active, ∀ other ∈ rest, row.taskId = other.taskId → row = other :=
        fun row hrow other hother => hcandidates row hrow other (List.mem_cons_of_mem _ hother)
      rw [retireTaskLocks] at hretire
      split_ifs at hretire with hmaintenance
      · obtain ⟨hretires, hgone⟩ := ih hkeys hrest hquarantines hretire
        refine ⟨hretires, ?_⟩
        intro other hother hne
        rcases List.mem_cons.mp hother with rfl | hother
        · exact absurd hmaintenance hne
        · exact hgone other hother hne
      · obtain ⟨middle, hfirstStep, hloop⟩ := bind_eq_ok.mp hretire
        obtain ⟨-, hnone, hretirable, ⟨row, hrow, hsame⟩, hmiddle⟩ := retireOrFail_ok hfirstStep
        have htask := (executionLockGenerationEquals_iff.mp hsame).1
        obtain rfl := hcandidates row hrow candidate List.mem_cons_self htask
        have hselect : selectRow (·.lock.taskId) row.taskId tables.quarantine = none := by
          rw [selectRow_eq_none]
          intro quarantine hquarantine heq
          have hfind := hnone _ rfl
          rw [List.find?_eq_none] at hfind
          apply hfind quarantine (List.mem_reverse.mpr (hquarantines quarantine hquarantine))
          simpa using heq
        have hfirst : Retires options nowMs tables middle := by
          rw [hmiddle]
          exact retires_delete hkeys hrow hretirable hselect
        have hquarantineEq : middle.quarantine = tables.quarantine := by rw [hmiddle]
        obtain ⟨hsecond, hgone⟩ := ih (hfirst.keyed hkeys)
          (fun other hother => hrest other (hfirst.sublist.subset hother))
          (by rwa [hquarantineEq]) hloop
        refine ⟨hfirst.trans hsecond, ?_⟩
        intro other hother hne
        rcases List.mem_cons.mp hother with rfl | hother
        · intro hmem
          have hkept := hsecond.sublist.subset hmem
          rw [hmiddle] at hkept
          exact (mem_deleteRow.mp hkept).2 rfl
        · exact hgone other hother hne

/-- No kept lock conflicts with the acquired one, apart from the lock of the task itself, which is still
to be retired. -/
theorem clearConflictingLocks_ok {actor : ExecutionLockActor} {existing : Option ExecutionLockInfo}
    (hkeys : tables.KeyedActive)
    (hpair : taskId = projectMaintenanceLockTaskId ↔ actor = .maintenance)
    (hclear : clearConflictingLocks options host tables taskId actor nowMs = .ok (next, existing)) :
    Retires options nowMs tables next
      ∧ (∀ row ∈ next.active, row.taskId = taskId → existing = some row)
      ∧ (∀ row, existing = some row → row ∈ tables.active ∧ row.taskId = taskId)
      ∧ ∀ row ∈ next.active, row.taskId ≠ taskId →
        row.taskId ≠ projectMaintenanceLockTaskId ∧ taskId ≠ projectMaintenanceLockTaskId := by
  unfold clearConflictingLocks at hclear
  split_ifs at hclear with hactor
  · simp only [bind_eq_ok, pure_eq_ok, Prod.mk.injEq] at hclear
    obtain ⟨active, hactive, quarantines, hquarantines, retired, hretired, rfl, rfl⟩ := hclear
    obtain rfl := reconcileExecutionLockProjections_ok hactive
    obtain rfl := loadExecutionLockQuarantineRows_ok hquarantines
    obtain ⟨hretires, hgone⟩ := retireTaskLocks_ok hkeys
      (fun row hrow candidate hcandidate htask =>
        List.inj_on_of_nodup_map hkeys hrow (mem_sortBy.mp hcandidate) htask)
      (fun row hrow => mem_sortBy.mpr hrow) hretired
    have hmaintenance : ∀ row ∈ retired.active, row.taskId = projectMaintenanceLockTaskId := by
      intro row hrow
      by_contra hne
      exact hgone row (mem_sortBy.mpr (hretires.sublist.subset hrow)) hne hrow
    have hsortedKeys : ((sortBy (fun left right : ExecutionLockInfo =>
        compareBytes left.taskId right.taskId) tables.active).map (·.taskId)).Nodup :=
      ((perm_sortBy _ _).map _).nodup_iff.mpr hkeys
    refine ⟨hretires, ?_, ?_, ?_⟩
    · intro row hrow htask
      exact (selectRow_eq_some_iff hsortedKeys).mpr
        ⟨mem_sortBy.mpr (hretires.sublist.subset hrow), htask⟩
    · intro row hfound
      exact ⟨mem_sortBy.mp (mem_of_selectRow hfound), key_of_selectRow hfound⟩
    · intro row hrow hne
      exact absurd ((hmaintenance row hrow).trans (hpair.mpr hactor).symm) hne
  · have htaskId : taskId ≠ projectMaintenanceLockTaskId := fun heq => hactor (hpair.mp heq)
    obtain ⟨maintenance, hload, hrest⟩ := bind_eq_ok.mp hclear
    obtain ⟨hmaintenance, -⟩ := reconcileExecutionLockProjectionForTask_ok.mp hload
    have hcleared : ∃ cleared current, Retires options nowMs tables cleared
        ∧ (∀ row ∈ cleared.active, row.taskId ≠ projectMaintenanceLockTaskId)
        ∧ LoadedTask cleared taskId current ∧ next = cleared ∧ existing = current.lock := by
      cases hlock : maintenance.lock with
      | none =>
          simp only [hlock, bind_eq_ok, pure_eq_ok, Prod.mk.injEq] at hrest
          obtain ⟨cleared, rfl, current, hcurrent, rfl, rfl⟩ := hrest
          refine ⟨_, current, Retires.refl _ _ _, ?_,
            (reconcileExecutionLockProjectionForTask_ok.mp hcurrent).1, rfl, rfl⟩
          exact selectRow_eq_none.mp (hmaintenance.lock.symm.trans hlock)
      | some lock =>
          simp only [hlock, bind_eq_ok, pure_eq_ok, Prod.mk.injEq] at hrest
          obtain ⟨cleared, hretired, current, hcurrent, rfl, rfl⟩ := hrest
          obtain ⟨-, hnone, hretirable, -, rfl⟩ := retireOrFail_ok hretired
          have htask := hmaintenance.lock_taskId hlock
          refine ⟨_, current, retires_delete hkeys (hmaintenance.lock_mem hlock) hretirable ?_, ?_,
            (reconcileExecutionLockProjectionForTask_ok.mp hcurrent).1, rfl, rfl⟩
          · rw [htask, ← hmaintenance.quarantine_eq hlock]
            exact hnone _ rfl
          · intro row hrow
            rw [← htask]
            exact (mem_deleteRow.mp hrow).2
    obtain ⟨cleared, current, hretires, hfree, hcurrent, rfl, rfl⟩ := hcleared
    refine ⟨hretires, ?_, ?_, ?_⟩
    · intro row hrow htask
      rw [hcurrent.lock]
      exact (selectRow_eq_some_iff (hretires.keyed hkeys)).mpr ⟨hrow, htask⟩
    · intro row hfound
      exact ⟨hretires.sublist.subset (hcurrent.lock_mem hfound), hcurrent.lock_taskId hfound⟩
    · intro row hrow _
      exact ⟨hfree row hrow, htaskId⟩

/-! ### Acquiring -/

/-- The options of an acquisition that the authority accepts. -/
structure AcceptedInput (options : ExecutionLockOptions) (taskId : String) (actor : ExecutionLockActor)
    (validated : ExecutionLockAcquireInput) : Prop where
  task : taskId ≠ "" ∧ taskId.utf8ByteSize ≤ maxExecutionLockTaskIdBytes
  pair : taskId = projectMaintenanceLockTaskId ↔ actor = .maintenance
  now : executionLockNow options = .ok validated.nowMs
  leaseOption : options.leaseDurationMs.getD (.finite defaultExecutionLockLeaseMs)
    = .finite validated.leaseDurationMs
  lease : isSafeInteger validated.leaseDurationMs ∧ 0 < validated.leaseDurationMs
    ∧ validated.leaseDurationMs ≤ maxExecutionLockLeaseMs
  expires : isSafeInteger (validated.nowMs + validated.leaseDurationMs)
    ∧ canonicalExecutionLockTimestamp (validated.nowMs + validated.leaseDurationMs)
  ownerPid : options.ownerPid = .finite validated.ownerPid
  pid : isSafeInteger validated.ownerPid ∧ 0 < validated.ownerPid
  identity : validated.identity = options.runtimeIdentity
  validIdentity : validExecutionLockIdentity options.runtimeIdentity

theorem executionLockNow_ok :
    executionLockNow options = .ok nowMs
      ↔ options.now = .finite nowMs ∧ canonicalExecutionLockTimestamp nowMs = true := by
  unfold executionLockNow
  rw [requireSome_eq_ok, Option.filter_eq_some_iff, JsNumber.toSafeInteger?_eq_some]
  constructor
  · rintro ⟨⟨hnow, -⟩, hcanonical⟩
    exact ⟨hnow, hcanonical⟩
  · rintro ⟨hnow, hcanonical⟩
    refine ⟨⟨hnow, ?_⟩, hcanonical⟩
    simp only [canonicalExecutionLockTimestamp, Bool.and_eq_true, decide_eq_true_eq] at hcanonical
    omega

theorem validateExecutionLockAcquireInput_ok {actor : ExecutionLockActor}
    {validated : ExecutionLockAcquireInput} :
    validateExecutionLockAcquireInput options taskId actor = .ok validated
      ↔ AcceptedInput options taskId actor validated := by
  unfold validateExecutionLockAcquireInput
  simp only [bind_eq_ok, require_eq_ok, requireSome_eq_ok, Option.filter_eq_some_iff,
    JsNumber.toSafeInteger?_eq_some, resolveExecutionLockIdentity_ok, pure_eq_ok, decide_eq_true_eq]
  constructor
  · rintro ⟨-, ⟨htask, hbytes, hpair⟩, nowMs, hnow, lease, ⟨⟨hlease, hsafe⟩, hpositive, hmax, hexpires⟩,
      pid, ⟨⟨hpid, hsafePid⟩, hpositivePid⟩, identity, ⟨rfl, hvalid⟩, rfl⟩
    refine ⟨⟨htask, hbytes⟩, ?_, hnow, hlease, ⟨?_, hpositive, hmax⟩, hexpires, hpid, ⟨?_, hpositivePid⟩,
      rfl, hvalid⟩
    · rcases hpair with ⟨htask, hactor⟩ | ⟨htask, hactor⟩
      · exact iff_of_true htask hactor
      · exact iff_of_false htask hactor
    · simpa [isSafeInteger] using hsafe
    · simpa [isSafeInteger] using hsafePid
  · rintro ⟨⟨htask, hbytes⟩, hpair, hnow, hlease, ⟨hsafe, hpositive, hmax⟩, hexpires, hpid,
      ⟨hsafePid, hpositivePid⟩, hidentity, hvalid⟩
    refine ⟨(), ⟨htask, hbytes, ?_⟩, validated.nowMs, hnow, validated.leaseDurationMs,
      ⟨⟨hlease, ?_⟩, hpositive, hmax, hexpires⟩, validated.ownerPid, ⟨⟨hpid, ?_⟩, hpositivePid⟩,
      validated.identity, ⟨hidentity.symm, hvalid⟩, rfl⟩
    · by_cases hmaintenance : actor = .maintenance
      · exact .inl ⟨hpair.mpr hmaintenance, hmaintenance⟩
      · exact .inr ⟨fun heq => hmaintenance (hpair.mp heq), hmaintenance⟩
    · simpa [isSafeInteger] using hsafe
    · simpa [isSafeInteger] using hsafePid

theorem allocateExecutionLockFencingToken_ok {token : ExecutionLockFencingToken} :
    allocateExecutionLockFencingToken host tables = .ok (token, next)
      ↔ (tables.fencingCounter < 9007199254740991 ∧ isExecutionLockUuid tables.authorityEpoch = true)
        ∧ token = ⟨tables.authorityEpoch, tables.fencingCounter + 1, host.nonce.text⟩
        ∧ next = { tables with fencingCounter := tables.fencingCounter + 1 } := by
  simp only [allocateExecutionLockFencingToken, bind_eq_ok, require_eq_ok, pure_eq_ok, Prod.mk.injEq,
    decide_eq_true_eq]
  constructor
  · rintro ⟨-, hroom, rfl, rfl⟩
    exact ⟨hroom, rfl, rfl⟩
  · rintro ⟨hroom, rfl, rfl⟩
    exact ⟨(), hroom, rfl, rfl⟩

/-- What a successful acquisition leaves: the kept locks, none of which conflicts, and the new one. -/
structure Acquires (options : ExecutionLockOptions) (host : ExecutionLockHost)
    (tables next : ExecutionLockTables) (taskId : String) (actor : ExecutionLockActor)
    (lock : ExecutionLockInfo) (validated : ExecutionLockAcquireInput) (kept : ExecutionLockTables) :
    Prop where
  accepted : AcceptedInput options taskId actor validated
  retires : Retires options validated.nowMs tables kept
  free : ∀ row ∈ kept.active, row.taskId ≠ taskId ∧ row.taskId ≠ projectMaintenanceLockTaskId
    ∧ taskId ≠ projectMaintenanceLockTaskId
  room : tables.fencingCounter < 9007199254740991 ∧ isExecutionLockUuid tables.authorityEpoch = true
  lock_eq : lock = {
    validated.identity with
    pid := validated.ownerPid
    taskId := taskId
    actor := actor
    ownerId := host.ownerId.text
    fencingToken := ⟨tables.authorityEpoch, tables.fencingCounter + 1, host.nonce.text⟩
    acquiredAt := validated.nowMs
    renewedAt := validated.nowMs
    leaseDurationMs := validated.leaseDurationMs }
  next_eq : next = {
    kept with
    fencingCounter := tables.fencingCounter + 1
    active := kept.active ++ [lock] }

theorem acquireExecutionLock_ok {actor : ExecutionLockActor} (hkeys : tables.KeyedActive)
    (hacquire : acquireExecutionLock options host tables taskId actor = .ok (lock, next)) :
    ∃ validated kept, Acquires options host tables next taskId actor lock validated kept := by
  simp only [acquireExecutionLock, bind_eq_ok] at hacquire
  obtain ⟨validated, hvalidated, ⟨cleared, existing⟩, hclear, hrest⟩ := hacquire
  have haccepted := validateExecutionLockAcquireInput_ok.mp hvalidated
  obtain ⟨hretires, hown, hexisting, hfree⟩ := clearConflictingLocks_ok hkeys haccepted.pair hclear
  have hkept : ∃ kept, Retires options validated.nowMs tables kept
      ∧ (∀ row ∈ kept.active, row.taskId ≠ taskId ∧ row.taskId ≠ projectMaintenanceLockTaskId
        ∧ taskId ≠ projectMaintenanceLockTaskId)
      ∧ ∃ token allocated, allocateExecutionLockFencingToken host kept = .ok (token, allocated)
        ∧ lock = {
          validated.identity with
          pid := validated.ownerPid
          taskId := taskId
          actor := actor
          ownerId := host.ownerId.text
          fencingToken := token
          acquiredAt := validated.nowMs
          renewedAt := validated.nowMs
          leaseDurationMs := validated.leaseDurationMs }
        ∧ insertExecutionLockActiveRow allocated lock = .ok next := by
    cases existing with
    | none =>
        simp only [bind_eq_ok, pure_eq_ok, Prod.mk.injEq] at hrest
        obtain ⟨kept, rfl, ⟨token, allocated⟩, hallocate, inserted, hinsert, rfl, rfl⟩ := hrest
        refine ⟨_, hretires, ?_, token, allocated, hallocate, rfl, hinsert⟩
        intro row hrow
        have hne : row.taskId ≠ taskId := fun htask => by simpa using hown row hrow htask
        exact ⟨hne, hfree row hrow hne⟩
    | some existing =>
        simp only [bind_eq_ok, pure_eq_ok, Prod.mk.injEq] at hrest
        obtain ⟨kept, hretired, ⟨token, allocated⟩, hallocate, inserted, hinsert, rfl, rfl⟩ := hrest
        obtain ⟨hnone, -, hretirable, ⟨row, hrow, hsame⟩, rfl⟩ := retireOrFail_ok hretired
        obtain ⟨hmem, htask⟩ := hexisting existing rfl
        have hrowTask : row.taskId = existing.taskId := (executionLockGenerationEquals_iff.mp hsame).1
        obtain rfl := List.inj_on_of_nodup_map hkeys (hretires.sublist.subset hrow) hmem hrowTask
        refine ⟨_, hretires.trans (retires_delete (hretires.keyed hkeys) hrow hretirable (hnone rfl)), ?_,
          token, allocated, hallocate, rfl, hinsert⟩
        intro other hother
        obtain ⟨hother, hne⟩ := mem_deleteRow.mp hother
        rw [htask] at hne
        exact ⟨hne, hfree other hother hne⟩
  obtain ⟨kept, hretires, hfree, token, allocated, hallocate, rfl, hinsert⟩ := hkept
  obtain ⟨hroom, rfl, rfl⟩ := allocateExecutionLockFencingToken_ok.mp hallocate
  have hcounter : kept.fencingCounter = tables.fencingCounter := by rw [hretires.frame]
  have hepoch : kept.authorityEpoch = tables.authorityEpoch := by rw [hretires.frame]
  simp only [insertExecutionLockActiveRow, bind_eq_ok, pure_eq_ok] at hinsert
  obtain ⟨-, -, rfl⟩ := hinsert
  rw [hcounter, hepoch] at hroom
  refine ⟨validated, kept, haccepted, hretires, hfree, hroom, ?_, ?_⟩
  · rw [hcounter, hepoch]
  · rw [hcounter]

end Deckent.ExecutionLock
