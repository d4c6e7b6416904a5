import Deckent.Proof.ExecutionLockTransfer

/-!
# The locks that the operations write can be read again

An acquired, renewed or succeeding lock parses, as long as its lease ends at a date that can be written.
-/

namespace Deckent.ExecutionLock

variable {options : ExecutionLockOptions} {host : ExecutionLockHost} {tables next : ExecutionLockTables}
  {lock previous successor : ExecutionLockInfo} {taskId : String} {nowMs since : Int}
  {validated : ExecutionLockAcquireInput}

/-! ### Dates -/

theorem canonicalExecutionLockTimestamp_iff {instant : Int} :
    canonicalExecutionLockTimestamp instant = true
      ↔ -8640000000000000 ≤ instant ∧ instant ≤ 8640000000000000 := by
  simp [canonicalExecutionLockTimestamp]

theorem isSafeInteger_of_canonical {instant : Int}
    (hcanonical : canonicalExecutionLockTimestamp instant = true) : isSafeInteger instant = true := by
  rw [canonicalExecutionLockTimestamp_iff] at hcanonical
  simp only [isSafeInteger, decide_eq_true_eq]
  omega

theorem canonical_max {left right : Int} (hleft : canonicalExecutionLockTimestamp left = true)
    (hright : canonicalExecutionLockTimestamp right = true) :
    canonicalExecutionLockTimestamp (max left right) = true := by
  rw [canonicalExecutionLockTimestamp_iff] at *
  omega

theorem canonical_now (hnow : executionLockNow options = .ok nowMs) :
    canonicalExecutionLockTimestamp nowMs = true :=
  (executionLockNow_ok.mp hnow).2

/-! ### Locks -/

theorem parses_allocated
    (hroom : tables.fencingCounter < 9007199254740991 ∧ isExecutionLockUuid tables.authorityEpoch = true) :
    (parseExecutionLockFencingToken
      ⟨tables.authorityEpoch, tables.fencingCounter + 1, host.nonce.text⟩).isSome = true := by
  obtain ⟨hcounter, hepoch⟩ := hroom
  have hsafe : isSafeInteger ((tables.fencingCounter + 1 : Nat) : Int) = true := by
    simp only [isSafeInteger, decide_eq_true_eq]
    omega
  unfold parseExecutionLockFencingToken
  rw [if_pos ⟨hepoch, hsafe, Nat.succ_pos _, host.nonce.isNonce⟩]
  rfl

theorem Acquires.parses {actor : ExecutionLockActor} {kept : ExecutionLockTables}
    (hacquires : Acquires options host tables next taskId actor lock validated kept) :
    ParsesAsLock lock := by
  have haccepted := hacquires.accepted
  have hnow := canonical_now haccepted.now
  rw [hacquires.lock_eq]
  exact {
    taskId := haccepted.task
    actor := haccepted.pair
    ownerId := host.ownerId.isUuid
    pid := haccepted.pid
    identity := by
      have hvalid := haccepted.validIdentity
      rwa [← haccepted.identity] at hvalid
    fencingToken := parses_allocated hacquires.room
    acquiredAt := hnow
    renewedAt := hnow
    lease := haccepted.lease
    renewed := Int.le_refl _
    expires := haccepted.expires }

theorem ParsesAsLock.renew (hparses : ParsesAsLock lock)
    (hnow : canonicalExecutionLockTimestamp nowMs = true)
    (hexpires : isSafeInteger ((lock.renew nowMs).renewedAt + lock.leaseDurationMs) = true
      ∧ canonicalExecutionLockTimestamp ((lock.renew nowMs).renewedAt + lock.leaseDurationMs) = true) :
    ParsesAsLock (lock.renew nowMs) :=
  { hparses with
    renewedAt := canonical_max hnow hparses.renewedAt
    renewed := Int.le_trans hparses.renewed (Int.le_max_right _ _)
    expires := hexpires }

theorem Succeeds.parses (hsucceeds : Succeeds options host tables previous successor validated since)
    (hsince : canonicalExecutionLockTimestamp since = true)
    (hexpires : canonicalExecutionLockTimestamp (since + validated.leaseDurationMs) = true) :
    ParsesAsLock successor := by
  have haccepted := hsucceeds.accepted
  rw [hsucceeds.successor_eq]
  exact {
    taskId := haccepted.task
    actor := haccepted.pair
    ownerId := host.ownerId.isUuid
    pid := haccepted.pid
    identity := by
      have hvalid := haccepted.validIdentity
      rwa [← haccepted.identity] at hvalid
    fencingToken := parses_allocated hsucceeds.room
    acquiredAt := hsince
    renewedAt := hsince
    lease := haccepted.lease
    renewed := Int.le_refl _
    expires := ⟨isSafeInteger_of_canonical hexpires, hexpires⟩ }

theorem Succeeds.parsesAsSuccession {evidenceRefs : List String}
    (hsucceeds : Succeeds options host tables previous successor validated since)
    (hprevious : ParsesAsLock previous) (hsuccessor : ParsesAsLock successor)
    (hevidence : (parseExecutionLockEvidenceRefs evidenceRefs).isSome = true)
    (hnonempty : evidenceRefs ≠ []) :
    parsesAsSuccession previous successor evidenceRefs since = true := by
  obtain ⟨howner, hepoch, hcounter, hnonce⟩ := advancesExecutionLock_iff.mp hsucceeds.advances
  have hsince : successor.acquiredAt = since ∧ successor.renewedAt = since
      ∧ successor.taskId = previous.taskId ∧ successor.actor = previous.actor := by
    rw [hsucceeds.successor_eq]
    exact ⟨rfl, rfl, rfl, rfl⟩
  obtain ⟨hacquired, hrenewed, htask, hactor⟩ := hsince
  simp [Deckent.ExecutionLock.parsesAsSuccession, parseExecutionLock, hprevious, hsuccessor, hevidence,
    hnonempty, htask, hactor, howner.symm, hepoch, hcounter, hnonce.symm, hacquired, hrenewed,
    hsucceeds.later.2]

end Deckent.ExecutionLock
