import Deckent.Lib.EventLog
import Deckent.Model.MissionEngines
import Deckent.Proof.MissionAdvance

/-!
# Engines are fenced

The row of the lease only moves forward: its epoch grows with each lease that is given out, and a row that
is released stays so until the next one. No revision of an item goes back, and no recovery or
acknowledgement is ever changed. Hence an engine that has lost its lease commits nothing, and a claim that
recovery has revoked is never settled.
-/

namespace Deckent.Mission

variable {runtime : JsonRuntime} {dateParse : String → Option Int} {store next : EngineStore}

/-! ### Recovery -/

structure KeyedRecoveries (recoveries : List RecoveredDispatchAttempt) : Prop where
  recoveryId : (recoveries.map (·.recoveryId)).Nodup
  attemptId : (recoveries.map (·.attemptId)).Nodup

theorem KeyedRecoveries.concat {recoveries : List RecoveredDispatchAttempt}
    (hkeyed : KeyedRecoveries recoveries) {attempt : RecoveredDispatchAttempt}
    (hrecovery : ∀ kept ∈ recoveries, kept.recoveryId ≠ attempt.recoveryId)
    (hattempt : ∀ kept ∈ recoveries, kept.attemptId ≠ attempt.attemptId) :
    KeyedRecoveries (recoveries ++ [attempt]) := by
  constructor
  · rw [List.map_append]
    refine hkeyed.recoveryId.append (List.nodup_singleton _) ?_
    simpa using hrecovery
  · rw [List.map_append]
    refine hkeyed.attemptId.append (List.nodup_singleton _) ?_
    simpa using hattempt

structure Journals (attempts kept journal : List RecoveredDispatchAttempt) : Prop where
  keeps : kept <+: journal
  journaled : ∀ attempt ∈ attempts, attempt ∈ journal
  keyed : KeyedRecoveries kept → KeyedRecoveries journal

theorem journals_of_journalRecoveries {attempts kept journal : List RecoveredDispatchAttempt}
    (hjournal : journalRecoveries attempts kept = .ok journal) : Journals attempts kept journal := by
  induction attempts generalizing kept with
  | nil =>
      obtain rfl := Except.ok.inj hjournal
      exact ⟨List.prefix_refl _, by simp, id⟩
  | cons attempt rest ih =>
      rw [journalRecoveries] at hjournal
      split at hjournal
      · next existing hfound =>
          split at hjournal
          · next hsame =>
              have htail := ih hjournal
              have hmem : attempt ∈ kept := hsame ▸ List.mem_of_find?_eq_some hfound
              refine ⟨htail.keeps, fun other hother => ?_, htail.keyed⟩
              obtain rfl | hother := List.mem_cons.mp hother
              · exact htail.keeps.subset hmem
              · exact htail.journaled other hother
          · cases hjournal
      · next hfresh =>
          split at hjournal
          · cases hjournal
          · next hattempt =>
              have htail := ih hjournal
              have hmem : attempt ∈ kept ++ [attempt] := by simp
              refine ⟨(List.prefix_append _ _).trans htail.keeps, fun other hother => ?_,
                fun hkeyed => htail.keyed (hkeyed.concat ?_ ?_)⟩
              · obtain rfl | hother := List.mem_cons.mp hother
                · exact htail.keeps.subset hmem
                · exact htail.journaled other hother
              · simpa using hfresh
              · simpa using hattempt

/-- A running item whose claim says everything that recovery keeps of it. -/
structure RunningClaim (db : MissionDb) where
  row : WorkItemRow
  mission : MissionRow
  claimedBy : String
  claimedAt : Int
  attemptId : String
  fenceTokenHash : String
  mem : row ∈ db.items
  running : row.status = .running
  mission_eq : db.mission? row.missionId = some mission
  claimedBy_eq : row.claimedBy = some claimedBy
  claimedAt_eq : row.claimedAt = some claimedAt
  attemptId_eq : row.claimAttemptId = some attemptId
  fenceTokenHash_eq : row.claimFenceTokenHash = some fenceTokenHash
  tenant_ne : mission.tenant ≠ ""
  missionId_ne : row.missionId ≠ ""
  id_ne : row.id ≠ ""
  claimedBy_ne : claimedBy ≠ ""
  attemptId_ne : attemptId ≠ ""
  fenceTokenHash_isSha256 : isSha256Text fenceTokenHash = true
  revision_pos : 1 ≤ row.revision

structure Carries {db : MissionDb} (claim : RunningClaim db) (recovery : RecoveredDispatchAttempt) :
    Prop where
  tenantId : recovery.tenantId = claim.mission.tenant
  missionId : recovery.missionId = claim.row.missionId
  workItemId : recovery.workItemId = claim.row.id
  claimedBy : recovery.claimedBy = claim.claimedBy
  claimedAt : recovery.claimedAt = claim.claimedAt
  itemRevision : recovery.itemRevision = claim.row.revision
  attemptId : recovery.attemptId = claim.attemptId
  fenceTokenHash : recovery.fenceTokenHash = claim.fenceTokenHash
  claimRegistryRevision : recovery.claimRegistryRevision = claim.row.claimRegistryRevision
  claimRegistryDigest : recovery.claimRegistryDigest = claim.row.claimRegistryDigest

theorem exists_runningAttempt {db : MissionDb} (claim : RunningClaim db) (lease : MissionEngineLease) :
    ∃ recovery ∈ db.runningAttempts lease, Carries claim recovery := by
  have hnot : ¬ (claim.mission.tenant = "" ∨ claim.row.missionId = "" ∨ claim.row.id = ""
      ∨ claim.claimedBy = "" ∨ claim.attemptId = "" ∨ (!isSha256Text claim.fenceTokenHash) = true
      ∨ claim.row.revision < 1) := by
    simp [claim.tenant_ne, claim.missionId_ne, claim.id_ne, claim.claimedBy_ne, claim.attemptId_ne,
      claim.fenceTokenHash_isSha256, Nat.pos_iff_ne_zero.mp claim.revision_pos]
  obtain ⟨recovery, hrecovery, hcarries⟩ : ∃ recovery,
      recoveredAttempt? lease claim.mission.tenant claim.row = some recovery
        ∧ Carries claim recovery := by
    unfold recoveredAttempt?
    simp only [claim.claimedBy_eq, claim.claimedAt_eq, claim.attemptId_eq, claim.fenceTokenHash_eq]
    rw [if_neg hnot]
    exact ⟨_, rfl, ⟨rfl, rfl, rfl, rfl, rfl, rfl, rfl, rfl, rfl, rfl⟩⟩
  refine ⟨recovery, ?_, hcarries⟩
  unfold MissionDb.runningAttempts
  refine List.mem_filterMap.mpr ⟨claim.row, ?_, ?_⟩
  · rw [mem_sortBy]
    simp [claim.mem, claim.running]
  · rw [claim.mission_eq]
    exact hrecovery

structure Recovers (db next : MissionDb) (lease : MissionEngineLease) : Prop where
  items : ∃ set, next.items = db.items.map set ∧ ∀ row ∈ db.items, Later row (set row)
  idle : ∀ row ∈ next.items, row.status ≠ .running
  engineLease : next.engineLease = db.engineLease
  journals : Journals (db.runningAttempts lease) db.recoveries next.recoveries

theorem advances_parkRunning {now : Int} (db : MissionDb) :
    Advances db (db.parkRunning runtime now) :=
  (advances_quarantine db none).trans (advances_updateItems fun row _ => later_closed row _ _)

theorem idle_parkRunning {now : Int} {db : MissionDb} {row : WorkItemRow}
    (hrow : row ∈ (db.parkRunning runtime now).items) : row.status ≠ .running := by
  unfold MissionDb.parkRunning MissionDb.updateItems at hrow
  obtain ⟨earlier, -, rfl⟩ := List.mem_map.mp hrow
  split
  · simp [WorkItemRow.closed]
  · next hrunning => simpa using hrunning

theorem recovers_of_recoverBody {now : Int} {db next : MissionDb} {lease : MissionEngineLease}
    {answer : List RecoveredDispatchAttempt}
    (hrecover : db.recoverBody runtime now lease = .ok (answer, next)) : Recovers db next lease := by
  have hnext := recoverBody_eq_ok hrecover
  unfold MissionDb.recoverBody at hrecover
  split at hrecover
  · cases hrecover
  · obtain ⟨journal, hjournal, hrecover⟩ := bind_eq_ok.mp hrecover
    split at hrecover
    · cases hrecover
    · obtain ⟨rfl, -⟩ := Prod.mk.inj (Except.ok.inj hrecover)
      subst hnext
      have hadvances : Advances db (db.parkRunning runtime now) := advances_parkRunning db
      exact ⟨hadvances.items, fun row => idle_parkRunning, hadvances.engineLease,
        journals_of_journalRecoveries hjournal⟩

theorem recovers_of_recover {now : Nat} {lease : MissionEngineLease}
    {answer : List RecoveredDispatchAttempt}
    (hrecover : store.recover now runtime lease = (next, .ok answer)) :
    Recovers store.tables next.tables lease ∧ next.acknowledgements = store.acknowledgements := by
  unfold EngineStore.recover at hrecover
  split at hrecover
  · cases hrecover
  · next tables kept hbody =>
      obtain ⟨rfl, -⟩ := Prod.mk.inj hrecover
      have hbody' := transaction_eq_ok (congrArg Prod.snd hbody)
      rw [← MissionDb.recover, hbody] at hbody'
      exact ⟨recovers_of_recoverBody hbody', rfl⟩

theorem store_of_recover_error {now : Nat} {lease : MissionEngineLease} {error : String}
    (hrecover : store.recover now runtime lease = (next, .error error)) : next = store := by
  unfold EngineStore.recover at hrecover
  split at hrecover
  · exact (Prod.mk.inj hrecover).1.symm
  · cases hrecover

/-! ### What a turn does -/

inductive LeaseMoves (now : Nat) (row : Option EngineLeaseRow) : Option EngineLeaseRow → Prop where
  | same : LeaseMoves now row row
  | acquired (next : EngineLeaseRow) (hepoch : next.epoch = ((row.map (·.epoch)).getD 0) + 1) :
      LeaseMoves now row (some next)
  | renewed (held : EngineLeaseRow) (expiresAtMs : Int) (hheld : row = some held)
      (hactive : now < held.expiresAtMs) :
      LeaseMoves now row (some { held with expiresAtMs := expiresAtMs })
  | released (held : EngineLeaseRow) (hheld : row = some held) :
      LeaseMoves now row (some { held with expiresAtMs := 0 })

/-- The keys of the tables are unique. -/
structure EngineStore.Keyed (store : EngineStore) : Prop where
  items : (store.tables.items.map (·.id)).Nodup
  recoveries : KeyedRecoveries store.tables.recoveries
  acknowledgements : (store.acknowledgements.map (·.recoveryId)).Nodup

structure Moves (now : Nat) (store next : EngineStore) : Prop where
  lease : LeaseMoves now store.tables.engineLease next.tables.engineLease
  items : ∃ set, next.tables.items = store.tables.items.map set
    ∧ ∀ row ∈ store.tables.items, Later row (set row)
  recoveries : store.tables.recoveries <+: next.tables.recoveries
  keyedRecoveries : KeyedRecoveries store.tables.recoveries → KeyedRecoveries next.tables.recoveries
  acknowledgements : store.acknowledgements <+: next.acknowledgements
  keyedAcknowledgements : (store.acknowledgements.map (·.recoveryId)).Nodup →
    (next.acknowledgements.map (·.recoveryId)).Nodup

theorem Moves.refl (now : Nat) (store : EngineStore) : Moves now store store :=
  ⟨.same, ⟨id, by simp, fun row _ => .refl row⟩, List.prefix_refl _, id, List.prefix_refl _, id⟩

theorem Advances.moves {tables : MissionDb} (hadvances : Advances store.tables tables) (now : Nat) :
    Moves now store { store with tables := tables } where
  lease := hadvances.engineLease ▸ .same
  items := hadvances.items
  recoveries := hadvances.recoveries ▸ List.prefix_refl _
  keyedRecoveries := fun hkeyed => hadvances.recoveries ▸ hkeyed
  acknowledgements := List.prefix_refl _
  keyedAcknowledgements := id

theorem moves_engineLease {now : Nat} {row : Option EngineLeaseRow}
    (hlease : LeaseMoves now store.tables.engineLease row) :
    Moves now store { store with tables := { store.tables with engineLease := row } } :=
  ⟨hlease, ⟨id, by simp, fun row _ => .refl row⟩, List.prefix_refl _, id, List.prefix_refl _, id⟩

theorem moves_acquireEngineLease {now : Nat} (ownerId : String) (ttlMs : JsNumber)
    (leaseToken : String) :
    Moves now store
      { store with tables := (store.tables.acquireEngineLease now ownerId ttlMs leaseToken).1 } := by
  unfold MissionDb.acquireEngineLease
  split
  · exact .refl now store
  · split
    · exact .refl now store
    · split
      · exact .refl now store
      · split
        · exact .refl now store
        · exact moves_engineLease (.acquired _ rfl)

theorem moves_renewEngineLease {now : Nat} (lease : MissionEngineLease) (ttlMs : JsNumber) :
    Moves now store
      { store with tables := (store.tables.renewEngineLease now lease ttlMs).1 } := by
  unfold MissionDb.renewEngineLease
  split
  · exact .refl now store
  · split
    · exact .refl now store
    · split
      · exact .refl now store
      · split
        · next hholds =>
            obtain ⟨row, hrow, -, hactive⟩ := leaseHolds_iff.mp hholds
            refine moves_engineLease ?_
            rw [hrow]
            exact .renewed row _ rfl hactive
        · exact .refl now store

theorem moves_releaseEngineLease {now : Nat} (lease : MissionEngineLease) :
    Moves now store { store with tables := (store.tables.releaseEngineLease lease).1 } := by
  unfold MissionDb.releaseEngineLease
  split
  · refine moves_engineLease ?_
    cases hrow : store.tables.engineLease with
    | none => exact .same
    | some row => exact .released row rfl
  · exact .refl now store

theorem moves_recover {now : Nat} (lease : MissionEngineLease) :
    Moves now store (store.recover now runtime lease).1 := by
  cases hrecover : store.recover now runtime lease with
  | mk next answer =>
      cases answer with
      | error error =>
          rw [store_of_recover_error hrecover]
          exact .refl now store
      | ok answer =>
          obtain ⟨hrecovers, hacknowledgements⟩ := recovers_of_recover hrecover
          exact ⟨hrecovers.engineLease ▸ .same, hrecovers.items, hrecovers.journals.keeps,
            hrecovers.journals.keyed, hacknowledgements ▸ List.prefix_refl _,
            fun hkeyed => hacknowledgements ▸ hkeyed⟩

theorem moves_acknowledgeDispatchRecovery {now : Nat}
    (acknowledgement : MissionDispatchRecoveryAcknowledgement) (lease : MissionEngineLease) :
    Moves now store
      (store.acknowledgeDispatchRecovery dateParse now acknowledgement lease).1 := by
  unfold EngineStore.acknowledgeDispatchRecovery
  split
  · exact .refl now store
  · split
    · exact .refl now store
    · split
      · exact .refl now store
      · split
        · next hfresh =>
            refine ⟨.same, ⟨id, by simp, fun row _ => .refl row⟩, List.prefix_refl _, id,
              List.prefix_append _ _, fun hkeyed => ?_⟩
            rw [List.map_append]
            refine hkeyed.append (List.nodup_singleton _) ?_
            simpa using hfresh
        · split
          · exact .refl now store
          · exact .refl now store

theorem moves_perform (turn : EngineTurn) :
    Moves turn.now store (store.perform runtime dateParse turn).1 := by
  obtain ⟨now, call⟩ := turn
  cases call with
  | acquireEngineLease ownerId ttlMs leaseToken =>
      exact moves_acquireEngineLease ownerId ttlMs leaseToken
  | renewEngineLease lease ttlMs => exact moves_renewEngineLease lease ttlMs
  | releaseEngineLease lease => exact moves_releaseEngineLease lease
  | claimItemWithAuthority id attempt fence lease =>
      exact (advances_claimItemWithAuthority id attempt fence lease).moves now
  | settleClaimedItem claim status result lease =>
      exact (advances_settleClaimedItem claim status result lease).moves now
  | recover lease => exact moves_recover lease
  | acknowledgeDispatchRecovery acknowledgement lease =>
      exact moves_acknowledgeDispatchRecovery acknowledgement lease

theorem Moves.keyed {now : Nat} (hmoves : Moves now store next) (hkeyed : store.Keyed) :
    next.Keyed := by
  refine ⟨?_, hmoves.keyedRecoveries hkeyed.recoveries,
    hmoves.keyedAcknowledgements hkeyed.acknowledgements⟩
  obtain ⟨set, hitems, hlater⟩ := hmoves.items
  rw [hitems, List.map_map]
  have hids : store.tables.items.map ((·.id) ∘ set) = store.tables.items.map (·.id) :=
    List.map_congr_left fun row hrow => (hlater row hrow).id
  rw [hids]
  exact hkeyed.items

/-! ### Leases -/

structure SameLease (left right : MissionEngineLease) : Prop where
  ownerId : left.ownerId = right.ownerId
  epoch : left.epoch = right.epoch
  leaseToken : left.leaseToken = right.leaseToken
  acquiredAt : left.acquiredAt = right.acquiredAt

def Ended (db : MissionDb) (epoch : Nat) : Prop :=
  ∃ row, db.engineLease = some row ∧ (epoch < row.epoch ∨ epoch = row.epoch ∧ row.expiresAtMs = 0)

theorem LeaseMoves.epoch_le {now : Nat} {row next : EngineLeaseRow}
    (hmoves : LeaseMoves now (some row) (some next)) : row.epoch ≤ next.epoch := by
  cases hmoves with
  | same => exact le_refl _
  | acquired _ hepoch =>
      rw [hepoch]
      exact Nat.le_succ _
  | renewed held _ hheld =>
      obtain rfl := Option.some.inj hheld
      exact le_refl _
  | released held hheld =>
      obtain rfl := Option.some.inj hheld
      exact le_refl _

theorem LeaseMoves.exists_some {now : Nat} {row : EngineLeaseRow} {next : Option EngineLeaseRow}
    (hmoves : LeaseMoves now (some row) next) : ∃ successor, next = some successor := by
  cases hmoves with
  | same => exact ⟨row, rfl⟩
  | acquired successor => exact ⟨successor, rfl⟩
  | renewed => exact ⟨_, rfl⟩
  | released => exact ⟨_, rfl⟩

theorem Moves.ended {now : Nat} (hmoves : Moves now store next) {epoch : Nat}
    (hended : Ended store.tables epoch) : Ended next.tables epoch := by
  obtain ⟨row, hrow, hover⟩ := hended
  have hlease := hmoves.lease
  rw [hrow] at hlease
  obtain ⟨successor, hsuccessor⟩ := hlease.exists_some
  rw [hsuccessor] at hlease
  refine ⟨successor, hsuccessor, ?_⟩
  obtain hlt | ⟨rfl, hexpired⟩ := hover
  · exact .inl (hlt.trans_le hlease.epoch_le)
  · cases hlease with
    | same => exact .inr ⟨rfl, hexpired⟩
    | acquired _ hepoch =>
        left
        rw [hepoch]
        exact Nat.lt_succ_self _
    | renewed held _ hheld hactive =>
        -- a row that is released cannot be renewed
        obtain rfl := Option.some.inj hheld
        rw [hexpired] at hactive
        omega
    | released held hheld =>
        obtain rfl := Option.some.inj hheld
        exact .inr ⟨rfl, rfl⟩

theorem not_leaseHolds_of_ended {db : MissionDb} {lease : MissionEngineLease}
    (hended : Ended db lease.epoch) (now : Nat) : ¬ LeaseHolds db now lease := by
  rintro ⟨row, hrow, hown, hactive⟩
  obtain ⟨other, hother, hover⟩ := hended
  obtain rfl : row = other := Option.some.inj (hrow.symm.trans hother)
  simp only [EngineLeaseRow.isOf, Bool.and_eq_true, decide_eq_true_eq] at hown
  have hepoch := hown.1.2
  obtain hlt | ⟨-, hexpired⟩ := hover
  · omega
  · rw [hexpired] at hactive
    omega

theorem acquired_of_acquireEngineLease {now : Int} {db : MissionDb} {ownerId leaseToken : String}
    {ttlMs : JsNumber} {lease : MissionEngineLease}
    (hacquire : (db.acquireEngineLease now ownerId ttlMs leaseToken).2 = .ok (some lease)) :
    lease.epoch = ((db.engineLease.map (·.epoch)).getD 0) + 1
      ∧ ∃ row, (db.acquireEngineLease now ownerId ttlMs leaseToken).1.engineLease = some row
        ∧ row.epoch = lease.epoch := by
  unfold MissionDb.acquireEngineLease at hacquire ⊢
  split at hacquire
  · cases hacquire
  · next howner =>
      rw [if_neg howner]
      cases hcheck : assertLeaseTtl ttlMs with
      | error error => simp [hcheck] at hacquire
      | ok ttl =>
          simp only [hcheck] at hacquire ⊢
          split at hacquire
          · cases hacquire
          · next hfree =>
              rw [if_neg hfree]
              split at hacquire
              · cases hacquire
              · next htime =>
                  rw [if_neg htime]
                  obtain rfl := Option.some.inj (Except.ok.inj hacquire)
                  exact ⟨rfl, _, rfl, rfl⟩

theorem renewed_of_renewEngineLease {now : Int} {db : MissionDb} {held lease : MissionEngineLease}
    {ttlMs : JsNumber} (hrenew : (db.renewEngineLease now held ttlMs).2 = .ok (some lease)) :
    SameLease held lease := by
  unfold MissionDb.renewEngineLease at hrenew
  split at hrenew
  · cases hrenew
  · split at hrenew
    · cases hrenew
    · split at hrenew
      · cases hrenew
      · split at hrenew
        · obtain rfl := Option.some.inj (Except.ok.inj hrenew)
          exact ⟨rfl, rfl, rfl, rfl⟩
        · cases hrenew

theorem ended_of_releaseEngineLease {db : MissionDb} {lease : MissionEngineLease}
    (hrelease : (db.releaseEngineLease lease).2 = true) :
    Ended (db.releaseEngineLease lease).1 lease.epoch := by
  unfold MissionDb.releaseEngineLease at hrelease ⊢
  split at hrelease
  · next hheld =>
      rw [if_pos hheld]
      rw [Bool.and_eq_true] at hheld
      cases hrow : db.engineLease with
      | none => simp [hrow] at hheld
      | some row =>
          have hown := hheld.2
          rw [hrow, Option.any_some] at hown
          simp only [EngineLeaseRow.isOf, Bool.and_eq_true, decide_eq_true_eq] at hown
          exact ⟨{ row with expiresAtMs := 0 }, rfl, .inr ⟨hown.1.2.symm, rfl⟩⟩
  · cases hrelease

/-! ### Worlds -/

structure Governed (world : EngineWorld) : Prop where
  keyed : world.store.Keyed
  bounded : ∀ lease ∈ world.issued,
    ∃ row, world.store.tables.engineLease = some row ∧ lease.epoch ≤ row.epoch
  same : ∀ left ∈ world.issued, ∀ right ∈ world.issued,
    left.epoch = right.epoch → SameLease left right

def Acquires (runtime : JsonRuntime) (dateParse : String → Option Int) (world : EngineWorld)
    (turn : EngineTurn) (lease : MissionEngineLease) : Prop :=
  ∃ ownerId ttlMs leaseToken, turn.call = .acquireEngineLease ownerId ttlMs leaseToken
    ∧ world.answer runtime dateParse turn = .lease (.ok (some lease))

variable {world : EngineWorld} {turn : EngineTurn} {lease : MissionEngineLease}

theorem SameLease.refl (lease : MissionEngineLease) : SameLease lease lease := ⟨rfl, rfl, rfl, rfl⟩

theorem SameLease.symm {left right : MissionEngineLease} (hsame : SameLease left right) :
    SameLease right left :=
  ⟨hsame.ownerId.symm, hsame.epoch.symm, hsame.leaseToken.symm, hsame.acquiredAt.symm⟩

theorem SameLease.trans {left middle right : MissionEngineLease} (hfirst : SameLease left middle)
    (hsecond : SameLease middle right) : SameLease left right :=
  ⟨hfirst.ownerId.trans hsecond.ownerId, hfirst.epoch.trans hsecond.epoch,
    hfirst.leaseToken.trans hsecond.leaseToken, hfirst.acquiredAt.trans hsecond.acquiredAt⟩

theorem acquires_or_renewed (hlease : lease ∈ (world.answer runtime dateParse turn).lease?) :
    Acquires runtime dateParse world turn lease
      ∨ ∃ held ∈ turn.call.lease?, SameLease held lease := by
  obtain ⟨now, call⟩ := turn
  have hanswer (answer : Except String (Option MissionEngineLease))
      (hmem : lease ∈ (EngineAnswer.lease answer).lease?) : answer = .ok (some lease) := by
    cases answer with
    | error error => cases hmem
    | ok answer => exact congrArg Except.ok hmem
  cases call with
  | acquireEngineLease ownerId ttlMs leaseToken =>
      exact .inl ⟨ownerId, ttlMs, leaseToken, rfl, congrArg EngineAnswer.lease (hanswer _ hlease)⟩
  | renewEngineLease held ttlMs =>
      exact .inr ⟨held, rfl, renewed_of_renewEngineLease (hanswer _ hlease)⟩
  | releaseEngineLease held => cases hlease
  | claimItemWithAuthority id attempt fence held => cases hlease
  | settleClaimedItem claim status result held => cases hlease
  | recover held => cases hlease
  | acknowledgeDispatchRecovery acknowledgement held => cases hlease

theorem Acquires.epoch (hacquires : Acquires runtime dateParse world turn lease) :
    lease.epoch = ((world.store.tables.engineLease.map (·.epoch)).getD 0) + 1
      ∧ ∃ row, (world.after runtime dateParse turn).store.tables.engineLease = some row
        ∧ row.epoch = lease.epoch := by
  obtain ⟨ownerId, ttlMs, leaseToken, hcall, hanswer⟩ := hacquires
  obtain ⟨now, call⟩ := turn
  obtain rfl : call = _ := hcall
  exact acquired_of_acquireEngineLease (EngineAnswer.lease.inj hanswer)

theorem Governed.lt_of_acquires (hgoverned : Governed world)
    (hacquires : Acquires runtime dateParse world turn lease) {earlier : MissionEngineLease}
    (hearlier : earlier ∈ world.issued) : earlier.epoch < lease.epoch := by
  obtain ⟨row, hrow, hle⟩ := hgoverned.bounded earlier hearlier
  rw [hacquires.epoch.1, hrow]
  exact Nat.lt_succ_of_le hle

theorem moves_after (runtime : JsonRuntime) (dateParse : String → Option Int) (world : EngineWorld)
    (turn : EngineTurn) :
    Moves turn.now world.store (world.after runtime dateParse turn).store := moves_perform turn

theorem mem_issued_after (hlease : lease ∈ (world.after runtime dateParse turn).issued) :
    lease ∈ world.issued ∨ lease ∈ (world.answer runtime dateParse turn).lease? := by
  obtain hold | hnew := List.mem_append.mp hlease
  · exact .inl hold
  · exact .inr (by simpa using hnew)

theorem Governed.bounded_after (hgoverned : Governed world) (hold : lease ∈ world.issued) :
    ∃ row, (world.after runtime dateParse turn).store.tables.engineLease = some row
      ∧ lease.epoch ≤ row.epoch := by
  obtain ⟨row, hrow, hle⟩ := hgoverned.bounded lease hold
  have hmoves := (moves_after runtime dateParse world turn).lease
  rw [hrow] at hmoves
  obtain ⟨successor, hsuccessor⟩ := hmoves.exists_some
  rw [hsuccessor] at hmoves
  exact ⟨successor, hsuccessor, hle.trans hmoves.epoch_le⟩

/-- The turn of an engine with a lease of its own keeps what a world knows. -/
theorem Governed.after (hgoverned : Governed world)
    (hown : ∀ held ∈ turn.call.lease?, held ∈ world.issued) :
    Governed (world.after runtime dateParse turn) := by
  constructor
  case keyed => exact (moves_after runtime dateParse world turn).keyed hgoverned.keyed
  case bounded =>
    intro lease hlease
    obtain hold | hnew := mem_issued_after hlease
    · exact hgoverned.bounded_after hold
    · obtain hacquires | ⟨held, hheld, hsame⟩ := acquires_or_renewed hnew
      · obtain ⟨-, row, hrow, hepoch⟩ := hacquires.epoch
        exact ⟨row, hrow, hepoch.ge⟩
      · rw [← hsame.epoch]
        exact hgoverned.bounded_after (hown held hheld)
  case same =>
    -- a lease after the turn is the same as an earlier one, or is a new one with a new epoch
    have horigin (lease : MissionEngineLease)
        (hlease : lease ∈ (world.after runtime dateParse turn).issued) :
        (∃ held ∈ world.issued, SameLease held lease)
          ∨ Acquires runtime dateParse world turn lease := by
      obtain hold | hnew := mem_issued_after hlease
      · exact .inl ⟨lease, hold, .refl lease⟩
      · obtain hacquires | ⟨held, hheld, hsame⟩ := acquires_or_renewed hnew
        · exact .inr hacquires
        · exact .inl ⟨held, hown held hheld, hsame⟩
    intro left hleft right hright hepoch
    obtain ⟨first, hfirst, hsame⟩ | hacquires := horigin left hleft
    · obtain ⟨second, hsecond, hsame'⟩ | hacquires' := horigin right hright
      · have hheld := hgoverned.same first hfirst second hsecond
          ((hsame.epoch.trans hepoch).trans hsame'.epoch.symm)
        exact (hsame.symm.trans hheld).trans hsame'
      · have hlt := hgoverned.lt_of_acquires hacquires' hfirst
        have heq := hsame.epoch
        omega
    · obtain ⟨second, hsecond, hsame'⟩ | hacquires' := horigin right hright
      · have hlt := hgoverned.lt_of_acquires hacquires hsecond
        have heq := hsame'.epoch
        omega
      · obtain ⟨-, -, -, -, hanswer⟩ := hacquires
        obtain ⟨-, -, -, -, hanswer'⟩ := hacquires'
        rw [hanswer] at hanswer'
        obtain rfl := Option.some.inj (Except.ok.inj (EngineAnswer.lease.inj hanswer'))
        exact .refl left

/-! ### Runs -/

section Run

variable {turns before rest : List EngineTurn}

theorem run_append (world : EngineWorld) (before rest : List EngineTurn) :
    world.run runtime dateParse (before ++ rest)
      = (world.run runtime dateParse before).run runtime dateParse rest :=
  List.foldl_append

theorem run_append_cons (world : EngineWorld) (before : List EngineTurn) (turn : EngineTurn)
    (rest : List EngineTurn) :
    world.run runtime dateParse (before ++ turn :: rest)
      = ((world.run runtime dateParse before).after runtime dateParse turn).run runtime dateParse
        rest :=
  run_append world before (turn :: rest)

theorem ownLeases_left (hown : world.OwnLeases runtime dateParse (before ++ rest)) :
    world.OwnLeases runtime dateParse before := by
  rintro first turn last rfl lease hlease
  exact hown first turn (last ++ rest) (by simp) lease hlease

theorem ownLeases_nil (world : EngineWorld) : world.OwnLeases runtime dateParse [] := by
  intro before turn rest hturns
  simp at hturns

theorem ownLeases_concat (hown : world.OwnLeases runtime dateParse before)
    (hlease : ∀ lease ∈ turn.call.lease?, lease ∈ (world.run runtime dateParse before).issued) :
    world.OwnLeases runtime dateParse (before ++ [turn]) := by
  intro first other rest hturns
  obtain ⟨-, rfl, rfl⟩ | ⟨others, -, hsplit⟩ := concat_eq_append_cons hturns
  · exact hlease
  · exact hown first other others hsplit

theorem Governed.run (hgoverned : Governed world) (hown : world.OwnLeases runtime dateParse turns) :
    Governed (world.run runtime dateParse turns) := by
  induction turns using List.reverseRecOn with
  | nil => exact hgoverned
  | append_singleton before turn ih =>
      have hbefore := ih (ownLeases_left hown)
      rw [run_append_cons]
      exact hbefore.after (hown before turn [] rfl)

theorem run_keeps (turns : List EngineTurn) (property : EngineStore → Prop)
    (hturn : ∀ (now : Nat) (store next : EngineStore), Moves now store next → property store →
      property next)
    (hworld : property world.store) : property (world.run runtime dateParse turns).store := by
  induction turns generalizing world with
  | nil => exact hworld
  | cons turn rest ih => exact ih (hturn turn.now _ _ (moves_after runtime dateParse world turn) hworld)

theorem ended_run {epoch : Nat} (hended : Ended world.store.tables epoch) :
    Ended (world.run runtime dateParse turns).store.tables epoch :=
  run_keeps turns (fun store => Ended store.tables epoch)
    (fun _ _ _ hmoves => hmoves.ended) hended

def Revoked (store : EngineStore) (claim : MissionDispatchClaim) : Prop :=
  store.Keyed ∧ ∃ row ∈ store.tables.items, row.id = claim.workItemId
    ∧ claim.itemRevision < row.revision

theorem Moves.revoked {now : Nat} (hmoves : Moves now store next) {claim : MissionDispatchClaim}
    (hrevoked : Revoked store claim) : Revoked next claim := by
  obtain ⟨hkeyed, row, hrow, hid, hlt⟩ := hrevoked
  refine ⟨hmoves.keyed hkeyed, ?_⟩
  obtain ⟨set, hitems, hlater⟩ := hmoves.items
  refine ⟨set row, ?_, (hlater row hrow).id.trans hid, hlt.trans_le (hlater row hrow).revision_le⟩
  rw [hitems]
  exact List.mem_map_of_mem hrow

theorem not_holds_of_revoked {claim : MissionDispatchClaim} (hrevoked : Revoked store claim)
    {row : WorkItemRow} (hrow : row ∈ store.tables.items) : row.holds claim ≠ true := by
  intro hholds
  simp only [WorkItemRow.holds, Bool.and_eq_true, decide_eq_true_eq] at hholds
  obtain ⟨⟨⟨⟨⟨⟨⟨hid, -⟩, -⟩, -⟩, -⟩, hrevision⟩, -⟩, -⟩ := hholds
  obtain ⟨hkeyed, other, hother, hotherId, hlt⟩ := hrevoked
  obtain rfl := List.inj_on_of_nodup_map hkeyed.items hother hrow (hotherId.trans hid.symm)
  omega

theorem revoked_of_recovers (hkeyed : next.Keyed)
    (hrecovers : Recovers store.tables next.tables lease) {row : WorkItemRow}
    (hrow : row ∈ store.tables.items) {claim : MissionDispatchClaim} (hholds : row.holds claim = true) :
    Revoked next claim := by
  simp only [WorkItemRow.holds, Bool.and_eq_true, decide_eq_true_eq] at hholds
  obtain ⟨⟨⟨⟨⟨⟨⟨hid, -⟩, hrunning⟩, -⟩, -⟩, hrevision⟩, -⟩, -⟩ := hholds
  obtain ⟨set, hitems, hlater⟩ := hrecovers.items
  have hmem : set row ∈ next.tables.items := by
    rw [hitems]
    exact List.mem_map_of_mem hrow
  refine ⟨hkeyed, set row, hmem, (hlater row hrow).id.trans hid, ?_⟩
  obtain hsame | hlt := (hlater row hrow).change
  · rw [hsame] at hmem
    exact absurd hrunning (hrecovers.idle row hmem)
  · rwa [hrevision] at hlt

theorem filter_attempt_eq_singleton {recoveries journal : List RecoveredDispatchAttempt}
    (hkeyed : KeyedRecoveries journal) (hkept : recoveries <+: journal)
    {recovery : RecoveredDispatchAttempt} (hrecovery : recovery ∈ recoveries) :
    journal.filter (·.attemptId = recovery.attemptId) = [recovery] := by
  have hmem := hkept.subset hrecovery
  have hnodup := hkeyed.attemptId.of_map
  have hmember (other : RecoveredDispatchAttempt) :
      other ∈ journal.filter (·.attemptId = recovery.attemptId) ↔ other ∈ [recovery] := by
    rw [List.mem_filter, List.mem_singleton, decide_eq_true_eq]
    constructor
    · rintro ⟨hother, hattempt⟩
      exact List.inj_on_of_nodup_map hkeyed.attemptId hother hmem hattempt
    · rintro rfl
      exact ⟨hmem, rfl⟩
  exact List.perm_singleton.mp
    ((List.perm_ext_iff_of_nodup (hnodup.filter _) (List.nodup_singleton _)).mpr hmember)

/-! ### The contract of the engines -/

variable (runtime dateParse)

/-- What the store owes to the engines that share it. -/
structure EngineContract (world : EngineWorld) (turns : List EngineTurn) : Prop where
  /-- Leases that are active at one time are the same lease. -/
  oneActive : ∀ before rest, turns = before ++ rest → ∀ now : Nat,
    ∀ left ∈ (world.run runtime dateParse before).issued,
    ∀ right ∈ (world.run runtime dateParse before).issued,
    (world.run runtime dateParse before).store.tables.isEngineLeaseActive now left = true →
    (world.run runtime dateParse before).store.tables.isEngineLeaseActive now right = true →
    SameLease left right
  /-- A new lease has a greater epoch than each one before it. -/
  increasing : ∀ before turn rest lease, turns = before ++ turn :: rest →
    Acquires runtime dateParse (world.run runtime dateParse before) turn lease →
    ∀ earlier ∈ (world.run runtime dateParse before).issued, earlier.epoch < lease.epoch
  /-- A lease that has been replaced is never active again. -/
  replaced : ∀ before turn between rest lease, turns = before ++ turn :: between ++ rest →
    Acquires runtime dateParse (world.run runtime dateParse before) turn lease →
    ∀ earlier ∈ (world.run runtime dateParse before).issued, ∀ now : Nat,
    (world.run runtime dateParse (before ++ turn :: between)).store.tables.isEngineLeaseActive now
      earlier = false
  /-- A lease that has been released is never active again, nor is a renewal of it. -/
  released : ∀ before now between rest lease,
    turns = before ++ ⟨now, .releaseEngineLease lease⟩ :: between ++ rest →
    (world.run runtime dateParse before).answer runtime dateParse ⟨now, .releaseEngineLease lease⟩
      = .released true →
    ∀ same, SameLease lease same → ∀ later : Nat,
    (world.run runtime dateParse (before ++ ⟨now, .releaseEngineLease lease⟩ :: between)
      ).store.tables.isEngineLeaseActive later same = false
  /-- Nothing commits under a lease after a newer one was given out. -/
  fenced : ∀ before turn rest, turns = before ++ turn :: rest →
    ∀ lease ∈ turn.call.lease?,
    (∃ newer ∈ (world.run runtime dateParse before).issued, lease.epoch < newer.epoch) →
    (∀ claim, (world.run runtime dateParse before).answer runtime dateParse turn
      ≠ .claimed (.ok (some claim)))
    ∧ (world.run runtime dateParse before).answer runtime dateParse turn ≠ .settled (.ok true)
  /-- After a recovery nothing runs, and each claim that ran is kept once, for good, and is never
  settled. -/
  recovered : ∀ before now lease after attempts, turns = before ++ ⟨now, .recover lease⟩ :: after →
    (world.run runtime dateParse before).answer runtime dateParse ⟨now, .recover lease⟩
      = .recovered (.ok attempts) →
    (∀ row ∈ (world.run runtime dateParse (before ++ [⟨now, .recover lease⟩])).store.tables.items,
      row.status ≠ .running)
    ∧ (∀ claim : RunningClaim (world.run runtime dateParse before).store.tables,
      ∃ recovery, Carries claim recovery ∧ ∀ between rest, after = between ++ rest →
        (world.run runtime dateParse (before ++ ⟨now, .recover lease⟩ :: between)
          ).store.tables.recoveries.filter (·.attemptId = claim.attemptId) = [recovery])
    ∧ ∀ row ∈ (world.run runtime dateParse before).store.tables.items,
      ∀ claim, row.holds claim = true → ∀ between again rest, after = between ++ again :: rest →
      ∀ status result lease', again.call = .settleClaimedItem claim status result lease' →
      (world.run runtime dateParse (before ++ ⟨now, .recover lease⟩ :: between)).answer runtime
        dateParse again ≠ .settled (.ok true)
  /-- A recovery has one acknowledgement at most, which stays. -/
  acknowledged : ∀ before rest, turns = before ++ rest →
    ((world.run runtime dateParse before).store.acknowledgements.map (·.recoveryId)).Nodup
    ∧ (world.run runtime dateParse before).store.acknowledgements
      <+: (world.run runtime dateParse turns).store.acknowledgements

variable {runtime dateParse}

theorem leaseHolds_unique {db : MissionDb} {now : Int} {left right : MissionEngineLease}
    (hleft : LeaseHolds db now left) (hright : LeaseHolds db now right) : left.epoch = right.epoch := by
  obtain ⟨row, hrow, hown, -⟩ := hleft
  obtain ⟨other, hother, hown', -⟩ := hright
  obtain rfl := Option.some.inj (hrow.symm.trans hother)
  simp only [EngineLeaseRow.isOf, Bool.and_eq_true, decide_eq_true_eq] at hown hown'
  exact hown.1.2.symm.trans hown'.1.2

theorem isEngineLeaseActive_eq_false_of_ended {db : MissionDb} {lease : MissionEngineLease}
    (hended : Ended db lease.epoch) (now : Nat) : db.isEngineLeaseActive now lease = false := by
  rw [Bool.eq_false_iff]
  exact fun hactive =>
    not_leaseHolds_of_ended hended now (leaseHolds_of_isEngineLeaseActive hactive)

theorem Governed.ended (hgoverned : Governed world) {newer : MissionEngineLease}
    (hnewer : newer ∈ world.issued) {epoch : Nat} (hlt : epoch < newer.epoch) :
    Ended world.store.tables epoch := by
  obtain ⟨row, hrow, hle⟩ := hgoverned.bounded newer hnewer
  exact ⟨row, hrow, .inl (hlt.trans_le hle)⟩

theorem ended_of_acquires (hgoverned : Governed world)
    (hacquires : Acquires runtime dateParse world turn lease) {earlier : MissionEngineLease}
    (hearlier : earlier ∈ world.issued) :
    Ended (world.after runtime dateParse turn).store.tables earlier.epoch := by
  obtain ⟨-, row, hrow, hepoch⟩ := hacquires.epoch
  exact ⟨row, hrow, .inl (hepoch ▸ hgoverned.lt_of_acquires hacquires hearlier)⟩

theorem leaseHolds_of_claimed (hpasses : lease ∈ turn.call.lease?) {claim : MissionDispatchClaim}
    (hanswer : world.answer runtime dateParse turn = .claimed (.ok (some claim))) :
    LeaseHolds world.store.tables turn.now lease := by
  obtain ⟨now, call⟩ := turn
  cases call with
  | claimItemWithAuthority id attempt fence held =>
      obtain rfl := Option.some.inj hpasses
      exact leaseHolds_of_claims (EngineAnswer.claimed.inj hanswer)
  | acquireEngineLease => cases hanswer
  | renewEngineLease => cases hanswer
  | releaseEngineLease => cases hanswer
  | settleClaimedItem => cases hanswer
  | recover => cases hanswer
  | acknowledgeDispatchRecovery => cases hanswer

theorem leaseHolds_of_settled (hpasses : lease ∈ turn.call.lease?)
    (hanswer : world.answer runtime dateParse turn = .settled (.ok true)) :
    LeaseHolds world.store.tables turn.now lease := by
  obtain ⟨now, call⟩ := turn
  cases call with
  | settleClaimedItem claim status result held =>
      obtain rfl := Option.some.inj hpasses
      exact (found_of_settles (EngineAnswer.settled.inj hanswer)).1
  | acquireEngineLease => cases hanswer
  | renewEngineLease => cases hanswer
  | releaseEngineLease => cases hanswer
  | claimItemWithAuthority => cases hanswer
  | recover => cases hanswer
  | acknowledgeDispatchRecovery => cases hanswer

theorem recovers_of_answer {now : Nat} {attempts : List RecoveredDispatchAttempt}
    (hanswer : world.answer runtime dateParse ⟨now, .recover lease⟩ = .recovered (.ok attempts)) :
    Recovers world.store.tables
      (world.after runtime dateParse ⟨now, .recover lease⟩).store.tables lease := by
  have hrecover : (world.store.recover now runtime lease).2 = .ok attempts :=
    EngineAnswer.recovered.inj hanswer
  exact (recovers_of_recover (Prod.ext rfl hrecover)).1

theorem exists_carries (hgoverned : Governed world) {now : Nat}
    {attempts : List RecoveredDispatchAttempt}
    (hanswer : world.answer runtime dateParse ⟨now, .recover lease⟩ = .recovered (.ok attempts))
    (claim : RunningClaim world.store.tables) :
    ∃ recovery, Carries claim recovery ∧ ∀ between,
      ((world.after runtime dateParse ⟨now, .recover lease⟩).run runtime dateParse between
        ).store.tables.recoveries.filter (·.attemptId = claim.attemptId) = [recovery] := by
  have hrecovers := recovers_of_answer hanswer
  obtain ⟨recovery, hrecovery, hcarries⟩ := exists_runningAttempt claim lease
  have hkept := hrecovers.journals.journaled recovery hrecovery
  have hkeyed := (moves_after runtime dateParse world
    ⟨now, .recover lease⟩).keyed hgoverned.keyed
  refine ⟨recovery, hcarries, fun between => ?_⟩
  let after := world.after runtime dateParse ⟨now, .recover lease⟩
  have hlater : (after.run runtime dateParse between).store.Keyed
      ∧ after.store.tables.recoveries
        <+: (after.run runtime dateParse between).store.tables.recoveries :=
    run_keeps between
      (fun store => store.Keyed ∧ after.store.tables.recoveries <+: store.tables.recoveries)
      (fun _ _ _ hmoves hstore => ⟨hmoves.keyed hstore.1, hstore.2.trans hmoves.recoveries⟩)
      ⟨hkeyed, List.prefix_refl _⟩
  rw [← hcarries.attemptId]
  exact filter_attempt_eq_singleton hlater.1.recoveries hlater.2 hkept

/-- Engines that pass leases of their own are fenced, on any store whose keys are unique. -/
theorem engines_fenced (store : EngineStore) (turns : List EngineTurn) (hkeyed : store.Keyed)
    (hown : (EngineWorld.mk store []).OwnLeases runtime dateParse turns) :
    EngineContract runtime dateParse ⟨store, []⟩ turns := by
  have hstart : Governed ⟨store, []⟩ := ⟨hkeyed, by simp, by simp⟩
  have hgoverned (before rest : List EngineTurn) (hturns : turns = before ++ rest) :
      Governed ((EngineWorld.mk store []).run runtime dateParse before) :=
    hstart.run (ownLeases_left (hturns ▸ hown))
  constructor
  case oneActive =>
    intro before rest hturns now left hleft right hright hactive hactive'
    exact (hgoverned before rest hturns).same left hleft right hright
      (leaseHolds_unique (leaseHolds_of_isEngineLeaseActive hactive)
        (leaseHolds_of_isEngineLeaseActive hactive'))
  case increasing =>
    intro before turn rest lease hturns hacquires earlier hearlier
    exact (hgoverned before (turn :: rest) hturns).lt_of_acquires hacquires hearlier
  case replaced =>
    intro before turn between rest lease hturns hacquires earlier hearlier now
    have hbefore := hgoverned before (turn :: between ++ rest) (by simpa using hturns)
    rw [run_append_cons]
    exact isEngineLeaseActive_eq_false_of_ended
      (ended_run (ended_of_acquires hbefore hacquires hearlier)) now
  case released =>
    intro before now between rest lease hturns hanswer same hsame later
    rw [run_append_cons]
    refine isEngineLeaseActive_eq_false_of_ended (ended_run ?_) later
    rw [← hsame.epoch]
    exact ended_of_releaseEngineLease (EngineAnswer.released.inj hanswer)
  case fenced =>
    rintro before turn rest hturns lease hpasses ⟨newer, hnewer, hlt⟩
    have hended := (hgoverned before (turn :: rest) hturns).ended hnewer hlt
    constructor
    · intro claim hanswer
      exact not_leaseHolds_of_ended hended turn.now (leaseHolds_of_claimed hpasses hanswer)
    · intro hanswer
      exact not_leaseHolds_of_ended hended turn.now (leaseHolds_of_settled hpasses hanswer)
  case recovered =>
    intro before now lease after attempts hturns hanswer
    have hbefore := hgoverned before _ hturns
    have hrecovers := recovers_of_answer hanswer
    refine ⟨?_, ?_, ?_⟩
    · rw [run_append_cons]
      exact hrecovers.idle
    · intro claim
      obtain ⟨recovery, hcarries, hkept⟩ := exists_carries hbefore hanswer claim
      refine ⟨recovery, hcarries, fun between rest _ => ?_⟩
      rw [run_append_cons]
      exact hkept between
    · intro row hrow claim hholds between again rest _ status result lease' hcall hsettled
      have hkeyed' := (moves_after runtime dateParse _
        ⟨now, .recover lease⟩).keyed hbefore.keyed
      rw [run_append_cons] at hsettled
      obtain ⟨later, call⟩ := again
      obtain rfl : call = _ := hcall
      have hrevoked : Revoked (EngineWorld.run runtime dateParse _ between).store claim :=
        run_keeps between (fun store => Revoked store claim) (fun _ _ _ hmoves => hmoves.revoked)
          (revoked_of_recovers hkeyed' hrecovers hrow hholds)
      obtain ⟨-, found, hfound, hholds'⟩ := found_of_settles (EngineAnswer.settled.inj hsettled)
      exact not_holds_of_revoked hrevoked hfound hholds'
  case acknowledged =>
    rintro before rest hturns
    refine ⟨(hgoverned before rest hturns).keyed.acknowledgements, ?_⟩
    rw [hturns, run_append]
    exact run_keeps rest
      (fun later =>
        ((EngineWorld.mk store []).run runtime dateParse before).store.acknowledgements
          <+: later.acknowledgements)
      (fun _ _ _ hmoves hstore => hstore.trans hmoves.acknowledgements) (List.prefix_refl _)

end Run

/-! ### A run -/

def sampleStore : EngineStore :=
  ⟨tablesAfter sampleRuntime sampleContract (sampleCalls.take 2), []⟩

def sampleLease : MissionEngineLease :=
  ⟨1, "second", 2, some 20, some 20, some 30, "token-2", claimTokenHash "token-2"⟩

def sampleTakeover : List EngineTurn :=
  [⟨2, .acquireEngineLease "first" 10 "token-1"⟩, ⟨20, .acquireEngineLease "second" 10 "token-2"⟩]

def sampleTurns : List EngineTurn := sampleTakeover ++ [⟨21, .recover sampleLease⟩]

theorem engines_fenced_sample : EngineContract sampleRuntime (fun _ => none) ⟨sampleStore, []⟩
    sampleTurns := by
  refine engines_fenced sampleStore sampleTurns ⟨by decide, ⟨by decide, by decide⟩, by decide⟩ ?_
  have hnone : (EngineWorld.mk sampleStore []).OwnLeases sampleRuntime (fun _ => none) [] :=
    ownLeases_nil _
  have htakeover : (EngineWorld.mk sampleStore []).OwnLeases sampleRuntime (fun _ => none)
      sampleTakeover :=
    ownLeases_concat (ownLeases_concat hnone (by simp [EngineCall.lease?])) (by simp [EngineCall.lease?])
  refine ownLeases_concat htakeover ?_
  · intro lease hlease
    obtain rfl := Option.some.inj hlease
    exact List.mem_cons_of_mem _ (List.mem_singleton.mpr rfl)

end Deckent.Mission
