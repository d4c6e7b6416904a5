import Deckent.Proof.MissionDispatch

/-!
# Claims and settlements move items forward

A claim or a settlement changes nothing but items, none of which goes back in its revision, and succeeds
only where the engine holds the lease. A settlement succeeds only where an item has the claim.
-/

namespace Deckent.Mission

variable {runtime : JsonRuntime} {now : Int} {db next last : MissionDb}

/-! ### Items advance -/

structure Later (row successor : WorkItemRow) : Prop where
  id : successor.id = row.id
  change : successor = row ∨ row.revision < successor.revision

theorem Later.refl (row : WorkItemRow) : Later row row := ⟨rfl, .inl rfl⟩

theorem Later.revision_le {row successor : WorkItemRow} (hlater : Later row successor) :
    row.revision ≤ successor.revision := by
  obtain rfl | hlt := hlater.change
  · exact le_refl _
  · exact hlt.le

theorem Later.trans {row successor last : WorkItemRow} (hfirst : Later row successor)
    (hsecond : Later successor last) : Later row last := by
  refine ⟨hsecond.id.trans hfirst.id, ?_⟩
  obtain rfl | hlt := hfirst.change
  · exact hsecond.change
  · exact .inr (hlt.trans_le hsecond.revision_le)

theorem later_closed (row : WorkItemRow) (status : WorkItemStatus) (result : Option Json) :
    Later row (row.closed status result now) := ⟨rfl, .inr (Nat.lt_succ_self _)⟩

theorem later_claimed (row : WorkItemRow) (attempt : ClaimAttempt) :
    Later row (row.claimed now attempt) := ⟨rfl, .inr (Nat.lt_succ_self _)⟩

theorem later_claimedUnder (row : WorkItemRow) (attempt : ClaimAttempt)
    (fence : WorkItemAdmissionFence) : Later row (row.claimedUnder now attempt fence) :=
  ⟨rfl, .inr (Nat.lt_succ_self _)⟩

structure Advances (db next : MissionDb) : Prop where
  items : ∃ set, next.items = db.items.map set ∧ ∀ row ∈ db.items, Later row (set row)
  engineLease : next.engineLease = db.engineLease
  recoveries : next.recoveries = db.recoveries

theorem advances_of_items_eq (hitems : next.items = db.items)
    (hlease : next.engineLease = db.engineLease) (hrecoveries : next.recoveries = db.recoveries) :
    Advances db next :=
  ⟨⟨id, by simpa using hitems, fun row _ => .refl row⟩, hlease, hrecoveries⟩

theorem Advances.refl (db : MissionDb) : Advances db db := advances_of_items_eq rfl rfl rfl

theorem Advances.trans (hfirst : Advances db next) (hsecond : Advances next last) :
    Advances db last := by
  refine ⟨?_, hsecond.engineLease.trans hfirst.engineLease,
    hsecond.recoveries.trans hfirst.recoveries⟩
  obtain ⟨first, hitems, hadvance⟩ := hfirst.items
  obtain ⟨second, hitems', hadvance'⟩ := hsecond.items
  refine ⟨second ∘ first, by rw [hitems', hitems, List.map_map], fun row hrow => ?_⟩
  have hmiddle : first row ∈ next.items := by
    rw [hitems]
    exact List.mem_map_of_mem hrow
  exact (hadvance row hrow).trans (hadvance' (first row) hmiddle)

theorem advances_updateItems {selects : WorkItemRow → Bool} {set : WorkItemRow → WorkItemRow}
    (hset : ∀ row, selects row = true → Later row (set row)) :
    Advances db (db.updateItems selects set) := by
  refine ⟨⟨_, rfl, fun row _ => ?_⟩, rfl, rfl⟩
  split
  · next hselects => exact hset row hselects
  · exact .refl row

theorem advances_quarantine (db : MissionDb) (itemId : Option String) :
    Advances db (db.quarantine runtime now itemId) := by
  refine (advances_updateItems fun row _ => later_closed row _ _).trans
    (advances_updateItems fun row _ => ?_)
  split
  · exact later_closed row _ _
  · exact .refl row

theorem advances_admitRow {registry : MissionRunnerRegistry} {row : WorkItemRow}
    (hadmitted : db.admitRow runtime now registry row = .ok next) : Advances db next := by
  unfold MissionDb.admitRow at hadmitted
  split at hadmitted
  · obtain rfl := Except.ok.inj hadmitted
    exact .refl db
  · obtain ⟨verdict, -, hadmitted⟩ := bind_eq_ok.mp hadmitted
    cases verdict with
    | none =>
        obtain rfl := Except.ok.inj hadmitted
        exact .refl db
    | some rejection =>
        simp only at hadmitted
        split at hadmitted
        · obtain rfl := Except.ok.inj hadmitted
          exact .refl db
        · obtain rfl := Except.ok.inj hadmitted
          exact advances_updateItems fun other _ => later_closed other _ _

theorem advances_admitRows (registry : MissionRunnerRegistry) (rows : List WorkItemRow)
    (db : MissionDb) : Advances db (admitRows runtime now registry rows db).1 := by
  induction rows generalizing db with
  | nil => exact .refl db
  | cons row rest ih =>
      rw [admitRows]
      split
      · next middle hadmitted => exact (advances_admitRow hadmitted).trans (ih middle)
      · exact .refl db

theorem advances_reconcileRuntimeAdmission (db : MissionDb) (registry : MissionRunnerRegistry)
    (itemId : Option String) :
    Advances db (db.reconcileRuntimeAdmission runtime now registry itemId).1 := by
  have hkinds : Advances db (db.reconcileUnsupportedKinds now itemId) :=
    advances_updateItems fun row _ => later_closed row _ _
  have hrows : Advances _ (admitRows runtime now registry
      ((db.reconcileUnsupportedKinds now itemId).items.filter fun row =>
        row.status.isOpen && row.concerns itemId) (db.reconcileUnsupportedKinds now itemId)).1 :=
    advances_admitRows registry _ _
  unfold MissionDb.reconcileRuntimeAdmission
  simp only
  split
  · next middle hadmitted =>
      rw [hadmitted] at hrows
      refine (hkinds.trans hrows).trans (advances_updateItems fun row _ => ?_)
      split
      · exact later_closed row _ _
      · exact .refl row
  · next middle error hadmitted =>
      rw [hadmitted] at hrows
      exact hkinds.trans hrows

/-! ### Claims and settlements -/

theorem advances_takeClaim {selects : WorkItemRow → Bool} {set : WorkItemRow → WorkItemRow}
    (hset : ∀ row, Later row (set row)) (claim : MissionDispatchClaim) :
    Advances db (db.takeClaim selects set claim).2 := by
  unfold MissionDb.takeClaim
  split
  · exact advances_updateItems fun row _ => hset row
  · exact advances_updateItems fun row _ => hset row

theorem selected_of_takeClaim {selects : WorkItemRow → Bool} {set : WorkItemRow → WorkItemRow}
    {claim taken : MissionDispatchClaim} (htaken : (db.takeClaim selects set claim).1 = some taken) :
    ∃ row ∈ db.items, selects row = true := by
  unfold MissionDb.takeClaim at htaken
  split at htaken
  · next hchanges => exact exists_of_changes_eq_one hchanges
  · cases htaken

structure ClaimAdvances (engineHolds : Bool) (db : MissionDb) (answer : Option MissionDispatchClaim)
    (next : MissionDb) : Prop where
  advances : Advances db next
  holds : answer ≠ none → engineHolds = true

theorem claimAdvances_takeClaim {holds : Bool} {selects : WorkItemRow → Bool}
    {set : WorkItemRow → WorkItemRow} (hset : ∀ row, Later row (set row))
    (hselects : ∀ row, selects row = true → holds = true) (claim : MissionDispatchClaim) :
    ClaimAdvances holds db (db.takeClaim selects set claim).1 (db.takeClaim selects set claim).2 := by
  refine ⟨advances_takeClaim hset claim, fun hanswer => ?_⟩
  obtain ⟨taken, htaken⟩ := Option.ne_none_iff_exists'.mp hanswer
  obtain ⟨row, -, hselected⟩ := selected_of_takeClaim htaken
  exact hselects row hselected

theorem claimAdvances_none (holds : Bool) (db : MissionDb) : ClaimAdvances holds db none db :=
  ⟨.refl db, fun hanswer => absurd rfl hanswer⟩

theorem claimAdvances_claimPlain (now : Int) (db : MissionDb) (id : String) (attempt : ClaimAttempt)
    (engineHolds : Bool) :
    ClaimAdvances engineHolds db (db.claimPlain now id attempt engineHolds).1
      (db.claimPlain now id attempt engineHolds).2 := by
  unfold MissionDb.claimPlain
  split
  · exact claimAdvances_none _ db
  · refine claimAdvances_takeClaim (fun row => later_claimed row attempt)
      (fun row hselected => ?_) _
    rw [Bool.and_eq_true] at hselected
    exact hselected.2

theorem claimAdvances_claimUnder {id : String} {attempt : ClaimAttempt} {fence : MissionClaimFence}
    {engineHolds : Bool} {answer : Option MissionDispatchClaim}
    (hclaim : db.claimUnder runtime now id attempt fence engineHolds = .ok (answer, next)) :
    ClaimAdvances engineHolds db answer next := by
  have hrefused (hnone : Except.ok (none, db) = (Except.ok (answer, next) : Except String _)) :
      ClaimAdvances engineHolds db answer next := by
    obtain ⟨rfl, rfl⟩ := Prod.mk.inj (Except.ok.inj hnone)
    exact claimAdvances_none engineHolds db
  unfold MissionDb.claimUnder at hclaim
  split at hclaim
  · exact hrefused hclaim
  · simp only at hclaim
    split at hclaim
    · exact hrefused hclaim
    · obtain ⟨rejection, -, hclaim⟩ := bind_eq_ok.mp hclaim
      split at hclaim
      · exact hrefused hclaim
      · obtain ⟨kinds, -, hclaim⟩ := bind_eq_ok.mp hclaim
        split at hclaim
        · exact hrefused hclaim
        · have htake := Except.ok.inj hclaim
          obtain ⟨rfl, rfl⟩ : _ ∧ _ := ⟨congrArg Prod.fst htake, congrArg Prod.snd htake⟩
          refine claimAdvances_takeClaim (fun row => later_claimedUnder row attempt _)
            (fun row hselected => ?_) _
          rw [Bool.and_eq_true] at hselected
          exact hselected.2

def LeaseHolds (db : MissionDb) (now : Int) (lease : MissionEngineLease) : Prop :=
  ∃ row, db.engineLease = some row ∧ row.isOf lease = true ∧ now < row.expiresAtMs

theorem leaseHolds_iff {lease : MissionEngineLease} :
    (db.engineLease.any fun row => row.isOf lease && now < row.expiresAtMs) = true
      ↔ LeaseHolds db now lease := by
  unfold LeaseHolds
  cases db.engineLease with
  | none => simp
  | some row => simp

theorem leaseHolds_of_isEngineLeaseActive {lease : MissionEngineLease}
    (hactive : db.isEngineLeaseActive now lease = true) : LeaseHolds db now lease := by
  unfold MissionDb.isEngineLeaseActive at hactive
  rw [Bool.and_eq_true] at hactive
  exact leaseHolds_iff.mp hactive.2

theorem leaseHolds_of_engineLeasePredicate {lease : MissionEngineLease}
    (hholds : db.engineLeasePredicate now (some lease) = some true) : LeaseHolds db now lease := by
  simp only [MissionDb.engineLeasePredicate] at hholds
  split at hholds
  · exact leaseHolds_iff.mp (Option.some.inj hholds)
  · cases hholds

theorem claimBody_advances {id : String} {attempt : ClaimAttempt} {fence : Option MissionClaimFence}
    {lease : MissionEngineLease} {answer : Option MissionDispatchClaim}
    (hclaim : db.claimBody runtime now id attempt fence (some lease) = .ok (answer, next)) :
    Advances db next ∧ (answer ≠ none → LeaseHolds db now lease) := by
  unfold MissionDb.claimBody at hclaim
  split at hclaim
  · obtain ⟨rfl, rfl⟩ := Prod.mk.inj (Except.ok.inj hclaim)
    exact ⟨.refl db, fun hanswer => absurd rfl hanswer⟩
  · next engineHolds hpredicate =>
      have hlease (hholds : engineHolds = true) : LeaseHolds db now lease :=
        leaseHolds_of_engineLeasePredicate (hholds ▸ hpredicate)
      split at hclaim
      · next fence =>
          have hadvances : Advances db
              (db.reconcileRuntimeAdmission runtime now fence.registry (some id)).1 :=
            advances_reconcileRuntimeAdmission db fence.registry (some id)
          split at hclaim
          · cases hclaim
          · next middle hreconcile =>
              rw [hreconcile] at hadvances
              have hupdate := claimAdvances_claimUnder hclaim
              exact ⟨hadvances.trans hupdate.advances, fun hanswer => hlease (hupdate.holds hanswer)⟩
      · have hanswer := Except.ok.inj hclaim
        obtain ⟨rfl, rfl⟩ : _ ∧ _ := ⟨congrArg Prod.fst hanswer, congrArg Prod.snd hanswer⟩
        have hupdate : ClaimAdvances engineHolds (db.quarantine runtime now (some id)) _ _ :=
          claimAdvances_claimPlain now _ id attempt engineHolds
        exact ⟨(advances_quarantine db (some id)).trans hupdate.advances,
          fun hanswer => hlease (hupdate.holds hanswer)⟩

theorem advances_transaction {α : Type} {body : Except String (α × MissionDb)}
    (hbody : ∀ answer next, body = .ok (answer, next) → Advances db next) :
    Advances db (transaction db body).1 := by
  cases body with
  | error error => exact .refl db
  | ok result => exact hbody result.1 result.2 rfl

theorem advances_claimItemWithAuthority (id : String) (attempt : ClaimAttempt)
    (fence : Option MissionClaimFence) (lease : MissionEngineLease) :
    Advances db (db.claimItemWithAuthority runtime now id attempt fence (some lease)).1 := by
  unfold MissionDb.claimItemWithAuthority
  split
  · exact .refl db
  · exact advances_transaction fun answer next hbody => (claimBody_advances hbody).1

theorem leaseHolds_of_claims {id : String} {attempt : ClaimAttempt}
    {fence : Option MissionClaimFence} {lease : MissionEngineLease} {claim : MissionDispatchClaim}
    (hclaims : (db.claimItemWithAuthority runtime now id attempt fence (some lease)).2
      = .ok (some claim)) : LeaseHolds db now lease := by
  unfold MissionDb.claimItemWithAuthority at hclaims
  split at hclaims
  · cases hclaims
  · exact (claimBody_advances (transaction_eq_ok hclaims)).2 (by simp)

theorem advances_updateFence {id : String} {adoption : PlanAdoption}
    (hupdate : db.updateFence id adoption = .ok next) : Advances db next := by
  unfold MissionDb.updateFence at hupdate
  simp only at hupdate
  split at hupdate
  · obtain rfl := Except.ok.inj hupdate
    exact advances_of_items_eq rfl rfl rfl
  · cases hupdate

structure SettlementAdvances (db : MissionDb) (claim : MissionDispatchClaim) (engineHolds answer : Bool)
    (next : MissionDb) : Prop where
  advances : Advances db next
  found : answer = true → engineHolds = true ∧ ∃ row ∈ db.items, row.holds claim = true

theorem settlementAdvances_settleWith {claim : MissionDispatchClaim} {status : SettlementStatus}
    {result : Option Json} {adoption : Option PlanAdoption} {engineHolds answer : Bool}
    (hsettle : db.settleWith now claim status result adoption engineHolds = .ok (answer, next)) :
    SettlementAdvances db claim engineHolds answer next := by
  have hsettled : Advances db (db.updateItems (fun row => row.holds claim && engineHolds) fun row =>
      row.settled now status (adoption.map (·.spec)) result) :=
    advances_updateItems fun row _ => ⟨rfl, .inr (Nat.lt_succ_self _)⟩
  unfold MissionDb.settleWith at hsettle
  simp only at hsettle
  split at hsettle
  · obtain ⟨rfl, rfl⟩ := Prod.mk.inj (Except.ok.inj hsettle)
    exact ⟨hsettled, by simp⟩
  · next hchanges =>
      have hfound : engineHolds = true ∧ ∃ row ∈ db.items, row.holds claim = true := by
        obtain ⟨row, hrow, hselected⟩ := exists_of_changes_eq_one (not_not.mp hchanges)
        rw [Bool.and_eq_true] at hselected
        exact ⟨hselected.2, row, hrow, hselected.1⟩
      split at hsettle
      · obtain ⟨-, rfl⟩ := Prod.mk.inj (Except.ok.inj hsettle)
        exact ⟨hsettled, fun _ => hfound⟩
      · obtain ⟨fenced, hfence, hresult⟩ := exceptMap_eq_ok.mp hsettle
        obtain ⟨-, rfl⟩ := Prod.mk.inj hresult
        exact ⟨hsettled.trans (advances_updateFence hfence), fun _ => hfound⟩

theorem settleBody_advances {claim : MissionDispatchClaim} {status : SettlementStatus}
    {result : Option Json} {lease : MissionEngineLease} {answer : Bool}
    (hsettle : db.settleBody runtime now claim status result (some lease) = .ok (answer, next)) :
    Advances db next ∧ (answer = true →
      LeaseHolds db now lease ∧ ∃ row ∈ db.items, row.holds claim = true) := by
  have hrefused (hnone : Except.ok (false, db) = (Except.ok (answer, next) : Except String _)) :
      Advances db next ∧ (answer = true →
        LeaseHolds db now lease ∧ ∃ row ∈ db.items, row.holds claim = true) := by
    obtain ⟨rfl, rfl⟩ := Prod.mk.inj (Except.ok.inj hnone)
    exact ⟨.refl db, by simp⟩
  unfold MissionDb.settleBody at hsettle
  split at hsettle
  · exact hrefused hsettle
  · next engineHolds hpredicate =>
      have hwith (hupdate : SettlementAdvances db claim engineHolds answer next) :
          Advances db next ∧ (answer = true →
            LeaseHolds db now lease ∧ ∃ row ∈ db.items, row.holds claim = true) := by
        refine ⟨hupdate.advances, fun hanswer => ?_⟩
        obtain ⟨hholds, hfound⟩ := hupdate.found hanswer
        exact ⟨leaseHolds_of_engineLeasePredicate (hholds ▸ hpredicate), hfound⟩
      split at hsettle
      · exact hwith (settlementAdvances_settleWith hsettle)
      · split at hsettle
        · exact hrefused hsettle
        · exact hwith (settlementAdvances_settleWith hsettle)

theorem advances_settleClaimedItem (claim : MissionDispatchClaim) (status : SettlementStatus)
    (result : Option Json) (lease : MissionEngineLease) :
    Advances db (db.settleClaimedItem runtime now claim status result (some lease)).1 := by
  unfold MissionDb.settleClaimedItem
  split
  · exact .refl db
  · exact advances_transaction fun answer next hbody => (settleBody_advances hbody).1

theorem found_of_settles {claim : MissionDispatchClaim} {status : SettlementStatus}
    {result : Option Json} {lease : MissionEngineLease}
    (hsettles : (db.settleClaimedItem runtime now claim status result (some lease)).2 = .ok true) :
    LeaseHolds db now lease ∧ ∃ row ∈ db.items, row.holds claim = true := by
  unfold MissionDb.settleClaimedItem at hsettles
  split at hsettles
  · cases hsettles
  · exact (settleBody_advances (transaction_eq_ok hsettles)).2 rfl

end Deckent.Mission
