import Deckent.Model.MissionScheduler
import Deckent.Proof.MissionAdvance

/-!
# What a scheduler does to the items

The store calls of a scheduler change items in place. A change of an item raises its revision and leaves
the status of an item that has ended. The missions stay as they are.
-/

namespace Deckent.Mission

variable {runtime : JsonRuntime} {now : Int} {db next last : MissionDb}

/-! ### Items go forward -/

structure Forward (row successor : WorkItemRow) : Prop where
  same : SameItem row successor
  kind : successor.kind = row.kind
  change : successor = row ∨ row.revision < successor.revision
  terminal : row.status.isTerminal = true → successor.status = row.status

theorem Forward.refl (row : WorkItemRow) : Forward row row := ⟨.refl row, rfl, .inl rfl, fun _ => rfl⟩

theorem Forward.later {row successor : WorkItemRow} (hforward : Forward row successor) :
    Later row successor := ⟨hforward.same.id, hforward.change⟩

theorem Forward.trans {row successor later : WorkItemRow} (hfirst : Forward row successor)
    (hsecond : Forward successor later) : Forward row later where
  same := hfirst.same.trans hsecond.same
  kind := hsecond.kind.trans hfirst.kind
  change := (hfirst.later.trans hsecond.later).change
  terminal := by
    intro hterminal
    have hstatus := hfirst.terminal hterminal
    rw [← hstatus] at hterminal ⊢
    exact hsecond.terminal hterminal

theorem Closed.forward {row successor : WorkItemRow} (hclosed : Closed row successor) :
    Forward row successor where
  same := hclosed.same
  kind := hclosed.kind
  change := .inr hclosed.revision
  terminal := by
    intro hterminal
    rw [isTerminal_of_isOpen hclosed.isOpen] at hterminal
    cases hterminal

theorem forward_of_open {row successor : WorkItemRow} (hopen : row.status.isTerminal = false)
    (hsame : SameItem row successor) (hkind : successor.kind = row.kind)
    (hrevision : row.revision < successor.revision) : Forward row successor := by
  refine ⟨hsame, hkind, .inr hrevision, fun hterminal => ?_⟩
  rw [hopen] at hterminal
  cases hterminal

structure Proceeds (db next : MissionDb) : Prop where
  items : ∃ set, next.items = db.items.map set ∧ ∀ row ∈ db.items, Forward row (set row)
  missions : next.missions = db.missions

theorem proceeds_of_eq (hitems : next.items = db.items) (hmissions : next.missions = db.missions) :
    Proceeds db next :=
  ⟨⟨id, by simpa using hitems, fun row _ => .refl row⟩, hmissions⟩

theorem Proceeds.refl (db : MissionDb) : Proceeds db db := proceeds_of_eq rfl rfl

theorem Proceeds.trans (hfirst : Proceeds db next) (hsecond : Proceeds next last) :
    Proceeds db last := by
  obtain ⟨first, hitems, hforward⟩ := hfirst.items
  obtain ⟨second, hitems', hforward'⟩ := hsecond.items
  refine ⟨⟨second ∘ first, by rw [hitems', hitems, List.map_map], fun row hrow => ?_⟩,
    hsecond.missions.trans hfirst.missions⟩
  have hmiddle : first row ∈ next.items := by
    rw [hitems]
    exact List.mem_map_of_mem hrow
  exact (hforward row hrow).trans (hforward' (first row) hmiddle)

theorem Proceeds.map_id (hproceeds : Proceeds db next) :
    next.items.map (·.id) = db.items.map (·.id) := by
  obtain ⟨set, hitems, hforward⟩ := hproceeds.items
  rw [hitems]
  exact map_id_of_same fun row hrow => (hforward row hrow).same

theorem Closes.proceeds (hcloses : Closes db next) : Proceeds db next := by
  obtain ⟨set, hitems, hrows⟩ := hcloses.rows
  refine ⟨⟨set, hitems, fun row hrow => ?_⟩, hcloses.missions⟩
  obtain hsame | hclosed := hrows row hrow
  · rw [hsame]
    exact .refl row
  · exact hclosed.forward

theorem proceeds_updateItems {selects : WorkItemRow → Bool} {set : WorkItemRow → WorkItemRow}
    (hset : ∀ row, selects row = true → Forward row (set row)) :
    Proceeds db (db.updateItems selects set) := by
  refine ⟨⟨_, rfl, fun row _ => ?_⟩, rfl⟩
  split
  · next hselects => exact hset row hselects
  · exact .refl row

theorem proceeds_transaction {α : Type} {body : Except String (α × MissionDb)}
    (hbody : ∀ answer next, body = .ok (answer, next) → Proceeds db next) :
    Proceeds db (transaction db body).1 := by
  cases body with
  | error error => exact .refl db
  | ok result => exact hbody result.1 result.2 rfl

theorem changes_le_one {selects : WorkItemRow → Bool} (hkeys : (db.items.map (·.id)).Nodup) {id : String}
    (hid : ∀ row, selects row = true → row.id = id) : db.changes selects ≤ 1 := by
  have hids : ∀ row ∈ db.items.filter selects, row.id = id := fun row hrow =>
    hid row (List.mem_filter.mp hrow).2
  have hdistinct : ((db.items.filter selects).map (·.id)).Nodup :=
    hkeys.sublist (List.filter_sublist.map _)
  unfold MissionDb.changes
  cases hfilter : db.items.filter selects with
  | nil => simp
  | cons first others =>
      cases others with
      | nil => simp
      | cons second rest =>
          rw [hfilter] at hids hdistinct
          simp [hids first (by simp), hids second (by simp)] at hdistinct

/-! ### Queries -/

theorem proceeds_admitDue (registry : MissionRunnerRegistry) (items : List DueItem) (db : MissionDb) :
    Proceeds db (admitDue runtime now registry items db).1 := by
  induction items generalizing db with
  | nil => exact .refl db
  | cons item rest ih =>
      rw [admitDue]
      split
      · exact .refl db
      · exact ih db
      · have hcloses : Closes db
            (db.reconcileRuntimeAdmission runtime now registry (some item.row.id)).1 :=
          closes_reconcileRuntimeAdmission db registry (some item.row.id)
        split
        · next middle error hreconcile =>
            rw [hreconcile] at hcloses
            exact hcloses.proceeds
        · next middle hreconcile =>
            rw [hreconcile] at hcloses
            exact hcloses.proceeds.trans (ih middle)

theorem proceeds_queryDue (db : MissionDb) (isReady : MissionDb → WorkItemRow → Bool)
    (registry : Option MissionRunnerRegistry) (limit : Option Nat) :
    Proceeds db (db.queryDue runtime now isReady registry limit).1 := by
  unfold MissionDb.queryDue
  split
  · exact (closes_quarantine db none).proceeds
  · next registry =>
      have hcloses : Closes db (db.reconcileRuntimeAdmission runtime now registry none).1 :=
        closes_reconcileRuntimeAdmission db registry none
      split
      · next middle error hreconcile =>
          rw [hreconcile] at hcloses
          exact hcloses.proceeds
      · next middle hreconcile =>
          rw [hreconcile] at hcloses
          split
          · exact hcloses.proceeds
          · exact hcloses.proceeds
          · exact hcloses.proceeds.trans (proceeds_admitDue registry _ middle)

/-! ### Claims -/

structure ClaimProceeds (db : MissionDb) (attempt : ClaimAttempt) (now : Int)
    (answer : Option MissionDispatchClaim) (next : MissionDb) : Prop where
  proceeds : Proceeds db next
  claim : ∀ claim, answer = some claim → ∃ row fence, claim = dispatchClaim now row attempt fence

theorem claimProceeds_none {attempt : ClaimAttempt} (hproceeds : Proceeds db next) :
    ClaimProceeds db attempt now none next :=
  ⟨hproceeds, fun _ hanswer => absurd hanswer (by simp)⟩

theorem claimProceeds_takeClaim {selects : WorkItemRow → Bool} {set : WorkItemRow → WorkItemRow}
    {attempt : ClaimAttempt} {fence : Option WorkItemAdmissionFence} {current : WorkItemRow}
    (hset : ∀ row, selects row = true → Forward row (set row)) :
    ClaimProceeds db attempt now
      (db.takeClaim selects set (dispatchClaim now current attempt fence)).1
      (db.takeClaim selects set (dispatchClaim now current attempt fence)).2 := by
  unfold MissionDb.takeClaim
  split
  · refine ⟨proceeds_updateItems hset, fun claim hclaim => ?_⟩
    exact ⟨current, fence, (Option.some.inj hclaim).symm⟩
  · exact claimProceeds_none (proceeds_updateItems hset)

theorem forward_of_claimable {id : String} {row successor : WorkItemRow}
    (hclaimable : Claimable db id row) (hsame : SameItem row successor)
    (hkind : successor.kind = row.kind) (hrevision : row.revision < successor.revision) :
    Forward row successor :=
  forward_of_open (by rw [hclaimable.pending]; rfl) hsame hkind hrevision

theorem claimProceeds_claimPlain (id : String) (attempt : ClaimAttempt) (engineHolds : Bool) :
    ClaimProceeds db attempt now (db.claimPlain now id attempt engineHolds).1
      (db.claimPlain now id attempt engineHolds).2 := by
  unfold MissionDb.claimPlain
  split
  · exact claimProceeds_none (.refl db)
  · refine claimProceeds_takeClaim fun row hselected => ?_
    rw [Bool.and_eq_true] at hselected
    exact forward_of_claimable (claimable_of_isClaimable hselected.1)
      (claimed_claimed row attempt).same rfl (Nat.lt_succ_self _)

theorem claimProceeds_claimUnder {id : String} {attempt : ClaimAttempt} {fence : MissionClaimFence}
    {engineHolds : Bool} {answer : Option MissionDispatchClaim}
    (hclaim : db.claimUnder runtime now id attempt fence engineHolds = .ok (answer, next)) :
    ClaimProceeds db attempt now answer next := by
  have hrefused (hnone : Except.ok (none, db) = (Except.ok (answer, next) : Except String _)) :
      ClaimProceeds db attempt now answer next := by
    obtain ⟨rfl, rfl⟩ := Prod.mk.inj (Except.ok.inj hnone)
    exact claimProceeds_none (.refl db)
  unfold MissionDb.claimUnder at hclaim
  split at hclaim
  · exact hrefused hclaim
  · simp only at hclaim
    split at hclaim
    · exact hrefused hclaim
    · obtain ⟨rejection, -, hclaim⟩ := bind_eq_ok.mp hclaim
      split at hclaim
      · exact hrefused hclaim
      · obtain ⟨kinds, -, hclaim⟩ := bind_eq_ok.mp hclaim
        split at hclaim
        · exact hrefused hclaim
        · have htake := Except.ok.inj hclaim
          obtain ⟨rfl, rfl⟩ : _ ∧ _ := ⟨congrArg Prod.fst htake, congrArg Prod.snd htake⟩
          refine claimProceeds_takeClaim fun row hselected => ?_
          simp only [Bool.and_eq_true] at hselected
          exact forward_of_claimable (claimable_of_isClaimable hselected.1.1)
            (claimed_claimedUnder row attempt _).same rfl (Nat.lt_succ_self _)

theorem claimProceeds_claimBody {id : String} {attempt : ClaimAttempt}
    {fence : Option MissionClaimFence} {lease : Option MissionEngineLease}
    {answer : Option MissionDispatchClaim}
    (hclaim : db.claimBody runtime now id attempt fence lease = .ok (answer, next)) :
    ClaimProceeds db attempt now answer next := by
  unfold MissionDb.claimBody at hclaim
  split at hclaim
  · obtain ⟨rfl, rfl⟩ := Prod.mk.inj (Except.ok.inj hclaim)
    exact claimProceeds_none (.refl db)
  · split at hclaim
    · next fence =>
        have hcloses : Closes db
            (db.reconcileRuntimeAdmission runtime now fence.registry (some id)).1 :=
          closes_reconcileRuntimeAdmission db fence.registry (some id)
        split at hclaim
        · cases hclaim
        · next middle hreconcile =>
            rw [hreconcile] at hcloses
            have hupdate := claimProceeds_claimUnder hclaim
            exact ⟨hcloses.proceeds.trans hupdate.proceeds, hupdate.claim⟩
    · have hanswer := Except.ok.inj hclaim
      obtain ⟨rfl, rfl⟩ : _ ∧ _ := ⟨congrArg Prod.fst hanswer, congrArg Prod.snd hanswer⟩
      have hcloses : Closes db (db.quarantine runtime now (some id)) := closes_quarantine db (some id)
      have hupdate (holds : Bool) :
          ClaimProceeds (db.quarantine runtime now (some id)) attempt now _ _ :=
        claimProceeds_claimPlain id attempt holds
      exact ⟨hcloses.proceeds.trans (hupdate _).proceeds, (hupdate _).claim⟩

theorem proceeds_claimItemWithAuthority (db : MissionDb) (id : String) (attempt : ClaimAttempt)
    (fence : Option MissionClaimFence) (lease : Option MissionEngineLease) :
    Proceeds db (db.claimItemWithAuthority runtime now id attempt fence lease).1 := by
  unfold MissionDb.claimItemWithAuthority
  split
  · exact .refl db
  · exact proceeds_transaction fun answer next hbody => (claimProceeds_claimBody hbody).proceeds

theorem exists_dispatchClaim {id : String} {attempt : ClaimAttempt} {fence : Option MissionClaimFence}
    {lease : Option MissionEngineLease} {claim : MissionDispatchClaim}
    (hclaims : (db.claimItemWithAuthority runtime now id attempt fence lease).2 = .ok (some claim)) :
    ∃ row fence, claim = dispatchClaim now row attempt fence := by
  unfold MissionDb.claimItemWithAuthority at hclaims
  split at hclaims
  · cases hclaims
  · exact (claimProceeds_claimBody (transaction_eq_ok hclaims)).claim claim rfl

/-! ### Settlements -/

def Passed (db : MissionDb) (claim : MissionDispatchClaim) : Prop :=
  claim.workItemId ∈ db.items.map (·.id)
    ∧ ∀ row ∈ db.items, row.id = claim.workItemId → claim.itemRevision < row.revision

theorem Passed.holds_eq_false {claim : MissionDispatchClaim} (hpassed : Passed db claim)
    {row : WorkItemRow} (hrow : row ∈ db.items) : row.holds claim = false := by
  by_contra hholds
  simp only [WorkItemRow.holds, Bool.not_eq_false, Bool.and_eq_true, decide_eq_true_eq] at hholds
  have hlt := hpassed.2 row hrow hholds.1.1.1.1.1.1.1
  rw [hholds.1.1.2] at hlt
  exact lt_irrefl _ hlt

structure SettlementProceeds (db : MissionDb) (claim : MissionDispatchClaim) (answer : Bool)
    (next : MissionDb) : Prop where
  proceeds : Proceeds db next
  passed : answer = true → (db.items.map (·.id)).Nodup → Passed next claim

theorem settlementProceeds_refused {claim : MissionDispatchClaim} (hproceeds : Proceeds db next) :
    SettlementProceeds db claim false next := ⟨hproceeds, by simp⟩

theorem proceeds_updateFence {id : String} {adoption : PlanAdoption}
    (hupdate : db.updateFence id adoption = .ok next) :
    next.items = db.items ∧ next.missions = db.missions := by
  unfold MissionDb.updateFence at hupdate
  simp only at hupdate
  split at hupdate
  · obtain rfl := Except.ok.inj hupdate
    exact ⟨rfl, rfl⟩
  · cases hupdate

theorem holds_eq_true {claim : MissionDispatchClaim} {row : WorkItemRow} (hholds : row.holds claim = true) :
    row.id = claim.workItemId ∧ row.status = .running ∧ row.revision = claim.itemRevision := by
  simp only [WorkItemRow.holds, Bool.and_eq_true, decide_eq_true_eq] at hholds
  exact ⟨hholds.1.1.1.1.1.1.1, hholds.1.1.1.1.1.2, hholds.1.1.2⟩

theorem settlementProceeds_settleWith {claim : MissionDispatchClaim} {status : SettlementStatus}
    {result : Option Json} {adoption : Option PlanAdoption} {engineHolds answer : Bool}
    (hsettle : db.settleWith now claim status result adoption engineHolds = .ok (answer, next)) :
    SettlementProceeds db claim answer next := by
  have hsettled : Proceeds db (db.updateItems (fun row => row.holds claim && engineHolds) fun row =>
      row.settled now status (adoption.map (·.spec)) result) := by
    refine proceeds_updateItems fun row hselected => ?_
    rw [Bool.and_eq_true] at hselected
    exact forward_of_open (by rw [(holds_eq_true hselected.1).2.1]; rfl) ⟨rfl, rfl, rfl, rfl, rfl⟩ rfl
      (Nat.lt_succ_self _)
  have hpassed (hchanges : db.changes (fun row => row.holds claim && engineHolds) = 1)
      (hnodup : (db.items.map (·.id)).Nodup) :
      Passed (db.updateItems (fun row => row.holds claim && engineHolds) fun row =>
        row.settled now status (adoption.map (·.spec)) result) claim := by
    obtain ⟨holder, hholder, hselected⟩ := exists_of_changes_eq_one hchanges
    have hholds := hselected
    rw [Bool.and_eq_true] at hholds
    obtain ⟨hid, -, hrevision⟩ := holds_eq_true hholds.1
    constructor
    · rw [hsettled.map_id, ← hid]
      exact List.mem_map_of_mem hholder
    · intro row hrow hsame
      obtain ⟨earlier, hearlier, rfl⟩ := List.mem_map.mp hrow
      have hearlierId : earlier.id = holder.id := by
        rw [hid, ← hsame]
        split <;> rfl
      obtain rfl := List.inj_on_of_nodup_map hnodup hearlier hholder hearlierId
      rw [if_pos hselected]
      exact hrevision ▸ Nat.lt_succ_self _
  unfold MissionDb.settleWith at hsettle
  simp only at hsettle
  split at hsettle
  · obtain ⟨rfl, rfl⟩ := Prod.mk.inj (Except.ok.inj hsettle)
    exact settlementProceeds_refused hsettled
  · next hchanges =>
      split at hsettle
      · obtain ⟨-, rfl⟩ := Prod.mk.inj (Except.ok.inj hsettle)
        exact ⟨hsettled, fun _ => hpassed (not_not.mp hchanges)⟩
      · obtain ⟨fenced, hfence, hresult⟩ := exceptMap_eq_ok.mp hsettle
        obtain ⟨-, rfl⟩ := Prod.mk.inj hresult
        obtain ⟨hitems, hmissions⟩ := proceeds_updateFence hfence
        refine ⟨hsettled.trans (proceeds_of_eq hitems hmissions), fun _ hnodup => ?_⟩
        unfold Passed
        rw [hitems]
        exact hpassed (not_not.mp hchanges) hnodup

theorem settlementProceeds_settleBody {claim : MissionDispatchClaim} {status : SettlementStatus}
    {result : Option Json} {lease : Option MissionEngineLease} {answer : Bool}
    (hsettle : db.settleBody runtime now claim status result lease = .ok (answer, next)) :
    SettlementProceeds db claim answer next := by
  have hrefused (hnone : Except.ok (false, db) = (Except.ok (answer, next) : Except String _)) :
      SettlementProceeds db claim answer next := by
    obtain ⟨rfl, rfl⟩ := Prod.mk.inj (Except.ok.inj hnone)
    exact settlementProceeds_refused (.refl db)
  unfold MissionDb.settleBody at hsettle
  split at hsettle
  · exact hrefused hsettle
  · split at hsettle
    · exact settlementProceeds_settleWith hsettle
    · split at hsettle
      · exact hrefused hsettle
      · exact settlementProceeds_settleWith hsettle

theorem proceeds_settleClaimedItem (db : MissionDb) (claim : MissionDispatchClaim)
    (status : SettlementStatus) (result : Option Json) (lease : Option MissionEngineLease) :
    Proceeds db (db.settleClaimedItem runtime now claim status result lease).1 := by
  unfold MissionDb.settleClaimedItem
  split
  · exact .refl db
  · exact proceeds_transaction fun answer next hbody => (settlementProceeds_settleBody hbody).proceeds

theorem passed_of_settles {claim : MissionDispatchClaim} {status : SettlementStatus}
    {result : Option Json} {lease : Option MissionEngineLease}
    (hnodup : (db.items.map (·.id)).Nodup)
    (hsettles : (db.settleClaimedItem runtime now claim status result lease).2 = .ok true) :
    Passed (db.settleClaimedItem runtime now claim status result lease).1 claim := by
  unfold MissionDb.settleClaimedItem at hsettles ⊢
  split at hsettles
  · cases hsettles
  · next hwellFormed =>
      rw [if_neg hwellFormed]
      exact (settlementProceeds_settleBody (transaction_eq_ok hsettles)).passed rfl hnodup

/-! ### Every call -/

structure Ages (db next : MissionDb) : Prop where
  nodup : (next.items.map (·.id)).Nodup
  ids : db.items.map (·.id) ⊆ next.items.map (·.id)
  rows : ∀ successor ∈ next.items, successor.id ∈ db.items.map (·.id) →
    ∃ row ∈ db.items, row.id = successor.id ∧ row.revision ≤ successor.revision

theorem Ages.trans (hfirst : Ages db next) (hsecond : Ages next last) : Ages db last where
  nodup := hsecond.nodup
  ids := List.Subset.trans hfirst.ids hsecond.ids
  rows := by
    intro successor hsuccessor hid
    obtain ⟨middle, hmiddle, hsame, hle⟩ := hsecond.rows successor hsuccessor (hfirst.ids hid)
    obtain ⟨row, hrow, hsame', hle'⟩ := hfirst.rows middle hmiddle (hsame ▸ hid)
    exact ⟨row, hrow, hsame'.trans hsame, hle'.trans hle⟩

theorem Ages.passed (hages : Ages db next) {claim : MissionDispatchClaim} (hpassed : Passed db claim) :
    Passed next claim := by
  refine ⟨hages.ids hpassed.1, fun successor hsuccessor hid => ?_⟩
  obtain ⟨row, hrow, hsame, hle⟩ := hages.rows successor hsuccessor (hid ▸ hpassed.1)
  exact (hpassed.2 row hrow (hsame.trans hid)).trans_le hle

theorem items_acquireEngineLease (ownerId : String) (ttlMs : JsNumber) (leaseToken : String) :
    (db.acquireEngineLease now ownerId ttlMs leaseToken).1.items = db.items := by
  unfold MissionDb.acquireEngineLease
  split
  · rfl
  · split
    · rfl
    · split
      · rfl
      · split <;> rfl

theorem items_renewEngineLease (lease : MissionEngineLease) (ttlMs : JsNumber) :
    (db.renewEngineLease now lease ttlMs).1.items = db.items := by
  unfold MissionDb.renewEngineLease
  split
  · rfl
  · split
    · rfl
    · split
      · rfl
      · split <;> rfl

theorem items_releaseEngineLease (lease : MissionEngineLease) :
    (db.releaseEngineLease lease).1.items = db.items := by
  unfold MissionDb.releaseEngineLease
  split <;> rfl

section Call

variable (hkeys : (db.items.map (·.id)).Nodup)

include hkeys

theorem ages_of_map {set : WorkItemRow → WorkItemRow} (hitems : next.items = db.items.map set)
    (hset : ∀ row ∈ db.items, Later row (set row)) : Ages db next := by
  have hids : next.items.map (·.id) = db.items.map (·.id) := by
    rw [hitems, List.map_map]
    exact List.map_congr_left fun row hrow => (hset row hrow).id
  refine ⟨hids ▸ hkeys, hids ▸ List.Subset.refl _, fun successor hsuccessor _ => ?_⟩
  rw [hitems] at hsuccessor
  obtain ⟨row, hrow, rfl⟩ := List.mem_map.mp hsuccessor
  exact ⟨row, hrow, (hset row hrow).id.symm, (hset row hrow).revision_le⟩

theorem ages_of_items_eq (hitems : next.items = db.items) : Ages db next :=
  ages_of_map hkeys (by simpa using hitems) fun row _ => .refl row

theorem Proceeds.ages (hproceeds : Proceeds db next) : Ages db next := by
  obtain ⟨set, hitems, hforward⟩ := hproceeds.items
  exact ages_of_map hkeys hitems fun row hrow => (hforward row hrow).later

theorem ages_updateItems {selects : WorkItemRow → Bool} {set : WorkItemRow → WorkItemRow}
    (hset : ∀ row, selects row = true → Later row (set row)) :
    Ages db (db.updateItems selects set) := by
  refine ages_of_map hkeys rfl fun row _ => ?_
  split
  · next hselects => exact hset row hselects
  · exact .refl row

theorem ages_append {rows : List WorkItemRow} {middle : MissionDb} (hinserts : Inserts rows db middle)
    (hitems : next.items = middle.items) : Ages db next := by
  have hnodup := hinserts.nodup hkeys
  rw [← hitems] at hnodup
  have happend : next.items = db.items ++ rows := hitems.trans hinserts.items
  refine ⟨hnodup, by simp [happend], fun successor hsuccessor hid => ?_⟩
  rw [happend] at hsuccessor hnodup
  obtain hold | hnew := List.mem_append.mp hsuccessor
  · exact ⟨successor, hold, rfl, le_refl _⟩
  · rw [List.map_append] at hnodup
    exact absurd (List.mem_map_of_mem hnew) (List.disjoint_of_nodup_append hnodup hid)

theorem ages_transaction {α : Type} {body : Except String (α × MissionDb)}
    (hbody : ∀ answer next, body = .ok (answer, next) → Ages db next) :
    Ages db (transaction db body).1 := by
  cases body with
  | error error => exact ages_of_items_eq hkeys rfl
  | ok result => exact hbody result.1 result.2 rfl

theorem ages_orKeep {body : Except String MissionDb} (hbody : ∀ next, body = .ok next → Ages db next) :
    Ages db (db.orKeep body) := by
  cases body with
  | error error => exact ages_of_items_eq hkeys rfl
  | ok next => exact hbody next rfl

theorem ages_appendItem {item : NewWorkItem} (happend : db.appendItem runtime now item = .ok next) :
    Ages db next := by
  unfold MissionDb.appendItem at happend
  split at happend
  · split at happend
    · obtain rfl := Except.ok.inj happend
      exact ages_of_items_eq hkeys rfl
    · exact ages_append hkeys (inserts_of_insertItem happend) rfl
  · obtain ⟨append, -, happend⟩ := bind_eq_ok.mp happend
    split at happend
    · cases happend
    · obtain ⟨inserted, hinsert, rfl⟩ := exceptMap_eq_ok.mp happend
      exact ages_append hkeys (inserts_of_insertItem hinsert) rfl

theorem ages_enqueueItem {item : NewWorkItem} (henqueue : db.enqueueItem runtime now item = .ok next) :
    Ages db next := by
  obtain ⟨_, -, henqueue⟩ := bind_eq_ok.mp henqueue
  obtain ⟨_, -, henqueue⟩ := bind_eq_ok.mp henqueue
  obtain ⟨_, -, henqueue⟩ := bind_eq_ok.mp henqueue
  exact ages_appendItem hkeys henqueue

theorem ages_enqueueItems {items : List NewWorkItem}
    (henqueue : db.enqueueItems runtime now items = .ok next) : Ages db next := by
  obtain ⟨_, -, henqueue⟩ := bind_eq_ok.mp henqueue
  obtain ⟨appends, happends, hinsert⟩ := bind_eq_ok.mp (mapError_eq_ok.mp henqueue)
  obtain ⟨middle, hinserted, hnext⟩ := bind_eq_ok.mp hinsert
  obtain rfl := Except.ok.inj hnext
  refine ages_append hkeys (inserts_of_insertItems hinserted) ?_
  exact (graphsFor_foldl (fun append happend edge hedge =>
    edges_of_appends happends append happend edge hedge) middle).items

theorem ages_createBatch {normalized : Bool} {mission : NewMission} {items : List NewMissionWorkItem}
    (hcreate : db.createBatch runtime now normalized mission items = .ok next) : Ages db next := by
  unfold MissionDb.createBatch at hcreate
  split at hcreate
  · split at hcreate
    · cases hcreate
    · split at hcreate
      · obtain rfl := Except.ok.inj hcreate
        exact ages_of_items_eq hkeys rfl
      · cases hcreate
  · obtain ⟨created, hmission, hitems⟩ := bind_eq_ok.mp hcreate
    obtain ⟨inserted, hinsert, hgraph⟩ := bind_eq_ok.mp hitems
    obtain ⟨-, authorities, -, rfl⟩ := createMission_eq_ok hmission
    have hcreated : Ages db { db with
        missions := db.missions ++ [mission.row now]
        authorities := db.authorities ++ authorities } := ages_of_items_eq hkeys rfl
    refine hcreated.trans (ages_append hcreated.nodup (inserts_of_insertItems hinsert) ?_)
    split at hgraph
    · exact (graphsFor_addBatchGraph hgraph).items
    · obtain rfl := Except.ok.inj hgraph
      rfl

theorem ages_createMissionWithItems {normalized allowLegacy : Bool} {mission : NewMission}
    {items : List NewMissionWorkItem}
    (hcreate : db.createMissionWithItems runtime now normalized allowLegacy mission items = .ok next) :
    Ages db next := by
  obtain ⟨_, -, hcreate⟩ := bind_eq_ok.mp hcreate
  exact ages_createBatch hkeys (mapError_eq_ok.mp hcreate)

theorem ages_parkItemForApproval {contract : ApprovalContract} (itemId : String)
    (request : ApprovalRequest) :
    Ages db (db.parkItemForApproval runtime contract now itemId request).1 := by
  have hquarantine : Ages db (db.quarantine runtime now (some itemId)) :=
    (closes_quarantine db _).proceeds.ages hkeys
  refine hquarantine.trans (ages_transaction hquarantine.nodup fun answer next hbody => ?_)
  have hbind := mapError_eq_ok.mp hbody
  have hcloses : Closes (db.quarantine runtime now (some itemId))
      ((db.quarantine runtime now (some itemId)).parkCandidate now itemId none) :=
    closes_parkCandidate _ itemId none
  have hparked := hcloses.proceeds.ages hquarantine.nodup
  unfold MissionDb.bindApproval at hbind
  split at hbind
  · obtain ⟨binding, -, hbind⟩ := bind_eq_ok.mp hbind
    split at hbind
    · cases hbind
    · obtain ⟨-, rfl⟩ := Prod.mk.inj (Except.ok.inj hbind)
      exact ages_of_items_eq hquarantine.nodup rfl
  · split at hbind
    · obtain ⟨-, rfl⟩ := Prod.mk.inj (Except.ok.inj hbind)
      exact hparked
    · obtain ⟨inserted, hinsert, hbind⟩ := bind_eq_ok.mp hbind
      obtain ⟨binding, -, hbind⟩ := bind_eq_ok.mp hbind
      obtain ⟨-, rfl⟩ := Prod.mk.inj (Except.ok.inj hbind)
      obtain ⟨-, -, rfl⟩ := insertApproval_eq_ok hinsert
      exact hparked.trans (ages_of_items_eq hparked.nodup rfl)

theorem ages_applyApprovalDecision {contract : ApprovalContract} (requestId : String)
    (state : SettledApproval) (decision : ApprovalDecision) :
    Ages db (db.applyApprovalDecision runtime contract now requestId state decision).1 := by
  unfold MissionDb.applyApprovalDecision
  split
  · exact ages_of_items_eq hkeys rfl
  · refine ages_transaction hkeys fun answer next hdecide => ?_
    unfold MissionDb.decideApproval at hdecide
    split at hdecide
    · obtain ⟨-, rfl⟩ := Prod.mk.inj (Except.ok.inj hdecide)
      exact ages_of_items_eq hkeys rfl
    · obtain ⟨binding, -, hsettle⟩ := bind_eq_ok.mp hdecide
      split at hsettle
      · obtain ⟨-, rfl⟩ := Prod.mk.inj (Except.ok.inj hsettle)
        have hclosed : Ages db (db.updateItems (·.awaitsDecision binding.workItemId) fun item =>
            item.closed state.itemStatus (state.itemResult requestId decision) now) :=
          ages_updateItems hkeys fun row _ => later_closed row _ _
        exact hclosed.trans (ages_of_items_eq hclosed.nodup rfl)
      · split at hsettle
        · cases hsettle
        · obtain ⟨-, rfl⟩ := Prod.mk.inj (Except.ok.inj hsettle)
          exact ages_of_items_eq hkeys rfl

theorem ages_recover (lease : MissionEngineLease) : Ages db (db.recover runtime now lease).1 := by
  refine ages_transaction hkeys fun answer next hrecover => ?_
  obtain rfl := recoverBody_eq_ok hrecover
  have hparked : Ages db (db.parkRunning runtime now) := (closes_parkRunning db).proceeds.ages hkeys
  exact hparked.trans (ages_of_items_eq hparked.nodup rfl)

/-- Every call keeps the keys, and takes no revision back. -/
theorem ages_perform {contract : ApprovalContract} (timed : TimedCall) :
    Ages db (db.perform runtime contract timed) := by
  obtain ⟨now, call⟩ := timed
  cases call with
  | createMission normalized mission =>
      refine ages_orKeep hkeys fun next hcreate => ?_
      obtain ⟨-, authorities, -, rfl⟩ := createMission_eq_ok hcreate
      exact ages_of_items_eq hkeys rfl
  | createMissionWithItems normalized mission items =>
      exact ages_orKeep hkeys fun next => ages_createMissionWithItems hkeys
  | importLegacyMissionWithItems normalized mission items =>
      exact ages_orKeep hkeys fun next => ages_createMissionWithItems hkeys
  | enqueueItem item => exact ages_orKeep hkeys fun next => ages_enqueueItem hkeys
  | enqueueItems items => exact ages_orKeep hkeys fun next => ages_enqueueItems hkeys
  | reconcileRuntimeAdmission registry itemId =>
      exact (closes_reconcileRuntimeAdmission db registry itemId).proceeds.ages hkeys
  | reconcilePendingDependencies opts =>
      exact (closes_reconcilePendingDependencies db opts).proceeds.ages hkeys
  | updateMissionStatus id status result => exact ages_of_items_eq hkeys rfl
  | parkInvalidApprovalCandidate itemId reason =>
      exact (closes_parkInvalidApprovalCandidate db itemId reason).proceeds.ages hkeys
  | parkItemForApproval itemId request => exact ages_parkItemForApproval hkeys itemId request
  | markApprovalPublished requestId => exact ages_of_items_eq hkeys rfl
  | applyApprovalDecision requestId state decision =>
      exact ages_applyApprovalDecision hkeys requestId state decision
  | acquireEngineLease ownerId ttlMs leaseToken =>
      exact ages_of_items_eq hkeys (items_acquireEngineLease ownerId ttlMs leaseToken)
  | renewEngineLease lease ttlMs => exact ages_of_items_eq hkeys (items_renewEngineLease lease ttlMs)
  | releaseEngineLease lease => exact ages_of_items_eq hkeys (items_releaseEngineLease lease)
  | claimItem id attempt fence engineLease =>
      exact (proceeds_claimItemWithAuthority db id attempt fence engineLease).ages hkeys
  | settleClaimedItem claim status result engineLease =>
      exact (proceeds_settleClaimedItem db claim status result engineLease).ages hkeys
  | backfillLegacyTerminalResult id expectedRevision status result =>
      change Ages db (db.backfillLegacyTerminalResult now id expectedRevision status result).1
      unfold MissionDb.backfillLegacyTerminalResult
      split
      · exact ages_of_items_eq hkeys rfl
      · exact ages_updateItems hkeys fun row _ => ⟨rfl, .inr (Nat.lt_succ_self _)⟩
  | recover lease => exact ages_recover hkeys lease

end Call

end Deckent.Mission
