import Deckent.Proof.MissionOperation

/-!
# Claims happen once

A claimed item is spent: it is not pending, and its policy wants no approval or the approval is allowed.
Every call keeps it so, and only a pending item can be claimed. The same holds for an item that recovery
parks, but for one whose trigger keeps it from ever being claimed.
-/

namespace Deckent.Mission

variable {runtime : JsonRuntime} {contract : ApprovalContract} {now : Int} {db next : MissionDb}
  {id : String} {row : WorkItemRow}

/-! ### What a claim finds -/

structure Claimable (db : MissionDb) (id : String) (row : WorkItemRow) : Prop where
  id : row.id = id
  pending : row.status = .pending
  live : db.missionIsLive row.missionId = true
  policy : db.policyAllows row = true
  dependencies : ∀ dependency ∈ db.dependsOn row, db.isDone row.missionId dependency = true

theorem isDone_of_dependencySatisfied (hsatisfied : db.dependencySatisfied row = true)
    {dependency : String} (hdependency : dependency ∈ db.dependsOn row) :
    db.isDone row.missionId dependency = true := by
  unfold MissionDb.dependencySatisfied at hsatisfied
  unfold MissionDb.dependsOn at hdependency
  cases hauthority : db.authority? row.missionId with
  | none =>
      simp only [hauthority] at hsatisfied hdependency
      exact List.all_eq_true.mp hsatisfied dependency hdependency
  | some authority =>
      simp only [hauthority, Bool.and_eq_true] at hsatisfied hdependency
      unfold MissionDb.normalizedDependencies at hdependency
      rw [mem_sortBy] at hdependency
      obtain ⟨edge, hedge, rfl⟩ := List.mem_map.mp hdependency
      exact List.all_eq_true.mp hsatisfied.2 edge hedge

theorem claimable_of_isClaimable {itemRevision : Nat} {kinds : List WorkItemKind}
    (hclaimable : db.isClaimable id itemRevision kinds row = true) : Claimable db id row := by
  simp only [MissionDb.isClaimable, Bool.and_eq_true, decide_eq_true_eq] at hclaimable
  obtain ⟨⟨⟨⟨⟨⟨hid, hpending⟩, -⟩, -⟩, hlive⟩, hpolicy⟩, hsatisfied⟩ := hclaimable
  exact ⟨hid, hpending, hlive, hpolicy, fun _ => isDone_of_dependencySatisfied hsatisfied⟩

theorem allowed_of_policyAllows (hallows : db.policyAllows row = true) (hpolicy : row.policy ≠ .auto) :
    Allowed db row.id := by
  unfold MissionDb.policyAllows at hallows
  simpa [hpolicy, Allowed] using hallows

theorem Sound.approval_unique (hsound : Sound db) {approval other : ApprovalRow}
    (happroval : approval ∈ db.approvals) (hother : other ∈ db.approvals)
    (hitem : approval.workItemId = other.workItemId) : approval = other :=
  List.inj_on_of_nodup_map hsound.nodup_approvals happroval hother hitem

theorem not_awaitsApproval_of_policyAllows (hsound : Sound db) (hrow : row ∈ db.items)
    (hallows : db.policyAllows row = true) : ¬ db.AwaitsApproval row.id := by
  rintro ⟨approval, happroval, hitem, hpending⟩
  obtain ⟨other, hother, hid, hpolicy⟩ := hsound.wantsApproval approval happroval
  obtain rfl := hsound.row_unique hother hrow (hid.trans hitem)
  obtain ⟨allowed, hmem, hallowedItem, hallowed⟩ := allowed_of_policyAllows hallows hpolicy
  obtain rfl := hsound.approval_unique happroval hmem (hitem.trans hallowedItem.symm)
  rw [hpending] at hallowed
  cases hallowed

structure Claimed (row successor : WorkItemRow) : Prop where
  same : SameItem row successor
  running : successor.status = .running

theorem claimed_claimed (row : WorkItemRow) (attempt : ClaimAttempt) :
    Claimed row (row.claimed now attempt) :=
  ⟨⟨rfl, rfl, rfl, rfl, rfl⟩, rfl⟩

theorem claimed_claimedUnder (row : WorkItemRow) (attempt : ClaimAttempt)
    (fence : WorkItemAdmissionFence) : Claimed row (row.claimedUnder now attempt fence) :=
  ⟨⟨rfl, rfl, rfl, rfl, rfl⟩, rfl⟩

structure ClaimUpdate (db : MissionDb) (id : String) (answer : Option MissionDispatchClaim)
    (next : MissionDb) : Prop where
  keeps : Sound db → Keeps db next
  claimed : Sound db → answer ≠ none → ∃ row ∈ db.items, Claimable db id row ∧ Spent next id

theorem claimUpdate_none (db : MissionDb) (id : String) : ClaimUpdate db id none db :=
  ⟨.refl, fun _ hanswer => absurd rfl hanswer⟩

theorem claimUpdate_takeClaim {selects : WorkItemRow → Bool} {set : WorkItemRow → WorkItemRow}
    (hselects : ∀ row, selects row = true → Claimable db id row) (hset : ∀ row, Claimed row (set row))
    (claim : MissionDispatchClaim) :
    ClaimUpdate db id (db.takeClaim selects set claim).1 (db.takeClaim selects set claim).2 := by
  have hnext : (db.takeClaim selects set claim).2 = db.updateItems selects set := by
    unfold MissionDb.takeClaim
    split <;> rfl
  rw [hnext]
  constructor
  · intro hsound
    refine keeps_updateItems hsound fun row hrow hselected => ?_
    have hclaimable := hselects row hselected
    refine ⟨(hset row).same, ?_, ?_, ?_⟩
    · intro hterminal
      rw [hclaimable.pending] at hterminal
      cases hterminal
    · intro hpending
      rw [(hset row).running] at hpending
      cases hpending
    · intro _
      exact .inr ⟨hclaimable.pending,
        not_awaitsApproval_of_policyAllows hsound hrow hclaimable.policy⟩
  · intro hsound hanswer
    have hchanges : db.changes selects = 1 := by
      by_contra hchanges
      simp [MissionDb.takeClaim, hchanges] at hanswer
    obtain ⟨row, hrow, hselected⟩ := exists_of_changes_eq_one hchanges
    have hclaimable := hselects row hselected
    refine ⟨row, hrow, hclaimable, set row, ?_, (hset row).same.id.trans hclaimable.id, ?_, ?_⟩
    · exact List.mem_map.mpr ⟨row, hrow, if_pos hselected⟩
    · rw [(hset row).running]
      simp
    · rw [← hclaimable.id]
      change ¬ db.AwaitsApproval row.id
      exact not_awaitsApproval_of_policyAllows hsound hrow hclaimable.policy

theorem claimUpdate_claimPlain (db : MissionDb) (id : String) (attempt : ClaimAttempt)
    (engineHolds : Bool) :
    ClaimUpdate db id (db.claimPlain now id attempt engineHolds).1
      (db.claimPlain now id attempt engineHolds).2 := by
  unfold MissionDb.claimPlain
  split
  · exact claimUpdate_none db id
  · refine claimUpdate_takeClaim (fun row hselected => ?_) (fun row => claimed_claimed row attempt) _
    rw [Bool.and_eq_true] at hselected
    exact claimable_of_isClaimable hselected.1

theorem claimUpdate_claimUnder {attempt : ClaimAttempt} {fence : MissionClaimFence} {engineHolds : Bool}
    {answer : Option MissionDispatchClaim}
    (hclaim : db.claimUnder runtime now id attempt fence engineHolds = .ok (answer, next)) :
    ClaimUpdate db id answer next := by
  have hrefused (hnone : Except.ok (none, db) = (Except.ok (answer, next) : Except String _)) :
      ClaimUpdate db id answer next := by
    obtain ⟨rfl, rfl⟩ := Prod.mk.inj (Except.ok.inj hnone)
    exact claimUpdate_none db id
  unfold MissionDb.claimUnder at hclaim
  split at hclaim
  · exact hrefused hclaim
  · simp only at hclaim
    split at hclaim
    · exact hrefused hclaim
    · obtain ⟨rejection, -, hclaim⟩ := bind_eq_ok.mp hclaim
      split at hclaim
      · exact hrefused hclaim
      · obtain ⟨kinds, -, hclaim⟩ := bind_eq_ok.mp hclaim
        split at hclaim
        · exact hrefused hclaim
        · have htake := Except.ok.inj hclaim
          obtain ⟨rfl, rfl⟩ : _ ∧ _ := ⟨congrArg Prod.fst htake, congrArg Prod.snd htake⟩
          refine claimUpdate_takeClaim (fun row hselected => ?_)
            (fun row => claimed_claimedUnder row attempt _) _
          simp only [Bool.and_eq_true] at hselected
          exact claimable_of_isClaimable hselected.1.1

/-! ### A claim from its beginning -/

theorem claimBody_eq_ok {attempt : ClaimAttempt} {fence : Option MissionClaimFence}
    {engineLease : Option MissionEngineLease} {answer : Option MissionDispatchClaim}
    (hclaim : db.claimBody runtime now id attempt fence engineLease = .ok (answer, next)) :
    ∃ middle, Closes db middle ∧ ClaimUpdate middle id answer next
      ∧ (answer ≠ none → ∀ row ∈ middle.items, row.id = id → row.status = .pending →
        classifyPersistedTrigger row.trigger = .oneOff) := by
  unfold MissionDb.claimBody at hclaim
  split at hclaim
  · obtain ⟨rfl, rfl⟩ := Prod.mk.inj (Except.ok.inj hclaim)
    exact ⟨db, .refl db, claimUpdate_none db id, fun hanswer => absurd rfl hanswer⟩
  · split at hclaim
    · next fence =>
        have hcloses : Closes db (db.reconcileRuntimeAdmission runtime now fence.registry (some id)).1 :=
          closes_reconcileRuntimeAdmission db fence.registry (some id)
        split at hclaim
        · cases hclaim
        · next middle hreconcile =>
            rw [hreconcile] at hcloses
            refine ⟨middle, hcloses, claimUpdate_claimUnder hclaim, fun _ row hrow hid hpending => ?_⟩
            unfold MissionDb.reconcileRuntimeAdmission at hreconcile
            simp only at hreconcile
            split at hreconcile
            · obtain ⟨rfl, -⟩ := Prod.mk.inj hreconcile
              exact oneOff_of_reconcileNonExecutableTriggers hrow (by simpa [WorkItemRow.concerns])
                hpending
            · cases (Prod.mk.inj hreconcile).2
    · have hanswer := Except.ok.inj hclaim
      obtain ⟨rfl, rfl⟩ : _ ∧ _ := ⟨congrArg Prod.fst hanswer, congrArg Prod.snd hanswer⟩
      refine ⟨_, closes_quarantine db (some id), claimUpdate_claimPlain _ id attempt _,
        fun _ row hrow hid hpending => ?_⟩
      exact oneOff_of_reconcileNonExecutableTriggers hrow (by simpa [WorkItemRow.concerns]) hpending

theorem Closes.claimable {middle : MissionDb} (hcloses : Closes db middle)
    (hclaimable : Claimable middle id row) : Claimable db id row where
  id := hclaimable.id
  pending := hclaimable.pending
  live := by
    have hlive := hclaimable.live
    unfold MissionDb.missionIsLive at hlive ⊢
    rwa [hcloses.missions] at hlive
  policy := by
    have hpolicy := hclaimable.policy
    unfold MissionDb.policyAllows at hpolicy ⊢
    rwa [hcloses.approvals] at hpolicy
  dependencies := by
    intro dependency hdependency
    rw [← hcloses.graph.dependsOn (.refl row)] at hdependency
    exact hcloses.isDone (hclaimable.dependencies dependency hdependency)

/-- The call claims the item. -/
def Claims (runtime : JsonRuntime) (db : MissionDb) (timed : TimedCall) (id : String) : Prop :=
  ∃ attempt fence engineLease claim, timed.call = .claimItem id attempt fence engineLease
    ∧ (db.claimItemWithAuthority runtime timed.now id attempt fence engineLease).2 = .ok (some claim)

theorem transaction_eq_ok {α : Type} {body : Except String (α × MissionDb)} {answer : α}
    (hok : (transaction db body).2 = .ok answer) : body = .ok (answer, (transaction db body).1) := by
  cases body with
  | error error => cases hok
  | ok result =>
      obtain ⟨answer, next⟩ := result
      obtain rfl := Except.ok.inj hok
      rfl

theorem exists_claimable_of_claims (contract : ApprovalContract) (hsound : Sound db) {timed : TimedCall}
    (hclaims : Claims runtime db timed id) :
    ∃ row ∈ db.items, Claimable db id row ∧ classifyPersistedTrigger row.trigger = .oneOff
      ∧ Spent (db.perform runtime contract timed) id := by
  obtain ⟨attempt, fence, engineLease, claim, hcall, hanswer⟩ := hclaims
  have hperform : db.perform runtime contract timed
      = (db.claimItemWithAuthority runtime timed.now id attempt fence engineLease).1 := by
    unfold MissionDb.perform
    rw [hcall]
  rw [hperform]
  unfold MissionDb.claimItemWithAuthority at hanswer ⊢
  split at hanswer
  · cases hanswer
  · next hby =>
      rw [if_neg hby]
      obtain ⟨middle, hcloses, hupdate, honeOff⟩ := claimBody_eq_ok (transaction_eq_ok hanswer)
      have hmiddle := (hcloses.keeps hsound).sound
      obtain ⟨row, hrow, hclaimable, hspent⟩ := hupdate.claimed hmiddle (by simp)
      exact ⟨row, hcloses.mem_of_pending hrow hclaimable.pending, hcloses.claimable hclaimable,
        honeOff (by simp) row hrow hclaimable.id hclaimable.pending, hspent⟩

/-! ### Every call keeps the tables -/

theorem keeps_claimItemWithAuthority (hsound : Sound db) (id : String) (attempt : ClaimAttempt)
    (fence : Option MissionClaimFence) (engineLease : Option MissionEngineLease) :
    Keeps db (db.claimItemWithAuthority runtime now id attempt fence engineLease).1 := by
  unfold MissionDb.claimItemWithAuthority
  split
  · exact .refl hsound
  · refine keeps_transaction hsound fun answer next hbody => ?_
    obtain ⟨middle, hcloses, hupdate, -⟩ := claimBody_eq_ok hbody
    have hkeeps := hcloses.keeps hsound
    exact hkeeps.trans (hupdate.keeps hkeeps.sound)

theorem keeps_updateFence (hsound : Sound db) {adoption : PlanAdoption}
    (hupdate : db.updateFence id adoption = .ok next) : Keeps db next := by
  unfold MissionDb.updateFence at hupdate
  simp only at hupdate
  split at hupdate
  · obtain rfl := Except.ok.inj hupdate
    exact keeps_of_items_eq hsound rfl ⟨rfl, rfl⟩ rfl (approvalsSucceed_of_eq hsound rfl)
  · cases hupdate

theorem keeps_settleWith (hsound : Sound db) {claim : MissionDispatchClaim} {status : SettlementStatus}
    {result : Option Json} {adoption : Option PlanAdoption} {engineHolds answer : Bool}
    (hsettle : db.settleWith now claim status result adoption engineHolds = .ok (answer, next)) :
    Keeps db next := by
  have hsettled : Keeps db (db.updateItems (fun row => row.holds claim && engineHolds) fun row =>
      row.settled now status (adoption.map (·.spec)) result) := by
    refine keeps_updateItems hsound fun row _ hselected => ?_
    simp only [WorkItemRow.holds, Bool.and_eq_true, decide_eq_true_eq] at hselected
    have hrunning : row.status = .running := hselected.1.1.1.1.1.1.2
    refine ⟨⟨rfl, rfl, rfl, rfl, rfl⟩, ?_, ?_, ?_⟩
    · intro hterminal
      rw [hrunning] at hterminal
      cases hterminal
    · intro hpending
      change status.status = .pending at hpending
      cases status <;> cases hpending
    · intro _
      exact .inl hrunning
  unfold MissionDb.settleWith at hsettle
  simp only at hsettle
  split at hsettle
  · obtain ⟨-, rfl⟩ := Prod.mk.inj (Except.ok.inj hsettle)
    exact hsettled
  · split at hsettle
    · obtain ⟨-, rfl⟩ := Prod.mk.inj (Except.ok.inj hsettle)
      exact hsettled
    · obtain ⟨fenced, hfence, hresult⟩ := exceptMap_eq_ok.mp hsettle
      obtain ⟨-, rfl⟩ := Prod.mk.inj hresult
      exact hsettled.trans (keeps_updateFence hsettled.sound hfence)

theorem keeps_settleClaimedItem (hsound : Sound db) (claim : MissionDispatchClaim)
    (status : SettlementStatus) (result : Option Json) (engineLease : Option MissionEngineLease) :
    Keeps db (db.settleClaimedItem runtime now claim status result engineLease).1 := by
  unfold MissionDb.settleClaimedItem
  split
  · exact .refl hsound
  · refine keeps_transaction hsound fun answer next hbody => ?_
    have hrefused (hnone : Except.ok (false, db) = (Except.ok (answer, next) : Except String _)) :
        Keeps db next := by
      obtain ⟨-, rfl⟩ := Prod.mk.inj (Except.ok.inj hnone)
      exact .refl hsound
    unfold MissionDb.settleBody at hbody
    split at hbody
    · exact hrefused hbody
    · split at hbody
      · exact keeps_settleWith hsound hbody
      · split at hbody
        · exact hrefused hbody
        · exact keeps_settleWith hsound hbody

theorem keeps_backfillLegacyTerminalResult (hsound : Sound db) (id : String) (expectedRevision : Nat)
    (status : LegacyTerminalStatus) (result : Json) :
    Keeps db (db.backfillLegacyTerminalResult now id expectedRevision status result).1 := by
  unfold MissionDb.backfillLegacyTerminalResult
  split
  · exact .refl hsound
  · exact keeps_updateItems hsound fun row _ _ =>
      ⟨⟨rfl, rfl, rfl, rfl, rfl⟩, fun _ => rfl, .inl, .inl⟩

theorem closes_parkRunning (db : MissionDb) : Closes db (db.parkRunning runtime now) := by
  refine (closes_quarantine db none).trans (closes_updateItems fun row _ hselects => ?_)
  simp only [decide_eq_true_eq] at hselects
  exact closed_closed (by rw [hselects]; rfl) (.inr (.inr rfl)) _ now

theorem recoverBody_eq_ok {lease : MissionEngineLease} {answer : List RecoveredDispatchAttempt}
    (hrecover : db.recoverBody runtime now lease = .ok (answer, next)) :
    next = { db.parkRunning runtime now with recoveries := answer } := by
  unfold MissionDb.recoverBody at hrecover
  split at hrecover
  · cases hrecover
  · obtain ⟨recoveries, -, hrecover⟩ := bind_eq_ok.mp hrecover
    split at hrecover
    · cases hrecover
    · obtain ⟨rfl, rfl⟩ := Prod.mk.inj (Except.ok.inj hrecover)
      rfl

theorem keeps_recover (hsound : Sound db) (lease : MissionEngineLease) :
    Keeps db (db.recover runtime now lease).1 := by
  refine keeps_transaction hsound fun answer next hbody => ?_
  obtain rfl := recoverBody_eq_ok hbody
  have hparked : Keeps db (db.parkRunning runtime now) := (closes_parkRunning db).keeps hsound
  exact hparked.trans (keeps_of_items_eq hparked.sound rfl ⟨rfl, rfl⟩ rfl
    (approvalsSucceed_of_eq hparked.sound rfl))

theorem keeps_orKeep (hsound : Sound db) {body : Except String MissionDb}
    (hbody : ∀ next, body = .ok next → Keeps db next) : Keeps db (db.orKeep body) := by
  cases body with
  | error error => exact .refl hsound
  | ok next => exact hbody next rfl

theorem keeps_engineLease (hsound : Sound db) (engineLease : Option EngineLeaseRow) :
    Keeps db { db with engineLease := engineLease } :=
  keeps_of_items_eq hsound rfl ⟨rfl, rfl⟩ rfl (approvalsSucceed_of_eq hsound rfl)

theorem keeps_acquireEngineLease (hsound : Sound db) (ownerId : String) (ttlMs : JsNumber)
    (leaseToken : String) : Keeps db (db.acquireEngineLease now ownerId ttlMs leaseToken).1 := by
  unfold MissionDb.acquireEngineLease
  split
  · exact .refl hsound
  · split
    · exact .refl hsound
    · split
      · exact .refl hsound
      · split
        · exact .refl hsound
        · exact keeps_engineLease hsound _

theorem keeps_renewEngineLease (hsound : Sound db) (lease : MissionEngineLease) (ttlMs : JsNumber) :
    Keeps db (db.renewEngineLease now lease ttlMs).1 := by
  unfold MissionDb.renewEngineLease
  split
  · exact .refl hsound
  · split
    · exact .refl hsound
    · split
      · exact .refl hsound
      · split
        · exact keeps_engineLease hsound _
        · exact .refl hsound

theorem keeps_releaseEngineLease (hsound : Sound db) (lease : MissionEngineLease) :
    Keeps db (db.releaseEngineLease lease).1 := by
  unfold MissionDb.releaseEngineLease
  split
  · exact keeps_engineLease hsound _
  · exact .refl hsound

/-- The items that the call creates have no initial status. -/
def TimedCall.createsPending (timed : TimedCall) : Prop :=
  match timed.call with
  | .createMissionWithItems _ _ items => ∀ item ∈ items, item.initialStatus = none
  | .importLegacyMissionWithItems _ _ items => ∀ item ∈ items, item.initialStatus = none
  | _ => True

theorem keeps_perform (hsound : Sound db) {timed : TimedCall} (hpending : timed.createsPending) :
    Keeps db (db.perform runtime contract timed) := by
  obtain ⟨now, call⟩ := timed
  cases call with
  | createMission normalized mission =>
      exact keeps_orKeep hsound fun next => keeps_createMission hsound
  | createMissionWithItems normalized mission items =>
      exact keeps_orKeep hsound fun next => keeps_createMissionWithItems hsound hpending
  | importLegacyMissionWithItems normalized mission items =>
      exact keeps_orKeep hsound fun next => keeps_createMissionWithItems hsound hpending
  | enqueueItem item => exact keeps_orKeep hsound fun next => keeps_enqueueItem hsound
  | enqueueItems items => exact keeps_orKeep hsound fun next => keeps_enqueueItems hsound
  | reconcileRuntimeAdmission registry itemId =>
      exact (closes_reconcileRuntimeAdmission db registry itemId).keeps hsound
  | reconcilePendingDependencies opts =>
      exact (closes_reconcilePendingDependencies db opts).keeps hsound
  | updateMissionStatus id status result => exact keeps_updateMissionStatus hsound id status result
  | parkInvalidApprovalCandidate itemId reason =>
      exact (closes_parkInvalidApprovalCandidate db itemId reason).keeps hsound
  | parkItemForApproval itemId request => exact keeps_parkItemForApproval hsound itemId request
  | markApprovalPublished requestId => exact keeps_markApprovalPublished hsound requestId
  | applyApprovalDecision requestId state decision =>
      exact keeps_applyApprovalDecision hsound requestId state decision
  | acquireEngineLease ownerId ttlMs leaseToken =>
      exact keeps_acquireEngineLease hsound ownerId ttlMs leaseToken
  | renewEngineLease lease ttlMs => exact keeps_renewEngineLease hsound lease ttlMs
  | releaseEngineLease lease => exact keeps_releaseEngineLease hsound lease
  | claimItem id attempt fence engineLease =>
      exact keeps_claimItemWithAuthority hsound id attempt fence engineLease
  | settleClaimedItem claim status result engineLease =>
      exact keeps_settleClaimedItem hsound claim status result engineLease
  | backfillLegacyTerminalResult id expectedRevision status result =>
      exact keeps_backfillLegacyTerminalResult hsound id expectedRevision status result
  | recover lease => exact keeps_recover hsound lease

/-! ### Recovery -/

theorem mem_quarantine {successor : WorkItemRow} {itemId : Option String}
    (hsuccessor : successor ∈ (db.quarantine runtime now itemId).items) :
    ∃ row ∈ db.items, row.id = successor.id ∧ (successor = row ∨ successor.status = .failed
      ∨ classifyPersistedTrigger successor.trigger ≠ .oneOff) := by
  unfold MissionDb.quarantine MissionDb.reconcileNonExecutableTriggers MissionDb.updateItems
    at hsuccessor
  obtain ⟨middle, hmiddle, hset⟩ := List.mem_map.mp hsuccessor
  unfold MissionDb.reconcileUnsupportedKinds MissionDb.updateItems at hmiddle
  obtain ⟨row, hrow, hfirst⟩ := List.mem_map.mp hmiddle
  have hmiddle : middle.id = row.id ∧ (middle = row ∨ middle.status = .failed) := by
    rw [← hfirst]
    split
    · exact ⟨rfl, .inr rfl⟩
    · exact ⟨rfl, .inl rfl⟩
  refine ⟨row, hrow, ?_⟩
  split at hset
  · cases hquarantine : triggerQuarantine runtime middle with
    | none =>
        simp only [hquarantine] at hset
        subst hset
        exact ⟨hmiddle.1.symm, hmiddle.2.imp_right .inl⟩
    | some entry =>
        obtain ⟨status, result⟩ := entry
        simp only [hquarantine] at hset
        subst hset
        exact ⟨hmiddle.1.symm, .inr (.inr (triggerQuarantine_eq_some hquarantine).2)⟩
  · subst hset
    exact ⟨hmiddle.1.symm, hmiddle.2.imp_right .inl⟩

def ParkedBetween (db next : MissionDb) (id : String) : Prop :=
  ∃ row ∈ db.items, ∃ successor ∈ next.items, row.id = id ∧ successor.id = id
    ∧ successor.revision ≠ row.revision ∧ successor.status = .parked

def Barred (db : MissionDb) (id : String) : Prop :=
  Spent db id ∨ ∃ row ∈ db.items, row.id = id ∧ classifyPersistedTrigger row.trigger ≠ .oneOff

theorem Keeps.barred (hkeeps : Keeps db next) (hbarred : Barred db id) : Barred next id := by
  obtain hspent | ⟨row, hrow, rfl, htrigger⟩ := hbarred
  · exact .inl (hkeeps.spent id hspent)
  · obtain ⟨successor, hsuccessor, hsame, -⟩ := hkeeps.row row hrow
    exact .inr ⟨successor, hsuccessor, hsame.id, hsame.trigger ▸ htrigger⟩

theorem not_claims_of_barred (hsound : Sound db) {timed : TimedCall} (hbarred : Barred db id) :
    ¬ Claims runtime db timed id := by
  intro hclaims
  obtain ⟨row, hrow, hclaimable, htrigger, -⟩ :=
    exists_claimable_of_claims ⟨fun _ => true, fun _ => true⟩ hsound hclaims
  obtain ⟨other, hother, hid, hstatus, -⟩ | ⟨other, hother, hid, hbarred⟩ := hbarred
  · obtain rfl := hsound.row_unique hother hrow (hid.trans hclaimable.id.symm)
    exact hstatus hclaimable.pending
  · obtain rfl := hsound.row_unique hother hrow (hid.trans hclaimable.id.symm)
    exact hbarred htrigger

/-- What recovery parks is barred. -/
theorem barred_of_recover (hsound : Sound db) {lease : MissionEngineLease}
    (hparked : ParkedBetween db (db.recover runtime now lease).1 id) :
    Barred (db.recover runtime now lease).1 id := by
  obtain ⟨row, hrow, successor, hsuccessor, hid, hsuccessorId, hrevision, hstatus⟩ := hparked
  have hunchanged (hmem : successor ∈ db.items) : False :=
    hrevision (hsound.row_unique hmem hrow (hsuccessorId.trans hid.symm) ▸ rfl)
  unfold MissionDb.recover at hsuccessor ⊢
  cases hbody : db.recoverBody runtime now lease with
  | error error =>
      rw [hbody] at hsuccessor
      exact (hunchanged hsuccessor).elim
  | ok result =>
      obtain ⟨answer, next⟩ := result
      obtain rfl := recoverBody_eq_ok hbody
      rw [hbody] at hsuccessor
      change successor ∈ (db.parkRunning runtime now).items at hsuccessor
      have hmem := hsuccessor
      unfold MissionDb.parkRunning MissionDb.updateItems at hmem
      obtain ⟨middle, hmiddle, hset⟩ := List.mem_map.mp hmem
      obtain ⟨earlier, hearlier, hearlierId, horigin⟩ := mem_quarantine hmiddle
      by_cases hrunning : middle.status = .running
      · rw [if_pos (by simpa using hrunning)] at hset
        obtain rfl | hfailed | htrigger := horigin
        · -- the row was running, so no request waits for a decision
          left
          have hfree := hsound.running middle hearlier hrunning
          have hmiddleId : middle.id = id := by
            rw [← hsuccessorId, ← hset]
            rfl
          rw [hmiddleId] at hfree
          refine ⟨successor, hsuccessor, hsuccessorId, by rw [hstatus]; simp, ?_⟩
          have happrovals : (db.parkRunning runtime now).approvals = db.approvals :=
            (closes_parkRunning db).approvals
          unfold MissionDb.AwaitsApproval at hfree ⊢
          rwa [transaction, happrovals]
        · rw [hrunning] at hfailed
          cases hfailed
        · right
          refine ⟨successor, hsuccessor, hsuccessorId, ?_⟩
          rw [← hset]
          exact htrigger
      · rw [if_neg (by simpa using hrunning)] at hset
        subst hset
        obtain rfl | hfailed | htrigger := horigin
        · exact (hunchanged hearlier).elim
        · rw [hstatus] at hfailed
          cases hfailed
        · exact .inr ⟨middle, hsuccessor, hsuccessorId, htrigger⟩

/-! ### Runs -/

section Run

variable {before after calls : List TimedCall}

theorem tablesAfter_append (before after : List TimedCall) :
    tablesAfter runtime contract (before ++ after)
      = after.foldl (MissionDb.perform runtime contract) (tablesAfter runtime contract before) :=
  List.foldl_append

theorem tablesAfter_concat (calls : List TimedCall) (timed : TimedCall) :
    tablesAfter runtime contract (calls ++ [timed])
      = (tablesAfter runtime contract calls).perform runtime contract timed :=
  tablesAfter_append calls [timed]

theorem keeps_foldl (hsound : Sound db) (hpending : ∀ timed ∈ calls, timed.createsPending) :
    Keeps db (calls.foldl (MissionDb.perform runtime contract) db) := by
  induction calls generalizing db with
  | nil => exact .refl hsound
  | cons timed rest ih =>
      have hfirst : Keeps db (db.perform runtime contract timed) :=
        keeps_perform hsound (hpending timed List.mem_cons_self)
      exact hfirst.trans (ih hfirst.sound fun other hother => hpending other
        (List.mem_cons_of_mem _ hother))

theorem sound_tablesAfter (hpending : ∀ timed ∈ calls, timed.createsPending) :
    Sound (tablesAfter runtime contract calls) :=
  (keeps_foldl sound_empty hpending).sound

theorem keeps_tablesAfter (hpending : ∀ timed ∈ before ++ after, timed.createsPending) :
    Keeps (tablesAfter runtime contract before) (tablesAfter runtime contract (before ++ after)) := by
  rw [tablesAfter_append]
  exact keeps_foldl (sound_tablesAfter fun timed htimed => hpending timed (List.mem_append_left _ htimed))
    fun timed htimed => hpending timed (List.mem_append_right _ htimed)

theorem isDone_of_keeps (hkeeps : Keeps db next) {missionId dependency : String}
    (hdone : db.isDone missionId dependency = true) : next.isDone missionId dependency = true := by
  unfold MissionDb.isDone at hdone ⊢
  obtain ⟨row, hrow, hmatches⟩ := List.any_eq_true.mp hdone
  simp only [Bool.and_eq_true, decide_eq_true_eq] at hmatches
  obtain ⟨⟨hid, hmission⟩, hstatus⟩ := hmatches
  obtain ⟨successor, hsuccessor, hsame, hterminal, -⟩ := hkeeps.row row hrow
  refine List.any_eq_true.mpr ⟨successor, hsuccessor, ?_⟩
  have hkept : successor.status = .done := (hterminal (by rw [hstatus]; rfl)).trans hstatus
  simp [hsame.id, hsame.missionId, hid, hmission, hkept]

/-! ### The contract of a run -/

variable (runtime contract)

/-- What a run owes to the items that it claims. -/
structure DispatchContract (calls : List TimedCall) : Prop where
  /-- No item is claimed twice. -/
  once : ∀ before call between again after id, calls = before ++ call :: between ++ again :: after →
    Claims runtime (tablesAfter runtime contract before) call id →
    ¬ Claims runtime (tablesAfter runtime contract (before ++ call :: between)) again id
  /-- An item that is done, failed or blocked stays so. -/
  absorbing : ∀ before after, calls = before ++ after →
    ∀ row ∈ (tablesAfter runtime contract before).items, row.status.isTerminal = true →
    ∃ later ∈ (tablesAfter runtime contract calls).items, later.id = row.id ∧ later.status = row.status
  /-- A claimed item has been ready, and stays ready to the end of the run. -/
  ready : ∀ before call after id, calls = before ++ call :: after →
    Claims runtime (tablesAfter runtime contract before) call id →
    ∃ row ∈ (tablesAfter runtime contract before).items, row.id = id
      ∧ (tablesAfter runtime contract before).missionIsLive row.missionId = true
      ∧ (∀ dependency ∈ (tablesAfter runtime contract before).dependsOn row,
        (tablesAfter runtime contract before).isDone row.missionId dependency = true)
      ∧ ∃ later ∈ (tablesAfter runtime contract calls).items, later.id = id
        ∧ later.missionId = row.missionId ∧ later.policy = row.policy
        ∧ (tablesAfter runtime contract calls).dependsOn later
          = (tablesAfter runtime contract before).dependsOn row
        ∧ (∀ dependency ∈ (tablesAfter runtime contract calls).dependsOn later,
          (tablesAfter runtime contract calls).isDone later.missionId dependency = true)
        ∧ (row.policy ≠ .auto → Allowed (tablesAfter runtime contract before) id
          ∧ Allowed (tablesAfter runtime contract calls) id)
  /-- An item has one approval at most, so that an allowed one is its only one. -/
  approval : ∀ approval ∈ (tablesAfter runtime contract calls).approvals,
    ∀ other ∈ (tablesAfter runtime contract calls).approvals,
      approval.workItemId = other.workItemId → approval = other
  /-- An item that recovery parks is never claimed again. -/
  recovered : ∀ before now lease between again after id,
    calls = before ++ ⟨now, .recover lease⟩ :: between ++ again :: after →
    ParkedBetween (tablesAfter runtime contract before)
      (tablesAfter runtime contract (before ++ [⟨now, .recover lease⟩])) id →
    ¬ Claims runtime (tablesAfter runtime contract (before ++ ⟨now, .recover lease⟩ :: between)) again id

variable {runtime contract}

theorem not_claims_of_barred_after {call again : TimedCall} {between : List TimedCall}
    (hpending : ∀ timed ∈ before ++ call :: between, timed.createsPending)
    (hbarred : Barred (tablesAfter runtime contract (before ++ [call])) id) :
    ¬ Claims runtime (tablesAfter runtime contract (before ++ call :: between)) again id := by
  have hsplit : before ++ call :: between = (before ++ [call]) ++ between := by simp
  rw [hsplit] at hpending ⊢
  have hkeeps : Keeps (tablesAfter runtime contract (before ++ [call]))
      (tablesAfter runtime contract ((before ++ [call]) ++ between)) := keeps_tablesAfter hpending
  exact not_claims_of_barred hkeeps.sound (hkeeps.barred hbarred)

/-- In a run whose items are created without a status, each item is claimed at most once, and only when
it is ready. -/
theorem mission_atMostOnce (calls : List TimedCall) (hpending : ∀ timed ∈ calls, timed.createsPending) :
    DispatchContract runtime contract calls := by
  constructor
  case once =>
    rintro before call between again after id rfl hclaims
    have hearlier : ∀ timed ∈ before ++ call :: between, timed.createsPending :=
      fun timed htimed => hpending timed (List.mem_append_left _ htimed)
    have hsound : Sound (tablesAfter runtime contract before) :=
      sound_tablesAfter fun timed htimed => hearlier timed (List.mem_append_left _ htimed)
    obtain ⟨row, -, -, -, hspent⟩ := exists_claimable_of_claims contract hsound hclaims
    rw [← tablesAfter_concat] at hspent
    exact not_claims_of_barred_after hearlier (.inl hspent)
  case absorbing =>
    rintro before after rfl row hrow hterminal
    obtain ⟨later, hlater, hsame, hstatus, -⟩ := (keeps_tablesAfter hpending).row row hrow
    exact ⟨later, hlater, hsame.id, hstatus hterminal⟩
  case ready =>
    rintro before call after id rfl hclaims
    have hkeeps : Keeps (tablesAfter runtime contract before)
      (tablesAfter runtime contract (before ++ call :: after)) := keeps_tablesAfter hpending
    have hsound : Sound (tablesAfter runtime contract before) :=
      sound_tablesAfter fun timed htimed => hpending timed (List.mem_append_left _ htimed)
    obtain ⟨row, hrow, hclaimable, -⟩ := exists_claimable_of_claims contract hsound hclaims
    obtain ⟨later, hlater, hsame, -, hdeps⟩ := hkeeps.row row hrow
    refine ⟨row, hrow, hclaimable.id, hclaimable.live, hclaimable.dependencies, later, hlater,
      hsame.id.trans hclaimable.id, hsame.missionId, hsame.policy, hdeps, ?_, ?_⟩
    · intro dependency hdependency
      rw [hdeps] at hdependency
      rw [hsame.missionId]
      exact isDone_of_keeps hkeeps (hclaimable.dependencies dependency hdependency)
    · intro hpolicy
      have hallowed := allowed_of_policyAllows hclaimable.policy hpolicy
      rw [hclaimable.id] at hallowed
      exact ⟨hallowed, hkeeps.allowed id hallowed⟩
  case approval =>
    intro approval happroval other hother
    exact (sound_tablesAfter hpending).approval_unique happroval hother
  case recovered =>
    rintro before now lease between again after id rfl hparked
    have hearlier : ∀ timed ∈ before ++ ⟨now, .recover lease⟩ :: between, timed.createsPending :=
      fun timed htimed => hpending timed (List.mem_append_left _ htimed)
    have hsound : Sound (tablesAfter runtime contract before) :=
      sound_tablesAfter fun timed htimed => hearlier timed (List.mem_append_left _ htimed)
    refine not_claims_of_barred_after hearlier ?_
    rw [tablesAfter_concat] at hparked ⊢
    exact barred_of_recover hsound hparked

end Run

/-! ### A run -/

def sampleRuntime : JsonRuntime := ⟨fun _ => "", fun _ _ => 0⟩

def sampleContract : ApprovalContract := ⟨fun _ => true, fun _ => true⟩

def sampleMission : NewMission :=
  ⟨"m", .goal, none, "title", none, none, none, none, none⟩

def sampleItem : NewMissionWorkItem :=
  ⟨⟨"a", "m", .task, none, none, none, none, none, none⟩, none, none⟩

def sampleClaim : TimedCall := ⟨1, .claimItem "a" ⟨"engine", "attempt", "token"⟩ none none⟩

def sampleCalls : List TimedCall :=
  [⟨0, .createMissionWithItems false sampleMission [sampleItem]⟩, sampleClaim, sampleClaim]

/-- The first claim succeeds, and hence the second does not. -/
theorem mission_atMostOnce_sample :
    Claims sampleRuntime (tablesAfter sampleRuntime sampleContract (sampleCalls.take 1)) sampleClaim "a"
      ∧ ¬ Claims sampleRuntime (tablesAfter sampleRuntime sampleContract (sampleCalls.take 2))
        sampleClaim "a" := by
  have hfirst : Claims sampleRuntime
      (tablesAfter sampleRuntime sampleContract (sampleCalls.take 1)) sampleClaim "a" :=
    ⟨⟨"engine", "attempt", "token"⟩, none, none, _, rfl, rfl⟩
  have hrun : DispatchContract sampleRuntime sampleContract sampleCalls := by
    refine mission_atMostOnce sampleCalls fun timed htimed => ?_
    simp only [sampleCalls, List.mem_cons, List.not_mem_nil, or_false] at htimed
    obtain rfl | rfl | rfl := htimed
    · simp [TimedCall.createsPending, sampleItem]
    · trivial
    · trivial
  exact ⟨hfirst, hrun.once (sampleCalls.take 1) sampleClaim [] sampleClaim [] "a" rfl hfirst⟩

end Deckent.Mission
