import Deckent.Model.MissionLifecycle
import Deckent.Proof.MissionProgress

/-!
# What stays of a work item

Between the creation of a mission and its end the rows are rewritten in place. Every call leaves the definition
of each item as it is, but for a settlement that adopts an exact plan. That one writes the spec of the settled
item and the digest of its fence together.
-/

namespace Deckent.Mission

variable {runtime : JsonRuntime} {contract : ApprovalContract} {now : Int} {db next last : MissionDb}

/-! ### Definitions -/

structure SameDefinition (row successor : WorkItemRow) : Prop where
  same : SameItem row successor
  kind : successor.kind = row.kind
  spec : successor.spec = row.spec
  renderAs : successor.renderAs = row.renderAs

theorem SameDefinition.refl (row : WorkItemRow) : SameDefinition row row := ⟨.refl row, rfl, rfl, rfl⟩

theorem SameDefinition.trans {row successor later : WorkItemRow} (hfirst : SameDefinition row successor)
    (hsecond : SameDefinition successor later) : SameDefinition row later where
  same := hfirst.same.trans hsecond.same
  kind := hsecond.kind.trans hfirst.kind
  spec := hsecond.spec.trans hfirst.spec
  renderAs := hsecond.renderAs.trans hfirst.renderAs

theorem Closed.sameDefinition {row successor : WorkItemRow} (hclosed : Closed row successor) :
    SameDefinition row successor :=
  ⟨hclosed.same, hclosed.kind, hclosed.spec, hclosed.renderAs⟩

/-- The members of a mission that a replay compares, with its key. -/
def MissionRow.created (mission : MissionRow) : String × Json := (mission.id, mission.creationJson)

structure KeepsDefinitions (db next : MissionDb) : Prop where
  items : ∃ set, next.items = db.items.map set ∧ ∀ row ∈ db.items, SameDefinition row (set row)
  graph : SameGraph db next
  missions : next.missions.map (·.created) = db.missions.map (·.created)
  fences : next.fences = db.fences

theorem keepsDefinitions_of_items_eq (hitems : next.items = db.items) (hgraph : SameGraph db next)
    (hmissions : next.missions = db.missions) (hfences : next.fences = db.fences) :
    KeepsDefinitions db next :=
  ⟨⟨id, by simpa using hitems, fun row _ => .refl row⟩, hgraph, by rw [hmissions], hfences⟩

theorem KeepsDefinitions.refl (db : MissionDb) : KeepsDefinitions db db :=
  keepsDefinitions_of_items_eq rfl (.refl db) rfl rfl

theorem KeepsDefinitions.trans (hfirst : KeepsDefinitions db next) (hsecond : KeepsDefinitions next last) :
    KeepsDefinitions db last := by
  obtain ⟨first, hitems, hrows⟩ := hfirst.items
  obtain ⟨second, hitems', hrows'⟩ := hsecond.items
  refine ⟨⟨second ∘ first, by rw [hitems', hitems, List.map_map], fun row hrow => ?_⟩, ?_,
    hsecond.missions.trans hfirst.missions, hsecond.fences.trans hfirst.fences⟩
  · have hmiddle : first row ∈ next.items := by
      rw [hitems]
      exact List.mem_map_of_mem hrow
    exact (hrows row hrow).trans (hrows' (first row) hmiddle)
  · exact ⟨hsecond.graph.authorities.trans hfirst.graph.authorities,
      hsecond.graph.edges.trans hfirst.graph.edges⟩

theorem Closes.keepsDefinitions (hcloses : Closes db next) : KeepsDefinitions db next := by
  obtain ⟨set, hitems, hrows⟩ := hcloses.rows
  refine ⟨⟨set, hitems, fun row hrow => ?_⟩, hcloses.graph, by rw [hcloses.missions], hcloses.fences⟩
  obtain hsame | hclosed := hrows row hrow
  · rw [hsame]
    exact .refl row
  · exact hclosed.sameDefinition

theorem keepsDefinitions_updateItems {selects : WorkItemRow → Bool} {set : WorkItemRow → WorkItemRow}
    (hset : ∀ row, SameDefinition row (set row)) : KeepsDefinitions db (db.updateItems selects set) := by
  refine ⟨⟨_, rfl, fun row _ => ?_⟩, ⟨rfl, rfl⟩, rfl, rfl⟩
  split
  · exact hset row
  · exact .refl row

theorem keepsDefinitions_transaction {α : Type} {body : Except String (α × MissionDb)}
    (hbody : ∀ answer next, body = .ok (answer, next) → KeepsDefinitions db next) :
    KeepsDefinitions db (transaction db body).1 := by
  cases body with
  | error error => exact .refl db
  | ok result => exact hbody result.1 result.2 rfl

/-! ### Missions and approvals -/

theorem keepsDefinitions_updateMissionStatus (id : String) (status : MissionStatus)
    (result : Option Json) : KeepsDefinitions db (db.updateMissionStatus now id status result) := by
  refine ⟨⟨fun row => row, by simp [MissionDb.updateMissionStatus], fun row _ => .refl row⟩, ⟨rfl, rfl⟩,
    ?_, rfl⟩
  unfold MissionDb.updateMissionStatus
  rw [List.map_map]
  refine List.map_congr_left fun mission _ => ?_
  simp only [Function.comp_apply]
  split <;> rfl

theorem keepsDefinitions_parkItemForApproval (itemId : String) (request : ApprovalRequest) :
    KeepsDefinitions db (db.parkItemForApproval runtime contract now itemId request).1 := by
  have hquarantine : Closes db (db.quarantine runtime now (some itemId)) := closes_quarantine db _
  refine hquarantine.keepsDefinitions.trans (keepsDefinitions_transaction fun answer next hbody => ?_)
  have hbind := mapError_eq_ok.mp hbody
  have hparked : Closes (db.quarantine runtime now (some itemId))
      ((db.quarantine runtime now (some itemId)).parkCandidate now itemId none) :=
    closes_parkCandidate _ itemId none
  unfold MissionDb.bindApproval at hbind
  split at hbind
  · obtain ⟨binding, -, hbind⟩ := bind_eq_ok.mp hbind
    split at hbind
    · cases hbind
    · obtain ⟨-, rfl⟩ := Prod.mk.inj (Except.ok.inj hbind)
      exact .refl _
  · split at hbind
    · obtain ⟨-, rfl⟩ := Prod.mk.inj (Except.ok.inj hbind)
      exact hparked.keepsDefinitions
    · obtain ⟨inserted, hinsert, hbind⟩ := bind_eq_ok.mp hbind
      obtain ⟨binding, -, hbind⟩ := bind_eq_ok.mp hbind
      obtain ⟨-, rfl⟩ := Prod.mk.inj (Except.ok.inj hbind)
      obtain ⟨-, -, rfl⟩ := insertApproval_eq_ok hinsert
      exact hparked.keepsDefinitions.trans (keepsDefinitions_of_items_eq rfl ⟨rfl, rfl⟩ rfl rfl)

theorem sameDefinition_closed (row : WorkItemRow) (status : WorkItemStatus) (result : Option Json) :
    SameDefinition row (row.closed status result now) := ⟨⟨rfl, rfl, rfl, rfl, rfl⟩, rfl, rfl, rfl⟩

theorem keepsDefinitions_applyApprovalDecision (requestId : String) (state : SettledApproval)
    (decision : ApprovalDecision) :
    KeepsDefinitions db (db.applyApprovalDecision runtime contract now requestId state decision).1 := by
  unfold MissionDb.applyApprovalDecision
  split
  · exact .refl db
  · refine keepsDefinitions_transaction fun answer next hdecide => ?_
    unfold MissionDb.decideApproval at hdecide
    split at hdecide
    · obtain ⟨-, rfl⟩ := Prod.mk.inj (Except.ok.inj hdecide)
      exact .refl db
    · obtain ⟨binding, -, hsettle⟩ := bind_eq_ok.mp hdecide
      split at hsettle
      · obtain ⟨-, rfl⟩ := Prod.mk.inj (Except.ok.inj hsettle)
        have hclosed : KeepsDefinitions db (db.updateItems (·.awaitsDecision binding.workItemId) fun item =>
            item.closed state.itemStatus (state.itemResult requestId decision) now) :=
          keepsDefinitions_updateItems fun row => sameDefinition_closed row _ _
        exact hclosed.trans (keepsDefinitions_of_items_eq rfl ⟨rfl, rfl⟩ rfl rfl)
      · split at hsettle
        · cases hsettle
        · obtain ⟨-, rfl⟩ := Prod.mk.inj (Except.ok.inj hsettle)
          exact .refl db

/-! ### The lease of the engine -/

theorem keepsDefinitions_engineLease (engineLease : Option EngineLeaseRow) :
    KeepsDefinitions db { db with engineLease := engineLease } :=
  keepsDefinitions_of_items_eq rfl ⟨rfl, rfl⟩ rfl rfl

theorem keepsDefinitions_acquireEngineLease (ownerId : String) (ttlMs : JsNumber) (leaseToken : String) :
    KeepsDefinitions db (db.acquireEngineLease now ownerId ttlMs leaseToken).1 := by
  unfold MissionDb.acquireEngineLease
  split
  · exact .refl db
  · split
    · exact .refl db
    · split
      · exact .refl db
      · split
        · exact .refl db
        · exact keepsDefinitions_engineLease _

theorem keepsDefinitions_renewEngineLease (lease : MissionEngineLease) (ttlMs : JsNumber) :
    KeepsDefinitions db (db.renewEngineLease now lease ttlMs).1 := by
  unfold MissionDb.renewEngineLease
  split
  · exact .refl db
  · split
    · exact .refl db
    · split
      · exact .refl db
      · split
        · exact keepsDefinitions_engineLease _
        · exact .refl db

theorem keepsDefinitions_releaseEngineLease (lease : MissionEngineLease) :
    KeepsDefinitions db (db.releaseEngineLease lease).1 := by
  unfold MissionDb.releaseEngineLease
  split
  · exact keepsDefinitions_engineLease _
  · exact .refl db

/-! ### Claims -/

theorem sameDefinition_claimed (row : WorkItemRow) (attempt : ClaimAttempt) :
    SameDefinition row (row.claimed now attempt) := ⟨⟨rfl, rfl, rfl, rfl, rfl⟩, rfl, rfl, rfl⟩

theorem sameDefinition_claimedUnder (row : WorkItemRow) (attempt : ClaimAttempt)
    (fence : WorkItemAdmissionFence) : SameDefinition row (row.claimedUnder now attempt fence) :=
  ⟨⟨rfl, rfl, rfl, rfl, rfl⟩, rfl, rfl, rfl⟩

theorem keepsDefinitions_takeClaim {selects : WorkItemRow → Bool} {set : WorkItemRow → WorkItemRow}
    (hset : ∀ row, SameDefinition row (set row)) (claim : MissionDispatchClaim) :
    KeepsDefinitions db (db.takeClaim selects set claim).2 := by
  unfold MissionDb.takeClaim
  split
  · exact keepsDefinitions_updateItems hset
  · exact keepsDefinitions_updateItems hset

theorem keepsDefinitions_claimUnder {id : String} {attempt : ClaimAttempt} {fence : MissionClaimFence}
    {engineHolds : Bool} {answer : Option MissionDispatchClaim}
    (hclaim : db.claimUnder runtime now id attempt fence engineHolds = .ok (answer, next)) :
    KeepsDefinitions db next := by
  have hrefused (hnone : Except.ok (none, db) = (Except.ok (answer, next) : Except String _)) :
      KeepsDefinitions db next := by
    obtain ⟨-, rfl⟩ := Prod.mk.inj (Except.ok.inj hnone)
    exact .refl db
  unfold MissionDb.claimUnder at hclaim
  split at hclaim
  · exact hrefused hclaim
  · simp only at hclaim
    split at hclaim
    · exact hrefused hclaim
    · obtain ⟨rejection, -, hclaim⟩ := bind_eq_ok.mp hclaim
      split at hclaim
      · exact hrefused hclaim
      · obtain ⟨kinds, -, hclaim⟩ := bind_eq_ok.mp hclaim
        split at hclaim
        · exact hrefused hclaim
        · obtain rfl := congrArg Prod.snd (Except.ok.inj hclaim)
          exact keepsDefinitions_takeClaim (fun row => sameDefinition_claimedUnder row attempt _) _

theorem keepsDefinitions_claimItemWithAuthority (id : String) (attempt : ClaimAttempt)
    (fence : Option MissionClaimFence) (engineLease : Option MissionEngineLease) :
    KeepsDefinitions db (db.claimItemWithAuthority runtime now id attempt fence engineLease).1 := by
  unfold MissionDb.claimItemWithAuthority
  split
  · exact .refl db
  · refine keepsDefinitions_transaction fun answer next hclaim => ?_
    unfold MissionDb.claimBody at hclaim
    split at hclaim
    · obtain ⟨-, rfl⟩ := Prod.mk.inj (Except.ok.inj hclaim)
      exact .refl db
    · split at hclaim
      · next fence =>
          have hcloses : Closes db (db.reconcileRuntimeAdmission runtime now fence.registry (some id)).1 :=
            closes_reconcileRuntimeAdmission db fence.registry (some id)
          split at hclaim
          · cases hclaim
          · next middle hreconcile =>
              rw [hreconcile] at hcloses
              exact hcloses.keepsDefinitions.trans (keepsDefinitions_claimUnder hclaim)
      · obtain rfl := congrArg Prod.snd (Except.ok.inj hclaim)
        have hquarantine : Closes db (db.quarantine runtime now (some id)) := closes_quarantine db _
        refine hquarantine.keepsDefinitions.trans ?_
        unfold MissionDb.claimPlain
        split
        · exact .refl _
        · exact keepsDefinitions_takeClaim (fun row => sameDefinition_claimed row attempt) _

/-! ### Settlements -/

def FenceRow.adopting (id : String) (adoption : PlanAdoption) (row : FenceRow) : FenceRow :=
  if row.workItemId = id ∧ row.fence = adoption.priorFence then
    { row with fence := { row.fence with itemDefinitionDigest := adoption.definitionDigest } }
  else row

/-- The settlement adopts a plan: the rows that hold the claim get the spec, and the fence gets the digest. -/
structure Adopts (runtime : JsonRuntime) (db : MissionDb) (claim : MissionDispatchClaim)
    (result : Option Json) (adoption : PlanAdoption) (next : MissionDb) : Prop where
  brought : ∃ ref, specMember result "exactPlanRef" = some ref
    ∧ db.adoption? runtime claim ref = some adoption
  found : ∃ row ∈ db.items, row.holds claim = true
  items : ∃ set : WorkItemRow → WorkItemRow, next.items = db.items.map set
    ∧ (∀ row ∈ db.items, row.holds claim = true →
      SameDefinition { row with spec := some adoption.spec } (set row))
    ∧ ∀ row ∈ db.items, row.holds claim = false → set row = row
  graph : SameGraph db next
  missions : next.missions = db.missions
  fences : next.fences = db.fences.map (·.adopting claim.workItemId adoption)

theorem updateFence_eq_ok {id : String} {adoption : PlanAdoption}
    (hupdate : db.updateFence id adoption = .ok next) :
    next = { db with fences := db.fences.map (·.adopting id adoption) } := by
  unfold MissionDb.updateFence at hupdate
  simp only at hupdate
  split at hupdate
  · obtain rfl := Except.ok.inj hupdate
    simp [FenceRow.adopting]
  · cases hupdate

theorem keepsDefinitions_settleWith {claim : MissionDispatchClaim} {status : SettlementStatus}
    {result : Option Json} {engineHolds answer : Bool}
    (hsettle : db.settleWith now claim status result none engineHolds = .ok (answer, next)) :
    KeepsDefinitions db next := by
  have hsettled : KeepsDefinitions db (db.updateItems (fun row => row.holds claim && engineHolds) fun row =>
      row.settled now status none result) :=
    keepsDefinitions_updateItems fun row => ⟨⟨rfl, rfl, rfl, rfl, rfl⟩, rfl, rfl, rfl⟩
  unfold MissionDb.settleWith at hsettle
  simp only at hsettle
  split at hsettle
  · obtain ⟨-, rfl⟩ := Prod.mk.inj (Except.ok.inj hsettle)
    exact hsettled
  · obtain ⟨-, rfl⟩ := Prod.mk.inj (Except.ok.inj hsettle)
    exact hsettled

theorem adopts_settleWith {claim : MissionDispatchClaim} {status : SettlementStatus}
    {result : Option Json} {adoption : PlanAdoption} {engineHolds answer : Bool} {ref : Json}
    (hkeys : (db.items.map (·.id)).Nodup) (hresult : specMember result "exactPlanRef" = some ref)
    (hadoption : db.adoption? runtime claim ref = some adoption)
    (hsettle : db.settleWith now claim status result (some adoption) engineHolds = .ok (answer, next)) :
    KeepsDefinitions db next ∨ answer = true ∧ Adopts runtime db claim result adoption next := by
  unfold MissionDb.settleWith at hsettle
  simp only at hsettle
  split at hsettle
  · next hchanges =>
      left
      obtain ⟨-, rfl⟩ := Prod.mk.inj (Except.ok.inj hsettle)
      have hid : ∀ row : WorkItemRow, (row.holds claim && engineHolds) = true → row.id = claim.workItemId := by
        intro row hselected
        simp only [WorkItemRow.holds, Bool.and_eq_true, decide_eq_true_eq] at hselected
        exact hselected.1.1.1.1.1.1.1.1
      have hle : db.changes (fun row => row.holds claim && engineHolds) ≤ 1 := changes_le_one hkeys hid
      have hnone : ∀ row ∈ db.items, ¬ (row.holds claim && engineHolds) = true := by
        have hzero : db.changes (fun row => row.holds claim && engineHolds) = 0 := by omega
        exact List.filter_eq_nil_iff.mp (List.length_eq_zero_iff.mp hzero)
      refine ⟨⟨_, rfl, fun row hrow => ?_⟩, ⟨rfl, rfl⟩, rfl, rfl⟩
      rw [if_neg (hnone row hrow)]
      exact .refl row
  · next hchanges =>
      right
      obtain ⟨fenced, hfence, hnext⟩ := exceptMap_eq_ok.mp hsettle
      obtain ⟨rfl, rfl⟩ := Prod.mk.inj hnext
      obtain rfl := updateFence_eq_ok hfence
      obtain ⟨found, hfound, hselected⟩ := exists_of_changes_eq_one (not_not.mp hchanges)
      rw [Bool.and_eq_true] at hselected
      obtain ⟨hholds, rfl⟩ := hselected
      refine ⟨rfl, ⟨ref, hresult, hadoption⟩, ⟨found, hfound, hholds⟩, ⟨_, rfl, ?_, ?_⟩, ⟨rfl, rfl⟩, rfl,
        rfl⟩
      · intro row _ hrow
        rw [if_pos (by simpa using hrow)]
        exact ⟨⟨rfl, rfl, rfl, rfl, rfl⟩, rfl, rfl, rfl⟩
      · intro row _ hrow
        rw [if_neg (by simpa using hrow)]

theorem settleClaimedItem_cases (runtime : JsonRuntime) (now : Int)
    (hkeys : (db.items.map (·.id)).Nodup) (claim : MissionDispatchClaim)
    (status : SettlementStatus) (result : Option Json) (engineLease : Option MissionEngineLease) :
    KeepsDefinitions db (db.settleClaimedItem runtime now claim status result engineLease).1
      ∨ (db.settleClaimedItem runtime now claim status result engineLease).2 = .ok true
        ∧ ∃ adoption, Adopts runtime db claim result adoption
          (db.settleClaimedItem runtime now claim status result engineLease).1 := by
  unfold MissionDb.settleClaimedItem
  split
  · exact .inl (.refl db)
  · cases hbody : db.settleBody runtime now claim status result engineLease with
    | error error => exact .inl (.refl db)
    | ok settled =>
        obtain ⟨answer, next⟩ := settled
        change KeepsDefinitions db next ∨ Except.ok answer = (Except.ok true : Except String Bool)
          ∧ ∃ adoption, Adopts runtime db claim result adoption next
        have hrefused (hnone : Except.ok (false, db) = (Except.ok (answer, next) : Except String _)) :
            KeepsDefinitions db next := by
          obtain ⟨-, rfl⟩ := Prod.mk.inj (Except.ok.inj hnone)
          exact .refl db
        unfold MissionDb.settleBody at hbody
        split at hbody
        · exact .inl (hrefused hbody)
        · split at hbody
          · exact .inl (keepsDefinitions_settleWith hbody)
          · next ref hresult =>
              split at hbody
              · exact .inl (hrefused hbody)
              · next adoption hadoption =>
                  obtain hkeeps | ⟨rfl, hadopts⟩ := adopts_settleWith hkeys hresult hadoption hbody
                  · exact .inl hkeeps
                  · exact .inr ⟨rfl, adoption, hadopts⟩

theorem keepsDefinitions_recover (lease : MissionEngineLease) :
    KeepsDefinitions db (db.recover runtime now lease).1 := by
  refine keepsDefinitions_transaction fun answer next hrecover => ?_
  obtain rfl := recoverBody_eq_ok hrecover
  have hparked : KeepsDefinitions db (db.parkRunning runtime now) := (closes_parkRunning db).keepsDefinitions
  exact hparked.trans (keepsDefinitions_of_items_eq rfl ⟨rfl, rfl⟩ rfl rfl)

theorem keepsDefinitions_backfillLegacyTerminalResult (id : String) (expectedRevision : Nat)
    (status : LegacyTerminalStatus) (result : Json) :
    KeepsDefinitions db (db.backfillLegacyTerminalResult now id expectedRevision status result).1 := by
  unfold MissionDb.backfillLegacyTerminalResult
  split
  · exact .refl db
  · exact keepsDefinitions_updateItems fun row => ⟨⟨rfl, rfl, rfl, rfl, rfl⟩, rfl, rfl, rfl⟩

/-! ### The calls of a mission's life -/

/-- What a call of a mission's life can do to a definition: nothing, but for the adoption of a plan. -/
theorem perform_cases (hkeys : (db.items.map (·.id)).Nodup) {call : MissionCall}
    (hlifecycle : call.isLifecycle = true) :
    KeepsDefinitions db (db.perform runtime contract ⟨now, call⟩)
      ∨ ∃ claim status result engineLease adoption,
        call = .settleClaimedItem claim status result engineLease
          ∧ (db.settleClaimedItem runtime now claim status result engineLease).2 = .ok true
          ∧ Adopts runtime db claim result adoption (db.perform runtime contract ⟨now, call⟩) := by
  cases call with
  | createMission normalized mission => cases hlifecycle
  | createMissionWithItems normalized mission items => cases hlifecycle
  | importLegacyMissionWithItems normalized mission items => cases hlifecycle
  | enqueueItem item => cases hlifecycle
  | enqueueItems items => cases hlifecycle
  | reconcileRuntimeAdmission registry itemId =>
      exact .inl (closes_reconcileRuntimeAdmission db registry itemId).keepsDefinitions
  | reconcilePendingDependencies opts =>
      exact .inl (closes_reconcilePendingDependencies db opts).keepsDefinitions
  | updateMissionStatus id status result =>
      exact .inl (keepsDefinitions_updateMissionStatus id status result)
  | parkInvalidApprovalCandidate itemId reason =>
      exact .inl (closes_parkInvalidApprovalCandidate db itemId reason).keepsDefinitions
  | parkItemForApproval itemId request => exact .inl (keepsDefinitions_parkItemForApproval itemId request)
  | markApprovalPublished requestId =>
      exact .inl (keepsDefinitions_of_items_eq rfl ⟨rfl, rfl⟩ rfl rfl)
  | applyApprovalDecision requestId state decision =>
      exact .inl (keepsDefinitions_applyApprovalDecision requestId state decision)
  | acquireEngineLease ownerId ttlMs leaseToken =>
      exact .inl (keepsDefinitions_acquireEngineLease ownerId ttlMs leaseToken)
  | renewEngineLease lease ttlMs => exact .inl (keepsDefinitions_renewEngineLease lease ttlMs)
  | releaseEngineLease lease => exact .inl (keepsDefinitions_releaseEngineLease lease)
  | claimItem id attempt fence engineLease =>
      exact .inl (keepsDefinitions_claimItemWithAuthority id attempt fence engineLease)
  | settleClaimedItem claim status result engineLease =>
      obtain hkeeps | ⟨hanswer, adoption, hadopts⟩ :=
        settleClaimedItem_cases runtime now hkeys claim status result engineLease
      · exact .inl hkeeps
      · exact .inr ⟨claim, status, result, engineLease, adoption, rfl, hanswer, hadopts⟩
  | backfillLegacyTerminalResult id expectedRevision status result =>
      exact .inl (keepsDefinitions_backfillLegacyTerminalResult id expectedRevision status result)
  | recover lease => exact .inl (keepsDefinitions_recover lease)

end Deckent.Mission
