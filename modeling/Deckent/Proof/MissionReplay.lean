import Deckent.Proof.MissionBatch

/-!
# A mission is created again

A replay of a creation is told from a conflict by what the rows say now. Two of the members that are compared
are written after the creation: the progress of the mission, and the spec of a sprint that adopts an exact plan.
The replay is accepted as long as neither is written with another value.
-/

namespace Deckent.Mission

variable {runtime : JsonRuntime} {contract : ApprovalContract} {now : Int} {db next last : MissionDb}
  {missionId : String}

/-! ### What a replay compares -/

section Compared

variable (runtime)

/-- The members of an item that a replay compares, with its id. -/
def WorkItemDefinition.created (item : WorkItemDefinition) : String × Json :=
  (item.id, item.creationJson.normalize runtime)

def MissionDb.createdItems (db : MissionDb) (missionId : String) : List (String × Json) :=
  (db.items.filter (·.missionId = missionId)).map fun row => (db.definitionOf row).created runtime

def MissionDb.createdMission (db : MissionDb) (missionId : String) : Option Json :=
  (db.mission? missionId).map (·.creationJson.normalize runtime)

structure SameCreation (missionId : String) (db next : MissionDb) : Prop where
  items : next.createdItems runtime missionId = db.createdItems runtime missionId
  mission : next.createdMission runtime missionId = db.createdMission runtime missionId

end Compared

theorem SameCreation.refl (db : MissionDb) : SameCreation runtime missionId db db := ⟨rfl, rfl⟩

theorem SameCreation.trans (hfirst : SameCreation runtime missionId db next)
    (hsecond : SameCreation runtime missionId next last) : SameCreation runtime missionId db last :=
  ⟨hsecond.items.trans hfirst.items, hsecond.mission.trans hfirst.mission⟩

theorem normalizeItems_eq_map (items : List Json) :
    normalizeItems runtime items = items.map (·.normalize runtime) := by
  induction items with
  | nil => rw [normalizeItems, List.map_nil]
  | cons item rest ih => rw [normalizeItems, ih, List.map_cons]

theorem normalize_creationJsons (items : List WorkItemDefinition) :
    (creationJsons runtime items).normalize runtime
      = .array ((sortBy (fun left right => runtime.localeCompare left.1 right.1)
        (items.map (·.created runtime))).map Prod.snd) := by
  rw [creationJsons, Json.normalize, normalizeItems_eq_map, sortBy_map, List.map_map, List.map_map]
  rfl

theorem SameCreation.matchesBatch {mission : NewMission} {items : List NewMissionWorkItem}
    (hsame : SameCreation runtime mission.id db next) {existing kept : MissionRow} {later : Int}
    (hexisting : db.mission? mission.id = some existing) (hkept : next.mission? mission.id = some kept) :
    next.matchesBatch runtime later kept mission items = db.matchesBatch runtime now existing mission items := by
  have hmission : kept.creationJson.normalize runtime = existing.creationJson.normalize runtime := by
    have hcreated := hsame.mission
    unfold MissionDb.createdMission at hcreated
    rw [hexisting, hkept] at hcreated
    exact Option.some.inj hcreated
  have hitems : (creationJsons runtime
      ((next.items.filter (·.missionId = mission.id)).map next.definitionOf)).normalize runtime
        = (creationJsons runtime
          ((db.items.filter (·.missionId = mission.id)).map db.definitionOf)).normalize runtime := by
    have hcreated := hsame.items
    unfold MissionDb.createdItems at hcreated
    rw [normalize_creationJsons, normalize_creationJsons, List.map_map, List.map_map]
    exact congrArg (fun created => Json.array ((sortBy _ created).map Prod.snd)) hcreated
  unfold MissionDb.matchesBatch canonicalJson
  rw [hmission, hitems]
  rfl

/-! ### What a call leaves of a creation -/

theorem mission?_map_creationJson (missionId : String) :
    (db.mission? missionId).map (·.creationJson)
      = ((db.missions.map (·.created)).find? (·.1 = missionId)).map Prod.snd := by
  unfold MissionDb.mission?
  rw [List.find?_map, Option.map_map]
  rfl

theorem definitionOf_of_sameDefinition (hgraph : SameGraph db next) {row successor : WorkItemRow}
    (hsame : SameDefinition row successor) : next.definitionOf successor = db.definitionOf row := by
  unfold MissionDb.definitionOf
  rw [hsame.same.id, hsame.same.missionId, hsame.kind, hsame.spec, hsame.same.policy, hsame.renderAs,
    hgraph.dependsOn hsame.same, hsame.same.trigger]

theorem createdItems_of_map {set : WorkItemRow → WorkItemRow} (hitems : next.items = db.items.map set)
    (hmission : ∀ row ∈ db.items, (set row).missionId = row.missionId)
    (hcreated : ∀ row ∈ db.items, row.missionId = missionId →
      (next.definitionOf (set row)).created runtime = (db.definitionOf row).created runtime) :
    next.createdItems runtime missionId = db.createdItems runtime missionId := by
  unfold MissionDb.createdItems
  rw [hitems, List.filter_map, List.map_map]
  have hfilter : db.items.filter ((fun row : WorkItemRow => decide (row.missionId = missionId)) ∘ set)
      = db.items.filter (·.missionId = missionId) := by
    refine List.filter_congr fun row hrow => ?_
    rw [Function.comp_apply, hmission row hrow]
  rw [hfilter]
  refine List.map_congr_left fun row hrow => ?_
  obtain ⟨hrow, hid⟩ := List.mem_filter.mp hrow
  exact hcreated row hrow (by simpa using hid)

theorem KeepsDefinitions.sameCreation (hkeeps : KeepsDefinitions db next) :
    SameCreation runtime missionId db next := by
  obtain ⟨set, hitems, hset⟩ := hkeeps.items
  constructor
  · refine createdItems_of_map hitems (fun row hrow => (hset row hrow).same.missionId) fun row hrow _ => ?_
    rw [definitionOf_of_sameDefinition hkeeps.graph (hset row hrow)]
  · have hmission : (next.mission? missionId).map (·.creationJson)
        = (db.mission? missionId).map (·.creationJson) := by
      rw [mission?_map_creationJson, mission?_map_creationJson, hkeeps.missions]
    have hnormal := congrArg (Option.map (·.normalize runtime)) hmission
    rwa [Option.map_map, Option.map_map] at hnormal

theorem created_of_spec {item : WorkItemDefinition} {spec : Option Json}
    (hspec : (spec.getD .null).normalize runtime = (item.spec.getD .null).normalize runtime) :
    ({ item with spec := spec } : WorkItemDefinition).created runtime = item.created runtime := by
  unfold WorkItemDefinition.created WorkItemDefinition.creationJson
  simp only [Json.normalize, normalizeMembers, hspec]

theorem Adopts.sameCreation {claim : MissionDispatchClaim} {result : Option Json} {adoption : PlanAdoption}
    (hadopts : Adopts runtime db claim result adoption next)
    (hspec : claim.missionId = missionId → ∀ row ∈ db.items, row.holds claim = true →
      adoption.spec.normalize runtime = (row.spec.getD .null).normalize runtime) :
    SameCreation runtime missionId db next := by
  obtain ⟨set, hitems, hheld, hother⟩ := hadopts.items
  constructor
  · refine createdItems_of_map hitems (fun row hrow => ?_) fun row hrow hid => ?_
    · cases hholds : row.holds claim with
      | true => exact (hheld row hrow hholds).same.missionId
      | false => rw [hother row hrow hholds]
    · cases hholds : row.holds claim with
      | true =>
          rw [definitionOf_of_sameDefinition hadopts.graph (hheld row hrow hholds)]
          have hclaim : claim.missionId = missionId := by
            simp only [WorkItemRow.holds, Bool.and_eq_true, decide_eq_true_eq] at hholds
            rw [← hid]
            exact hholds.1.1.1.1.1.1.2.symm
          have hkept : ((some adoption.spec).getD .null).normalize runtime
              = ((db.definitionOf row).spec.getD .null).normalize runtime := hspec hclaim row hrow hholds
          exact created_of_spec hkept
      | false =>
          rw [hother row hrow hholds, definitionOf_of_sameDefinition hadopts.graph (.refl row)]
  · unfold MissionDb.createdMission MissionDb.mission?
    rw [hadopts.missions]

theorem sameCreation_setMissionProgress {id : String} {progress : Json}
    (hprogress : ∀ mission, id = missionId → db.mission? id = some mission →
      progress.normalize runtime = (mission.progress.getD .null).normalize runtime) :
    SameCreation runtime missionId db (db.setMissionProgress now id progress) := by
  refine ⟨rfl, ?_⟩
  unfold MissionDb.createdMission MissionDb.mission? MissionDb.setMissionProgress
  rw [List.find?_map]
  have hsame : ((fun mission : MissionRow => decide (mission.id = missionId)) ∘ fun mission : MissionRow =>
      if mission.id = id then { mission with progress := some progress, updatedAt := now } else mission)
        = fun mission : MissionRow => decide (mission.id = missionId) := by
    funext mission
    simp only [Function.comp_apply]
    split <;> rfl
  rw [hsame, Option.map_map]
  cases hmission : db.missions.find? (·.id = missionId) with
  | none => rfl
  | some mission =>
      have hid : mission.id = missionId := by simpa using List.find?_some hmission
      rw [Option.map_some, Option.map_some, Option.some.injEq, Function.comp_apply]
      split
      · next heq =>
          have hkept := hprogress mission (heq.symm.trans hid) (by rw [← heq, hid]; exact hmission)
          unfold MissionRow.creationJson
          simp only [Json.normalize, normalizeMembers, Option.getD_some, hkept]
      · rfl

/-! ### Runs -/

def TimedStoreCall.keepsCreation (runtime : JsonRuntime) (missionId : String) (db : MissionDb)
    (timed : TimedStoreCall) : Prop :=
  match timed.call with
  | .setMissionProgress id progress => ∀ mission, id = missionId → db.mission? id = some mission →
      progress.normalize runtime = (mission.progress.getD .null).normalize runtime
  | .mission (.settleClaimedItem claim status result engineLease) =>
      (db.settleClaimedItem runtime timed.now claim status result engineLease).2 = .ok true →
      claim.missionId = missionId → ∀ ref adoption, specMember result "exactPlanRef" = some ref →
        db.adoption? runtime claim ref = some adoption → ∀ row ∈ db.items, row.holds claim = true →
          adoption.spec.normalize runtime = (row.spec.getD .null).normalize runtime
  | _ => True

/-- Every call of the run does so in the state that it finds. -/
def KeepsCreation (runtime : JsonRuntime) (contract : ApprovalContract) (missionId : String) :
    MissionDb → List TimedStoreCall → Prop
  | _, [] => True
  | db, timed :: rest => timed.keepsCreation runtime missionId db
      ∧ KeepsCreation runtime contract missionId (db.after runtime contract timed) rest

theorem sameCreation_after (hconsistent : Consistent db) {timed : TimedStoreCall}
    (hlifecycle : timed.call.isLifecycle = true) (hkeeps : timed.keepsCreation runtime missionId db) :
    SameCreation runtime missionId db (db.after runtime contract timed) := by
  obtain ⟨now, call⟩ := timed
  cases call with
  | mission call =>
      obtain hkept | ⟨claim, status, result, engineLease, adoption, rfl, hanswer, hadopts⟩ :=
        perform_cases hconsistent.items hlifecycle
      · exact hkept.sameCreation
      · obtain ⟨ref, hresult, hadoption⟩ := hadopts.brought
        exact hadopts.sameCreation fun hclaim => hkeeps hanswer hclaim ref adoption hresult hadoption
  | setMissionProgress id progress => exact sameCreation_setMissionProgress hkeeps
  | prepareNormalizedDependencyMigration missionId => cases hlifecycle
  | activateNormalizedDependencyAuthority activation => cases hlifecycle

theorem sameCreation_afterAll (hconsistent : Consistent db) {calls : List TimedStoreCall}
    (hlifecycle : ∀ timed ∈ calls, timed.call.isLifecycle = true)
    (hkeeps : KeepsCreation runtime contract missionId db calls) :
    SameCreation runtime missionId db (db.afterAll runtime contract calls) := by
  induction calls generalizing db with
  | nil => exact .refl db
  | cons timed rest ih =>
      have hfirst : SameCreation runtime missionId db (db.after runtime contract timed) :=
        sameCreation_after hconsistent (hlifecycle timed List.mem_cons_self) hkeeps.1
      exact hfirst.trans (ih (consistent_after hconsistent timed)
        (fun other hother => hlifecycle other (List.mem_cons_of_mem _ hother)) hkeeps.2)

/-! ### Replays -/

/-- What a creation leaves matches it. -/
theorem matchesBatch_of_createBatch (hconsistent : Consistent db) {normalized : Bool} {mission : NewMission}
    {items : List NewMissionWorkItem} (hmissions : ∀ item ∈ items, item.missionId = mission.id)
    (hcreate : db.createBatch runtime now normalized mission items = .ok next) :
    ∃ existing, next.mission? mission.id = some existing
      ∧ next.matchesBatch runtime now existing mission items = true := by
  cases hmission : db.mission? mission.id with
  | some existing =>
      unfold MissionDb.createBatch at hcreate
      simp only [hmission] at hcreate
      split at hcreate
      · cases hcreate
      · split at hcreate
        · next hmatches =>
            obtain rfl := Except.ok.inj hcreate
            exact ⟨existing, hmission, hmatches⟩
        · cases hcreate
  | none =>
      have hstored := storesBatch_createBatch hconsistent hmission hmissions hcreate
      refine ⟨mission.row now, hstored.mission, ?_⟩
      have hold : db.items.filter (·.missionId = mission.id) = [] := by
        rw [List.filter_eq_nil_iff]
        intro row hrow hid
        have hmem := hconsistent.mission row hrow
        rw [decide_eq_true_eq.mp hid, ← isSome_mission?_iff, hmission] at hmem
        cases hmem
      have hnew : (items.map (·.initialRow now normalized)).filter (·.missionId = mission.id)
          = items.map (·.initialRow now normalized) := by
        rw [List.filter_eq_self]
        intro row hrow
        obtain ⟨item, hitem, rfl⟩ := List.mem_map.mp hrow
        exact decide_eq_true (hmissions item hitem)
      unfold MissionDb.matchesBatch canonicalJson
      rw [normalize_creationJsons, normalize_creationJsons, hstored.rows, List.filter_append, hold, hnew,
        List.nil_append, List.map_map, List.map_map, List.map_map, Bool.and_eq_true, decide_eq_true_eq,
        decide_eq_true_eq]
      refine ⟨rfl, ?_⟩
      have hcreated : items.map (((·.created runtime) ∘ next.definitionOf) ∘ (·.initialRow now normalized))
          = items.map ((·.created runtime) ∘ (·.definition)) := by
        refine List.map_congr_left fun item hitem => ?_
        have hagrees := hstored.definitions item hitem
        simp only [Function.comp_apply, WorkItemDefinition.created, hagrees.id, hagrees.creationJson]
      rw [hcreated]

theorem createBatch_of_matchesBatch {normalized : Bool} {mission : NewMission}
    {items : List NewMissionWorkItem} {existing : MissionRow} (hexisting : db.mission? mission.id = some existing)
    (hinitial : ∀ item ∈ items, item.initialStatus = none ∧ item.initialResult = none)
    (hmatches : db.matchesBatch runtime now existing mission items = true) :
    db.createBatch runtime now normalized mission items = .ok db := by
  have hnone : ¬ (items.any fun item => item.initialStatus.isSome || item.initialResult.isSome) = true := by
    rw [List.any_eq_true]
    rintro ⟨item, hitem, hsome⟩
    obtain ⟨hstatus, hresult⟩ := hinitial item hitem
    simp [hstatus, hresult] at hsome
  unfold MissionDb.createBatch
  simp only [hexisting]
  rw [if_neg hnone, if_pos hmatches]

section Replay

variable {mission : NewMission} {items : List NewMissionWorkItem} {normalized again : Bool} {later : Int}
  {before calls : List TimedStoreCall}

/-- As long as the calls after the creation of a mission keep what a replay compares, the creation can be called
again in any state that they reach. It finds the mission and changes nothing. -/
theorem createMissionWithItems_replayed (hinitial : ∀ item ∈ items, item.initialStatus = none)
    (hcreate : (MissionDb.empty.afterAll runtime contract before).createMissionWithItems runtime now normalized
      false mission items = .ok db)
    (hlifecycle : ∀ timed ∈ calls, timed.call.isLifecycle = true)
    (hkeeps : KeepsCreation runtime contract mission.id db calls) :
    ((db.afterAll runtime contract calls).mission? mission.id).isSome = true
      ∧ (db.afterAll runtime contract calls).createMissionWithItems runtime later again false mission items
        = .ok (db.afterAll runtime contract calls) := by
  have hbefore : Consistent (MissionDb.empty.afterAll runtime contract before) :=
    consistent_afterAll consistent_empty before
  obtain ⟨_, hcheck, hbatch⟩ := bind_eq_ok.mp hcreate
  have hbatch := mapError_eq_ok.mp hbatch
  have hitem := checkBatchItem_of_checkMissionBatch hcheck
  have hmissions : ∀ item ∈ items.map (·.normalized), item.missionId = mission.id := by
    intro item hmem
    obtain ⟨original, horiginal, rfl⟩ := List.mem_map.mp hmem
    exact (checkBatchItem_eq_ok (hitem original horiginal)).1
  have hnone : ∀ item ∈ items.map (·.normalized), item.initialStatus = none ∧ item.initialResult = none := by
    intro item hmem
    obtain ⟨original, horiginal, rfl⟩ := List.mem_map.mp hmem
    have hstatus := hinitial original horiginal
    exact ⟨hstatus, (checkBatchItem_eq_ok (hitem original horiginal)).2 hstatus⟩
  have hconsistent := consistent_createBatch hbefore hbatch
  obtain ⟨existing, hexisting, hmatches⟩ := matchesBatch_of_createBatch hbefore hmissions hbatch
  have hsame : SameCreation runtime mission.id db (db.afterAll runtime contract calls) :=
    sameCreation_afterAll hconsistent hlifecycle hkeeps
  obtain ⟨kept, hkept⟩ : ∃ kept, (db.afterAll runtime contract calls).mission? mission.id = some kept := by
    have hmission := hsame.mission
    unfold MissionDb.createdMission at hmission
    rw [hexisting] at hmission
    obtain ⟨kept, hkept, -⟩ := Option.map_eq_some_iff.mp hmission
    exact ⟨kept, hkept⟩
  have hmatches : (db.afterAll runtime contract calls).matchesBatch runtime later kept mission
      (items.map (·.normalized)) = true := (hsame.matchesBatch hexisting hkept).trans hmatches
  have hreplay : (db.afterAll runtime contract calls).createBatch runtime later again mission
      (items.map (·.normalized)) = .ok (db.afterAll runtime contract calls) :=
    createBatch_of_matchesBatch hkept hnone hmatches
  exact ⟨by rw [hkept]; rfl, bind_eq_ok.mpr ⟨⟨⟩, hcheck, mapError_eq_ok.mpr hreplay⟩⟩

end Replay

/-! ### A mission that has made progress -/

def replayTables : MissionDb :=
  MissionDb.empty.orKeep (MissionDb.empty.createMissionWithItems plainRuntime 0 false false sampleMission
    [sampleItem])

def sampleProgress : Json := .object [("done", .number 0), ("total", .number 1)]

/-- The item is claimed and settled, and its mission is completed. -/
def replayCalls : List TimedStoreCall :=
  [⟨1, .mission (.claimItem "a" ⟨"engine", "attempt", "token"⟩ none none)⟩,
    ⟨2, .mission (.settleClaimedItem ⟨1, "a", "m", "engine", 1, 1, "attempt", "token", claimTokenHash "token",
      none, none⟩ .done none none)⟩,
    ⟨3, .mission (.updateMissionStatus "m" .completed none)⟩]

/-- A mission whose item is done and that is completed is found again. -/
theorem createMissionWithItems_replayed_completed :
    ((replayTables.afterAll plainRuntime sampleContract replayCalls).mission? sampleMission.id).isSome = true
      ∧ (replayTables.afterAll plainRuntime sampleContract replayCalls).createMissionWithItems plainRuntime 4 true
        false sampleMission [sampleItem]
          = .ok (replayTables.afterAll plainRuntime sampleContract replayCalls) := by
  have hcreate : (MissionDb.empty.afterAll plainRuntime sampleContract []).createMissionWithItems plainRuntime 0
      false false sampleMission [sampleItem] = .ok replayTables := rfl
  refine createMissionWithItems_replayed ?_ hcreate ?_ ?_
  · simp [sampleItem]
  · simp [replayCalls, StoreCall.isLifecycle, MissionCall.isLifecycle]
  · simp [replayCalls, KeepsCreation, TimedStoreCall.keepsCreation, specMember]

/-- The progress of a mission is enough to refuse the creation that it comes from. -/
theorem createMissionWithItems_refused :
    MissionDb.empty.createMissionWithItems plainRuntime 0 false false sampleMission [sampleItem]
        = .ok replayTables
      ∧ ((replayTables.afterAll plainRuntime sampleContract [⟨1, .setMissionProgress "m" sampleProgress⟩]
        ).createMissionWithItems plainRuntime 2 false false sampleMission [sampleItem]).map (fun _ => ())
          = .error "MISSION_BATCH_CONFLICT: mission m already exists with different creation data" := by
  refine ⟨rfl, ?_⟩
  decide +kernel

end Deckent.Mission
