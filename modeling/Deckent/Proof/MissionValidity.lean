import Deckent.Model.KindAdmission
import Deckent.Proof.MissionAdoption

/-!
# Fences that survive

An item that a batch admits has the fence of its definition. The store keeps the two apart, the definition in
the row and in the edges of its mission, and reads back what it was given. From there every call keeps the item
valid, but for a migration that finds no graph in the dependencies of its mission.
-/

namespace Deckent.Mission

variable {runtime : JsonRuntime} {contract : ApprovalContract} {now : Int} {db next : MissionDb}
  {registry : MissionRunnerRegistry} {id : String}

/-! ### Edges of an append -/

theorem dependencies_of_validateNormalizedAppend {authority : GraphAuthorityRow} {items : List NewWorkItem}
    {append : List DependencyEdge × Nat}
    (happend : db.validateNormalizedAppend runtime authority items = .ok append) {item : NewWorkItem}
    (hitem : item ∈ items) :
    ((append.1.filter fun edge => edge.missionId = authority.missionId && edge.workItemId = item.id).map
      (·.dependencyItemId)).Perm (item.dependsOn.getD []) := by
  unfold MissionDb.validateNormalizedAppend at happend
  split at happend
  · cases happend
  · obtain ⟨edges, hvalidate, rfl⟩ := exceptMap_eq_ok.mp happend
    obtain ⟨hcheck, rfl⟩ := checkGraph_of_validateGraph hvalidate
    rw [List.filter_filter]
    refine List.Perm.trans (.of_eq (congrArg _ (List.filter_congr fun edge _ => ?_)))
      (dependencies_perm_graphEdges (nodup_of_checkGraph hcheck)
        (List.mem_append_right _ (List.mem_map.mpr ⟨item, hitem, rfl⟩)))
    rw [Bool.and_eq_left_iff_imp]
    intro hmatches
    simp only [Bool.and_eq_true, decide_eq_true_eq] at hmatches
    exact List.any_eq_true.mpr ⟨item, hitem, by simp [hmatches.2]⟩

theorem appends_eq_ok {items : List NewWorkItem} {missionIds : List String}
    {appends : List (String × List DependencyEdge × Nat)} (hnodup : missionIds.Nodup)
    (happends : db.appends runtime items missionIds = .ok appends) :
    (appends.map (·.1)).Sublist missionIds
      ∧ (∀ append ∈ appends, ∃ authority, db.authority? append.1 = some authority
        ∧ db.validateNormalizedAppend runtime authority (items.filter (·.missionId = append.1)) = .ok append.2)
      ∧ ∀ missionId ∈ missionIds, (db.authority? missionId).isSome = true
        → missionId ∈ appends.map (·.1) := by
  induction missionIds generalizing appends with
  | nil =>
      obtain rfl := Except.ok.inj happends
      simp
  | cons missionId rest ih =>
      obtain ⟨hfresh, hrest⟩ := List.nodup_cons.mp hnodup
      rw [MissionDb.appends] at happends
      split at happends
      · next hnone =>
          obtain ⟨hsublist, hmade, hall⟩ := ih hrest happends
          refine ⟨hsublist.cons _, hmade, fun other hother hsome => ?_⟩
          obtain rfl | hother := List.mem_cons.mp hother
          · rw [hnone] at hsome
            cases hsome
          · exact hall other hother hsome
      · next authority hauthority =>
          obtain ⟨first, hfirst, happends⟩ := bind_eq_ok.mp happends
          obtain ⟨others, hothers, happends⟩ := bind_eq_ok.mp happends
          obtain rfl := Except.ok.inj happends
          obtain ⟨hsublist, hmade, hall⟩ := ih hrest hothers
          refine ⟨hsublist.cons_cons _, fun append happend => ?_, fun other hother hsome => ?_⟩
          · obtain rfl | happend := List.mem_cons.mp happend
            · exact ⟨authority, hauthority, hfirst⟩
            · exact hmade append happend
          · obtain rfl | hother := List.mem_cons.mp hother
            · exact List.mem_cons_self
            · exact List.mem_cons_of_mem _ (hall other hother hsome)

theorem filter_appends {appends : List (String × List DependencyEdge × Nat)}
    (hnodup : (appends.map (·.1)).Nodup)
    (hedges : ∀ append ∈ appends, ∀ edge ∈ append.2.1, edge.missionId = append.1)
    {append : String × List DependencyEdge × Nat} (hmem : append ∈ appends) (id : String) :
    (appends.flatMap (·.2.1)).filter (fun edge => edge.missionId = append.1 && edge.workItemId = id)
      = append.2.1.filter fun edge => edge.missionId = append.1 && edge.workItemId = id := by
  have hother {other : String × List DependencyEdge × Nat} (hother : other ∈ appends)
      (hne : other.1 ≠ append.1) :
      other.2.1.filter (fun edge => edge.missionId = append.1 && edge.workItemId = id) = [] := by
    rw [List.filter_eq_nil_iff]
    intro edge hedge hmatches
    simp only [Bool.and_eq_true, decide_eq_true_eq] at hmatches
    exact hne ((hedges other hother edge hedge).symm.trans hmatches.1)
  induction appends with
  | nil => cases hmem
  | cons first rest ih =>
      obtain ⟨hfresh, hrest⟩ := List.nodup_cons.mp hnodup
      rw [List.flatMap_cons, List.filter_append]
      obtain rfl | hmem := List.mem_cons.mp hmem
      · have hnone : (rest.flatMap (·.2.1)).filter
            (fun edge => edge.missionId = append.1 && edge.workItemId = id) = [] := by
          rw [List.filter_flatMap, List.flatMap_eq_nil_iff]
          intro other hmem
          refine hother (List.mem_cons_of_mem _ hmem) fun heq => ?_
          exact hfresh (List.mem_map.mpr ⟨other, hmem, heq⟩)
        rw [hnone, List.append_nil]
      · have hne : first.1 ≠ append.1 := fun heq => hfresh (List.mem_map.mpr ⟨append, hmem, heq.symm⟩)
        rw [hother List.mem_cons_self hne, List.nil_append]
        exact ih hrest (fun other hmem => hedges other (List.mem_cons_of_mem _ hmem)) hmem
          fun hmem => hother (List.mem_cons_of_mem _ hmem)

theorem edges_foldl_append (appends : List (String × List DependencyEdge × Nat)) (db : MissionDb) :
    (appends.foldl (fun db append =>
      (db.insertEdges append.2.1).updateGraph runtime append.1 append.2.2) db).edges
      = db.edges ++ appends.flatMap (·.2.1) := by
  induction appends generalizing db with
  | nil => simp
  | cons append rest ih =>
      rw [List.foldl_cons, ih, List.flatMap_cons, ← List.append_assoc]
      rfl

theorem nodup_eraseDups (texts : List String) : texts.eraseDups.Nodup := by
  induction hlength : texts.length using Nat.strong_induction_on generalizing texts with
  | _ length ih =>
      cases texts with
      | nil => simp
      | cons text rest =>
          rw [List.eraseDups_cons, List.nodup_cons]
          constructor
          · simp [List.mem_eraseDups]
          · refine ih _ ?_ _ rfl
            subst hlength
            exact Nat.lt_succ_of_le (List.length_filter_le _ _)

/-! ### Items that are stored -/

structure Stores (item : NewWorkItem) (next : MissionDb) : Prop where
  row : ∃ row ∈ next.items, row.id = item.id ∧ (next.definitionOf row).Agrees item.definition
  fence : next.fence? item.id = item.admissionFence

theorem fence?_of_inserted (hconsistent : Consistent db) {pairs : List (NewWorkItem × WorkItemRow)}
    {inserted : MissionDb} (hnodup : (next.items.map (·.id)).Nodup)
    (hinsert : insertItems pairs db = .ok inserted) (hitems : next.items = inserted.items)
    (hfences : next.fences = inserted.fences) {pair : NewWorkItem × WorkItemRow} (hpair : pair ∈ pairs) :
    next.fence? pair.2.id = pair.1.admissionFence := by
  rw [hitems, (inserts_of_insertItems hinsert).items, List.map_append, List.map_map] at hnodup
  have hfresh : db.fences.find? (·.workItemId = pair.2.id) = none := by
    rw [List.find?_eq_none]
    intro row hrow hid
    have hmem := hconsistent.fence row.workItemId (List.mem_map_of_mem hrow)
    rw [decide_eq_true_eq.mp hid] at hmem
    exact List.disjoint_of_nodup_append hnodup hmem (List.mem_map.mpr ⟨pair, hpair, rfl⟩)
  unfold MissionDb.fence?
  rw [hfences, fences_of_insertItems hinsert, List.find?_append, hfresh, Option.none_or]
  exact find?_newFences (List.nodup_append.mp hnodup).2.1 hpair

theorem stores_appendItem (hconsistent : Consistent db) {item : NewWorkItem}
    (hfresh : item.id ∉ db.items.map (·.id)) (happend : db.appendItem runtime now item = .ok next) :
    Stores item next := by
  have hnodup := (consistent_appendItem hconsistent happend).items
  have hnone : (db.item? item.id).isSome = false := by
    rw [Bool.eq_false_iff, ne_eq, isSome_item?_iff]
    exact hfresh
  unfold MissionDb.appendItem at happend
  rw [hnone] at happend
  split at happend
  · next hauthority =>
      have hinserts := inserts_of_insertItem happend
      refine ⟨⟨item.row now (some (item.dependsOn.getD [])) .pending none, ?_, rfl, agrees_row rfl ?_⟩, ?_⟩
      · rw [hinserts.items]
        exact List.mem_append_right _ List.mem_cons_self
      · have hlegacy : next.authority? item.missionId = none := by
          rw [← Option.not_isSome_iff_eq_none, isSome_authority?_iff, hinserts.graph.authorities,
            ← isSome_authority?_iff, hauthority]
          simp
        rw [dependsOn_of_authority?_none hlegacy]
        rfl
      · exact fence?_of_inserted hconsistent hnodup (insertItems_singleton happend) rfl rfl
          List.mem_cons_self
  · next authority hauthority =>
      obtain ⟨hid, hmem⟩ := mem_of_authority? hauthority
      obtain ⟨append, hedges, happend⟩ := bind_eq_ok.mp happend
      obtain ⟨inserted, hinsert, rfl⟩ := exceptMap_eq_ok.mp happend
      have hinserts := inserts_of_insertItem hinsert
      have hkeys : SameKeys (inserted.insertEdges append.1)
          ((inserted.insertEdges append.1).updateGraph runtime item.missionId append.2) :=
        sameKeys_updateGraph _ item.missionId append.2
      refine ⟨⟨item.row now none .pending none, ?_, rfl, agrees_row rfl ?_⟩, ?_⟩
      · change _ ∈ inserted.items
        rw [hinserts.items]
        exact List.mem_append_right _ List.mem_cons_self
      · refine dependsOn_perm hconsistent append.1 hfresh ?_ ?_ ?_
        · change inserted.edges ++ append.1 = _
          rw [hinserts.graph.edges]
        · rw [isSome_authority?_iff, hkeys.authorities]
          change _ ∈ inserted.authorities.map _
          rw [hinserts.graph.authorities]
          exact hmem
        · have hnew := dependencies_of_validateNormalizedAppend hedges List.mem_cons_self
          rwa [hid] at hnew
      · exact fence?_of_inserted hconsistent hnodup (insertItems_singleton hinsert) rfl rfl
          List.mem_cons_self

theorem stores_appendItems (hconsistent : Consistent db) {items : List NewWorkItem}
    (hnodup : (next.items.map (·.id)).Nodup) (happend : db.appendItems runtime now items = .ok next) :
    ∀ item ∈ items, Stores item next := by
  obtain ⟨appends, happends, happend⟩ := bind_eq_ok.mp happend
  obtain ⟨inserted, hinsert, hnext⟩ := bind_eq_ok.mp happend
  have hnext := Except.ok.inj hnext
  obtain ⟨hsublist, hmade, hall⟩ := appends_eq_ok (nodup_eraseDups _) happends
  have hkeyed : ∀ append ∈ appends, ∀ edge ∈ append.2.1, edge.missionId = append.1 := by
    intro append hmem edge hedge
    obtain ⟨authority, hauthority, hvalidate⟩ := hmade append hmem
    rw [missionId_of_validateNormalizedAppend hvalidate edge hedge, (mem_of_authority? hauthority).1]
  have hgraphs : GraphsFor (items.map (·.id)) inserted next := by
    rw [← hnext]
    exact graphsFor_foldl (edges_of_appends happends) inserted
  have hedges : next.edges = db.edges ++ appends.flatMap (·.2.1) := by
    rw [← hnext, edges_foldl_append, (inserts_of_insertItems hinsert).graph.edges]
  have hauthorities (missionId : String) :
      (next.authority? missionId).isSome = (db.authority? missionId).isSome := by
    rw [hgraphs.authority, Bool.eq_iff_iff, isSome_authority?_iff, isSome_authority?_iff,
      (inserts_of_insertItems hinsert).graph.authorities]
  intro item hitem
  -- The row of the item keeps its dependencies where the mission has no graph.
  set own : Option (List String) :=
    if appends.any (·.1 = item.missionId) then none else some (item.dependsOn.getD []) with hown
  have hpair : (item, item.row now own .pending none) ∈ items.map fun item =>
      (item, item.row now (if appends.any (·.1 = item.missionId) then none
        else some (item.dependsOn.getD [])) .pending none) := List.mem_map.mpr ⟨item, hitem, rfl⟩
  have hitems := (inserts_of_insertItems hinsert).items
  refine ⟨⟨item.row now own .pending none, ?_, rfl, agrees_row rfl ?_⟩, ?_⟩
  · rw [hgraphs.items, hitems]
    exact List.mem_append_right _ (List.mem_map.mpr ⟨_, hpair, rfl⟩)
  · by_cases hgraph : appends.any (·.1 = item.missionId) = true
    · obtain ⟨append, hmem, hmission⟩ := List.any_eq_true.mp hgraph
      have hmission : append.1 = item.missionId := by simpa using hmission
      obtain ⟨authority, hauthority, hvalidate⟩ := hmade append hmem
      have hnew := dependencies_of_validateNormalizedAppend hvalidate
        (List.mem_filter.mpr ⟨hitem, by simp [hmission]⟩)
      rw [(mem_of_authority? hauthority).1, ← filter_appends (hsublist.nodup (nodup_eraseDups _)) hkeyed hmem,
        hmission] at hnew
      refine dependsOn_perm hconsistent _ ?_ hedges ?_ hnew
      · rw [hgraphs.items, hitems, List.map_append] at hnodup
        refine fun hmem => List.disjoint_of_nodup_append hnodup hmem ?_
        exact List.mem_map.mpr ⟨_, List.mem_map.mpr ⟨_, hpair, rfl⟩, rfl⟩
      · change (next.authority? item.missionId).isSome = true
        rw [hauthorities, ← hmission, hauthority]
        rfl
    · have hlegacy : next.authority? item.missionId = none := by
        rw [← Option.not_isSome_iff_eq_none, hauthorities]
        intro hsome
        obtain ⟨append, hmem, hmission⟩ := List.mem_map.mp
          (hall item.missionId (List.mem_eraseDups.mpr (List.mem_map_of_mem hitem)) hsome)
        exact hgraph (List.any_eq_true.mpr ⟨append, hmem, by simpa using hmission⟩)
      rw [dependsOn_of_authority?_none hlegacy, hown, if_neg hgraph]
      rfl
  · exact fence?_of_inserted hconsistent hnodup hinsert hgraphs.items hgraphs.fences hpair

theorem stores_enqueueItems (hconsistent : Consistent db) {items : List NewWorkItem}
    (henqueue : db.enqueueItems runtime now items = .ok next) : ∀ item ∈ items, Stores item next := by
  have hnodup := (consistent_enqueueItems hconsistent henqueue).items
  obtain ⟨_, -, henqueue⟩ := bind_eq_ok.mp henqueue
  exact stores_appendItems hconsistent hnodup (mapError_eq_ok.mp henqueue)

theorem stores_enqueueItem (hconsistent : Consistent db) {item : NewWorkItem}
    (hfresh : item.id ∉ db.items.map (·.id)) (henqueue : db.enqueueItem runtime now item = .ok next) :
    Stores item next := by
  obtain ⟨_, -, henqueue⟩ := bind_eq_ok.mp henqueue
  obtain ⟨_, -, henqueue⟩ := bind_eq_ok.mp henqueue
  obtain ⟨_, -, henqueue⟩ := bind_eq_ok.mp henqueue
  exact stores_appendItem hconsistent hfresh henqueue

theorem stores_createBatch (hconsistent : Consistent db) {normalized : Bool} {mission : NewMission}
    {items : List NewMissionWorkItem} (hfresh : db.mission? mission.id = none)
    (hmissions : ∀ item ∈ items, item.missionId = mission.id)
    (hcreate : db.createBatch runtime now normalized mission items = .ok next) :
    ∀ item ∈ items, Stores item.toNewWorkItem next := by
  have hnodup := (consistent_createBatch hconsistent hcreate).items
  have hstored := storesBatch_createBatch hconsistent hfresh hmissions hcreate
  unfold MissionDb.createBatch at hcreate
  rw [hfresh] at hcreate
  obtain ⟨created, hmission, hcreate⟩ := bind_eq_ok.mp hcreate
  obtain ⟨inserted, hinsert, hgraph⟩ := bind_eq_ok.mp hcreate
  have hgraphs : GraphsFor (items.map (·.id)) inserted next := by
    split at hgraph
    · exact graphsFor_addBatchGraph hgraph
    · obtain rfl := Except.ok.inj hgraph
      exact .refl _ _
  intro item hitem
  refine ⟨⟨item.initialRow now normalized, ?_, rfl, hstored.definitions item hitem⟩, ?_⟩
  · rw [hstored.rows]
    exact List.mem_append_right _ (List.mem_map_of_mem hitem)
  · exact fence?_of_inserted (consistent_createMission hconsistent hmission) hnodup hinsert hgraphs.items
      hgraphs.fences (List.mem_map.mpr ⟨item, hitem, rfl⟩)

theorem eq_of_createMissionWithItems {normalized allowLegacy : Bool} {mission : NewMission}
    {items : List NewMissionWorkItem} {existing : MissionRow} (hmission : db.mission? mission.id = some existing)
    (hcreate : db.createMissionWithItems runtime now normalized allowLegacy mission items = .ok next) :
    next = db := by
  obtain ⟨_, -, hbatch⟩ := bind_eq_ok.mp hcreate
  have hbatch := mapError_eq_ok.mp hbatch
  unfold MissionDb.createBatch at hbatch
  rw [hmission] at hbatch
  dsimp only at hbatch
  split at hbatch
  · cases hbatch
  · split at hbatch
    · exact (Except.ok.inj hbatch).symm
    · cases hbatch

theorem stores_createMissionWithItems (hconsistent : Consistent db) {normalized allowLegacy : Bool}
    {mission : NewMission} {items : List NewMissionWorkItem} (hfresh : db.mission? mission.id = none)
    (hcreate : db.createMissionWithItems runtime now normalized allowLegacy mission items = .ok next) :
    ∀ item ∈ items, Stores item.toNewWorkItem next := by
  obtain ⟨_, hcheck, hbatch⟩ := bind_eq_ok.mp hcreate
  have hitems := checkBatchItem_of_checkMissionBatch hcheck
  intro item hitem
  have hstores := stores_createBatch hconsistent hfresh (fun normal hnormal => ?_) (mapError_eq_ok.mp hbatch)
    item.normalized (List.mem_map_of_mem hitem)
  · obtain ⟨⟨row, hrow, hid, hagrees⟩, hfence⟩ := hstores
    refine ⟨⟨row, hrow, hid, hagrees.trans ⟨rfl, rfl, rfl, rfl, rfl, rfl, ?_, rfl⟩⟩, hfence⟩
    exact perm_sortBy _ _
  · obtain ⟨original, horiginal, rfl⟩ := List.mem_map.mp hnormal
    exact (checkBatchItem_eq_ok (hitems original horiginal)).1

/-! ### Items that are admitted -/

section Admitted

variable {host : AcceptanceHost}

def Admitted (host : AcceptanceHost) (registry : MissionRunnerRegistry) (item : NewWorkItem) : Prop :=
  ∃ authored admitted, admitWorkItemBatch host registry authored = .ok admitted ∧ item ∈ admitted

theorem Admitted.fence {item : NewWorkItem} (hadmitted : Admitted host registry item) :
    assertMissionRunnerRegistry host.runtime registry = .ok ⟨⟩
      ∧ assertWorkItemAdmitted item.definition registry = .ok ⟨⟩
      ∧ ∃ runner, runnerForKind registry item.kind = some runner
        ∧ item.admissionFence = some (admittedFence host.runtime registry runner item.definition) := by
  obtain ⟨authored, admitted, hadmit, hmem⟩ := hadmitted
  obtain ⟨_, hregistry, hadmit⟩ := bind_eq_ok.mp hadmit
  obtain ⟨_, hloop, hitems⟩ := bind_eq_ok.mp hadmit
  obtain rfl := pure_eq_ok.mp hitems
  obtain ⟨original, horiginal, rfl⟩ := List.mem_map.mp hmem
  have hpassed := check_of_forIn (fun item step hstep => ?_) hloop original horiginal
  · obtain ⟨_, hpassed, -⟩ := bind_eq_ok.mp hpassed
    have hassert : assertWorkItemAdmitted original.definition registry = .ok ⟨⟩ := mapError_eq_ok.mp hpassed
    obtain ⟨-, runner, hrunner⟩ := runner_of_assertWorkItemAdmitted hassert
    refine ⟨hregistry, hassert, runner, hrunner, ?_⟩
    change buildWorkItemAdmissionFence host registry original = _
    unfold buildWorkItemAdmissionFence
    rw [show runnerForKind registry original.kind = some runner from hrunner]
    rfl
  · obtain ⟨_, -, hstep⟩ := bind_eq_ok.mp hstep
    exact (Except.ok.inj hstep).symm

theorem Admitted.assertPersistableFence {item : NewWorkItem} (hadmitted : Admitted host registry item) :
    Mission.assertPersistableFence host.runtime item = .ok ⟨⟩ := by
  obtain ⟨hregistry, -, runner, hrunner, hfence⟩ := hadmitted.fence
  obtain ⟨hrevision, hdigest, hrunners⟩ := assertMissionRunnerRegistry_eq_ok hregistry
  have hnonEmpty {text : String} (hcanonical : nonEmptyCanonicalString text = true) :
      nonEmptyString text = true := by
    simp only [nonEmptyCanonicalString, Bool.and_eq_true, decide_eq_true_eq] at hcanonical
    simp [nonEmptyString, ← hcanonical.2, hcanonical.1]
  unfold Mission.assertPersistableFence
  rw [hfence]
  dsimp only
  rw [if_neg]
  simp [admittedFence, NewWorkItem.definition, hnonEmpty hrevision, hnonEmpty hdigest,
    hnonEmpty (hrunners runner (List.mem_of_find?_eq_some hrunner))]

theorem Stores.validates {item : NewWorkItem} (hstores : Stores item next)
    (hadmitted : Admitted host registry item) (hkeys : (next.items.map (·.id)).Nodup) :
    next.Validates host.runtime registry item.id := by
  obtain ⟨hregistry, hassert, runner, hrunner, hfence⟩ := hadmitted.fence
  obtain ⟨⟨row, hrow, hid, hagrees⟩, hkept⟩ := hstores
  refine (validates_iff hregistry hkeys).mpr ⟨row, hrow, hid, ?_, runner, ?_, ?_⟩
  · rw [hagrees.assertWorkItemAdmitted]
    exact hassert
  · rw [← hrunner]
    exact congrArg (runnerForKind registry) hagrees.kind
  · rw [hkept, hfence]
    unfold admittedFence
    rw [hagrees.digest, hagrees.kind]

def MissionCall.newItems : MissionCall → List NewWorkItem
  | .createMissionWithItems _ _ items => items.map (·.toNewWorkItem)
  | .enqueueItem item => [item]
  | .enqueueItems items => items
  | _ => []

/-- The call stores an admitted item under the id, which was free. -/
structure StoresAdmitted (host : AcceptanceHost) (contract : ApprovalContract)
    (registry : MissionRunnerRegistry) (db : MissionDb) (timed : TimedCall) (id : String) : Prop where
  brought : ∃ item ∈ timed.call.newItems, item.id = id ∧ Admitted host registry item
  free : id ∉ db.items.map (·.id)
  stored : id ∈ (db.perform host.runtime contract timed).items.map (·.id)

theorem eq_ok_of_orKeep {body : Except String MissionDb} (hfree : id ∉ db.items.map (·.id))
    (hstored : id ∈ (db.orKeep body).items.map (·.id)) : body = .ok (db.orKeep body) := by
  cases body with
  | error error => exact absurd hstored hfree
  | ok next => rfl

theorem StoresAdmitted.validates {timed : TimedCall} (hconsistent : Consistent db)
    (hstores : StoresAdmitted host contract registry db timed id) :
    (db.perform host.runtime contract timed).Validates host.runtime registry id := by
  obtain ⟨⟨item, hitem, rfl, hadmitted⟩, hfree, hstored⟩ := hstores
  obtain ⟨now, call⟩ := timed
  have hconsistent' : Consistent (db.perform host.runtime contract ⟨now, call⟩) :=
    consistent_perform hconsistent call
  refine Stores.validates ?_ hadmitted hconsistent'.items
  cases call with
  | createMissionWithItems normalized mission items =>
      obtain ⟨original, horiginal, rfl⟩ := List.mem_map.mp hitem
      have hcreate := eq_ok_of_orKeep hfree hstored
      cases hmission : db.mission? mission.id with
      | none => exact stores_createMissionWithItems hconsistent hmission hcreate original horiginal
      | some existing =>
          have hsame := eq_of_createMissionWithItems hmission hcreate
          exact absurd (hsame ▸ hstored) hfree
  | enqueueItem added =>
      obtain rfl := List.mem_singleton.mp hitem
      exact stores_enqueueItem hconsistent hfree (eq_ok_of_orKeep hfree hstored)
  | enqueueItems items => exact stores_enqueueItems hconsistent (eq_ok_of_orKeep hfree hstored) item hitem
  | _ => cases hitem

end Admitted

/-! ### Calls that keep an item valid -/

theorem keepsItem_orKeep {body : Except String MissionDb} (hbody : ∀ next, body = .ok next → KeepsItem id db next) :
    KeepsItem id db (db.orKeep body) := by
  cases body with
  | error error => exact .refl db
  | ok next => exact hbody next rfl

theorem validates_perform (hconsistent : Consistent db) (hvalidates : db.Validates runtime registry id)
    (call : MissionCall) : (db.perform runtime contract ⟨now, call⟩).Validates runtime registry id := by
  have hconsistent' : Consistent (db.perform runtime contract ⟨now, call⟩) := consistent_perform hconsistent call
  have hkept (hkeeps : KeepsItem id db (db.perform runtime contract ⟨now, call⟩)) :=
    hkeeps.validates hconsistent.items hconsistent'.items hvalidates
  cases hlifecycle : call.isLifecycle with
  | true =>
      have hcases : KeepsDefinitions db (db.perform runtime contract ⟨now, call⟩) ∨ _ :=
        perform_cases hconsistent.items hlifecycle
      obtain hkeeps | ⟨claim, status, result, engineLease, adoption, -, -, hadopts⟩ := hcases
      · exact hkept hkeeps.keepsItem
      · exact hadopts.validates hconsistent.items hconsistent'.items hvalidates
  | false =>
      refine hkept ?_
      cases call with
      | createMission normalized mission =>
          exact keepsItem_orKeep fun next => keepsItem_createMission hconsistent
      | createMissionWithItems normalized mission items =>
          refine keepsItem_orKeep fun next hcreate => ?_
          obtain ⟨_, -, hcreate⟩ := bind_eq_ok.mp hcreate
          exact keepsItem_createBatch hconsistent (mapError_eq_ok.mp hcreate)
      | importLegacyMissionWithItems normalized mission items =>
          refine keepsItem_orKeep fun next hcreate => ?_
          obtain ⟨_, -, hcreate⟩ := bind_eq_ok.mp hcreate
          exact keepsItem_createBatch hconsistent (mapError_eq_ok.mp hcreate)
      | enqueueItem item =>
          refine keepsItem_orKeep fun next henqueue => ?_
          obtain ⟨_, -, henqueue⟩ := bind_eq_ok.mp henqueue
          obtain ⟨_, -, henqueue⟩ := bind_eq_ok.mp henqueue
          obtain ⟨_, -, henqueue⟩ := bind_eq_ok.mp henqueue
          exact keepsItem_appendItem hconsistent henqueue
      | enqueueItems items => exact keepsItem_orKeep fun next => keepsItem_enqueueItems hconsistent
      | _ => cases hlifecycle

def StoreCall.findsGraph (db : MissionDb) (id : String) : StoreCall → Prop
  | .prepareNormalizedDependencyMigration missionId =>
      db.authority? missionId = none → ∀ row ∈ db.items, row.id = id → row.missionId = missionId →
        db.dependsOn row ≠ [] → checkGraph (db.legacyDefinitions missionId) = .ok ⟨⟩
  | _ => True

/-- Each migration among the calls finds the graph of the item's mission. -/
def FindsGraphs (runtime : JsonRuntime) (contract : ApprovalContract) (id : String) :
    MissionDb → List TimedStoreCall → Prop
  | _, [] => True
  | db, timed :: rest =>
      timed.call.findsGraph db id ∧ FindsGraphs runtime contract id (db.after runtime contract timed) rest

theorem validates_after (hconsistent : Consistent db) (hvalidates : db.Validates runtime registry id)
    {timed : TimedStoreCall} (hgraph : timed.call.findsGraph db id) :
    (db.after runtime contract timed).Validates runtime registry id := by
  have hconsistent' : Consistent (db.after runtime contract timed) := consistent_after hconsistent timed
  obtain ⟨now, call⟩ := timed
  cases call with
  | mission call => exact validates_perform hconsistent hvalidates call
  | setMissionProgress missionId progress =>
      have hkeeps : KeepsItem id db (db.setMissionProgress now missionId progress) :=
        keepsItem_of_eq rfl ⟨rfl, rfl⟩ rfl
      exact hkeeps.validates hconsistent.items hconsistent'.items hvalidates
  | prepareNormalizedDependencyMigration missionId =>
      refine KeepsItem.validates ?_ hconsistent.items hconsistent'.items hvalidates
      exact keepsItem_orKeep fun next => keepsItem_prepareNormalizedDependencyMigration hconsistent hgraph
  | activateNormalizedDependencyAuthority activation =>
      refine KeepsItem.validates ?_ hconsistent.items hconsistent'.items hvalidates
      exact keepsItem_orKeep fun next => keepsItem_activateNormalizedDependencyAuthority

theorem validates_afterAll (hconsistent : Consistent db) (hvalidates : db.Validates runtime registry id)
    {calls : List TimedStoreCall} (hgraphs : FindsGraphs runtime contract id db calls) :
    (db.afterAll runtime contract calls).Validates runtime registry id := by
  induction calls generalizing db with
  | nil => exact hvalidates
  | cons timed rest ih =>
      obtain ⟨hgraph, hgraphs⟩ := hgraphs
      exact ih (consistent_after hconsistent timed) (validates_after hconsistent hvalidates hgraph) hgraphs

/-- An admitted item that is stored validates under the registry that admitted it in every state after that, as
long as each migration of its mission finds the graph of the dependencies. -/
theorem validates_of_storesAdmitted {host : AcceptanceHost} {before after : List TimedStoreCall}
    {timed : TimedCall}
    (hstores : StoresAdmitted host contract registry (MissionDb.empty.afterAll host.runtime contract before)
      timed id)
    (hgraphs : FindsGraphs host.runtime contract id
      ((MissionDb.empty.afterAll host.runtime contract before).perform host.runtime contract timed) after) :
    (((MissionDb.empty.afterAll host.runtime contract before).perform host.runtime contract timed).afterAll
      host.runtime contract after).Validates host.runtime registry id := by
  have hconsistent : Consistent (MissionDb.empty.afterAll host.runtime contract before) :=
    consistent_afterAll consistent_empty before
  exact validates_afterAll (consistent_perform hconsistent timed.call) (hstores.validates hconsistent) hgraphs

/-! ### A migration with and without a graph -/

def fenceHost : AcceptanceHost := ⟨plainRuntime, fun _ => none, fun value => value.text?.getD (plainText value)⟩

def fenceRunners : List MissionRunnerRegistryEntry := [⟨.task, "task-runner", "1"⟩]

def fenceRegistry : MissionRunnerRegistry :=
  ⟨1, "1", computeRegistryDigest plainRuntime 1 "1" fenceRunners, fenceRunners⟩

theorem assertMissionRunnerRegistry_fenceRegistry :
    assertMissionRunnerRegistry plainRuntime fenceRegistry = .ok ⟨⟩ := by
  have hcanonical : canonicalRunners fenceRegistry.runners = .ok fenceRunners := by rfl
  unfold assertMissionRunnerRegistry
  refine ite_throw_eq_ok.mpr ⟨?_, bind_eq_ok.mpr ⟨fenceRunners, hcanonical, ?_⟩⟩
  · have hrevision : nonEmptyCanonicalString "1" = true := by decide +kernel
    simp [fenceRegistry, hrevision]
  · exact ite_throw_eq_ok.mpr ⟨by simp [fenceRegistry], rfl⟩

def authoredTask (dependsOn : List String) : NewWorkItem :=
  ⟨"a", "m", .task, some (.object [("description", .string "text")]), none, none, some dependsOn, none, none⟩

def fencedTask (dependsOn : List String) : NewWorkItem :=
  { authoredTask dependsOn with
    admissionFence := buildWorkItemAdmissionFence fenceHost fenceRegistry (authoredTask dependsOn) }

theorem admitted_fencedTask (dependsOn : List String) :
    Admitted fenceHost fenceRegistry (fencedTask dependsOn) := by
  refine ⟨[authoredTask dependsOn], [fencedTask dependsOn], ?_, List.mem_cons_self⟩
  unfold admitWorkItemBatch
  exact bind_eq_ok.mpr ⟨⟨⟩, assertMissionRunnerRegistry_fenceRegistry, rfl⟩

def fenceBefore : List TimedStoreCall :=
  [⟨0, .mission (.createMission false sampleMission)⟩,
    ⟨1, .mission (.enqueueItem ⟨"b", "m", .task, none, none, none, none, none, none⟩)⟩]

def fenceTables (dependsOn : List String) : MissionDb :=
  (MissionDb.empty.afterAll fenceHost.runtime sampleContract fenceBefore).perform fenceHost.runtime sampleContract
    ⟨2, .enqueueItem (fencedTask dependsOn)⟩

theorem fenceTables_eq (dependsOn : List String) : fenceTables dependsOn =
    { MissionDb.empty.afterAll fenceHost.runtime sampleContract fenceBefore with
      items := (MissionDb.empty.afterAll fenceHost.runtime sampleContract fenceBefore).items
        ++ [(fencedTask dependsOn).row 2 (some dependsOn) .pending none]
      fences := [⟨"a", admittedFence plainRuntime fenceRegistry ⟨.task, "task-runner", "1"⟩
        (authoredTask dependsOn).definition⟩] } := by
  have henqueue : (MissionDb.empty.afterAll fenceHost.runtime sampleContract fenceBefore).enqueueItem
      fenceHost.runtime 2 (fencedTask dependsOn) = .ok _ :=
    bind_eq_ok.mpr ⟨⟨⟩, rfl, bind_eq_ok.mpr ⟨⟨⟩, rfl, bind_eq_ok.mpr
      ⟨⟨⟩, (admitted_fencedTask dependsOn).assertPersistableFence, rfl⟩⟩⟩
  unfold fenceTables MissionDb.perform
  dsimp only
  rw [henqueue]
  rfl

def fenceMigration : TimedStoreCall := ⟨3, .prepareNormalizedDependencyMigration "m"⟩

theorem storesAdmitted_fencedTask (dependsOn : List String) :
    StoresAdmitted fenceHost sampleContract fenceRegistry
      (MissionDb.empty.afterAll fenceHost.runtime sampleContract fenceBefore)
      ⟨2, .enqueueItem (fencedTask dependsOn)⟩ "a" where
  brought := ⟨fencedTask dependsOn, List.mem_cons_self, rfl, admitted_fencedTask _⟩
  free := by decide +kernel
  stored := by
    have hstored : "a" ∈ (fenceTables dependsOn).items.map (·.id) := by
      rw [fenceTables_eq, List.map_append]
      exact List.mem_append_right _ List.mem_cons_self
    unfold fenceTables at hstored
    exact hstored

/-- A task that depends on another of its mission validates after the migration. -/
theorem validates_of_storesAdmitted_migrated :
    ((fenceTables ["b"]).afterAll fenceHost.runtime sampleContract [fenceMigration]).Validates fenceHost.runtime
      fenceRegistry "a" := by
  have hcheck : checkGraph ((fenceTables ["b"]).legacyDefinitions "m") = .ok ⟨⟩ := by
    rw [fenceTables_eq]
    decide +kernel
  have hgraphs : FindsGraphs fenceHost.runtime sampleContract "a" (fenceTables ["b"]) [fenceMigration] :=
    ⟨fun _ _ _ _ _ _ => hcheck, trivial⟩
  exact validates_of_storesAdmitted (storesAdmitted_fencedTask ["b"]) hgraphs

def quarantinedTables : MissionDb :=
  (fenceTables ["missing"]).afterAll fenceHost.runtime sampleContract [fenceMigration]

/-- A task that depends on one that is not there is stored. The migration of its mission takes the dependency
from the task, and the fence fits no longer. -/
theorem not_validates_of_quarantined :
    StoresAdmitted fenceHost sampleContract fenceRegistry
        (MissionDb.empty.afterAll fenceHost.runtime sampleContract fenceBefore)
        ⟨2, .enqueueItem (fencedTask ["missing"])⟩ "a"
      ∧ (fenceTables ["missing"]).Validates fenceHost.runtime fenceRegistry "a"
      ∧ ¬ quarantinedTables.Validates fenceHost.runtime fenceRegistry "a" := by
  have hstores := storesAdmitted_fencedTask ["missing"]
  have hbefore : Consistent (MissionDb.empty.afterAll fenceHost.runtime sampleContract fenceBefore) :=
    consistent_afterAll consistent_empty _
  refine ⟨hstores, hstores.validates hbefore, ?_⟩
  rintro ⟨row, hitem, hvalid⟩
  have hmismatch : ∀ row ∈ quarantinedTables.item? "a", ∀ fence ∈ quarantinedTables.fence? "a",
      fence.itemDefinitionDigest
        ≠ computeWorkItemDefinitionDigest plainRuntime (quarantinedTables.definitionOf row) := by
    unfold quarantinedTables
    rw [fenceTables_eq]
    decide +kernel
  obtain ⟨_, -, hnone⟩ := bind_eq_ok.mp hvalid
  obtain ⟨-, runner, -, hfence⟩ :=
    (admissionRejection_eq_none_iff assertMissionRunnerRegistry_fenceRegistry).mp (pure_eq_ok.mp hnone)
  refine hmismatch row hitem _ hfence ?_
  dsimp only [admittedFence]

end Deckent.Mission
