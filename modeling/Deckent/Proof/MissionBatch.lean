import Deckent.Proof.MissionKeys

/-!
# What is stored of a new item

A call that creates items gives each of them a row, and where its mission has a graph also its edges. What is
read back is the definition that the caller gave, but for the order of its dependencies.
-/

namespace Deckent.Mission

variable {runtime : JsonRuntime} {now : Int} {db next : MissionDb}

/-! ### What the checks of a batch find -/

theorem nodup_of_not_mem_take {α : Type} {list : List α}
    (hfresh : ∀ entry ∈ list.zipIdx, entry.1 ∉ list.take entry.2) : list.Nodup := by
  refine List.pairwise_iff_getElem.mpr fun i j hi hj hlt heq => ?_
  have hentry : (list[j], j) ∈ list.zipIdx := List.mk_mem_zipIdx_iff_getElem?.mpr (List.getElem?_eq_getElem hj)
  refine hfresh _ hentry ?_
  rw [← heq]
  exact List.mem_take_iff_getElem.mpr ⟨i, by omega, rfl⟩

theorem nodup_of_checkGraph {definitions : List (String × List String)}
    (hcheck : checkGraph definitions = .ok ⟨⟩) : (definitions.map Prod.fst).Nodup := by
  refine nodup_of_not_mem_take fun entry hentry hmem => ?_
  unfold checkGraph at hcheck
  obtain ⟨_, hloop, -⟩ := bind_eq_ok.mp hcheck
  have hpassed := check_of_forIn (fun a step hstep => ?_) hloop entry hentry
  · rw [if_pos (by simp [hmem])] at hpassed
    cases hpassed
  · split at hstep
    · cases hstep
    · exact (Except.ok.inj hstep).symm

theorem checkGraph_of_validateGraph {missionId : String} {definitions : List (String × List String)}
    {edges : List DependencyEdge} (hvalidate : validateGraph runtime missionId definitions = .ok edges) :
    checkGraph definitions = .ok ⟨⟩ ∧ edges = graphEdges runtime missionId definitions := by
  obtain ⟨_, hcheck, hedges⟩ := bind_eq_ok.mp hvalidate
  exact ⟨hcheck, (Except.ok.inj hedges).symm⟩

theorem dependencies_perm_graphEdges {missionId id : String} {dependsOn : List String}
    {definitions : List (String × List String)} (hnodup : (definitions.map Prod.fst).Nodup)
    (hmem : (id, dependsOn) ∈ definitions) :
    (((graphEdges runtime missionId definitions).filter fun edge =>
      edge.missionId = missionId && edge.workItemId = id).map (·.dependencyItemId)).Perm dependsOn := by
  unfold graphEdges
  refine (((perm_sortBy _ _).filter _).map _).trans (List.Perm.of_eq ?_)
  induction definitions with
  | nil => cases hmem
  | cons definition rest ih =>
      obtain ⟨hfresh, hrest⟩ := List.nodup_cons.mp hnodup
      have hother (other : String × List String) (hne : other.1 ≠ id) :
          (other.2.map fun dependency => DependencyEdge.mk missionId other.1 dependency).filter
            (fun edge => edge.missionId = missionId && edge.workItemId = id) = [] := by
        simp [List.filter_eq_nil_iff, hne]
      rw [List.flatMap_cons, List.filter_append, List.map_append]
      obtain rfl | hmem := List.mem_cons.mp hmem
      · have hnone : (rest.flatMap fun definition => definition.2.map fun dependency =>
            DependencyEdge.mk missionId definition.1 dependency).filter
              (fun edge => edge.missionId = missionId && edge.workItemId = id) = [] := by
          rw [List.filter_flatMap, List.flatMap_eq_nil_iff]
          intro other hmem
          refine hother other fun heq => hfresh ?_
          rw [← heq]
          exact List.mem_map.mpr ⟨other, hmem, rfl⟩
        rw [hnone]
        simp [List.filter_map, Function.comp_def]
      · have hne : definition.1 ≠ id := by
          rintro rfl
          exact hfresh (List.mem_map.mpr ⟨_, hmem, rfl⟩)
        rw [hother definition hne, List.map_nil, List.nil_append]
        exact ih hrest hmem

theorem checkBatchItem_of_checkMissionBatch {mission : NewMission} {allowLegacy : Bool}
    {items : List NewMissionWorkItem} (hcheck : checkMissionBatch runtime mission allowLegacy items = .ok ⟨⟩) :
    ∀ item ∈ items, checkBatchItem runtime mission allowLegacy item = .ok ⟨⟩ := by
  intro item hitem
  unfold checkMissionBatch at hcheck
  split at hcheck
  · cases hcheck
  · obtain ⟨_, hloop, -⟩ := bind_eq_ok.mp hcheck
    have hpassed := check_of_forIn (fun item step hstep => ?_) hloop item hitem
    · obtain ⟨_, hitem, -⟩ := bind_eq_ok.mp hpassed
      exact hitem
    · obtain ⟨_, -, hstep⟩ := bind_eq_ok.mp hstep
      exact (Except.ok.inj hstep).symm

theorem checkBatchItem_eq_ok {mission : NewMission} {allowLegacy : Bool} {item : NewMissionWorkItem}
    (hcheck : checkBatchItem runtime mission allowLegacy item = .ok ⟨⟩) :
    item.missionId = mission.id ∧ (item.initialStatus = none → item.initialResult = none) := by
  unfold checkBatchItem at hcheck
  obtain ⟨-, hcheck⟩ := ite_throw_eq_ok.mp hcheck
  obtain ⟨hmission, hcheck⟩ := ite_throw_eq_ok.mp hcheck
  refine ⟨not_not.mp hmission, fun hstatus => ?_⟩
  have hcheck := rest_of_ite_check (rest_of_ite_check hcheck)
  obtain ⟨_, -, hcheck⟩ := bind_eq_ok.mp hcheck
  obtain ⟨-, hcheck⟩ := ite_throw_eq_ok.mp hcheck
  obtain ⟨-, hcheck⟩ := ite_throw_eq_ok.mp hcheck
  dsimp only at hcheck
  split at hcheck
  · cases hcheck
  · next hresult =>
      cases hinitial : item.initialResult with
      | none => rfl
      | some result => simp [hinitial, hstatus] at hresult

/-! ### Definitions that agree -/

/-- Two definitions are the same, but for the order of their dependencies. -/
structure WorkItemDefinition.Agrees (definition other : WorkItemDefinition) : Prop where
  id : definition.id = other.id
  missionId : definition.missionId = other.missionId
  kind : definition.kind = other.kind
  spec : definition.spec = other.spec
  policy : definition.policy = other.policy
  renderAs : definition.renderAs = other.renderAs
  dependsOn : definition.dependsOn.Perm other.dependsOn
  trigger : definition.trigger = other.trigger

theorem WorkItemDefinition.Agrees.refl (definition : WorkItemDefinition) : definition.Agrees definition :=
  ⟨rfl, rfl, rfl, rfl, rfl, rfl, .refl _, rfl⟩

theorem WorkItemDefinition.Agrees.trans {definition other last : WorkItemDefinition}
    (hfirst : definition.Agrees other) (hsecond : other.Agrees last) : definition.Agrees last where
  id := hfirst.id.trans hsecond.id
  missionId := hfirst.missionId.trans hsecond.missionId
  kind := hfirst.kind.trans hsecond.kind
  spec := hfirst.spec.trans hsecond.spec
  policy := hfirst.policy.trans hsecond.policy
  renderAs := hfirst.renderAs.trans hsecond.renderAs
  dependsOn := hfirst.dependsOn.trans hsecond.dependsOn
  trigger := hfirst.trigger.trans hsecond.trigger

section Agrees

variable {definition other : WorkItemDefinition} (hagrees : definition.Agrees other)

include hagrees

theorem WorkItemDefinition.Agrees.creationJson : definition.creationJson = other.creationJson := by
  unfold WorkItemDefinition.creationJson
  rw [hagrees.id, hagrees.missionId, hagrees.kind, hagrees.spec, hagrees.policy, hagrees.renderAs,
    hagrees.trigger, sortBy_compareCodePoint_of_perm hagrees.dependsOn]

theorem WorkItemDefinition.Agrees.digest : computeWorkItemDefinitionDigest runtime definition
    = computeWorkItemDefinitionDigest runtime other := by
  unfold computeWorkItemDefinitionDigest
  rw [hagrees.id, hagrees.missionId, hagrees.kind, hagrees.spec, hagrees.policy, hagrees.renderAs,
    hagrees.trigger, sortBy_compareCodePoint_of_perm hagrees.dependsOn]

theorem WorkItemDefinition.Agrees.assertWorkItemAdmitted (registry : MissionRunnerRegistry) :
    assertWorkItemAdmitted definition registry = Mission.assertWorkItemAdmitted other registry := by
  unfold Mission.assertWorkItemAdmitted
  rw [hagrees.id, hagrees.missionId, hagrees.kind, hagrees.spec]

end Agrees

theorem agrees_row {item : NewWorkItem} {row : WorkItemRow} {dependsOn : Option (List String)}
    {status : WorkItemStatus} {result : Option Json} (hrow : row = item.row now dependsOn status result)
    (hdependsOn : (next.dependsOn row).Perm (item.dependsOn.getD [])) :
    (next.definitionOf row).Agrees item.definition := by
  subst hrow
  exact ⟨rfl, rfl, rfl, rfl, rfl, rfl, hdependsOn, rfl⟩

/-! ### Edges of new items -/

theorem dependsOn_of_authority? {row : WorkItemRow}
    (hauthority : (db.authority? row.missionId).isSome = true) :
    db.dependsOn row = db.normalizedDependencies row.missionId row.id := by
  rw [dependsOn_eq, if_pos hauthority]

theorem dependsOn_of_authority?_none {row : WorkItemRow} (hauthority : db.authority? row.missionId = none) :
    db.dependsOn row = row.dependsOn.getD [] := by
  rw [dependsOn_eq, hauthority]
  rfl

theorem dependsOn_perm (hconsistent : Consistent db) (edges : List DependencyEdge) {row : WorkItemRow}
    {dependsOn : List String} (hfresh : row.id ∉ db.items.map (·.id)) (hedges : next.edges = db.edges ++ edges)
    (hauthority : (next.authority? row.missionId).isSome = true)
    (hnew : ((edges.filter fun edge => edge.missionId = row.missionId && edge.workItemId = row.id).map
      (·.dependencyItemId)).Perm dependsOn) :
    (next.dependsOn row).Perm dependsOn := by
  have hnone : (db.edges.filter fun edge => edge.missionId = row.missionId && edge.workItemId = row.id) = [] := by
    rw [List.filter_eq_nil_iff]
    intro edge hedge hmatches
    simp only [Bool.and_eq_true, decide_eq_true_eq] at hmatches
    exact hfresh (hmatches.2 ▸ (hconsistent.edge edge hedge).2)
  rw [dependsOn_of_authority? hauthority]
  unfold MissionDb.normalizedDependencies
  rw [hedges, List.filter_append, hnone, List.nil_append]
  exact (perm_sortBy _ _).trans hnew

def newFences (pairs : List (NewWorkItem × WorkItemRow)) : List FenceRow :=
  pairs.flatMap fun pair => (pair.1.admissionFence.map (FenceRow.mk pair.2.id)).toList

theorem fences_of_insertItem {item : NewWorkItem} {row : WorkItemRow}
    (hinsert : db.insertItem item row = .ok next) : next.fences = db.fences ++ newFences [(item, row)] := by
  unfold MissionDb.insertItem at hinsert
  split at hinsert
  · cases hinsert
  · split at hinsert
    · cases hinsert
    · obtain rfl := Except.ok.inj hinsert
      simp [newFences]

theorem fences_of_insertItems {pairs : List (NewWorkItem × WorkItemRow)}
    (hinsert : insertItems pairs db = .ok next) : next.fences = db.fences ++ newFences pairs := by
  induction pairs generalizing db with
  | nil =>
      obtain rfl := Except.ok.inj hinsert
      simp [newFences]
  | cons pair rest ih =>
      obtain ⟨middle, hfirst, hrest⟩ := bind_eq_ok.mp hinsert
      rw [ih hrest, fences_of_insertItem hfirst, List.append_assoc]
      simp [newFences]

theorem mem_newFences {pairs : List (NewWorkItem × WorkItemRow)} {row : FenceRow}
    (hrow : row ∈ newFences pairs) : row.workItemId ∈ pairs.map (·.2.id) := by
  obtain ⟨pair, hpair, hmem⟩ := List.mem_flatMap.mp hrow
  obtain ⟨fence, -, rfl⟩ := by simpa using hmem
  exact List.mem_map.mpr ⟨pair, hpair, rfl⟩

theorem find?_newFences {pairs : List (NewWorkItem × WorkItemRow)} (hnodup : (pairs.map (·.2.id)).Nodup)
    {pair : NewWorkItem × WorkItemRow} (hpair : pair ∈ pairs) :
    ((newFences pairs).find? (·.workItemId = pair.2.id)).map (·.fence) = pair.1.admissionFence := by
  induction pairs with
  | nil => cases hpair
  | cons first rest ih =>
      obtain ⟨hfresh, hrest⟩ := List.nodup_cons.mp hnodup
      have hsplit : newFences (first :: rest)
          = (first.1.admissionFence.map (FenceRow.mk first.2.id)).toList ++ newFences rest := rfl
      rw [hsplit, List.find?_append]
      obtain rfl | hmem := List.mem_cons.mp hpair
      · cases hfence : pair.1.admissionFence with
        | some fence => simp
        | none =>
            have hnone : (newFences rest).find? (·.workItemId = pair.2.id) = none := by
              rw [List.find?_eq_none]
              intro row hrow hid
              have hmem := mem_newFences hrow
              rw [decide_eq_true_eq.mp hid] at hmem
              exact hfresh hmem
            simp [hnone]
      · have hne : first.2.id ≠ pair.2.id := fun heq => hfresh (List.mem_map.mpr ⟨pair, hmem, heq.symm⟩)
        have hnone : ((first.1.admissionFence.map (FenceRow.mk first.2.id)).toList).find?
            (·.workItemId = pair.2.id) = none := by
          rw [List.find?_eq_none]
          intro row hrow hid
          obtain ⟨fence, -, rfl⟩ := by simpa using hrow
          exact hne (by simpa using hid)
        rw [hnone, Option.none_or]
        exact ih hrest hmem

/-! ### The items of a new mission -/

theorem mission?_append (mission : MissionRow) (hfresh : mission.id ∉ db.missions.map (·.id)) :
    (db.missions ++ [mission]).find? (·.id = mission.id) = some mission := by
  have hnone : db.missions.find? (·.id = mission.id) = none := by
    rw [List.find?_eq_none]
    intro other hother hid
    exact hfresh (List.mem_map.mpr ⟨other, hother, by simpa using hid⟩)
  rw [List.find?_append, hnone, Option.none_or, List.find?_singleton]
  simp

structure StoresBatch (mission : NewMission) (items : List NewMissionWorkItem) (normalized : Bool) (now : Int)
    (db next : MissionDb) : Prop where
  mission : next.mission? mission.id = some (mission.row now)
  rows : next.items = db.items ++ items.map (·.initialRow now normalized)
  definitions : ∀ item ∈ items, (next.definitionOf (item.initialRow now normalized)).Agrees item.definition

theorem storesBatch_createBatch (hconsistent : Consistent db) {normalized : Bool} {mission : NewMission}
    {items : List NewMissionWorkItem} (hfresh : db.mission? mission.id = none)
    (hmissions : ∀ item ∈ items, item.missionId = mission.id)
    (hcreate : db.createBatch runtime now normalized mission items = .ok next) :
    StoresBatch mission items normalized now db next := by
  have hnodup := (consistent_createBatch hconsistent hcreate).items
  have hunknown : mission.id ∉ db.missions.map (·.id) := by
    rw [← isSome_mission?_iff, hfresh]
    simp
  unfold MissionDb.createBatch at hcreate
  rw [hfresh] at hcreate
  obtain ⟨created, hmission, hcreate⟩ := bind_eq_ok.mp hcreate
  obtain ⟨inserted, hinsert, hgraph⟩ := bind_eq_ok.mp hcreate
  have hinserts := inserts_of_insertItems hinsert
  rw [List.map_map] at hinserts
  unfold MissionDb.createMission at hmission
  split at hmission
  · cases hmission
  · obtain rfl := Except.ok.inj hmission
    have hrows : inserted.items = db.items ++ items.map (·.initialRow now normalized) := hinserts.items
    cases normalized with
    | false =>
        obtain rfl := Except.ok.inj hgraph
        refine ⟨?_, hrows, fun item hitem => ?_⟩
        · unfold MissionDb.mission?
          rw [hinserts.missions]
          exact mission?_append (mission.row now) hunknown
        · refine agrees_row rfl ?_
          have hauthority : inserted.authority? item.missionId = none := by
            rw [← Option.not_isSome_iff_eq_none, isSome_authority?_iff, hinserts.graph.authorities,
              hmissions item hitem]
            simpa using fun hmem => hunknown (hconsistent.authority _ hmem)
          rw [dependsOn_of_authority?_none hauthority]
          rfl
    | true =>
        obtain ⟨edges, hvalidate, rfl⟩ := exceptMap_eq_ok.mp hgraph
        obtain ⟨hcheck, rfl⟩ := checkGraph_of_validateGraph hvalidate
        have hkeys := sameKeys_setGraphDigest inserted mission.id
          (graphDigest runtime (graphEdges runtime mission.id (batchGraph items)))
        refine ⟨?_, hrows, fun item hitem => ?_⟩
        · unfold MissionDb.mission?
          change inserted.missions.find? _ = _
          rw [hinserts.missions]
          exact mission?_append (mission.row now) hunknown
        · refine agrees_row rfl (dependsOn_perm hconsistent (graphEdges runtime mission.id (batchGraph items))
            ?_ ?_ ?_ ?_)
          · change (inserted.items.map (·.id)).Nodup at hnodup
            rw [hrows, List.map_append] at hnodup
            refine fun hmem => List.disjoint_of_nodup_append hnodup hmem ?_
            exact List.mem_map_of_mem (List.mem_map_of_mem hitem)
          · change inserted.edges ++ _ = _
            rw [hinserts.graph.edges]
          · rw [isSome_authority?_iff]
            change _ ∈ (inserted.setGraphDigest _ _).authorities.map _
            rw [hkeys.authorities, hinserts.graph.authorities]
            simp [NewMissionWorkItem.initialRow, NewWorkItem.row, hmissions item hitem]
          · change List.Perm (((graphEdges runtime mission.id (batchGraph items)).filter fun edge =>
              edge.missionId = item.missionId && edge.workItemId = item.id).map (·.dependencyItemId)) _
            rw [hmissions item hitem]
            exact dependencies_perm_graphEdges (nodup_of_checkGraph hcheck)
              (List.mem_map.mpr ⟨item, hitem, rfl⟩)

end Deckent.Mission
