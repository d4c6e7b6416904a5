import Deckent.Proof.MissionDefinition

/-!
# The keys of the mission store

No two items have one id, and an item, a graph, an edge or a fence is about a row that is there. Every call keeps
this, whatever it creates.
-/

namespace Deckent.Mission

variable {runtime : JsonRuntime} {contract : ApprovalContract} {now : Int} {db next : MissionDb}

/-- What the keys of the tables promise. -/
structure Consistent (db : MissionDb) : Prop where
  items : (db.items.map (·.id)).Nodup
  mission : ∀ row ∈ db.items, row.missionId ∈ db.missions.map (·.id)
  authority : ∀ missionId ∈ db.authorities.map (·.missionId), missionId ∈ db.missions.map (·.id)
  edge : ∀ edge ∈ db.edges, edge.missionId ∈ db.authorities.map (·.missionId)
    ∧ edge.workItemId ∈ db.items.map (·.id)
  fence : ∀ id ∈ db.fences.map (·.workItemId), id ∈ db.items.map (·.id)

theorem consistent_empty : Consistent .empty := by
  constructor <;> simp [MissionDb.empty]

theorem isSome_authority?_iff {missionId : String} :
    (db.authority? missionId).isSome = true ↔ missionId ∈ db.authorities.map (·.missionId) := by
  simp [MissionDb.authority?, List.find?_isSome]

/-! ### Calls that create nothing -/

structure SameKeys (db next : MissionDb) : Prop where
  items : next.items.map (fun row => (row.id, row.missionId)) = db.items.map fun row => (row.id, row.missionId)
  missions : next.missions.map (·.id) = db.missions.map (·.id)
  authorities : next.authorities.map (·.missionId) = db.authorities.map (·.missionId)
  edges : next.edges = db.edges
  fences : next.fences.map (·.workItemId) = db.fences.map (·.workItemId)

theorem SameKeys.map_id (hkeys : SameKeys db next) : next.items.map (·.id) = db.items.map (·.id) := by
  simpa [Function.comp_def] using congrArg (List.map Prod.fst) hkeys.items

theorem SameKeys.consistent (hkeys : SameKeys db next) (hconsistent : Consistent db) : Consistent next where
  items := by
    rw [hkeys.map_id]
    exact hconsistent.items
  mission := by
    intro row hrow
    have hmem : row.missionId ∈ db.items.map (·.missionId) := by
      have hmissions : next.items.map (·.missionId) = db.items.map (·.missionId) := by
        simpa [Function.comp_def] using congrArg (List.map Prod.snd) hkeys.items
      rw [← hmissions]
      exact List.mem_map_of_mem hrow
    obtain ⟨earlier, hearlier, hmission⟩ := List.mem_map.mp hmem
    rw [hkeys.missions, ← hmission]
    exact hconsistent.mission earlier hearlier
  authority := by
    rw [hkeys.missions, hkeys.authorities]
    exact hconsistent.authority
  edge := by
    rw [hkeys.edges, hkeys.authorities, hkeys.map_id]
    exact hconsistent.edge
  fence := by
    rw [hkeys.fences, hkeys.map_id]
    exact hconsistent.fence

theorem KeepsDefinitions.map_missionId (hkeeps : KeepsDefinitions db next) :
    next.missions.map (·.id) = db.missions.map (·.id) := by
  simpa [Function.comp_def, MissionRow.created] using congrArg (List.map Prod.fst) hkeeps.missions

theorem map_keys_of_same {set : WorkItemRow → WorkItemRow} {rows : List WorkItemRow}
    (hset : ∀ row ∈ rows, SameItem row (set row)) :
    (rows.map set).map (fun row => (row.id, row.missionId)) = rows.map fun row => (row.id, row.missionId) := by
  rw [List.map_map]
  refine List.map_congr_left fun row hrow => ?_
  simp only [Function.comp_apply, (hset row hrow).id, (hset row hrow).missionId]

theorem KeepsDefinitions.sameKeys (hkeeps : KeepsDefinitions db next) : SameKeys db next := by
  obtain ⟨set, hitems, hset⟩ := hkeeps.items
  refine ⟨?_, hkeeps.map_missionId, by rw [hkeeps.graph.authorities], hkeeps.graph.edges, by rw [hkeeps.fences]⟩
  rw [hitems, map_keys_of_same fun row hrow => (hset row hrow).same]

theorem Adopts.sameKeys {claim : MissionDispatchClaim} {result : Option Json} {adoption : PlanAdoption}
    (hadopts : Adopts runtime db claim result adoption next) : SameKeys db next := by
  obtain ⟨set, hitems, hheld, hother⟩ := hadopts.items
  refine ⟨?_, by rw [hadopts.missions], by rw [hadopts.graph.authorities], hadopts.graph.edges, ?_⟩
  · rw [hitems]
    refine map_keys_of_same fun row hrow => ?_
    cases hholds : row.holds claim with
    | true =>
        have hsame := (hheld row hrow hholds).same
        exact ⟨hsame.id, hsame.missionId, hsame.policy, hsame.trigger, hsame.dependsOn⟩
    | false =>
        rw [hother row hrow hholds]
        exact .refl row
  · rw [hadopts.fences, List.map_map]
    refine List.map_congr_left fun row _ => ?_
    simp only [Function.comp_apply, FenceRow.adopting]
    split <;> rfl

theorem sameKeys_authorities (db : MissionDb) {set : GraphAuthorityRow → GraphAuthorityRow}
    (hset : ∀ row, (set row).missionId = row.missionId) :
    SameKeys db { db with authorities := db.authorities.map set } := by
  refine ⟨rfl, rfl, ?_, rfl, rfl⟩
  rw [List.map_map]
  exact List.map_congr_left fun row _ => hset row

theorem sameKeys_updateGraph (db : MissionDb) (missionId : String) (graphRevision : Nat) :
    SameKeys db (db.updateGraph runtime missionId graphRevision) := by
  refine sameKeys_authorities db fun row => ?_
  split <;> rfl

theorem sameKeys_setGraphDigest (db : MissionDb) (missionId digest : String) :
    SameKeys db (db.setGraphDigest missionId digest) := by
  refine sameKeys_authorities db fun row => ?_
  split <;> rfl

theorem sameKeys_activateAuthority (db : MissionDb) (missionId : String) :
    SameKeys db (db.activateAuthority missionId) := by
  refine sameKeys_authorities db fun row => ?_
  split <;> rfl

theorem sameKeys_seedTerminalDependencyJobs (db : MissionDb) (missionId : String) :
    SameKeys db (db.seedTerminalDependencyJobs now missionId) := ⟨rfl, rfl, rfl, rfl, rfl⟩

theorem sameKeys_setMissionProgress (db : MissionDb) (id : String) (progress : Json) :
    SameKeys db (db.setMissionProgress now id progress) := by
  refine ⟨rfl, ?_, rfl, rfl, rfl⟩
  unfold MissionDb.setMissionProgress
  rw [List.map_map]
  refine List.map_congr_left fun mission _ => ?_
  simp only [Function.comp_apply]
  split <;> rfl

/-! ### Calls that create rows -/

theorem consistent_insertItem (hconsistent : Consistent db) {item : NewWorkItem} {row : WorkItemRow}
    (hinsert : db.insertItem item row = .ok next) : Consistent next := by
  have hinserts := inserts_of_insertItem hinsert
  have hids : db.items.map (·.id) ⊆ next.items.map (·.id) := by
    rw [hinserts.items, List.map_append]
    exact List.subset_append_left _ _
  have hfences : ∀ id ∈ next.fences.map (·.workItemId), id ∈ db.fences.map (·.workItemId) ∨ id = row.id := by
    unfold MissionDb.insertItem at hinsert
    split at hinsert
    · cases hinsert
    · split at hinsert
      · cases hinsert
      · obtain rfl := Except.ok.inj hinsert
        intro id hid
        rw [List.map_append] at hid
        refine (List.mem_append.mp hid).imp_right fun hnew => ?_
        cases hfence : item.admissionFence with
        | none => simp [hfence] at hnew
        | some fence => simpa [hfence] using hnew
  constructor
  case items => exact hinserts.nodup hconsistent.items
  case mission =>
    intro other hother
    rw [hinserts.missions]
    rw [hinserts.items] at hother
    obtain hold | hnew := List.mem_append.mp hother
    · exact hconsistent.mission other hold
    · exact hinserts.mission other hnew
  case authority =>
    rw [hinserts.missions, hinserts.graph.authorities]
    exact hconsistent.authority
  case edge =>
    intro edge hedge
    rw [hinserts.graph.edges] at hedge
    rw [hinserts.graph.authorities]
    exact ⟨(hconsistent.edge edge hedge).1, hids (hconsistent.edge edge hedge).2⟩
  case fence =>
    intro id hid
    obtain hold | rfl := hfences id hid
    · exact hids (hconsistent.fence id hold)
    · rw [hinserts.items]
      simp

theorem consistent_insertItems (hconsistent : Consistent db) {pairs : List (NewWorkItem × WorkItemRow)}
    (hinsert : insertItems pairs db = .ok next) : Consistent next := by
  induction pairs generalizing db with
  | nil =>
      obtain rfl := Except.ok.inj hinsert
      exact hconsistent
  | cons pair rest ih =>
      obtain ⟨middle, hfirst, hrest⟩ := bind_eq_ok.mp hinsert
      exact ih (consistent_insertItem hconsistent hfirst) hrest

theorem consistent_insertEdges (hconsistent : Consistent db) {edges : List DependencyEdge}
    (hedges : ∀ edge ∈ edges, edge.missionId ∈ db.authorities.map (·.missionId)
      ∧ edge.workItemId ∈ db.items.map (·.id)) : Consistent (db.insertEdges edges) where
  items := hconsistent.items
  mission := hconsistent.mission
  authority := hconsistent.authority
  edge := by
    intro edge hedge
    obtain hold | hnew := List.mem_append.mp hedge
    · exact hconsistent.edge edge hold
    · exact hedges edge hnew
  fence := hconsistent.fence

theorem consistent_insertAuthority (hconsistent : Consistent db) {authority : GraphAuthorityRow}
    (hmission : authority.missionId ∈ db.missions.map (·.id)) : Consistent (db.insertAuthority authority) where
  items := hconsistent.items
  mission := hconsistent.mission
  authority := by
    intro missionId hmem
    rw [MissionDb.insertAuthority, List.map_append] at hmem
    obtain hold | hnew := List.mem_append.mp hmem
    · exact hconsistent.authority missionId hold
    · obtain rfl := List.mem_singleton.mp hnew
      exact hmission
  edge := by
    intro edge hedge
    refine ⟨?_, (hconsistent.edge edge hedge).2⟩
    rw [MissionDb.insertAuthority, List.map_append]
    exact List.mem_append_left _ (hconsistent.edge edge hedge).1
  fence := hconsistent.fence

theorem missionId_of_graphEdges {missionId : String} {definitions : List (String × List String)}
    {edge : DependencyEdge} (hedge : edge ∈ graphEdges runtime missionId definitions) :
    edge.missionId = missionId := by
  unfold graphEdges at hedge
  rw [mem_sortBy, List.mem_flatMap] at hedge
  obtain ⟨definition, -, hedge⟩ := hedge
  obtain ⟨dependency, -, rfl⟩ := List.mem_map.mp hedge
  rfl

theorem missionId_of_validateNormalizedAppend {authority : GraphAuthorityRow} {items : List NewWorkItem}
    {append : List DependencyEdge × Nat}
    (happend : db.validateNormalizedAppend runtime authority items = .ok append) :
    ∀ edge ∈ append.1, edge.missionId = authority.missionId := by
  unfold MissionDb.validateNormalizedAppend at happend
  split at happend
  · cases happend
  · obtain ⟨edges, hvalidate, rfl⟩ := exceptMap_eq_ok.mp happend
    obtain ⟨_, -, hedges⟩ := bind_eq_ok.mp hvalidate
    obtain rfl := Except.ok.inj hedges
    intro edge hedge
    exact missionId_of_graphEdges (List.mem_filter.mp hedge).1

theorem mem_of_authority? {missionId : String} {authority : GraphAuthorityRow}
    (hauthority : db.authority? missionId = some authority) :
    authority.missionId = missionId ∧ missionId ∈ db.authorities.map (·.missionId) := by
  have hid : authority.missionId = missionId := by simpa using List.find?_some hauthority
  exact ⟨hid, isSome_authority?_iff.mp (by rw [hauthority]; rfl)⟩

theorem consistent_appendItem (hconsistent : Consistent db) {item : NewWorkItem}
    (happend : db.appendItem runtime now item = .ok next) : Consistent next := by
  unfold MissionDb.appendItem at happend
  split at happend
  · split at happend
    · obtain rfl := Except.ok.inj happend
      exact hconsistent
    · exact consistent_insertItem hconsistent happend
  · next authority hauthority =>
      obtain ⟨append, hedges, happend⟩ := bind_eq_ok.mp happend
      split at happend
      · cases happend
      · obtain ⟨inserted, hinsert, rfl⟩ := exceptMap_eq_ok.mp happend
        have hinserts := inserts_of_insertItem hinsert
        refine (sameKeys_updateGraph _ _ _).consistent
          (consistent_insertEdges (consistent_insertItem hconsistent hinsert) fun edge hedge => ?_)
        obtain ⟨hid, hmem⟩ := mem_of_authority? hauthority
        have hstart := edges_of_validateNormalizedAppend hedges edge hedge
        rw [hinserts.graph.authorities, missionId_of_validateNormalizedAppend hedges edge hedge, hid,
          hinserts.items]
        refine ⟨hmem, ?_⟩
        have hid : edge.workItemId = item.id := by simpa using hstart
        simp [NewWorkItem.row, hid]

theorem missionId_of_appends {items : List NewWorkItem} {missionIds : List String}
    {appends : List (String × List DependencyEdge × Nat)}
    (happends : db.appends runtime items missionIds = .ok appends) :
    ∀ append ∈ appends, ∀ edge ∈ append.2.1, edge.missionId ∈ db.authorities.map (·.missionId) := by
  induction missionIds generalizing appends with
  | nil =>
      obtain rfl := Except.ok.inj happends
      simp
  | cons missionId rest ih =>
      rw [MissionDb.appends] at happends
      split at happends
      · exact ih happends
      · next authority hauthority =>
          obtain ⟨first, hfirst, happends⟩ := bind_eq_ok.mp happends
          obtain ⟨others, hothers, happends⟩ := bind_eq_ok.mp happends
          obtain rfl := Except.ok.inj happends
          intro append happend edge hedge
          obtain rfl | happend := List.mem_cons.mp happend
          · obtain ⟨hid, hmem⟩ := mem_of_authority? hauthority
            rwa [missionId_of_validateNormalizedAppend hfirst edge hedge, hid]
          · exact ih hothers append happend edge hedge

theorem consistent_foldl {appends : List (String × List DependencyEdge × Nat)} (hconsistent : Consistent db)
    (hedges : ∀ append ∈ appends, ∀ edge ∈ append.2.1, edge.missionId ∈ db.authorities.map (·.missionId)
      ∧ edge.workItemId ∈ db.items.map (·.id)) :
    Consistent (appends.foldl (fun db append =>
      (db.insertEdges append.2.1).updateGraph runtime append.1 append.2.2) db) := by
  induction appends generalizing db with
  | nil => exact hconsistent
  | cons append rest ih =>
      have hinserted := consistent_insertEdges hconsistent (hedges append List.mem_cons_self)
      have hkeys : SameKeys _ ((db.insertEdges append.2.1).updateGraph runtime append.1 append.2.2) :=
        sameKeys_updateGraph _ _ _
      refine ih (hkeys.consistent hinserted) fun other hother edge hedge => ?_
      rw [hkeys.authorities, hkeys.map_id]
      exact hedges other (List.mem_cons_of_mem _ hother) edge hedge

theorem consistent_enqueueItems (hconsistent : Consistent db) {items : List NewWorkItem}
    (henqueue : db.enqueueItems runtime now items = .ok next) : Consistent next := by
  obtain ⟨_, -, henqueue⟩ := bind_eq_ok.mp henqueue
  obtain ⟨appends, happends, hinsert⟩ := bind_eq_ok.mp (mapError_eq_ok.mp henqueue)
  obtain ⟨middle, hinserted, hnext⟩ := bind_eq_ok.mp hinsert
  obtain rfl := Except.ok.inj hnext
  have hinserts := inserts_of_insertItems hinserted
  refine consistent_foldl (consistent_insertItems hconsistent hinserted) fun append happend edge hedge => ?_
  rw [hinserts.graph.authorities, hinserts.items, List.map_append]
  refine ⟨missionId_of_appends happends append happend edge hedge, List.mem_append_right _ ?_⟩
  simpa [Function.comp_def, NewWorkItem.row] using edges_of_appends happends append happend edge hedge

theorem consistent_createMission (hconsistent : Consistent db) {normalized : Bool} {mission : NewMission}
    (hcreate : db.createMission runtime now normalized mission = .ok next) : Consistent next := by
  obtain ⟨-, authorities, hauthorities, rfl⟩ := createMission_eq_ok hcreate
  have hmissions : db.missions.map (·.id) ⊆ (db.missions ++ [mission.row now]).map (·.id) := by
    rw [List.map_append]
    exact List.subset_append_left _ _
  constructor
  case items => exact hconsistent.items
  case mission => exact fun row hrow => hmissions (hconsistent.mission row hrow)
  case authority =>
    intro missionId hmem
    rw [List.map_append] at hmem
    obtain hold | hnew := List.mem_append.mp hmem
    · exact hmissions (hconsistent.authority missionId hold)
    · obtain ⟨authority, hauthority, rfl⟩ := List.mem_map.mp hnew
      rw [hauthorities authority hauthority]
      simp [NewMission.row]
  case edge =>
    intro edge hedge
    rw [List.map_append]
    exact ⟨List.mem_append_left _ (hconsistent.edge edge hedge).1, (hconsistent.edge edge hedge).2⟩
  case fence => exact hconsistent.fence

theorem consistent_createBatch (hconsistent : Consistent db) {normalized : Bool} {mission : NewMission}
    {items : List NewMissionWorkItem} (hcreate : db.createBatch runtime now normalized mission items = .ok next) :
    Consistent next := by
  unfold MissionDb.createBatch at hcreate
  split at hcreate
  · split at hcreate
    · cases hcreate
    · split at hcreate
      · obtain rfl := Except.ok.inj hcreate
        exact hconsistent
      · cases hcreate
  · obtain ⟨created, hmission, hitems⟩ := bind_eq_ok.mp hcreate
    obtain ⟨inserted, hinsert, hgraph⟩ := bind_eq_ok.mp hitems
    have hinserted := consistent_insertItems (consistent_createMission hconsistent hmission) hinsert
    split at hgraph
    · next hnormalized =>
        obtain ⟨edges, hvalidate, rfl⟩ := exceptMap_eq_ok.mp hgraph
        obtain ⟨_, -, hedges⟩ := bind_eq_ok.mp hvalidate
        obtain rfl := Except.ok.inj hedges
        have hkeys := sameKeys_setGraphDigest inserted mission.id
          (graphDigest runtime (graphEdges runtime mission.id (batchGraph items)))
        refine (sameKeys_seedTerminalDependencyJobs _ _).consistent
          (consistent_insertEdges (hkeys.consistent hinserted) fun edge hedge => ?_)
        have hinserts := inserts_of_insertItems hinsert
        rw [hkeys.authorities, hkeys.map_id, hinserts.graph.authorities, hinserts.items,
          missionId_of_graphEdges hedge, List.map_append]
        refine ⟨?_, List.mem_append_right _ ?_⟩
        · unfold MissionDb.createMission at hmission
          split at hmission
          · cases hmission
          · obtain rfl := Except.ok.inj hmission
            simp
        · have hstart := edges_of_graphEdges hedge
          rw [batchGraph, List.map_map] at hstart
          simpa [Function.comp_def, NewMissionWorkItem.initialRow, NewWorkItem.row] using hstart
    · obtain rfl := Except.ok.inj hgraph
      exact hinserted

theorem consistent_prepareNormalizedDependencyMigration (hconsistent : Consistent db) {missionId : String}
    (hprepare : db.prepareNormalizedDependencyMigration runtime missionId = .ok next) : Consistent next := by
  unfold MissionDb.prepareNormalizedDependencyMigration at hprepare
  split at hprepare
  · cases hprepare
  · next hmission =>
      rw [Option.isNone_iff_eq_none, ← Option.not_isSome_iff_eq_none, not_not, isSome_mission?_iff] at hmission
      split at hprepare
      · obtain rfl := Except.ok.inj hprepare
        exact hconsistent
      · split at hprepare
        · obtain rfl := Except.ok.inj hprepare
          exact consistent_insertAuthority hconsistent hmission
        · next edges hgraph =>
            obtain rfl := Except.ok.inj hprepare
            refine consistent_insertEdges (consistent_insertAuthority hconsistent hmission) fun edge hedge => ?_
            obtain ⟨_, -, hedges⟩ := bind_eq_ok.mp hgraph
            obtain rfl := Except.ok.inj hedges
            rw [missionId_of_graphEdges hedge]
            refine ⟨by simp [MissionDb.insertAuthority], ?_⟩
            have hstart := edges_of_graphEdges hedge
            simp only [MissionDb.legacyDefinitions, MissionDb.legacyRows, List.map_map, List.mem_map,
              mem_sortBy, List.mem_filter, Function.comp_apply] at hstart
            obtain ⟨row, ⟨hrow, -⟩, hid⟩ := hstart
            exact List.mem_map.mpr ⟨row, hrow, hid⟩

theorem activateNormalizedDependencyAuthority_eq_ok {activation : MissionDependencyActivation}
    (hactivate : db.activateNormalizedDependencyAuthority runtime now activation = .ok next) :
    next = db ∨ next
      = (db.activateAuthority activation.missionId).seedTerminalDependencyJobs now activation.missionId := by
  unfold MissionDb.activateNormalizedDependencyAuthority at hactivate
  dsimp only at hactivate
  split at hactivate
  · cases hactivate
  · split at hactivate
    · cases hactivate
    · split at hactivate
      · cases hactivate
      · exact .inl (Except.ok.inj hactivate).symm
      · split at hactivate
        · cases hactivate
        · obtain ⟨current, -, hactivate⟩ := bind_eq_ok.mp hactivate
          split at hactivate
          · cases hactivate
          · split at hactivate
            · cases hactivate
            · exact .inr (Except.ok.inj hactivate).symm

theorem consistent_orKeep (hconsistent : Consistent db) {body : Except String MissionDb}
    (hbody : ∀ next, body = .ok next → Consistent next) : Consistent (db.orKeep body) := by
  cases body with
  | error error => exact hconsistent
  | ok next => exact hbody next rfl

/-! ### Runs -/

theorem sameKeys_perform (hconsistent : Consistent db) {call : MissionCall}
    (hlifecycle : call.isLifecycle = true) : SameKeys db (db.perform runtime contract ⟨now, call⟩) := by
  obtain hkeeps | ⟨claim, status, result, engineLease, adoption, -, -, hadopts⟩ :=
    perform_cases hconsistent.items hlifecycle
  · exact hkeeps.sameKeys
  · exact hadopts.sameKeys

theorem consistent_perform (hconsistent : Consistent db) (call : MissionCall) :
    Consistent (db.perform runtime contract ⟨now, call⟩) := by
  cases hlifecycle : call.isLifecycle with
  | true => exact (sameKeys_perform hconsistent hlifecycle).consistent hconsistent
  | false =>
      cases call with
      | createMission normalized mission =>
          exact consistent_orKeep hconsistent fun next => consistent_createMission hconsistent
      | createMissionWithItems normalized mission items =>
          refine consistent_orKeep hconsistent fun next hcreate => ?_
          obtain ⟨_, -, hcreate⟩ := bind_eq_ok.mp hcreate
          exact consistent_createBatch hconsistent (mapError_eq_ok.mp hcreate)
      | importLegacyMissionWithItems normalized mission items =>
          refine consistent_orKeep hconsistent fun next hcreate => ?_
          obtain ⟨_, -, hcreate⟩ := bind_eq_ok.mp hcreate
          exact consistent_createBatch hconsistent (mapError_eq_ok.mp hcreate)
      | enqueueItem item =>
          refine consistent_orKeep hconsistent fun next henqueue => ?_
          obtain ⟨_, -, henqueue⟩ := bind_eq_ok.mp henqueue
          obtain ⟨_, -, henqueue⟩ := bind_eq_ok.mp henqueue
          obtain ⟨_, -, henqueue⟩ := bind_eq_ok.mp henqueue
          exact consistent_appendItem hconsistent henqueue
      | enqueueItems items =>
          exact consistent_orKeep hconsistent fun next => consistent_enqueueItems hconsistent
      | _ => cases hlifecycle

theorem consistent_after (hconsistent : Consistent db) (timed : TimedStoreCall) :
    Consistent (db.after runtime contract timed) := by
  obtain ⟨now, call⟩ := timed
  cases call with
  | mission call => exact consistent_perform hconsistent call
  | setMissionProgress id progress => exact (sameKeys_setMissionProgress db id progress).consistent hconsistent
  | prepareNormalizedDependencyMigration missionId =>
      exact consistent_orKeep hconsistent fun next => consistent_prepareNormalizedDependencyMigration hconsistent
  | activateNormalizedDependencyAuthority activation =>
      refine consistent_orKeep hconsistent fun next hactivate => ?_
      obtain rfl | rfl := activateNormalizedDependencyAuthority_eq_ok hactivate
      · exact hconsistent
      · exact (sameKeys_seedTerminalDependencyJobs _ _).consistent
          ((sameKeys_activateAuthority db _).consistent hconsistent)

theorem consistent_afterAll (hconsistent : Consistent db) (calls : List TimedStoreCall) :
    Consistent (db.afterAll runtime contract calls) := by
  induction calls generalizing db with
  | nil => exact hconsistent
  | cons timed rest ih => exact ih (consistent_after hconsistent timed)

end Deckent.Mission
