import Deckent.Proof.MissionTransition
import Deckent.Lib.Fallible

/-!
# The operations of the mission store

Each operation keeps what a transition keeps. Most only close items. An append adds pending items and
edges that start at them, an approval parks the item that it is for, and a decision settles it.
-/

namespace Deckent.Mission

variable {runtime : JsonRuntime} {contract : ApprovalContract} {now : Int} {db next : MissionDb}

/-! ### Quarantine -/

theorem closes_reconcileUnsupportedKinds (db : MissionDb) (now : Int) (itemId : Option String) :
    Closes db (db.reconcileUnsupportedKinds now itemId) := by
  refine closes_updateItems fun row _ hselects => ?_
  simp only [Bool.and_eq_true] at hselects
  exact closed_closed hselects.1.1 (.inl rfl) _ now

theorem triggerQuarantine_eq_some {row : WorkItemRow} {status : WorkItemStatus} {result : Json}
    (hquarantine : triggerQuarantine runtime row = some (status, result)) :
    (status = .failed ∨ status = .parked) ∧ classifyPersistedTrigger row.trigger ≠ .oneOff := by
  unfold triggerQuarantine at hquarantine
  cases htrigger : classifyPersistedTrigger row.trigger with
  | oneOff => simp [htrigger] at hquarantine
  | occurrenceAuthorityRequired triggerType =>
      simp only [htrigger, Option.some.injEq, Prod.mk.injEq] at hquarantine
      exact ⟨.inr hquarantine.1.symm, by simp⟩
  | invalid triggerType =>
      simp only [htrigger, Option.some.injEq, Prod.mk.injEq] at hquarantine
      exact ⟨.inl hquarantine.1.symm, by simp⟩

theorem triggerQuarantine_eq_none {row : WorkItemRow}
    (hquarantine : triggerQuarantine runtime row = none) :
    classifyPersistedTrigger row.trigger = .oneOff := by
  unfold triggerQuarantine at hquarantine
  cases htrigger : classifyPersistedTrigger row.trigger with
  | oneOff => rfl
  | occurrenceAuthorityRequired triggerType => simp [htrigger] at hquarantine
  | invalid triggerType => simp [htrigger] at hquarantine

theorem closes_reconcileNonExecutableTriggers (db : MissionDb) (itemId : Option String) :
    Closes db (db.reconcileNonExecutableTriggers runtime now itemId) := by
  refine closes_updateItems fun row _ hselects => ?_
  simp only [Bool.and_eq_true] at hselects
  cases hquarantine : triggerQuarantine runtime row with
  | none => simp [hquarantine] at hselects
  | some entry =>
      obtain ⟨status, result⟩ := entry
      have hstatus := (triggerQuarantine_eq_some hquarantine).1
      exact closed_closed hselects.1.1 (hstatus.imp_right .inr) _ now

theorem closes_quarantine (db : MissionDb) (itemId : Option String) :
    Closes db (db.quarantine runtime now itemId) :=
  (closes_reconcileUnsupportedKinds db now itemId).trans
    (closes_reconcileNonExecutableTriggers _ itemId)

theorem oneOff_of_reconcileNonExecutableTriggers {itemId : Option String} {row : WorkItemRow}
    (hrow : row ∈ (db.reconcileNonExecutableTriggers runtime now itemId).items)
    (hconcerns : row.concerns itemId = true) (hpending : row.status = .pending) :
    classifyPersistedTrigger row.trigger = .oneOff := by
  unfold MissionDb.reconcileNonExecutableTriggers MissionDb.updateItems at hrow
  obtain ⟨earlier, hearlier, hset⟩ := List.mem_map.mp hrow
  cases hquarantine : triggerQuarantine runtime earlier with
  | none =>
      simp only [hquarantine, Option.any_none, Bool.and_false, Bool.false_eq_true, if_false] at hset
      subst hset
      exact triggerQuarantine_eq_none hquarantine
  | some entry =>
      obtain ⟨status, result⟩ := entry
      have hstatus := (triggerQuarantine_eq_some hquarantine).1
      simp only [hquarantine, Option.any_some] at hset
      split at hset
      · subst hset
        -- a row that the quarantine selects is not pending any more
        rw [show (earlier.closed status (some result) now).status = status from rfl] at hpending
        simp [hpending] at hstatus
      · next hkept =>
          subst hset
          simp only [hpending, WorkItemStatus.isOpen, hconcerns, Bool.true_and,
            Bool.not_eq_true', Bool.not_eq_true, Bool.not_eq_false', Bool.not_eq_false,
            WorkItemRow.isQuarantined, Bool.and_eq_true, decide_eq_true_eq] at hkept
          obtain rfl : WorkItemStatus.pending = status := hkept.1.1.1
          simp at hstatus

theorem closes_admitRow {registry : MissionRunnerRegistry} {row : WorkItemRow}
    (hadmitted : db.admitRow runtime now registry row = .ok next) : Closes db next := by
  unfold MissionDb.admitRow at hadmitted
  split at hadmitted
  · obtain rfl := Except.ok.inj hadmitted
    exact .refl db
  · obtain ⟨verdict, -, hadmitted⟩ := bind_eq_ok.mp hadmitted
    cases verdict with
    | none =>
        obtain rfl := Except.ok.inj hadmitted
        exact .refl db
    | some rejection =>
        simp only at hadmitted
        split at hadmitted
        · obtain rfl := Except.ok.inj hadmitted
          exact .refl db
        · obtain rfl := Except.ok.inj hadmitted
          refine closes_updateItems fun other _ hselects => ?_
          simp only [Bool.and_eq_true] at hselects
          refine closed_closed hselects.2 ?_ _ now
          cases rejection.disposition with
          | failed => exact .inl rfl
          | parked => exact .inr (.inr rfl)

theorem closes_admitRows (registry : MissionRunnerRegistry) (rows : List WorkItemRow)
    (db : MissionDb) : Closes db (admitRows runtime now registry rows db).1 := by
  induction rows generalizing db with
  | nil => exact .refl db
  | cons row rest ih =>
      rw [admitRows]
      split
      · next middle hadmitted => exact (closes_admitRow hadmitted).trans (ih middle)
      · exact .refl db

theorem closes_reconcileRuntimeAdmission (db : MissionDb) (registry : MissionRunnerRegistry)
    (itemId : Option String) :
    Closes db (db.reconcileRuntimeAdmission runtime now registry itemId).1 := by
  have hkinds := closes_reconcileUnsupportedKinds db now itemId
  have hrows : Closes _ (admitRows runtime now registry
      ((db.reconcileUnsupportedKinds now itemId).items.filter fun row =>
        row.status.isOpen && row.concerns itemId) (db.reconcileUnsupportedKinds now itemId)).1 :=
    closes_admitRows registry _ _
  unfold MissionDb.reconcileRuntimeAdmission
  simp only
  split
  · next middle hadmitted =>
      rw [hadmitted] at hrows
      exact (hkinds.trans hrows).trans (closes_reconcileNonExecutableTriggers _ itemId)
  · next middle error hadmitted =>
      rw [hadmitted] at hrows
      exact hkinds.trans hrows

/-! ### Failed dependencies -/

theorem closes_failPending (db : MissionDb) (selects : WorkItemRow → Bool) (failure : DependencyFailure) :
    Closes db (db.failPending now selects failure) := by
  refine closes_updateItems fun row _ hselects => ?_
  simp only [Bool.and_eq_true, decide_eq_true_eq] at hselects
  refine closed_closed (by rw [hselects.2]; rfl) ?_ _ now
  cases failure.status with
  | failed => exact .inl rfl
  | blocked => exact .inr (.inl rfl)

theorem closes_updateJob (db : MissionDb) (selects : ReconcileJob → Bool)
    (set : ReconcileJob → ReconcileJob) : Closes db (db.updateJob selects set) :=
  ⟨⟨id, by simp [MissionDb.updateJob], fun _ _ => .inl rfl⟩, ⟨rfl, rfl⟩, rfl, rfl, rfl⟩

theorem closes_takeTurn (db : MissionDb) (job : ReconcileJob) (dependants : List String) :
    Closes db (db.takeTurn now job dependants) := by
  refine .trans ?_ (closes_updateJob _ _ _)
  split
  · exact closes_foldl (fun db _ => closes_failPending db _ _) dependants db
  · exact .refl db

theorem closes_drainQueue (maxEdgesPerJob fuel remainingBudget : Nat) (db : MissionDb) :
    Closes db (MissionDb.drainQueue now maxEdgesPerJob fuel remainingBudget db) := by
  induction fuel generalizing remainingBudget db with
  | zero => exact .refl db
  | succ fuel ih =>
      rw [MissionDb.drainQueue]
      split
      · exact .refl db
      · split
        · exact .refl db
        · split
          · exact (closes_updateJob db _ _).trans (ih _ _)
          · exact (closes_takeTurn db _ _).trans (ih _ _)

theorem closes_reconcilePendingDependencies (db : MissionDb) (opts : DependencyReconciliationOptions) :
    Closes db (db.reconcilePendingDependencies runtime now opts).1 := by
  unfold MissionDb.reconcilePendingDependencies
  split
  · exact .refl db
  · have hquarantine : Closes db (db.quarantine runtime now none) := closes_quarantine db none
    refine hquarantine.trans (.trans ?_ (closes_drainQueue _ _ _ _))
    exact closes_foldl
      (fun db _ => closes_foldl (fun db _ => closes_failPending db _ _) _ db) _ _

/-! ### Appends -/

theorem dependsOn_eq (db : MissionDb) (row : WorkItemRow) :
    db.dependsOn row = if (db.authority? row.missionId).isSome
      then db.normalizedDependencies row.missionId row.id else row.dependsOn.getD [] := by
  unfold MissionDb.dependsOn
  cases db.authority? row.missionId with
  | none => rfl
  | some authority => rfl

theorem isSome_mission?_iff {id : String} :
    (db.mission? id).isSome = true ↔ id ∈ db.missions.map (·.id) := by
  simp [MissionDb.mission?, List.find?_isSome]

theorem isSome_item?_iff {id : String} : (db.item? id).isSome = true ↔ id ∈ db.items.map (·.id) := by
  simp [MissionDb.item?, List.find?_isSome]

theorem keeps_extend (hsound : Sound db) {rows : List WorkItemRow}
    (hitems : next.items = db.items ++ rows) (hnodup : (next.items.map (·.id)).Nodup)
    (hpending : ∀ row ∈ rows, row.status = .pending)
    (hmission : ∀ row ∈ rows, row.missionId ∈ next.missions.map (·.id))
    (hmissions : db.missions.map (·.id) ⊆ next.missions.map (·.id))
    (happrovals : next.approvals = db.approvals)
    (hdependsOn : ∀ row ∈ db.items, next.dependsOn row = db.dependsOn row) : Keeps db next := by
  refine Transition.keeps hsound ?_
  constructor
  case rows =>
    intro successor hsuccessor
    rw [hitems] at hsuccessor
    obtain hold | hnew := List.mem_append.mp hsuccessor
    · exact .inl ⟨successor, hold, .refl db successor⟩
    · exact .inr (hpending successor hnew)
  case kept =>
    intro row hrow
    exact ⟨row, by rw [hitems]; exact List.mem_append_left _ hrow, .refl db row⟩
  case nodup_items => exact hnodup
  case mission =>
    intro row hrow
    rw [hitems] at hrow
    obtain hold | hnew := List.mem_append.mp hrow
    · exact hmissions (hsound.mission row hold)
    · exact hmission row hnew
  case dependsOn =>
    intro row hrow successor _ hsame
    rw [← hdependsOn row hrow, dependsOn_eq, dependsOn_eq, hsame.missionId, hsame.id, hsame.dependsOn]
  case approvals => exact approvalsSucceed_of_eq hsound happrovals

structure Inserts (rows : List WorkItemRow) (db next : MissionDb) : Prop where
  items : next.items = db.items ++ rows
  nodup : (db.items.map (·.id)).Nodup → (next.items.map (·.id)).Nodup
  mission : ∀ row ∈ rows, row.missionId ∈ db.missions.map (·.id)
  graph : SameGraph db next
  missions : next.missions = db.missions
  approvals : next.approvals = db.approvals

theorem inserts_of_insertItem {item : NewWorkItem} {row : WorkItemRow}
    (hinsert : db.insertItem item row = .ok next) : Inserts [row] db next := by
  unfold MissionDb.insertItem at hinsert
  split at hinsert
  · cases hinsert
  · next hfresh =>
      rw [isSome_item?_iff] at hfresh
      split at hinsert
      · cases hinsert
      · next hmission =>
          rw [Option.isNone_iff_eq_none, ← Option.not_isSome_iff_eq_none, not_not,
            isSome_mission?_iff] at hmission
          obtain rfl := Except.ok.inj hinsert
          refine ⟨rfl, ?_, by simpa using hmission, ⟨rfl, rfl⟩, rfl, rfl⟩
          intro hnodup
          rw [List.map_append]
          refine hnodup.append (List.nodup_singleton _) ?_
          simpa using hfresh

theorem inserts_of_insertItems {pairs : List (NewWorkItem × WorkItemRow)}
    (hinsert : insertItems pairs db = .ok next) : Inserts (pairs.map Prod.snd) db next := by
  induction pairs generalizing db with
  | nil =>
      obtain rfl := Except.ok.inj hinsert
      exact ⟨by simp, id, by simp, .refl db, rfl, rfl⟩
  | cons pair rest ih =>
      obtain ⟨middle, hfirst, hrest⟩ := bind_eq_ok.mp hinsert
      have hfirst := inserts_of_insertItem hfirst
      have hrest := ih hrest
      refine ⟨?_, fun hnodup => hrest.nodup (hfirst.nodup hnodup), ?_, ?_,
        hrest.missions.trans hfirst.missions, hrest.approvals.trans hfirst.approvals⟩
      · rw [hrest.items, hfirst.items, List.append_assoc, List.singleton_append, List.map_cons]
      · intro row hrow
        obtain rfl | hrow := List.mem_cons.mp hrow
        · exact hfirst.mission pair.2 List.mem_cons_self
        · rw [← hfirst.missions]
          exact hrest.mission row hrow
      · exact ⟨hrest.graph.authorities.trans hfirst.graph.authorities,
          hrest.graph.edges.trans hfirst.graph.edges⟩

structure GraphsFor (ids : List String) (db next : MissionDb) : Prop where
  items : next.items = db.items
  missions : next.missions = db.missions
  approvals : next.approvals = db.approvals
  fences : next.fences = db.fences
  authority : ∀ missionId, (next.authority? missionId).isSome = (db.authority? missionId).isSome
  edges : ∀ missionId id, id ∉ ids →
    next.normalizedDependencies missionId id = db.normalizedDependencies missionId id

theorem GraphsFor.refl (ids : List String) (db : MissionDb) : GraphsFor ids db db :=
  ⟨rfl, rfl, rfl, rfl, fun _ => rfl, fun _ _ _ => rfl⟩

theorem GraphsFor.trans {ids : List String} {last : MissionDb} (hfirst : GraphsFor ids db next)
    (hsecond : GraphsFor ids next last) : GraphsFor ids db last where
  items := hsecond.items.trans hfirst.items
  missions := hsecond.missions.trans hfirst.missions
  approvals := hsecond.approvals.trans hfirst.approvals
  fences := hsecond.fences.trans hfirst.fences
  authority := fun missionId => (hsecond.authority missionId).trans (hfirst.authority missionId)
  edges := fun missionId id hid => (hsecond.edges missionId id hid).trans (hfirst.edges missionId id hid)

theorem graphsFor_insertEdges {ids : List String} {edges : List DependencyEdge} (db : MissionDb)
    (hedges : ∀ edge ∈ edges, edge.workItemId ∈ ids) : GraphsFor ids db (db.insertEdges edges) := by
  refine ⟨rfl, rfl, rfl, rfl, fun _ => rfl, ?_⟩
  intro missionId id hid
  have hnone : (edges.filter fun edge => edge.missionId = missionId && edge.workItemId = id) = [] := by
    rw [List.filter_eq_nil_iff]
    intro edge hedge hmatches
    simp only [Bool.and_eq_true, decide_eq_true_eq] at hmatches
    exact hid (hmatches.2 ▸ hedges edge hedge)
  unfold MissionDb.normalizedDependencies MissionDb.insertEdges
  rw [List.filter_append, hnone, List.append_nil]

theorem graphsFor_authorities (ids : List String) (db : MissionDb)
    {set : GraphAuthorityRow → GraphAuthorityRow} (hset : ∀ row, (set row).missionId = row.missionId) :
    GraphsFor ids db { db with authorities := db.authorities.map set } := by
  refine ⟨rfl, rfl, rfl, rfl, ?_, fun _ _ _ => rfl⟩
  intro missionId
  simp [MissionDb.authority?, List.find?_map, Function.comp_def, hset]

theorem graphsFor_updateGraph (ids : List String) (db : MissionDb) (missionId : String)
    (graphRevision : Nat) : GraphsFor ids db (db.updateGraph runtime missionId graphRevision) := by
  refine graphsFor_authorities ids db fun row => ?_
  split <;> rfl

theorem graphsFor_setGraphDigest (ids : List String) (db : MissionDb) (missionId digest : String) :
    GraphsFor ids db (db.setGraphDigest missionId digest) := by
  refine graphsFor_authorities ids db fun row => ?_
  split <;> rfl

theorem graphsFor_seedTerminalDependencyJobs (ids : List String) (db : MissionDb) (missionId : String) :
    GraphsFor ids db (db.seedTerminalDependencyJobs now missionId) :=
  ⟨rfl, rfl, rfl, rfl, fun _ => rfl, fun _ _ _ => rfl⟩

theorem keeps_append (hsound : Sound db) {rows : List WorkItemRow} {middle : MissionDb}
    (hinserts : Inserts rows db middle) (hpending : ∀ row ∈ rows, row.status = .pending)
    (hgraphs : GraphsFor (rows.map (·.id)) middle next) : Keeps db next := by
  have hitems : next.items = db.items ++ rows := hgraphs.items.trans hinserts.items
  have hnodup : (next.items.map (·.id)).Nodup := by
    rw [hgraphs.items]
    exact hinserts.nodup hsound.nodup_items
  have hmissions : next.missions = db.missions := hgraphs.missions.trans hinserts.missions
  refine keeps_extend hsound hitems hnodup hpending ?_ ?_
    (hgraphs.approvals.trans hinserts.approvals) ?_
  · rw [hmissions]
    exact hinserts.mission
  · rw [hmissions]
    exact List.Subset.refl _
  · intro row hrow
    have hfresh : row.id ∉ rows.map (·.id) := by
      rw [hitems, List.map_append] at hnodup
      exact fun hmem => List.disjoint_of_nodup_append hnodup (List.mem_map_of_mem hrow) hmem
    have hsame := hinserts.graph.dependsOn (.refl row)
    rw [← hsame, dependsOn_eq, dependsOn_eq, hgraphs.authority, hgraphs.edges _ _ hfresh]

theorem edges_of_validateNormalizedAppend {authority : GraphAuthorityRow} {items : List NewWorkItem}
    {append : List DependencyEdge × Nat}
    (happend : db.validateNormalizedAppend runtime authority items = .ok append) :
    ∀ edge ∈ append.1, edge.workItemId ∈ items.map (·.id) := by
  unfold MissionDb.validateNormalizedAppend at happend
  split at happend
  · cases happend
  · obtain ⟨edges, -, rfl⟩ := exceptMap_eq_ok.mp happend
    intro edge hedge
    have hstart := (List.mem_filter.mp hedge).2
    simp only [List.any_eq_true, decide_eq_true_eq] at hstart
    exact List.mem_map.mpr hstart

theorem keeps_appendItem (hsound : Sound db) {item : NewWorkItem}
    (happend : db.appendItem runtime now item = .ok next) : Keeps db next := by
  unfold MissionDb.appendItem at happend
  split at happend
  · split at happend
    · obtain rfl := Except.ok.inj happend
      exact .refl hsound
    · exact keeps_append hsound (inserts_of_insertItem happend)
        (by simp [NewWorkItem.row]) (.refl _ _)
  · obtain ⟨append, hedges, happend⟩ := bind_eq_ok.mp happend
    split at happend
    · cases happend
    · obtain ⟨inserted, hinsert, rfl⟩ := exceptMap_eq_ok.mp happend
      refine keeps_append hsound (inserts_of_insertItem hinsert) (by simp [NewWorkItem.row]) ?_
      exact (graphsFor_insertEdges inserted (edges_of_validateNormalizedAppend hedges)).trans
        (graphsFor_updateGraph _ _ _ _)

theorem keeps_enqueueItem (hsound : Sound db) {item : NewWorkItem}
    (henqueue : db.enqueueItem runtime now item = .ok next) : Keeps db next := by
  obtain ⟨_, -, henqueue⟩ := bind_eq_ok.mp henqueue
  obtain ⟨_, -, henqueue⟩ := bind_eq_ok.mp henqueue
  obtain ⟨_, -, henqueue⟩ := bind_eq_ok.mp henqueue
  exact keeps_appendItem hsound henqueue

theorem edges_of_appends {items : List NewWorkItem} {missionIds : List String}
    {appends : List (String × List DependencyEdge × Nat)}
    (happends : db.appends runtime items missionIds = .ok appends) :
    ∀ append ∈ appends, ∀ edge ∈ append.2.1, edge.workItemId ∈ items.map (·.id) := by
  induction missionIds generalizing appends with
  | nil =>
      obtain rfl := Except.ok.inj happends
      simp
  | cons missionId rest ih =>
      rw [MissionDb.appends] at happends
      split at happends
      · exact ih happends
      · obtain ⟨first, hfirst, happends⟩ := bind_eq_ok.mp happends
        obtain ⟨others, hothers, happends⟩ := bind_eq_ok.mp happends
        obtain rfl := Except.ok.inj happends
        intro append happend edge hedge
        obtain rfl | happend := List.mem_cons.mp happend
        · have hstart := edges_of_validateNormalizedAppend hfirst edge hedge
          exact List.map_subset _ (List.filter_subset_self _) hstart
        · exact ih hothers append happend edge hedge

theorem graphsFor_foldl {ids : List String} {appends : List (String × List DependencyEdge × Nat)}
    (hedges : ∀ append ∈ appends, ∀ edge ∈ append.2.1, edge.workItemId ∈ ids) (db : MissionDb) :
    GraphsFor ids db (appends.foldl (fun db append =>
      (db.insertEdges append.2.1).updateGraph runtime append.1 append.2.2) db) := by
  induction appends generalizing db with
  | nil => exact .refl ids db
  | cons append rest ih =>
      have hfirst := graphsFor_insertEdges db (hedges append List.mem_cons_self)
      exact (hfirst.trans (graphsFor_updateGraph _ _ _ _)).trans
        (ih (fun other hother => hedges other (List.mem_cons_of_mem _ hother)) _)

theorem keeps_enqueueItems (hsound : Sound db) {items : List NewWorkItem}
    (henqueue : db.enqueueItems runtime now items = .ok next) : Keeps db next := by
  obtain ⟨_, -, henqueue⟩ := bind_eq_ok.mp henqueue
  obtain ⟨appends, happends, hinsert⟩ := bind_eq_ok.mp (mapError_eq_ok.mp henqueue)
  obtain ⟨middle, hinserted, hnext⟩ := bind_eq_ok.mp hinsert
  obtain rfl := Except.ok.inj hnext
  refine keeps_append hsound (inserts_of_insertItems hinserted) ?_ ?_
  · simp [NewWorkItem.row]
  · refine graphsFor_foldl (fun append happend edge hedge => ?_) middle
    simpa [Function.comp_def, NewWorkItem.row] using edges_of_appends happends append happend edge hedge

/-! ### Missions -/

theorem createMission_eq_ok {normalized : Bool} {mission : NewMission}
    (hcreate : db.createMission runtime now normalized mission = .ok next) :
    mission.id ∉ db.missions.map (·.id) ∧ ∃ authorities : List GraphAuthorityRow,
      (∀ authority ∈ authorities, authority.missionId = mission.id)
        ∧ next = { db with
          missions := db.missions ++ [mission.row now]
          authorities := db.authorities ++ authorities } := by
  unfold MissionDb.createMission at hcreate
  split at hcreate
  · cases hcreate
  · next hfresh =>
      rw [isSome_mission?_iff] at hfresh
      refine ⟨hfresh, _, ?_, (Except.ok.inj hcreate).symm⟩
      split <;> simp

theorem keeps_createMission (hsound : Sound db) {normalized : Bool} {mission : NewMission}
    (hcreate : db.createMission runtime now normalized mission = .ok next) : Keeps db next := by
  obtain ⟨hfresh, authorities, hauthorities, rfl⟩ := createMission_eq_ok hcreate
  refine keeps_extend hsound (List.append_nil _).symm hsound.nodup_items (by simp) (by simp) ?_ rfl ?_
  · rw [List.map_append]
    exact List.subset_append_left _ _
  · intro row hrow
    -- the new mission has no items, so no item gets a graph that it did not have
    have hother : mission.id ≠ row.missionId := by
      rintro heq
      exact hfresh (heq ▸ hsound.mission row hrow)
    have hnone : authorities.find? (·.missionId = row.missionId) = none := by
      rw [List.find?_eq_none]
      intro authority hauthority
      simpa [hauthorities authority hauthority] using hother
    rw [dependsOn_eq, dependsOn_eq]
    unfold MissionDb.authority? MissionDb.normalizedDependencies
    rw [List.find?_append, hnone, Option.or_none]

theorem edges_of_graphEdges {missionId : String} {definitions : List (String × List String)}
    {edge : DependencyEdge} (hedge : edge ∈ graphEdges runtime missionId definitions) :
    edge.workItemId ∈ definitions.map Prod.fst := by
  unfold graphEdges at hedge
  rw [mem_sortBy, List.mem_flatMap] at hedge
  obtain ⟨definition, hdefinition, hedge⟩ := hedge
  obtain ⟨dependency, -, rfl⟩ := List.mem_map.mp hedge
  exact List.mem_map_of_mem hdefinition

theorem graphsFor_addBatchGraph {mission : NewMission} {items : List NewMissionWorkItem}
    (hadd : db.addBatchGraph runtime now mission items = .ok next) :
    GraphsFor (items.map (·.id)) db next := by
  obtain ⟨edges, hvalidate, rfl⟩ := exceptMap_eq_ok.mp hadd
  obtain ⟨_, -, hedges⟩ := bind_eq_ok.mp hvalidate
  obtain rfl := Except.ok.inj hedges
  have hstart : ∀ edge ∈ graphEdges runtime mission.id (batchGraph items),
      edge.workItemId ∈ items.map (·.id) := by
    intro edge hedge
    have hmem := edges_of_graphEdges hedge
    rwa [batchGraph, List.map_map] at hmem
  exact ((graphsFor_setGraphDigest _ db _ _).trans (graphsFor_insertEdges _ hstart)).trans
    (graphsFor_seedTerminalDependencyJobs _ _ _)

theorem keeps_createBatch (hsound : Sound db) {normalized : Bool} {mission : NewMission}
    {items : List NewMissionWorkItem} (hpending : ∀ item ∈ items, item.initialStatus = none)
    (hcreate : db.createBatch runtime now normalized mission items = .ok next) : Keeps db next := by
  unfold MissionDb.createBatch at hcreate
  split at hcreate
  · split at hcreate
    · cases hcreate
    · split at hcreate
      · obtain rfl := Except.ok.inj hcreate
        exact .refl hsound
      · cases hcreate
  · obtain ⟨created, hmission, hcreate⟩ := bind_eq_ok.mp hcreate
    obtain ⟨inserted, hinsert, hcreate⟩ := bind_eq_ok.mp hcreate
    have hkeeps := keeps_createMission hsound hmission
    have hrows : ∀ row ∈ (items.map fun item =>
        (item.toNewWorkItem, item.initialRow now normalized)).map Prod.snd, row.status = .pending := by
      intro row hrow
      rw [List.map_map] at hrow
      obtain ⟨item, hitem, rfl⟩ := List.mem_map.mp hrow
      simp [NewMissionWorkItem.initialRow, NewWorkItem.row, hpending item hitem]
    refine hkeeps.trans (keeps_append hkeeps.sound (inserts_of_insertItems hinsert) hrows ?_)
    split at hcreate
    · simpa [Function.comp_def, NewMissionWorkItem.initialRow, NewWorkItem.row]
        using graphsFor_addBatchGraph hcreate
    · obtain rfl := Except.ok.inj hcreate
      exact .refl _ _

theorem keeps_createMissionWithItems (hsound : Sound db) {normalized allowLegacy : Bool}
    {mission : NewMission} {items : List NewMissionWorkItem}
    (hpending : ∀ item ∈ items, item.initialStatus = none)
    (hcreate : db.createMissionWithItems runtime now normalized allowLegacy mission items = .ok next) :
    Keeps db next := by
  obtain ⟨_, -, hcreate⟩ := bind_eq_ok.mp hcreate
  refine keeps_createBatch hsound ?_ (mapError_eq_ok.mp hcreate)
  intro item hitem
  obtain ⟨original, horiginal, rfl⟩ := List.mem_map.mp hitem
  exact hpending original horiginal

theorem keeps_updateMissionStatus (hsound : Sound db) (id : String) (status : MissionStatus)
    (result : Option Json) : Keeps db (db.updateMissionStatus now id status result) := by
  refine keeps_of_items_eq hsound rfl ⟨rfl, rfl⟩ ?_ (approvalsSucceed_of_eq hsound rfl)
  unfold MissionDb.updateMissionStatus
  rw [List.map_map]
  refine List.map_congr_left fun mission _ => ?_
  simp only [Function.comp_apply]
  split <;> rfl

/-! ### Approvals -/

theorem closes_parkCandidate (db : MissionDb) (itemId : String) (result : Option Json) :
    Closes db (db.parkCandidate now itemId result) := by
  refine closes_updateItems fun row _ hselects => ?_
  simp only [MissionDb.isApprovalCandidate, Bool.and_eq_true, decide_eq_true_eq] at hselects
  exact closed_closed (by rw [hselects.1.1.1.2]; rfl) (.inr (.inr rfl)) _ now

theorem closes_parkInvalidApprovalCandidate (db : MissionDb) (itemId reason : String) :
    Closes db (db.parkInvalidApprovalCandidate runtime now itemId reason).1 :=
  (closes_quarantine db (some itemId)).trans (closes_parkCandidate _ itemId _)

theorem exists_of_changes_eq_one {selects : WorkItemRow → Bool} (hchanges : db.changes selects = 1) :
    ∃ row ∈ db.items, selects row = true := by
  obtain ⟨row, hrow⟩ := List.length_eq_one_iff.mp hchanges
  have hmem : row ∈ db.items.filter selects := by
    rw [hrow]
    exact List.mem_singleton_self row
  exact ⟨row, List.mem_filter.mp hmem⟩

theorem checkApprovalBinding_eq_ok {row binding : ApprovalRow}
    (hcheck : checkApprovalBinding contract row = .ok binding) : binding = row := by
  unfold checkApprovalBinding at hcheck
  split at hcheck
  · cases hcheck
  · split at hcheck
    · cases hcheck
    · exact (Except.ok.inj hcheck).symm

theorem insertApproval_eq_ok {row : ApprovalRow} (hinsert : db.insertApproval row = .ok next) :
    row.workItemId ∉ db.approvals.map (·.workItemId) ∧ row.requestId ∉ db.approvals.map (·.requestId)
      ∧ next = { db with approvals := db.approvals ++ [row] } := by
  unfold MissionDb.insertApproval at hinsert
  split at hinsert
  · cases hinsert
  · next hitem =>
      split at hinsert
      · cases hinsert
      · next hrequest =>
          exact ⟨by simpa using hitem, by simpa using hrequest, (Except.ok.inj hinsert).symm⟩

/-- A candidate is parked together with the request for it. -/
theorem keeps_parkWithRequest (hsound : Sound db) {itemId : String} {request : ApprovalRequest}
    (hchanges : db.changes (db.isApprovalCandidate itemId) = 1)
    (hinsert : (db.parkCandidate now itemId none).insertApproval (newApprovalRow now itemId request)
      = .ok next) : Keeps db next := by
  obtain ⟨hitem, hrequest, rfl⟩ := insertApproval_eq_ok hinsert
  change _ ∉ db.approvals.map _ at hitem hrequest
  obtain ⟨row, hrow, hcandidate⟩ := exists_of_changes_eq_one hchanges
  have hfields := hcandidate
  simp only [MissionDb.isApprovalCandidate, Bool.and_eq_true, decide_eq_true_eq] at hfields
  obtain ⟨⟨⟨⟨hid, hpending⟩, hpolicy⟩, -⟩, -⟩ := hfields
  refine Transition.keeps hsound (transition_map hsound rfl ?_ ⟨rfl, rfl⟩ rfl ?_)
  · intro other hother
    split
    · next hselects =>
        simp only [MissionDb.isApprovalCandidate, Bool.and_eq_true, decide_eq_true_eq] at hselects
        exact (closed_closed (by rw [hselects.1.1.1.2]; rfl) (.inr (.inr rfl)) _ now).succeeds db
    · exact .refl db other
  · constructor
    case nodup_items =>
      rw [List.map_append]
      exact hsound.nodup_approvals.append (List.nodup_singleton _) (by simpa using hitem)
    case nodup_requests =>
      rw [List.map_append]
      exact hsound.nodup_requests.append (List.nodup_singleton _) (by simpa using hrequest)
    case origin =>
      intro approval happroval
      obtain hold | hnew := List.mem_append.mp happroval
      · exact .inl ⟨approval, hold, rfl, id⟩
      · obtain rfl := List.mem_singleton.mp hnew
        refine .inr ⟨row, hrow, hid, ?_, hpending, ?_⟩
        · intro hauto
          rw [hauto] at hpolicy
          cases hpolicy
        · intro successor hsuccessor hsame
          obtain ⟨other, hother, rfl⟩ := List.mem_map.mp hsuccessor
          have hother_id : other.id = row.id := by
            rw [← hsame]
            split <;> rfl
          obtain rfl := hsound.row_unique hother hrow hother_id
          rw [if_pos hcandidate]
          simp [WorkItemRow.closed]
    case allowed =>
      rintro id ⟨approval, happroval, hmatches⟩
      exact ⟨approval, List.mem_append_left _ happroval, hmatches⟩

theorem keeps_bindApproval (hsound : Sound db) {itemId : String} {request : ApprovalRequest}
    {answer : Option ApprovalRow}
    (hbind : db.bindApproval contract now itemId request = .ok (answer, next)) : Keeps db next := by
  unfold MissionDb.bindApproval at hbind
  split at hbind
  · obtain ⟨binding, -, hbind⟩ := bind_eq_ok.mp hbind
    split at hbind
    · cases hbind
    · obtain ⟨-, rfl⟩ := Prod.mk.inj (Except.ok.inj hbind)
      exact .refl hsound
  · split at hbind
    · obtain ⟨-, rfl⟩ := Prod.mk.inj (Except.ok.inj hbind)
      exact (closes_parkCandidate db itemId none).keeps hsound
    · next hchanges =>
        obtain ⟨inserted, hinsert, hbind⟩ := bind_eq_ok.mp hbind
        obtain ⟨binding, -, hbind⟩ := bind_eq_ok.mp hbind
        obtain ⟨-, rfl⟩ := Prod.mk.inj (Except.ok.inj hbind)
        exact keeps_parkWithRequest hsound (not_not.mp hchanges) hinsert

theorem keeps_transaction (hsound : Sound db) {α : Type} {body : Except String (α × MissionDb)}
    (hbody : ∀ answer next, body = .ok (answer, next) → Keeps db next) :
    Keeps db (transaction db body).1 := by
  cases body with
  | error error => exact .refl hsound
  | ok result =>
      obtain ⟨answer, next⟩ := result
      exact hbody answer next rfl

theorem keeps_parkItemForApproval (hsound : Sound db) (itemId : String) (request : ApprovalRequest) :
    Keeps db (db.parkItemForApproval runtime contract now itemId request).1 := by
  have hquarantine : Keeps db (db.quarantine runtime now (some itemId)) :=
    (closes_quarantine db _).keeps hsound
  refine hquarantine.trans (keeps_transaction hquarantine.sound fun answer next hbody => ?_)
  exact keeps_bindApproval hquarantine.sound (mapError_eq_ok.mp hbody)

theorem keeps_markApprovalPublished (hsound : Sound db) (requestId : String) :
    Keeps db (db.markApprovalPublished now requestId) := by
  refine keeps_of_items_eq hsound rfl ⟨rfl, rfl⟩ rfl (approvalsSucceed_map hsound rfl ?_ ?_ ?_ ?_)
  · intro row
    split <;> rfl
  · intro row
    split <;> rfl
  · intro row hpending
    split at hpending <;> exact hpending
  · intro row _ hallowed
    split <;> exact hallowed

theorem itemStatus_ne_running (state : SettledApproval) : state.itemStatus ≠ .running := by
  cases state <;> simp [SettledApproval.itemStatus]

theorem state_ne_pending (state : SettledApproval) : state.state ≠ .pending := by
  cases state <;> simp [SettledApproval.state]

/-- A decision on a pending request. -/
theorem keeps_settleApproval (hsound : Sound db) {binding : ApprovalRow} (hbinding : binding ∈ db.approvals)
    (hpending : binding.decisionState = .pending) (state : SettledApproval)
    (decision : ApprovalDecision) (result : Option Json) :
    Keeps db ((db.updateItems (·.awaitsDecision binding.workItemId) fun item =>
      item.closed state.itemStatus result now).settleApproval now binding.requestId state decision) := by
  refine Transition.keeps hsound (transition_map hsound rfl ?_ ⟨rfl, rfl⟩ rfl
    (approvalsSucceed_map hsound rfl ?_ ?_ ?_ ?_))
  · intro row hrow
    split
    · next hawaits =>
        simp only [WorkItemRow.awaitsDecision, Bool.and_eq_true, Bool.or_eq_true,
          decide_eq_true_eq] at hawaits
        obtain ⟨hid, hopen⟩ := hawaits
        refine ⟨⟨rfl, rfl, rfl, rfl, rfl⟩, ?_, ?_, ?_⟩
        · intro hterminal
          obtain hparked | hpending := hopen
          · rw [hparked] at hterminal
            cases hterminal
          · rw [hpending] at hterminal
            cases hterminal
        · intro _
          exact .inr ⟨binding, hbinding, hid.symm, hpending⟩
        · intro hrunning
          exact absurd hrunning (itemStatus_ne_running state)
    · exact .refl db row
  · intro row
    split <;> rfl
  · intro row
    split <;> rfl
  · intro row hrow
    split at hrow
    · exact absurd hrow (state_ne_pending state)
    · exact hrow
  · intro row hrow hallowed
    split
    · next hrequest =>
        -- the request is the one that is pending
        obtain rfl := List.inj_on_of_nodup_map hsound.nodup_requests hrow hbinding hrequest
        rw [hpending] at hallowed
        cases hallowed
    · exact hallowed

theorem keeps_decideApproval (hsound : Sound db) {requestId : String} {state : SettledApproval}
    {decision : ApprovalDecision} {answer : Option Bool}
    (hdecide : db.decideApproval runtime contract now requestId state decision = .ok (answer, next)) :
    Keeps db next := by
  unfold MissionDb.decideApproval at hdecide
  split at hdecide
  · obtain ⟨-, rfl⟩ := Prod.mk.inj (Except.ok.inj hdecide)
    exact .refl hsound
  · next row hfound =>
      obtain ⟨binding, hcheck, hsettle⟩ := bind_eq_ok.mp hdecide
      obtain rfl := checkApprovalBinding_eq_ok hcheck
      have hrequest := List.find?_some hfound
      simp only [Bool.and_eq_true, decide_eq_true_eq] at hrequest
      split at hsettle
      · next hpending =>
          obtain ⟨-, rfl⟩ := Prod.mk.inj (Except.ok.inj hsettle)
          rw [← hrequest.1]
          exact keeps_settleApproval hsound (List.mem_of_find?_eq_some hfound) hpending state decision _
      · split at hsettle
        · cases hsettle
        · obtain ⟨-, rfl⟩ := Prod.mk.inj (Except.ok.inj hsettle)
          exact .refl hsound

theorem keeps_applyApprovalDecision (hsound : Sound db) (requestId : String) (state : SettledApproval)
    (decision : ApprovalDecision) :
    Keeps db (db.applyApprovalDecision runtime contract now requestId state decision).1 := by
  unfold MissionDb.applyApprovalDecision
  split
  · exact .refl hsound
  · exact keeps_transaction hsound fun answer next hbody => keeps_decideApproval hsound hbody

end Deckent.Mission
