import Deckent.Proof.MissionReplay

/-!
# Fences in the store

A fence binds the definition of an item to the registry that admitted it. What the store reads back later is the
definition that was bound, also after a migration of its mission and where a settlement rewrites the spec
together with the fence. A migration that finds no graph takes the dependencies away, and the fence no longer
fits.
-/

namespace Deckent.Mission

variable {runtime : JsonRuntime} {contract : ApprovalContract} {now : Int} {db next : MissionDb}
  {registry : MissionRunnerRegistry} {id : String}

/-! ### Texts that are canonical -/

theorem isJsSpace_of_isLowerHexDigit {c : Char} (hdigit : isLowerHexDigit c = true) : isJsSpace c = false := by
  have hrange : 0x30 ≤ c.toNat ∧ c.toNat ≤ 0x66 := by
    simp only [isLowerHexDigit, Char.isDigit, Bool.or_eq_true, Bool.and_eq_true, decide_eq_true_eq,
      Char.le_def, UInt32.le_iff_toNat_le] at hdigit
    change 48 ≤ c.val.toNat ∧ c.val.toNat ≤ 57 ∨ 97 ≤ c.val.toNat ∧ c.val.toNat ≤ 102 at hdigit
    change 48 ≤ c.val.toNat ∧ c.val.toNat ≤ 102
    omega
  rw [Bool.eq_false_iff]
  intro hspace
  simp only [isJsSpace, Bool.or_eq_true, Bool.and_eq_true, decide_eq_true_eq, List.contains_iff_mem,
    List.mem_cons, List.not_mem_nil, or_false] at hspace
  omega

theorem trim_eq_self {text : String} (hspaces : ∀ c ∈ text.toList, isJsSpace c = false) : trim text = text := by
  have hdrop : ∀ chars : List Char, (∀ c ∈ chars, isJsSpace c = false) → chars.dropWhile isJsSpace = chars := by
    intro chars hchars
    cases chars with
    | nil => rfl
    | cons c rest => rw [List.dropWhile_cons_of_neg (by simp [hchars c List.mem_cons_self])]
  unfold trim trimChars
  rw [hdrop _ hspaces, hdrop _ fun c hc => hspaces c (List.mem_reverse.mp hc), List.reverse_reverse,
    String.ofList_toList]

theorem nonEmptyCanonicalString_sha256Hex (text : String) :
    nonEmptyCanonicalString (sha256Hex text) = true := by
  have hdigest := isSha256Text_sha256Hex text
  unfold isSha256Text at hdigest
  rw [Bool.and_eq_true, decide_eq_true_eq, List.all_eq_true] at hdigest
  unfold nonEmptyCanonicalString
  rw [Bool.and_eq_true, decide_eq_true_eq, decide_eq_true_eq,
    trim_eq_self fun c hc => isJsSpace_of_isLowerHexDigit (hdigest.2 c hc)]
  refine ⟨fun hempty => ?_, rfl⟩
  rw [hempty] at hdigest
  cases hdigest.1

/-! ### Admission -/

theorem assertMissionRunnerRegistry_eq_ok (hregistry : assertMissionRunnerRegistry runtime registry = .ok ⟨⟩) :
    nonEmptyCanonicalString registry.registryRevision = true
      ∧ nonEmptyCanonicalString registry.registryDigest = true
      ∧ ∀ entry ∈ registry.runners, nonEmptyCanonicalString entry.runnerRevision = true := by
  unfold assertMissionRunnerRegistry at hregistry
  obtain ⟨hintegrity, hregistry⟩ := ite_throw_eq_ok.mp hregistry
  obtain ⟨canonical, hcanonical, -⟩ := bind_eq_ok.mp hregistry
  simp only [Bool.or_eq_true, decide_eq_true_eq, not_or, Bool.not_eq_true', Bool.not_eq_false, not_not]
    at hintegrity
  obtain ⟨⟨-, hrevision⟩, hdigest⟩ := hintegrity
  refine ⟨hrevision, ?_, fun entry hentry => ?_⟩
  · rw [hdigest]
    exact nonEmptyCanonicalString_sha256Hex _
  · unfold canonicalRunners at hcanonical
    obtain ⟨_, hloop, -⟩ := bind_eq_ok.mp hcanonical
    have hpassed := check_of_forIn (fun entry step hstep => ?_) hloop entry hentry
    · split at hpassed
      · cases hpassed
      · next hvalid =>
          simp only [Bool.or_eq_true, not_or, Bool.not_eq_true', Bool.not_eq_false] at hvalid
          exact hvalid.2
    · split at hstep
      · cases hstep
      · exact (Except.ok.inj hstep).symm

theorem runner_of_assertWorkItemAdmitted {item : WorkItemDefinition}
    (hadmitted : assertWorkItemAdmitted item registry = .ok ⟨⟩) :
    isCanonicalWorkItemKind item.kind = true ∧ ∃ runner, runnerForKind registry item.kind = some runner := by
  have hwired {code : MissionAdmissionCode}
      (hwired : (if (runnerForKind registry item.kind).isSome then .ok () else .error code)
        = (.ok ⟨⟩ : Except MissionAdmissionCode Unit)) :
      ∃ runner, runnerForKind registry item.kind = some runner := by
    split at hwired
    · next hsome => exact Option.isSome_iff_exists.mp hsome
    · cases hwired
  unfold assertWorkItemAdmitted at hadmitted
  dsimp only at hadmitted
  cases hkind : item.kind with
  | unknown name => simp [hkind] at hadmitted
  | task =>
      simp only [hkind] at hadmitted hwired
      split at hadmitted
      · exact ⟨rfl, hwired hadmitted⟩
      · cases hadmitted
  | sprint =>
      simp only [hkind] at hadmitted hwired
      obtain ⟨_, -, hadmitted⟩ := bind_eq_ok.mp hadmitted
      exact ⟨rfl, hwired hadmitted⟩
  | capability =>
      simp only [hkind] at hadmitted hwired
      split at hadmitted
      · exact ⟨rfl, hwired hadmitted⟩
      · cases hadmitted
  | process =>
      simp only [hkind] at hadmitted hwired
      split at hadmitted
      · exact ⟨rfl, hwired hadmitted⟩
      · cases hadmitted

def admittedFence (runtime : JsonRuntime) (registry : MissionRunnerRegistry)
    (runner : MissionRunnerRegistryEntry) (item : WorkItemDefinition) : WorkItemAdmissionFence where
  schemaVersion := 1
  registryRevision := registry.registryRevision
  registryDigest := registry.registryDigest
  kind := item.kind
  runnerRevision := runner.runnerRevision
  itemDefinitionDigest := computeWorkItemDefinitionDigest runtime item

/-- An item validates under a registry exactly when it is admitted by it and has the fence of that. -/
theorem admissionRejection_eq_none_iff (hregistry : assertMissionRunnerRegistry runtime registry = .ok ⟨⟩)
    {item : WorkItemDefinition} {fence : Option WorkItemAdmissionFence} :
    admissionRejection runtime item fence registry = none
      ↔ assertWorkItemAdmitted item registry = .ok ⟨⟩
        ∧ ∃ runner, runnerForKind registry item.kind = some runner
          ∧ fence = some (admittedFence runtime registry runner item) := by
  obtain ⟨hrevision, hdigest, hrunners⟩ := assertMissionRunnerRegistry_eq_ok hregistry
  constructor
  · intro hnone
    unfold admissionRejection at hnone
    cases fence with
    | none => cases hnone
    | some fence =>
        dsimp only at hnone
        split at hnone
        · cases hnone
        · next hfence =>
            split at hnone
            · cases hnone
            · next runner hrunner =>
                split at hnone
                · cases hnone
                · next hsame =>
                    split at hnone
                    · cases hnone
                    · next hbound =>
                        split at hnone
                        · cases hnone
                        · next hdefinition =>
                            split at hnone
                            · next hadmitted =>
                                refine ⟨hadmitted, runner, ?_, ?_⟩
                                · rw [if_pos (runner_of_assertWorkItemAdmitted hadmitted).1] at hrunner
                                  exact hrunner
                                · simp only [not_or, not_not] at hsame hbound hdefinition
                                  have hversion : fence.schemaVersion = 1 := by
                                    simp only [isFence, Bool.not_eq_true', Bool.not_eq_false, Bool.and_eq_true,
                                      decide_eq_true_eq] at hfence
                                    exact hfence.1.1.1.1.1
                                  obtain ⟨version, revision, digest, kind, runnerRevision, definition⟩ := fence
                                  simp only [admittedFence, Option.some.injEq,
                                    WorkItemAdmissionFence.mk.injEq]
                                  exact ⟨hversion, hsame.1, hsame.2, hbound.1, hbound.2, hdefinition⟩
                            · cases hnone
  · rintro ⟨hadmitted, runner, hrunner, rfl⟩
    have hkind := (runner_of_assertWorkItemAdmitted hadmitted).1
    have hmem := List.mem_of_find?_eq_some hrunner
    have hfence : isFence (admittedFence runtime registry runner item) = true := by
      simp only [isFence, admittedFence, hrevision, hdigest, hkind, hrunners runner hmem, decide_true,
        Bool.true_and]
      exact nonEmptyCanonicalString_sha256Hex _
    unfold admissionRejection
    dsimp only
    rw [if_neg (by simp [hfence]), if_pos hkind, hrunner]
    dsimp only
    rw [if_neg (by simp [admittedFence]), if_neg (by simp [admittedFence]), if_neg (by simp [admittedFence]),
      hadmitted]

/-! ### What calls leave of an item -/

structure KeepsItem (id : String) (db next : MissionDb) : Prop where
  row : ∀ row ∈ db.items, row.id = id → ∃ successor ∈ next.items, successor.id = id
    ∧ (next.definitionOf successor).Agrees (db.definitionOf row)
  fence : id ∈ db.items.map (·.id) → next.fence? id = db.fence? id

theorem keepsItem_of_mem
    (hrows : ∀ row ∈ db.items, row.id = id → row ∈ next.items ∧ (next.dependsOn row).Perm (db.dependsOn row))
    (hfence : id ∈ db.items.map (·.id) → next.fence? id = db.fence? id) : KeepsItem id db next where
  row := by
    intro row hrow hid
    obtain ⟨hmem, hdependsOn⟩ := hrows row hrow hid
    exact ⟨row, hmem, hid, rfl, rfl, rfl, rfl, rfl, rfl, hdependsOn, rfl⟩
  fence := hfence

theorem keepsItem_of_eq (hitems : next.items = db.items) (hgraph : SameGraph db next)
    (hfences : next.fences = db.fences) : KeepsItem id db next := by
  refine keepsItem_of_mem (fun row hrow _ => ⟨hitems ▸ hrow, ?_⟩) fun _ => ?_
  · rw [hgraph.dependsOn (.refl row)]
  · unfold MissionDb.fence?
    rw [hfences]

theorem KeepsItem.refl (db : MissionDb) : KeepsItem id db db := keepsItem_of_eq rfl (.refl db) rfl

theorem KeepsItem.trans {last : MissionDb} (hfirst : KeepsItem id db next) (hsecond : KeepsItem id next last) :
    KeepsItem id db last where
  row := by
    intro row hrow hid
    obtain ⟨middle, hmiddle, hid', hagrees⟩ := hfirst.row row hrow hid
    obtain ⟨successor, hsuccessor, hid'', hagrees'⟩ := hsecond.row middle hmiddle hid'
    exact ⟨successor, hsuccessor, hid'', hagrees'.trans hagrees⟩
  fence := by
    intro hmem
    obtain ⟨row, hrow, hid⟩ := List.mem_map.mp hmem
    obtain ⟨middle, hmiddle, hid', -⟩ := hfirst.row row hrow hid
    exact (hsecond.fence (List.mem_map.mpr ⟨middle, hmiddle, hid'⟩)).trans (hfirst.fence hmem)

theorem KeepsDefinitions.keepsItem (hkeeps : KeepsDefinitions db next) : KeepsItem id db next where
  row := by
    obtain ⟨set, hitems, hset⟩ := hkeeps.items
    intro row hrow hid
    refine ⟨set row, ?_, (hset row hrow).same.id.trans hid, ?_⟩
    · rw [hitems]
      exact List.mem_map_of_mem hrow
    · rw [definitionOf_of_sameDefinition hkeeps.graph (hset row hrow)]
      exact .refl _
  fence := by
    intro _
    unfold MissionDb.fence?
    rw [hkeeps.fences]

theorem keepsItem_append {pairs : List (NewWorkItem × WorkItemRow)} {middle : MissionDb}
    (hnodup : (next.items.map (·.id)).Nodup) (hinsert : insertItems pairs db = .ok middle)
    (hgraphs : GraphsFor (pairs.map (·.2.id)) middle next) : KeepsItem id db next := by
  have hinserts := inserts_of_insertItems hinsert
  have hitems : next.items = db.items ++ pairs.map Prod.snd := hgraphs.items.trans hinserts.items
  have hfresh (hmem : id ∈ db.items.map (·.id)) : id ∉ pairs.map (·.2.id) := by
    rw [hitems, List.map_append, List.map_map] at hnodup
    exact List.disjoint_of_nodup_append hnodup hmem
  refine keepsItem_of_mem (fun row hrow hid => ⟨?_, ?_⟩) fun hmem => ?_
  · rw [hitems]
    exact List.mem_append_left _ hrow
  · subst hid
    have hsame := hinserts.graph.dependsOn (.refl row)
    rw [← hsame, dependsOn_eq, dependsOn_eq, hgraphs.authority,
      hgraphs.edges _ _ (hfresh (List.mem_map_of_mem hrow))]
  · have hnone : (newFences pairs).find? (·.workItemId = id) = none := by
      rw [List.find?_eq_none]
      intro row hrow hid
      have hnew := mem_newFences hrow
      rw [decide_eq_true_eq.mp hid] at hnew
      exact hfresh hmem hnew
    unfold MissionDb.fence?
    rw [hgraphs.fences, fences_of_insertItems hinsert, List.find?_append, hnone, Option.or_none]

theorem insertItems_singleton {item : NewWorkItem} {row : WorkItemRow}
    (hinsert : db.insertItem item row = .ok next) : insertItems [(item, row)] db = .ok next :=
  bind_eq_ok.mpr ⟨next, hinsert, rfl⟩

theorem keepsItem_appendItem (hconsistent : Consistent db) {item : NewWorkItem}
    (happend : db.appendItem runtime now item = .ok next) : KeepsItem id db next := by
  have hnodup := (consistent_appendItem hconsistent happend).items
  unfold MissionDb.appendItem at happend
  split at happend
  · split at happend
    · obtain rfl := Except.ok.inj happend
      exact .refl db
    · exact keepsItem_append hnodup (insertItems_singleton happend) (.refl _ _)
  · obtain ⟨append, hedges, happend⟩ := bind_eq_ok.mp happend
    split at happend
    · cases happend
    · obtain ⟨inserted, hinsert, rfl⟩ := exceptMap_eq_ok.mp happend
      refine keepsItem_append hnodup (insertItems_singleton hinsert) ?_
      exact (graphsFor_insertEdges inserted (edges_of_validateNormalizedAppend hedges)).trans
        (graphsFor_updateGraph _ _ _ _)

theorem keepsItem_enqueueItems (hconsistent : Consistent db) {items : List NewWorkItem}
    (henqueue : db.enqueueItems runtime now items = .ok next) : KeepsItem id db next := by
  have hnodup := (consistent_enqueueItems hconsistent henqueue).items
  obtain ⟨_, -, henqueue⟩ := bind_eq_ok.mp henqueue
  obtain ⟨appends, happends, hinsert⟩ := bind_eq_ok.mp (mapError_eq_ok.mp henqueue)
  obtain ⟨middle, hinserted, hnext⟩ := bind_eq_ok.mp hinsert
  obtain rfl := Except.ok.inj hnext
  refine keepsItem_append hnodup hinserted (graphsFor_foldl (fun append happend edge hedge => ?_) middle)
  simpa [Function.comp_def, NewWorkItem.row] using edges_of_appends happends append happend edge hedge

theorem keepsItem_createMission (hconsistent : Consistent db) {normalized : Bool} {mission : NewMission}
    (hcreate : db.createMission runtime now normalized mission = .ok next) : KeepsItem id db next := by
  obtain ⟨hfresh, authorities, hauthorities, rfl⟩ := createMission_eq_ok hcreate
  refine keepsItem_of_mem (fun row hrow _ => ⟨hrow, ?_⟩) fun _ => rfl
  have hother : mission.id ≠ row.missionId := by
    rintro heq
    exact hfresh (heq ▸ hconsistent.mission row hrow)
  have hnone : authorities.find? (·.missionId = row.missionId) = none := by
    rw [List.find?_eq_none]
    intro authority hauthority
    simpa [hauthorities authority hauthority] using hother
  refine .of_eq ?_
  rw [dependsOn_eq, dependsOn_eq]
  unfold MissionDb.authority? MissionDb.normalizedDependencies
  rw [List.find?_append, hnone, Option.or_none]

theorem keepsItem_createBatch (hconsistent : Consistent db) {normalized : Bool} {mission : NewMission}
    {items : List NewMissionWorkItem} (hcreate : db.createBatch runtime now normalized mission items = .ok next) :
    KeepsItem id db next := by
  have hnodup := (consistent_createBatch hconsistent hcreate).items
  unfold MissionDb.createBatch at hcreate
  split at hcreate
  · split at hcreate
    · cases hcreate
    · split at hcreate
      · obtain rfl := Except.ok.inj hcreate
        exact .refl db
      · cases hcreate
  · obtain ⟨created, hmission, hitems⟩ := bind_eq_ok.mp hcreate
    obtain ⟨inserted, hinsert, hgraph⟩ := bind_eq_ok.mp hitems
    refine (keepsItem_createMission hconsistent hmission).trans (keepsItem_append hnodup hinsert ?_)
    split at hgraph
    · simpa [Function.comp_def, NewMissionWorkItem.initialRow, NewWorkItem.row]
        using graphsFor_addBatchGraph hgraph
    · obtain rfl := Except.ok.inj hgraph
      exact .refl _ _

/-! ### Migrations -/

theorem keepsItem_insertGraph (hconsistent : Consistent db) {missionId : String}
    (hnone : db.authority? missionId = none) {authority : GraphAuthorityRow}
    (hauthority : authority.missionId = missionId) {edges : List DependencyEdge}
    (hedges : ∀ edge ∈ edges, edge.missionId = missionId)
    (hown : ∀ row ∈ db.items, row.id = id → row.missionId = missionId →
      ((edges.filter fun edge => edge.missionId = missionId && edge.workItemId = row.id).map
        (·.dependencyItemId)).Perm (db.dependsOn row)) :
    KeepsItem id db ((db.insertAuthority authority).insertEdges edges) := by
  refine keepsItem_of_mem (fun row hrow hid => ⟨hrow, ?_⟩) fun _ => rfl
  have hsome : ((((db.insertAuthority authority).insertEdges edges).authority? row.missionId).isSome = true)
      = ((db.authority? row.missionId).isSome = true ∨ row.missionId = missionId) := by
    rw [isSome_authority?_iff, isSome_authority?_iff]
    simp [MissionDb.insertEdges, MissionDb.insertAuthority, hauthority]
  by_cases hmission : row.missionId = missionId
  · subst hmission
    have hold : (db.edges.filter fun edge => edge.missionId = row.missionId && edge.workItemId = row.id) = [] := by
      rw [List.filter_eq_nil_iff]
      intro edge hedge hmatches
      simp only [Bool.and_eq_true, decide_eq_true_eq] at hmatches
      have hmem := (hconsistent.edge edge hedge).1
      rw [hmatches.1, ← isSome_authority?_iff, hnone] at hmem
      cases hmem
    have hgraph : (((db.insertAuthority authority).insertEdges edges).authority? row.missionId).isSome = true := by
      rw [hsome]
      exact .inr rfl
    rw [dependsOn_of_authority? hgraph]
    unfold MissionDb.normalizedDependencies MissionDb.insertEdges MissionDb.insertAuthority
    rw [List.filter_append, hold, List.nil_append]
    exact (perm_sortBy _ _).trans (hown row hrow hid rfl)
  · have hother : (edges.filter fun edge => edge.missionId = row.missionId && edge.workItemId = row.id) = [] := by
      rw [List.filter_eq_nil_iff]
      intro edge hedge hmatches
      simp only [Bool.and_eq_true, decide_eq_true_eq] at hmatches
      exact hmission (hmatches.1.symm.trans (hedges edge hedge))
    refine .of_eq ?_
    rw [dependsOn_eq, dependsOn_eq]
    simp only [hsome, hmission, or_false]
    unfold MissionDb.normalizedDependencies MissionDb.insertEdges MissionDb.insertAuthority
    rw [List.filter_append, hother, List.append_nil]

theorem keepsItem_prepareNormalizedDependencyMigration (hconsistent : Consistent db) {missionId : String}
    (hgraph : db.authority? missionId = none → ∀ row ∈ db.items, row.id = id → row.missionId = missionId →
      db.dependsOn row ≠ [] → checkGraph (db.legacyDefinitions missionId) = .ok ⟨⟩)
    (hprepare : db.prepareNormalizedDependencyMigration runtime missionId = .ok next) : KeepsItem id db next := by
  unfold MissionDb.prepareNormalizedDependencyMigration at hprepare
  split at hprepare
  · cases hprepare
  · split at hprepare
    · obtain rfl := Except.ok.inj hprepare
      exact .refl db
    · next hauthority =>
        rw [Option.not_isSome_iff_eq_none] at hauthority
        split at hprepare
        · next error hread =>
            obtain rfl := Except.ok.inj hprepare
            have hempty (authority : GraphAuthorityRow) :
                (db.insertAuthority authority).insertEdges [] = db.insertAuthority authority := by
              simp [MissionDb.insertEdges]
            rw [← hempty]
            refine keepsItem_insertGraph hconsistent hauthority rfl (by simp) fun row hrow hid hmission => ?_
            have hdependsOn : db.dependsOn row = [] := by
              by_contra hne
              have hcheck := hgraph hauthority row hrow hid hmission hne
              unfold MissionDb.readLegacyGraph validateGraph at hread
              rw [hcheck] at hread
              cases hread
            rw [hdependsOn]
            exact .refl _
        · next edges hread =>
            obtain rfl := Except.ok.inj hprepare
            obtain ⟨hcheck, rfl⟩ := checkGraph_of_validateGraph hread
            refine keepsItem_insertGraph hconsistent hauthority rfl (fun edge => missionId_of_graphEdges)
              fun row hrow hid hmission => ?_
            subst hmission
            rw [dependsOn_of_authority?_none hauthority]
            refine dependencies_perm_graphEdges (nodup_of_checkGraph hcheck) (List.mem_map.mpr ⟨row, ?_, rfl⟩)
            unfold MissionDb.legacyRows
            rw [mem_sortBy, List.mem_filter]
            exact ⟨hrow, by simp⟩

theorem keepsItem_activateNormalizedDependencyAuthority {activation : MissionDependencyActivation}
    (hactivate : db.activateNormalizedDependencyAuthority runtime now activation = .ok next) :
    KeepsItem id db next := by
  obtain rfl | rfl := activateNormalizedDependencyAuthority_eq_ok hactivate
  · exact .refl _
  · refine keepsItem_of_mem (fun row hrow _ => ⟨hrow, .of_eq ?_⟩) fun _ => rfl
    have hsome : (((db.activateAuthority activation.missionId).seedTerminalDependencyJobs now
        activation.missionId).authority? row.missionId).isSome = (db.authority? row.missionId).isSome := by
      rw [Bool.eq_iff_iff, isSome_authority?_iff, isSome_authority?_iff]
      change _ ∈ (db.activateAuthority activation.missionId).authorities.map _ ↔ _
      rw [(sameKeys_activateAuthority db activation.missionId).authorities]
    rw [dependsOn_eq, dependsOn_eq, hsome]
    rfl

end Deckent.Mission
