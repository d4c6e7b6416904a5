import Deckent.Proof.MissionFences
import Deckent.Proof.MissionProgress

/-!
# Items that validate

An item that is admitted and stored reads back as it was admitted, and a registry that validates it once
validates it again after every call that keeps it. The adoption of a plan rewrites the spec and the fence, and
the two agree again.
-/

namespace Deckent.Mission

variable {runtime : JsonRuntime} {contract : ApprovalContract} {now : Int} {db next : MissionDb}
  {registry : MissionRunnerRegistry} {id : String}

theorem item?_of_mem (hkeys : (db.items.map (·.id)).Nodup) {row : WorkItemRow} (hrow : row ∈ db.items) :
    db.item? row.id = some row := by
  cases hfound : db.item? row.id with
  | none => simpa using List.find?_eq_none.mp hfound row hrow
  | some found =>
      have hid : found.id = row.id := by simpa using List.find?_some hfound
      rw [List.inj_on_of_nodup_map hkeys (List.mem_of_find?_eq_some hfound) hrow hid]

theorem item?_eq_some {row : WorkItemRow} (hitem : db.item? id = some row) : row ∈ db.items ∧ row.id = id :=
  ⟨List.mem_of_find?_eq_some hitem, by simpa using List.find?_some hitem⟩

/-! ### Plans that are adopted -/

theorem resolve_eq_ok {missionId : Option String} {spec : Option Json} {source : MissionSprintExecutionSource}
    (hresolve : resolveMissionSprintExecutionSource id missionId spec = .ok source) :
    specMember spec "sprintSnapshot" = none ∧ nonEmptyCanonicalString id = true
      ∧ missionId.all nonEmptyCanonicalString = true
      ∧ ∀ ref, source = .exactRef ref →
        ∃ value, specMember spec "exactPlanRef" = some value ∧ exactPlanReference? value = some ref := by
  unfold resolveMissionSprintExecutionSource at hresolve
  obtain ⟨hsnapshot, hresolve⟩ := ite_throw_eq_ok.mp hresolve
  dsimp only at hresolve
  have hlineage {found : MissionSprintExecutionSource}
      (hfound : (if (!nonEmptyCanonicalString id || !missionId.all nonEmptyCanonicalString) = true then
          throw MissionAdmissionCode.sprintLineageRequired >>= fun _ : PUnit => pure found
        else pure found : Except MissionAdmissionCode MissionSprintExecutionSource) = .ok source) :
      (nonEmptyCanonicalString id = true ∧ missionId.all nonEmptyCanonicalString = true) ∧ found = source := by
    obtain ⟨hlineage, hfound⟩ := ite_throw_eq_ok.mp hfound
    simp only [Bool.or_eq_true, not_or, Bool.not_eq_true', Bool.not_eq_false] at hlineage
    exact ⟨hlineage, pure_eq_ok.mp hfound⟩
  refine ⟨Option.not_isSome_iff_eq_none.mp hsnapshot, ?_⟩
  rw [← and_assoc]
  split at hresolve
  · cases hresolve
  · next value hexact _ _ =>
      split at hresolve
      · next plan hplan =>
          obtain ⟨hids, rfl⟩ := hlineage hresolve
          refine ⟨hids, fun ref href => ?_⟩
          obtain rfl := MissionSprintExecutionSource.exactRef.inj href
          exact ⟨value, hexact, hplan⟩
      · cases hresolve
  · split at hresolve
    · obtain ⟨hids, rfl⟩ := hlineage hresolve
      exact ⟨hids, fun ref href => by cases href⟩
    · cases hresolve
  · split at hresolve
    · obtain ⟨hids, rfl⟩ := hlineage hresolve
      exact ⟨hids, fun ref href => by cases href⟩
    · cases hresolve
  · cases hresolve

theorem resolve_of_exactRef {missionId : Option String} {spec : Option Json} {ref : ExactPlanReference}
    {value : Json} (hsnapshot : specMember spec "sprintSnapshot" = none)
    (hexact : specMember spec "exactPlanRef" = some value) (hplan : exactPlanReference? value = some ref)
    (hdirectives : specMember spec "directivesRef" = none) (hintent : specMember spec "intent" = none)
    (hid : nonEmptyCanonicalString id = true) (hmission : missionId.all nonEmptyCanonicalString = true) :
    resolveMissionSprintExecutionSource id missionId spec = .ok (.exactRef ref) := by
  unfold resolveMissionSprintExecutionSource
  refine ite_throw_eq_ok.mpr ⟨by simp [hsnapshot], ?_⟩
  simp only [hexact, hdirectives, hintent, hplan, hid, hmission]
  rfl

theorem finite_of_toPositive? {value : JsNumber} {number : Nat} (hpositive : value.toPositive? = some number) :
    value = .finite number := by
  cases value with
  | finite value =>
      simp only [JsNumber.toPositive?, Option.ite_none_right_eq_some, Option.some.injEq] at hpositive
      obtain ⟨hinteger, rfl⟩ := hpositive
      simp only [JsNumber.isPositiveSafeInteger, JsNumber.isSafeInteger, Bool.and_eq_true,
        decide_eq_true_eq] at hinteger
      obtain ⟨⟨hden, -⟩, hpos⟩ := hinteger
      have hzero : (0 : JsNumber) = .finite 0 := congrArg JsNumber.finite Nat.cast_zero
      rw [hzero] at hpos
      have hnum : 0 < value.num := Rat.num_pos.mpr (of_decide_eq_true hpos)
      congr 1
      calc value = (value.num : ℚ) := ((Rat.den_eq_one_iff value).mp hden).symm
        _ = ((value.num.toNat : Int) : ℚ) := by rw [Int.toNat_of_nonneg hnum.le]
        _ = value.num.toNat := Int.cast_natCast _
  | posInf => cases hpositive
  | negInf => cases hpositive
  | nan => cases hpositive

theorem exactPlanReference?_json {value : Json} {ref : ExactPlanReference}
    (href : exactPlanReference? value = some ref) : exactPlanReference? ref.json = some ref := by
  unfold exactPlanReference? at href
  split at href
  · next members version flowId revision planDigest hversion hflow hrevision hdigest =>
      split at href
      · next number hnumber =>
          split at href
          · next hvalid =>
              obtain rfl := Option.some.inj href
              rw [finite_of_toPositive? hnumber] at hnumber
              unfold exactPlanReference? ExactPlanReference.json
              simp [Json.get?, List.lookup_cons, hnumber, hvalid]
          · cases href
      · cases href
  · cases href

theorem specMember_adoptPlan (spec : Option Json) (ref : ExactPlanReference) (key : String) :
    specMember (some (adoptPlan spec ref)) key
      = if key = "directivesRef" ∨ key = "intent" then none
        else if key = "exactPlanRef" then some ref.json else specMember spec key := by
  have hfilter (members : List (String × Json)) :
      (members.filter fun member => member.1 ≠ "directivesRef" && member.1 ≠ "intent").lookup key
        = if key = "directivesRef" ∨ key = "intent" then none else members.lookup key := by
    induction members with
    | nil => simp
    | cons member rest ih =>
        obtain ⟨name, value⟩ := member
        by_cases hname : name = "directivesRef" ∨ name = "intent"
        · rw [List.filter_cons_of_neg (by simpa [or_iff_not_imp_left] using hname), ih]
          split
          · rfl
          · next hkey =>
              rw [List.lookup_cons]
              have hne : key ≠ name := by
                rintro rfl
                exact hkey hname
              simp [beq_false_of_ne hne]
        · rw [List.filter_cons_of_pos (by simpa [not_or] using hname), List.lookup_cons, List.lookup_cons, ih]
          by_cases hkey : key = name
          · subst hkey
            simp [hname]
          · simp [beq_false_of_ne hkey]
  unfold specMember adoptPlan
  rw [Option.bind_some]
  change List.lookup _ _ = _
  rw [hfilter, OrderedMap.lookup_setEntries]
  congr 1
  congr 1
  cases spec with
  | none => rfl
  | some value => cases value <;> rfl

/-! ### Items that validate -/

/-- The item reads back as it was admitted: the registry validates the definition that the store computes
anew against the fence that it has kept. -/
def MissionDb.Validates (runtime : JsonRuntime) (registry : MissionRunnerRegistry) (db : MissionDb)
    (id : String) : Prop :=
  ∃ row, db.item? id = some row
    ∧ validateWorkItemAdmission runtime (db.definitionOf row) (db.fence? id) registry = .ok none

theorem assertMissionRunnerRegistry_of_validates (hvalidates : db.Validates runtime registry id) :
    assertMissionRunnerRegistry runtime registry = .ok ⟨⟩ := by
  obtain ⟨row, -, hvalid⟩ := hvalidates
  obtain ⟨_, hregistry, -⟩ := bind_eq_ok.mp hvalid
  exact hregistry

theorem validates_iff (hregistry : assertMissionRunnerRegistry runtime registry = .ok ⟨⟩)
    (hkeys : (db.items.map (·.id)).Nodup) :
    db.Validates runtime registry id ↔ ∃ row ∈ db.items, row.id = id
      ∧ assertWorkItemAdmitted (db.definitionOf row) registry = .ok ⟨⟩
      ∧ ∃ runner, runnerForKind registry row.kind = some runner
        ∧ db.fence? id = some (admittedFence runtime registry runner (db.definitionOf row)) := by
  have hvalid (row : WorkItemRow) :
      validateWorkItemAdmission runtime (db.definitionOf row) (db.fence? id) registry = .ok none
        ↔ assertWorkItemAdmitted (db.definitionOf row) registry = .ok ⟨⟩
          ∧ ∃ runner, runnerForKind registry row.kind = some runner
            ∧ db.fence? id = some (admittedFence runtime registry runner (db.definitionOf row)) := by
    refine .trans ?_ (admissionRejection_eq_none_iff hregistry)
    unfold validateWorkItemAdmission
    rw [bind_eq_ok]
    simp [hregistry]
  constructor
  · rintro ⟨row, hitem, hrow⟩
    obtain ⟨hmem, hid⟩ := item?_eq_some hitem
    exact ⟨row, hmem, hid, (hvalid row).mp hrow⟩
  · rintro ⟨row, hmem, rfl, hrow⟩
    exact ⟨row, item?_of_mem hkeys hmem, (hvalid row).mpr hrow⟩

theorem KeepsItem.validates (hkeeps : KeepsItem id db next) (hkeys : (db.items.map (·.id)).Nodup)
    (hkeys' : (next.items.map (·.id)).Nodup) (hvalidates : db.Validates runtime registry id) :
    next.Validates runtime registry id := by
  have hregistry := assertMissionRunnerRegistry_of_validates hvalidates
  obtain ⟨row, hrow, hid, hadmitted, runner, hrunner, hfence⟩ := (validates_iff hregistry hkeys).mp hvalidates
  obtain ⟨successor, hsuccessor, hid', hagrees⟩ := hkeeps.row row hrow hid
  refine (validates_iff hregistry hkeys').mpr ⟨successor, hsuccessor, hid', ?_, runner, ?_, ?_⟩
  · rw [hagrees.assertWorkItemAdmitted]
    exact hadmitted
  · rw [← hrunner]
    exact congrArg (runnerForKind registry) hagrees.kind
  · rw [hkeeps.fence (List.mem_map.mpr ⟨row, hrow, hid⟩), hfence]
    unfold admittedFence
    rw [hagrees.digest, hagrees.kind]

/-! ### A settlement that adopts a plan -/

theorem adoption?_eq_some {claim : MissionDispatchClaim} {exactPlanRef : Json} {adoption : PlanAdoption}
    (hadoption : db.adoption? runtime claim exactPlanRef = some adoption) :
    ∃ current ref value, db.item? claim.workItemId = some current ∧ current.kind = .sprint
      ∧ db.fence? claim.workItemId = some adoption.priorFence
      ∧ (∃ source, resolveMissionSprintExecutionSource current.id (some current.missionId) current.spec
        = .ok source)
      ∧ exactPlanReference? value = some ref
      ∧ adoption.spec = adoptPlan current.spec ref
      ∧ adoption.definitionDigest = computeWorkItemDefinitionDigest runtime
        { db.definitionOf current with spec := some adoption.spec } := by
  unfold MissionDb.adoption? at hadoption
  split at hadoption
  · next current priorFence hcurrent hfence =>
      split at hadoption
      · cases hadoption
      · next hclaimed =>
          split at hadoption
          · next source returned hsource hreturned =>
              split at hadoption
              · obtain rfl := Option.some.inj hadoption
                obtain ⟨-, -, -, hexact⟩ := resolve_eq_ok hreturned
                obtain ⟨value, -, hplan⟩ := hexact returned rfl
                simp only [not_or, not_not] at hclaimed
                exact ⟨current, returned, value, hcurrent, hclaimed.1, hfence, ⟨source, hsource⟩, hplan, rfl, rfl⟩
              · cases hadoption
          · cases hadoption
  · cases hadoption

theorem assertWorkItemAdmitted_adoptPlan {definition : WorkItemDefinition} {ref : ExactPlanReference}
    {value : Json} {source : MissionSprintExecutionSource} {runner : MissionRunnerRegistryEntry}
    (hkind : definition.kind = .sprint) (hrunner : runnerForKind registry definition.kind = some runner)
    (hsource : resolveMissionSprintExecutionSource definition.id (some definition.missionId) definition.spec
      = .ok source)
    (hplan : exactPlanReference? value = some ref) :
    assertWorkItemAdmitted { definition with spec := some (adoptPlan definition.spec ref) } registry
      = .ok ⟨⟩ := by
  obtain ⟨hsnapshot, hid, hmission, -⟩ := resolve_eq_ok hsource
  have hresolve : resolveMissionSprintExecutionSource definition.id (some definition.missionId)
      (some (adoptPlan definition.spec ref)) = .ok (.exactRef ref) := by
    refine resolve_of_exactRef ?_ ?_ (exactPlanReference?_json hplan) ?_ ?_ hid hmission
    · simpa [specMember_adoptPlan] using hsnapshot
    · simp [specMember_adoptPlan]
    · simp [specMember_adoptPlan]
    · simp [specMember_adoptPlan]
  rw [hkind] at hrunner
  unfold assertWorkItemAdmitted
  dsimp only
  rw [hkind]
  exact bind_eq_ok.mpr ⟨.exactRef ref, hresolve, by simp [hrunner]⟩

theorem fence?_adopting {adoption : PlanAdoption} {claimed : String}
    (hfence : db.fence? claimed = some adoption.priorFence)
    (hfences : next.fences = db.fences.map (·.adopting claimed adoption)) (id : String) :
    next.fence? id = if id = claimed then
        some { adoption.priorFence with itemDefinitionDigest := adoption.definitionDigest }
      else db.fence? id := by
  have hkey (row : FenceRow) : (row.adopting claimed adoption).workItemId = row.workItemId := by
    unfold FenceRow.adopting
    split <;> rfl
  unfold MissionDb.fence? at hfence ⊢
  rw [hfences, List.find?_map, Option.map_map]
  simp only [Function.comp_def, hkey]
  split
  · next hclaimed =>
      subst hclaimed
      obtain ⟨row, hrow, hprior⟩ := Option.map_eq_some_iff.mp hfence
      have hid : row.workItemId = id := by simpa using List.find?_some hrow
      rw [hrow, Option.map_some, FenceRow.adopting, if_pos ⟨hid, hprior⟩, hprior]
  · next hclaimed =>
      refine Option.map_congr fun row hrow => ?_
      have hid : row.workItemId = id := by simpa using List.find?_some hrow
      rw [FenceRow.adopting, if_neg]
      rintro ⟨hsame, -⟩
      exact hclaimed (hid.symm.trans hsame)

/-- An adoption keeps every item valid: the spec of the one that adopts and its fence change together. -/
theorem Adopts.validates {claim : MissionDispatchClaim} {result : Option Json} {adoption : PlanAdoption}
    (hadopts : Adopts runtime db claim result adoption next) (hkeys : (db.items.map (·.id)).Nodup)
    (hkeys' : (next.items.map (·.id)).Nodup) (hvalidates : db.Validates runtime registry id) :
    next.Validates runtime registry id := by
  have hregistry := assertMissionRunnerRegistry_of_validates hvalidates
  obtain ⟨row, hrow, hid, hadmitted, runner, hrunner, hfence⟩ := (validates_iff hregistry hkeys).mp hvalidates
  obtain ⟨brought, -, hadoption⟩ := hadopts.brought
  obtain ⟨current, ref, value, hcurrent, hkind, hprior, ⟨source, hsource⟩, hplan, hspec, hdigest⟩ :=
    adoption?_eq_some hadoption
  obtain ⟨set, hitems, hset, hsame⟩ := hadopts.items
  have hfences := fence?_adopting hprior hadopts.fences id
  by_cases hclaimed : id = claim.workItemId
  · subst hclaimed
    obtain rfl : current = row := Option.some.inj (hcurrent.symm.trans (hid ▸ item?_of_mem hkeys hrow))
    obtain ⟨found, hfound, hholds⟩ := hadopts.found
    have hholder : found.id = claim.workItemId := by
      simp only [WorkItemRow.holds, Bool.and_eq_true, decide_eq_true_eq] at hholds
      exact hholds.1.1.1.1.1.1.1
    obtain rfl : found = current := List.inj_on_of_nodup_map hkeys hfound hrow (hholder.trans hid.symm)
    have hdefinition : next.definitionOf (set found)
        = { db.definitionOf found with spec := some adoption.spec } :=
      definitionOf_of_sameDefinition hadopts.graph (hset found hrow hholds)
    refine (validates_iff hregistry hkeys').mpr ⟨set found, hitems ▸ List.mem_map_of_mem hrow,
      (hset found hrow hholds).same.id.trans hid, ?_, runner, ?_, ?_⟩
    · rw [hdefinition, hspec]
      exact assertWorkItemAdmitted_adoptPlan hkind hrunner hsource hplan
    · rw [(hset found hrow hholds).kind]
      exact hrunner
    · rw [hfences, if_pos rfl, hdefinition]
      rw [hfence] at hprior
      rw [← Option.some.inj hprior]
      unfold admittedFence
      rw [hdigest]
  · have hholds : row.holds claim = false := by
      rw [Bool.eq_false_iff]
      intro hholds
      simp only [WorkItemRow.holds, Bool.and_eq_true, decide_eq_true_eq] at hholds
      exact hclaimed (hid.symm.trans hholds.1.1.1.1.1.1.1)
    have hdefinition : next.definitionOf row = db.definitionOf row :=
      definitionOf_of_sameDefinition hadopts.graph (.refl row)
    refine (validates_iff hregistry hkeys').mpr ⟨row, ?_, hid, ?_, runner, hrunner, ?_⟩
    · rw [hitems]
      exact List.mem_map.mpr ⟨row, hrow, hsame row hrow hholds⟩
    · rw [hdefinition]
      exact hadmitted
    · rw [hfences, if_neg hclaimed, hdefinition]
      exact hfence

end Deckent.Mission
