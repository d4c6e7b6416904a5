import Deckent.Lib.Saturation
import Deckent.Model.LineageSettlement
import Deckent.Proof.SchedulerState

/-!
# Heads that were not dispatched

The loop over the lineages is a sweep that fires a head once a dependency of its logical task has a terminal
settlement. So it ends at the least set of heads that holds those that failed or that a policy skips, and every
head that was not dispatched and depends on one of the set.
-/

namespace Deckent.TaskLineage

open Relation

/-! ### The settlements that the loop starts from -/

section Start

variable {evidence : DispatchEvidence}

theorem get?_projectHead (lineages : List TaskLineage) (projected : NotDispatchedSettlements) (id : String) :
    (lineages.foldl evidence.projectHead projected).get? id
      = if (∃ lineage ∈ lineages, lineage.resolvedTask.id = id) ∧ evidence.isNotDispatched id = true then
          some (evidence.settlement id)
        else projected.get? id := by
  induction lineages generalizing projected with
  | nil => simp
  | cons lineage rest ih =>
      rw [List.foldl_cons, ih]
      unfold DispatchEvidence.projectHead
      by_cases hhead : lineage.resolvedTask.id = id
      · subst hhead
        cases hdispatched : evidence.isNotDispatched lineage.resolvedTask.id <;> simp
      · cases hdispatched : evidence.isNotDispatched lineage.resolvedTask.id with
        | false => simp [hhead]
        | true => simp [hhead, OrderedMap.get?_set, Ne.symm hhead]

theorem isTerminal_settlement {id : String} : (evidence.settlement id).isTerminal = true
    ↔ evidence.isPolicyTerminal id = true ∨ id ∈ evidence.redispatchAttemptedIds := by
  unfold DispatchEvidence.settlement
  split
  · next hpolicy => simp [hpolicy, NotDispatchedSettlement.isTerminal]
  · next hpolicy =>
      split
      · next hattempted => simp [hattempted, NotDispatchedSettlement.isTerminal]
      · next hattempted => simp [hpolicy, hattempted, NotDispatchedSettlement.isTerminal]

end Start

/-! ### The loop as a sweep -/

namespace LineageIndex

def DependsOn (index : LineageIndex) (lineage other : TaskLineage) : Prop :=
  ∃ dependencyId ∈ lineage.rootTask.dependencies.getD [],
    index.lineagesByRootId.get? (index.dependencyRootId dependencyId) = some other

variable (index : LineageIndex) (start : NotDispatchedSettlements)

theorem dependencyStarved_iff {projected : NotDispatchedSettlements} {lineage : TaskLineage} :
    index.dependencyStarved projected lineage = true ↔ ∃ other, index.DependsOn lineage other
      ∧ (projected.get? other.resolvedTask.id).any (·.isTerminal) = true := by
  unfold dependencyStarved DependsOn
  rw [List.any_eq_true]
  constructor
  · rintro ⟨dependencyId, hmem, hstarved⟩
    split at hstarved
    · cases hstarved
    · next other hother => exact ⟨other, ⟨dependencyId, hmem, hother⟩, hstarved⟩
  · rintro ⟨other, ⟨dependencyId, hmem, hother⟩, hterminal⟩
    refine ⟨dependencyId, hmem, ?_⟩
    rw [hother]
    exact hterminal

def starveRule (reached : Finset String) (lineage : TaskLineage) : Option Unit :=
  if start.contains lineage.resolvedTask.id
      ∧ (lineage.rootTask.dependencies.getD []).any (fun dependencyId =>
        (index.lineagesByRootId.get? (index.dependencyRootId dependencyId)).any fun other =>
          decide (other.resolvedTask.id ∈ reached)) then some () else none

variable {index start} {lineages : List TaskLineage}

theorem starveRule_isSome {reached : Finset String} {lineage : TaskLineage} :
    index.starveRule start reached lineage = some ()
      ↔ start.contains lineage.resolvedTask.id = true
        ∧ ∃ other, index.DependsOn lineage other ∧ other.resolvedTask.id ∈ reached := by
  unfold starveRule DependsOn
  simp only [Option.ite_none_right_eq_some, and_true, List.any_eq_true, Option.any_eq_true, decide_eq_true_eq]
  refine and_congr_right fun _ => ?_
  constructor
  · rintro ⟨dependencyId, hmem, other, hother, hreached⟩
    exact ⟨other, ⟨dependencyId, hmem, hother⟩, hreached⟩
  · rintro ⟨other, ⟨dependencyId, hmem, hother⟩, hreached⟩
    exact ⟨dependencyId, hmem, other, hother, hreached⟩

/-- The settlements of the loop are those of the start, but the heads that the sweep has fired are skipped. -/
structure Follows (start : NotDispatchedSettlements) (state : Starvation)
    (sweep : Sweep TaskLineage String Unit) : Prop where
  settled : ∀ id, state.projected.get? id = (start.get? id).map fun settlement =>
    if id ∈ sweep.reached ∧ settlement = .resumable then .skipped .dependencyStarved else settlement
  terminal : ∀ id settlement, start.get? id = some settlement → settlement.isTerminal = true → id ∈ sweep.reached
  known : ∀ id ∈ sweep.reached, start.contains id = true
  changed : state.changed = sweep.changed

variable {state : Starvation} {sweep : Sweep TaskLineage String Unit}

theorem Follows.isTerminal (hfollows : Follows start state sweep) {id : String} :
    (state.projected.get? id).any (·.isTerminal) = true ↔ id ∈ sweep.reached := by
  rw [hfollows.settled]
  constructor
  · intro hany
    obtain ⟨settlement, hsome, hterminal⟩ := (Option.any_eq_true _ _).mp hany
    obtain ⟨first, hfirst, rfl⟩ := Option.map_eq_some_iff.mp hsome
    by_cases hreached : id ∈ sweep.reached
    · exact hreached
    · rw [if_neg fun hboth => hreached hboth.1] at hterminal
      exact hfollows.terminal id first hfirst hterminal
  · intro hreached
    obtain ⟨first, hfirst⟩ := Option.isSome_iff_exists.mp (hfollows.known id hreached)
    rw [hfirst]
    cases first <;> simp [hreached, NotDispatchedSettlement.isTerminal]

theorem Follows.resumable (hfollows : Follows start state sweep) {id : String} :
    state.projected.get? id = some .resumable ↔ start.contains id = true ∧ id ∉ sweep.reached := by
  rw [hfollows.settled, OrderedMap.contains]
  cases hstart : start.get? id with
  | none => simp
  | some first =>
      by_cases hreached : id ∈ sweep.reached
      · cases first <;> simp [hreached]
      · have hopen : first.isTerminal ≠ true := fun hterminal =>
          hreached (hfollows.terminal id first hstart hterminal)
        cases first <;> simp_all [NotDispatchedSettlement.isTerminal]

theorem Follows.visit (hfollows : Follows start state sweep) (lineage : TaskLineage) :
    Follows start (index.starve state lineage)
      (Deckent.visit (fun lineage : TaskLineage => lineage.resolvedTask.id) (index.starveRule start) sweep
        lineage) := by
  have hstarved : index.dependencyStarved state.projected lineage = true
      ↔ ∃ other, index.DependsOn lineage other ∧ other.resolvedTask.id ∈ sweep.reached := by
    rw [dependencyStarved_iff]
    exact exists_congr fun other => and_congr_right fun _ => hfollows.isTerminal
  unfold starve Deckent.visit
  by_cases hreached : lineage.resolvedTask.id ∈ sweep.reached
  · rw [if_neg fun hboth => (hfollows.resumable.mp hboth.1).2 hreached, if_pos hreached]
    exact hfollows
  · rw [if_neg hreached]
    cases hrule : index.starveRule start sweep.reached lineage with
    | none =>
        rw [if_neg]
        · exact hfollows
        · rintro ⟨hresumable, hdependency⟩
          have hfires := starveRule_isSome.mpr ⟨(hfollows.resumable.mp hresumable).1, hstarved.mp hdependency⟩
          rw [hrule] at hfires
          cases hfires
    | some cause =>
        obtain ⟨hknown, hdependency⟩ := starveRule_isSome.mp hrule
        have hresumable := hfollows.resumable.mpr ⟨hknown, hreached⟩
        rw [if_pos ⟨hresumable, hstarved.mpr hdependency⟩]
        refine ⟨fun id => ?_, fun id settlement hstart hterminal => ?_, fun id hid => ?_, rfl⟩
        · rw [OrderedMap.get?_set]
          by_cases hid : id = lineage.resolvedTask.id
          · subst hid
            have hsettled := hfollows.settled lineage.resolvedTask.id
            rw [hresumable] at hsettled
            obtain ⟨first, hfirst, hsame⟩ := Option.map_eq_some_iff.mp hsettled.symm
            rw [if_neg fun hboth => hreached hboth.1] at hsame
            rw [if_pos rfl, hfirst, hsame]
            simp
          · rw [if_neg hid, hfollows.settled]
            simp [hid]
        · exact Finset.mem_insert_of_mem (hfollows.terminal id settlement hstart hterminal)
        · rcases Finset.mem_insert.mp hid with rfl | hold
          · exact hknown
          · exact hfollows.known id hold

theorem Follows.foldl (hfollows : Follows start state sweep) (visited : List TaskLineage) :
    Follows start (visited.foldl index.starve state)
      (visited.foldl (Deckent.visit (fun lineage : TaskLineage => lineage.resolvedTask.id)
        (index.starveRule start)) sweep) := by
  induction visited generalizing state sweep with
  | nil => exact hfollows
  | cons lineage rest ih => exact ih (hfollows.visit lineage)

theorem Follows.starveAll (hfollows : Follows start state sweep) (fuel : Nat) :
    Follows start (index.starveAll lineages fuel state)
      (saturate (fun lineage : TaskLineage => lineage.resolvedTask.id) (index.starveRule start) lineages fuel
        sweep) := by
  induction fuel generalizing state sweep with
  | zero => exact hfollows
  | succ fuel ih =>
      unfold LineageIndex.starveAll saturate
      rw [hfollows.changed]
      split
      · have hquiet : Follows start { state with changed := false } { sweep with changed := false } :=
          ⟨hfollows.settled, hfollows.terminal, hfollows.known, rfl⟩
        exact ih (hquiet.foldl lineages)
      · exact hfollows

end LineageIndex

/-! ### What the heads come to -/

section Heads

variable (localeCompare : LocaleCompare) (tasks : List Task)

def IsHead (id : String) : Prop :=
  ∃ lineage ∈ foldTaskLineages localeCompare tasks, lineage.resolvedTask.id = id

/-- The logical task of a lineage with this head depends on an attempt of a lineage with the other head. -/
def Awaits (id dependency : String) : Prop :=
  ∃ lineage ∈ foldTaskLineages localeCompare tasks, lineage.resolvedTask.id = id
    ∧ ∃ other ∈ foldTaskLineages localeCompare tasks, other.resolvedTask.id = dependency
      ∧ ∃ dependencyId ∈ lineage.rootTask.dependencies.getD [],
        (lineageIndex localeCompare tasks).dependencyRootId dependencyId = other.rootId

variable (evidence : DispatchEvidence)

def IsExhausted (id : String) : Prop :=
  IsHead localeCompare tasks id ∧ evidence.isNotDispatched id = true
    ∧ (evidence.isPolicyTerminal id = true ∨ id ∈ evidence.redispatchAttemptedIds)

def IsStarved (id : String) : Prop :=
  ∃ source, TransGen (fun id dependency => Awaits localeCompare tasks id dependency
    ∧ evidence.isNotDispatched dependency = true) id source ∧ IsExhausted localeCompare tasks evidence source

/-- What a settlement says of a head that was not dispatched. -/
def SettledAs (id : String) : NotDispatchedSettlement → Prop
  | .skipped .policyFixExempt => evidence.isPolicyTerminal id = true
  | .failed => evidence.isPolicyTerminal id = false ∧ id ∈ evidence.redispatchAttemptedIds
  | .skipped .dependencyStarved => evidence.isPolicyTerminal id = false ∧ id ∉ evidence.redispatchAttemptedIds
      ∧ IsStarved localeCompare tasks evidence id
  | .resumable => evidence.isPolicyTerminal id = false ∧ id ∉ evidence.redispatchAttemptedIds
      ∧ ¬ IsStarved localeCompare tasks evidence id

variable {localeCompare tasks evidence}

theorem get?_lineagesByRootId {rootId : String} {lineage : TaskLineage} :
    (lineageIndex localeCompare tasks).lineagesByRootId.get? rootId = some lineage
      ↔ lineage ∈ foldTaskLineages localeCompare tasks ∧ lineage.rootId = rootId := by
  refine OrderedMap.get?_indexBy_of_nodup ?_
  refine List.Nodup.map_on (fun left hleft right hright => lineage_eq_of_rootId hleft hright) ?_
  exact nodup_foldTaskLineages tasks

theorem dependsOn_iff {lineage other : TaskLineage} :
    (lineageIndex localeCompare tasks).DependsOn lineage other
      ↔ other ∈ foldTaskLineages localeCompare tasks ∧ ∃ dependencyId ∈ lineage.rootTask.dependencies.getD [],
        (lineageIndex localeCompare tasks).dependencyRootId dependencyId = other.rootId := by
  unfold LineageIndex.DependsOn
  simp only [get?_lineagesByRootId]
  constructor
  · rintro ⟨dependencyId, hmem, hother, hroot⟩
    exact ⟨hother, dependencyId, hmem, hroot.symm⟩
  · rintro ⟨hother, dependencyId, hmem, hroot⟩
    exact ⟨dependencyId, hmem, hother, hroot.symm⟩

variable (localeCompare tasks evidence) in
def startSettlements : NotDispatchedSettlements :=
  (foldTaskLineages localeCompare tasks).foldl evidence.projectHead .empty

theorem get?_startSettlements {id : String} {settlement : NotDispatchedSettlement} :
    (startSettlements localeCompare tasks evidence).get? id = some settlement
      ↔ (IsHead localeCompare tasks id ∧ evidence.isNotDispatched id = true)
        ∧ evidence.settlement id = settlement := by
  unfold startSettlements
  rw [get?_projectHead]
  simp [IsHead]

theorem contains_startSettlements {id : String} :
    (startSettlements localeCompare tasks evidence).contains id = true
      ↔ IsHead localeCompare tasks id ∧ evidence.isNotDispatched id = true := by
  rw [OrderedMap.contains, Option.isSome_iff_exists]
  simp only [get?_startSettlements, exists_and_left, exists_eq', and_true]

variable (localeCompare tasks evidence) in
def exhaustedIds : Finset String :=
  ((startSettlements localeCompare tasks evidence).entries.filter (·.2.isTerminal)).map Prod.fst |>.toFinset

theorem mem_exhaustedIds {id : String} :
    id ∈ exhaustedIds localeCompare tasks evidence ↔ IsExhausted localeCompare tasks evidence id := by
  unfold exhaustedIds IsExhausted
  rw [List.mem_toFinset, List.mem_map]
  constructor
  · rintro ⟨entry, hentry, rfl⟩
    obtain ⟨hmem, hterminal⟩ := List.mem_filter.mp hentry
    obtain ⟨⟨hhead, hdispatched⟩, hsettlement⟩ :=
      get?_startSettlements.mp ((OrderedMap.mem_entries_iff _).mp hmem)
    exact ⟨hhead, hdispatched, isTerminal_settlement.mp (hsettlement ▸ hterminal)⟩
  · rintro ⟨hhead, hdispatched, hexhausted⟩
    have hfound := get?_startSettlements.mpr ⟨⟨hhead, hdispatched⟩, rfl⟩
    exact ⟨_, List.mem_filter.mpr ⟨(OrderedMap.mem_entries_iff _).mpr hfound,
      isTerminal_settlement.mpr hexhausted⟩, rfl⟩

variable (localeCompare tasks evidence) in
def starvationSweep : Sweep TaskLineage String Unit :=
  saturate (fun lineage : TaskLineage => lineage.resolvedTask.id)
    ((lineageIndex localeCompare tasks).starveRule (startSettlements localeCompare tasks evidence))
    (foldTaskLineages localeCompare tasks) ((foldTaskLineages localeCompare tasks).length + 1)
    (Sweep.start (exhaustedIds localeCompare tasks evidence))

variable (localeCompare tasks evidence) in
theorem follows_settleNotDispatched :
    LineageIndex.Follows (startSettlements localeCompare tasks evidence)
      (settleNotDispatched localeCompare tasks evidence) (starvationSweep localeCompare tasks evidence) := by
  refine LineageIndex.Follows.starveAll ⟨fun id => ?_, fun id settlement hstart hterminal => ?_,
    fun id hid => ?_, rfl⟩ _
  · change (startSettlements localeCompare tasks evidence).get? id = _
    cases hstart : (startSettlements localeCompare tasks evidence).get? id with
    | none => rfl
    | some settlement =>
        obtain ⟨-, hsettlement⟩ := get?_startSettlements.mp hstart
        rw [Option.map_some, if_neg]
        rintro ⟨hreached, hresumable⟩
        have hterminal := isTerminal_settlement.mpr (mem_exhaustedIds.mp hreached).2.2
        rw [hsettlement, hresumable] at hterminal
        cases hterminal
  · obtain ⟨⟨hhead, hdispatched⟩, hsettlement⟩ := get?_startSettlements.mp hstart
    exact mem_exhaustedIds.mpr ⟨hhead, hdispatched, isTerminal_settlement.mp (hsettlement ▸ hterminal)⟩
  · obtain ⟨hhead, hdispatched, -⟩ := mem_exhaustedIds.mp hid
    exact contains_startSettlements.mpr ⟨hhead, hdispatched⟩

theorem mem_starvationSweep {id : String} :
    id ∈ (starvationSweep localeCompare tasks evidence).reached ↔ IsExhausted localeCompare tasks evidence id
      ∨ (IsHead localeCompare tasks id ∧ evidence.isNotDispatched id = true)
        ∧ IsStarved localeCompare tasks evidence id := by
  constructor
  · intro hreached
    refine saturate_sound _ (fun id => IsExhausted localeCompare tasks evidence id
      ∨ (IsHead localeCompare tasks id ∧ evidence.isNotDispatched id = true)
        ∧ IsStarved localeCompare tasks evidence id) (fun id hid => .inl (mem_exhaustedIds.mp hid)) ?_ id hreached
    intro current hcurrent lineage hlineage cause hrule
    obtain ⟨hknown, other, hdepends, hother⟩ := LineageIndex.starveRule_isSome.mp hrule
    obtain ⟨hmem, hdependency⟩ := dependsOn_iff.mp hdepends
    have hawaits : Awaits localeCompare tasks lineage.resolvedTask.id other.resolvedTask.id :=
      ⟨lineage, hlineage, rfl, other, hmem, rfl, hdependency⟩
    refine .inr ⟨contains_startSettlements.mp hknown, ?_⟩
    obtain hexhausted | ⟨⟨-, hdispatched⟩, source, hreaches, hexhausted⟩ := hcurrent _ hother
    · exact ⟨_, .single ⟨hawaits, hexhausted.2.1⟩, hexhausted⟩
    · exact ⟨source, .head ⟨hawaits, hdispatched⟩ hreaches, hexhausted⟩
  · have hstart : ∀ id, IsExhausted localeCompare tasks evidence id →
        id ∈ (starvationSweep localeCompare tasks evidence).reached := fun id hexhausted =>
      ((sweepInvariant_saturate _ _).mem_reached id).mpr (.inl (mem_exhaustedIds.mpr hexhausted))
    have hclosed : ∀ id dependency, Awaits localeCompare tasks id dependency →
        evidence.isNotDispatched id = true →
        dependency ∈ (starvationSweep localeCompare tasks evidence).reached →
        id ∈ (starvationSweep localeCompare tasks evidence).reached := by
      rintro id dependency ⟨lineage, hlineage, rfl, other, hother, rfl, hdependency⟩ hdispatched hreached
      obtain hdone | hquiet := saturate_closed (fun lineage : TaskLineage => lineage.resolvedTask.id)
        ((lineageIndex localeCompare tasks).starveRule (startSettlements localeCompare tasks evidence))
        (foldTaskLineages localeCompare tasks) (exhaustedIds localeCompare tasks evidence) lineage hlineage
      · exact hdone
      · have hfires := LineageIndex.starveRule_isSome.mpr
          ⟨contains_startSettlements.mpr ⟨⟨lineage, hlineage, rfl⟩, hdispatched⟩, other,
            dependsOn_iff.mpr ⟨hother, hdependency⟩, hreached⟩
        exact absurd (hquiet.symm.trans hfires) (by simp)
    rintro (hexhausted | ⟨⟨-, hdispatched⟩, source, hreaches, hexhausted⟩)
    · exact hstart id hexhausted
    · induction hreaches using TransGen.head_induction_on with
      | single hstep => exact hclosed _ _ hstep.1 hdispatched (hstart _ hexhausted)
      | head hstep _ ih => exact hclosed _ _ hstep.1 hdispatched (ih hstep.2)

theorem settledAs_iff {id : String} {settlement : NotDispatchedSettlement} {reached : Prop} [Decidable reached]
    (hreached : evidence.isPolicyTerminal id = false → id ∉ evidence.redispatchAttemptedIds →
      (reached ↔ IsStarved localeCompare tasks evidence id)) :
    (if reached ∧ evidence.settlement id = .resumable then .skipped .dependencyStarved
      else evidence.settlement id) = settlement ↔ SettledAs localeCompare tasks evidence id settlement := by
  unfold DispatchEvidence.settlement
  cases hpolicy : evidence.isPolicyTerminal id with
  | true => cases settlement with
    | resumable => simp [SettledAs, hpolicy]
    | failed => simp [SettledAs, hpolicy]
    | skipped reasonCode => cases reasonCode <;> simp [SettledAs, hpolicy]
  | false =>
      by_cases hattempted : id ∈ evidence.redispatchAttemptedIds
      · cases settlement with
        | resumable => simp [SettledAs, hpolicy, hattempted]
        | failed => simp [SettledAs, hpolicy, hattempted]
        | skipped reasonCode => cases reasonCode <;> simp [SettledAs, hpolicy, hattempted]
      · have hstarved := hreached hpolicy hattempted
        by_cases hmet : reached
        · cases settlement with
          | resumable => simp [SettledAs, hpolicy, hattempted, hmet, ← hstarved]
          | failed => simp [SettledAs, hpolicy, hattempted, hmet]
          | skipped reasonCode => cases reasonCode <;> simp [SettledAs, hpolicy, hattempted, hmet, ← hstarved]
        · cases settlement with
          | resumable => simp [SettledAs, hpolicy, hattempted, hmet, ← hstarved]
          | failed => simp [SettledAs, hpolicy, hattempted, hmet]
          | skipped reasonCode => cases reasonCode <;> simp [SettledAs, hpolicy, hattempted, hmet, ← hstarved]

theorem get?_projectNotDispatchedSettlements {id : String} {settlement : NotDispatchedSettlement} :
    (projectNotDispatchedSettlements localeCompare tasks evidence).get? id = some settlement
      ↔ (IsHead localeCompare tasks id ∧ evidence.isNotDispatched id = true)
        ∧ SettledAs localeCompare tasks evidence id settlement := by
  have hsettled := (follows_settleNotDispatched localeCompare tasks evidence).settled id
  change (settleNotDispatched localeCompare tasks evidence).projected.get? id = _ ↔ _
  have hreached (hhead : IsHead localeCompare tasks id ∧ evidence.isNotDispatched id = true)
      (hpolicy : evidence.isPolicyTerminal id = false) (hattempted : id ∉ evidence.redispatchAttemptedIds) :
      id ∈ (starvationSweep localeCompare tasks evidence).reached
        ↔ IsStarved localeCompare tasks evidence id := by
    rw [mem_starvationSweep]
    simp [IsExhausted, hhead, hpolicy, hattempted]
  rw [hsettled, Option.map_eq_some_iff]
  constructor
  · rintro ⟨first, hfirst, hsame⟩
    obtain ⟨hhead, rfl⟩ := get?_startSettlements.mp hfirst
    exact ⟨hhead, (settledAs_iff (hreached hhead)).mp hsame⟩
  · rintro ⟨hhead, hsettledAs⟩
    exact ⟨_, get?_startSettlements.mpr ⟨hhead, rfl⟩, (settledAs_iff (hreached hhead)).mpr hsettledAs⟩

theorem settleNotDispatched_ends : (settleNotDispatched localeCompare tasks evidence).changed = false := by
  rw [(follows_settleNotDispatched localeCompare tasks evidence).changed]
  exact saturate_unchanged _ _ _ _

end Heads

/-! ### The order of the list -/

def SettlesOrderFree (localeCompare : LocaleCompare) (tasks : List Task) (evidence : DispatchEvidence) : Prop :=
  ∀ arranged, tasks.Perm arranged → projectNotDispatchedSettlements localeCompare arranged evidence
    = projectNotDispatchedSettlements localeCompare tasks evidence

theorem lineageIndex_perm {localeCompare : LocaleCompare} {left right : List Task} (hperm : left.Perm right)
    (hnodup : (left.map Task.id).Nodup)
    (hapart : ∀ a ∈ left, ∀ b ∈ left, localeCompare.compare a.id b.id = 0 → a.id = b.id) (id : String) :
    (lineageIndex localeCompare left).dependencyRootId id = (lineageIndex localeCompare right).dependencyRootId id
      ∧ (lineageIndex localeCompare left).lineagesByRootId
        = (lineageIndex localeCompare right).lineagesByRootId := by
  have hlookup := indexById_perm hperm hnodup
  refine ⟨?_, congrArg (OrderedMap.indexBy TaskLineage.rootId) (foldTaskLineages_perm hperm hnodup hapart)⟩
  unfold LineageIndex.dependencyRootId lineageIndex
  rw [hlookup]
  cases (indexById right).get? id with
  | none => rfl
  | some dependency => exact (climb_congr hlookup dependency).2.2

theorem settlesOrderFree {localeCompare : LocaleCompare} {tasks : List Task} (evidence : DispatchEvidence)
    (hnodup : (tasks.map Task.id).Nodup)
    (hapart : ∀ a ∈ tasks, ∀ b ∈ tasks, localeCompare.compare a.id b.id = 0 → a.id = b.id) :
    SettlesOrderFree localeCompare tasks evidence := by
  intro arranged hperm
  have hindex := lineageIndex_perm hperm hnodup hapart
  have hstep : (lineageIndex localeCompare arranged).starve = (lineageIndex localeCompare tasks).starve := by
    funext state lineage
    unfold LineageIndex.starve LineageIndex.dependencyStarved
    simp only [fun id => (hindex id).1, (hindex lineage.rootId).2]
  have hloop (fuel : Nat) (state : LineageIndex.Starvation) (lineages : List TaskLineage) :
      (lineageIndex localeCompare arranged).starveAll lineages fuel state
        = (lineageIndex localeCompare tasks).starveAll lineages fuel state := by
    induction fuel generalizing state with
    | zero => rfl
    | succ fuel ih =>
        unfold LineageIndex.starveAll
        rw [hstep, ih]
  unfold projectNotDispatchedSettlements settleNotDispatched
  rw [foldTaskLineages_perm hperm hnodup hapart, hloop]

/-- The loop ends, and the heads that were not dispatched are settled by their evidence and their dependencies,
in one way for all arrangements of tasks whose ids compare apart. -/
theorem projectNotDispatchedSettlements_exact (localeCompare : LocaleCompare) (tasks : List Task)
    (evidence : DispatchEvidence) (hnodup : (tasks.map Task.id).Nodup) :
    (settleNotDispatched localeCompare tasks evidence).changed = false
      ∧ (∀ id settlement, (projectNotDispatchedSettlements localeCompare tasks evidence).get? id = some settlement
        ↔ (IsHead localeCompare tasks id ∧ evidence.isNotDispatched id = true)
          ∧ SettledAs localeCompare tasks evidence id settlement)
      ∧ ((∀ a ∈ tasks, ∀ b ∈ tasks, localeCompare.compare a.id b.id = 0 → a.id = b.id) →
        SettlesOrderFree localeCompare tasks evidence) :=
  ⟨settleNotDispatched_ends, fun _ _ => get?_projectNotDispatchedSettlements, settlesOrderFree evidence hnodup⟩

def starvedCycle : List Task :=
  [{ id := "a", dependencies := some ["b"] }, { id := "b", dependencies := some ["a", "c"] },
    { id := "c" }, { id := "d", dependencies := some ["d"] }]

def starvedCycleEvidence : DispatchEvidence where
  evaluations := OrderedMap.empty |>.set "a" .notDispatched |>.set "b" .notDispatched
    |>.set "c" .notDispatched |>.set "d" .notDispatched
  redispatchAttemptedIds := {"c"}
  policyTerminalIds := none

theorem projectNotDispatchedSettlements_exact_starvedCycle :
    SettledAs SchedulerState.canonicalCollation starvedCycle starvedCycleEvidence "a" (.skipped .dependencyStarved)
      ∧ SettledAs SchedulerState.canonicalCollation starvedCycle starvedCycleEvidence "d" .resumable
      ∧ SettlesOrderFree SchedulerState.canonicalCollation starvedCycle starvedCycleEvidence := by
  obtain ⟨-, hsettled, hfree⟩ := projectNotDispatchedSettlements_exact SchedulerState.canonicalCollation
    starvedCycle starvedCycleEvidence (by decide)
  exact ⟨((hsettled "a" _).mp (by decide +kernel)).2, ((hsettled "d" _).mp (by decide +kernel)).2,
    hfree (by decide +kernel)⟩

def twinEvidence : DispatchEvidence where
  evaluations := OrderedMap.empty.set "\u00e9" .notDispatched
  redispatchAttemptedIds := ∅
  policyTerminalIds := none

theorem not_settlesOrderFree_twinRepairs : (SchedulerState.twinRepairs.map Task.id).Nodup
    ∧ ¬ SettlesOrderFree SchedulerState.canonicalCollation SchedulerState.twinRepairs twinEvidence := by
  refine ⟨by decide, fun hfree => ?_⟩
  have hswap : SchedulerState.twinRepairs.Perm [SchedulerState.failedRoot,
      SchedulerState.repairOfRoot "e\u0301" .noGo, SchedulerState.repairOfRoot "\u00e9" .done] :=
    List.Perm.cons _ (List.Perm.swap _ _ _)
  have hfirst : (projectNotDispatchedSettlements SchedulerState.canonicalCollation SchedulerState.twinRepairs
      twinEvidence).get? "\u00e9" = some .resumable := by
    decide +kernel
  rw [← hfree _ hswap] at hfirst
  revert hfirst
  decide +kernel

end Deckent.TaskLineage
