import Mathlib.Data.List.Forall2
import Mathlib.Tactic.Linarith
import Mathlib.Data.Rat.Cast.Order
import Deckent.Lib.Fallible
import Deckent.Model.LiveExecutionBudget

/-!
# Verdicts of the live execution budget

What a guard has counted never falls, and a ceiling that is passed stays passed: a verdict only becomes more
severe. A guard that is exported and restored is the guard that it was.
-/

namespace Deckent.LiveBudget

variable {numberText : ℚ → String} {budget : ExecutionBudget}
  {landingPolicy : Option ExecutionLandingPolicyConfig}

/-! ### Counters -/

/-- No counter of the first is above that of the second. -/
structure LiveUsageCounters.Below (first second : LiveUsageCounters) : Prop where
  turns : first.turns ≤ second.turns
  inputTokens : first.inputTokens ≤ second.inputTokens
  outputTokens : first.outputTokens ≤ second.outputTokens
  cacheReadTokens : first.cacheReadTokens ≤ second.cacheReadTokens
  cacheCreationTokens : first.cacheCreationTokens ≤ second.cacheCreationTokens
  totalTokens : first.totalTokens ≤ second.totalTokens
  maxContextTokens : first.maxContextTokens ≤ second.maxContextTokens

def LiveUsageCounters.tokenSum (counters : LiveUsageCounters) : Nat :=
  counters.inputTokens + counters.outputTokens + counters.cacheReadTokens + counters.cacheCreationTokens

theorem LiveUsageCounters.Below.refl (counters : LiveUsageCounters) : counters.Below counters :=
  ⟨le_rfl, le_rfl, le_rfl, le_rfl, le_rfl, le_rfl, le_rfl⟩

theorem LiveUsageCounters.Below.trans {first second third : LiveUsageCounters} (hfirst : first.Below second)
    (hsecond : second.Below third) : first.Below third where
  turns := hfirst.turns.trans hsecond.turns
  inputTokens := hfirst.inputTokens.trans hsecond.inputTokens
  outputTokens := hfirst.outputTokens.trans hsecond.outputTokens
  cacheReadTokens := hfirst.cacheReadTokens.trans hsecond.cacheReadTokens
  cacheCreationTokens := hfirst.cacheCreationTokens.trans hsecond.cacheCreationTokens
  totalTokens := hfirst.totalTokens.trans hsecond.totalTokens
  maxContextTokens := hfirst.maxContextTokens.trans hsecond.maxContextTokens

/-! ### Guards -/

/-- The second guard has seen and counted all that the first has. -/
structure Guard.Below (first second : Guard) : Prop where
  counters : first.counters.Below second.counters
  measurable : first.measurableEvents ≤ second.measurableEvents
  incremental : first.incrementalUsageEvents ≤ second.incrementalUsageEvents
  seen : ∀ key ∈ first.seen, key ∈ second.seen

theorem Guard.Below.refl (guard : Guard) : guard.Below guard :=
  ⟨.refl _, le_rfl, le_rfl, fun _ hkey => hkey⟩

theorem Guard.Below.trans {first second third : Guard} (hfirst : first.Below second)
    (hsecond : second.Below third) : first.Below third where
  counters := hfirst.counters.trans hsecond.counters
  measurable := hfirst.measurable.trans hsecond.measurable
  incremental := hfirst.incremental.trans hsecond.incremental
  seen := fun key hkey => hsecond.seen key (hfirst.seen key hkey)

/-- What holds of a guard in every run. -/
structure Guard.Sound (guard : Guard) : Prop where
  total : guard.counters.totalTokens = guard.counters.tokenSum
  measurable : ∀ key ∈ guard.seen, 0 < guard.measurableEvents

theorem Guard.sound_fresh : Guard.fresh.Sound where
  total := rfl
  measurable := fun key hkey => absurd hkey (OrderedSet.notMem_empty key)

theorem Guard.sound_apply (guard : Guard) (observation : LiveUsageObservation) (applied : UsageCounts) :
    (guard.apply observation applied).Sound where
  total := rfl
  measurable := fun _ _ => Nat.succ_pos _

theorem Guard.below_apply {guard : Guard} (hsound : guard.Sound) (observation : LiveUsageObservation)
    (applied : UsageCounts) : guard.Below (guard.apply observation applied) := by
  have hturns (turns : Nat) : turns ≤ (observation.reportedTurns.map (max turns)).getD turns := by
    cases observation.reportedTurns with
    | none => exact le_rfl
    | some reported => exact le_max_left turns reported
  have hcontext : guard.counters.maxContextTokens ≤
      if observation.mode = .incremental then max guard.counters.maxContextTokens observation.contextTokens
      else guard.counters.maxContextTokens := by
    split_ifs
    · exact le_max_left ..
    · exact le_rfl
  have htotal := hsound.total
  rw [LiveUsageCounters.tokenSum] at htotal
  refine ⟨⟨?_, ?_, ?_, ?_, ?_, ?_, hcontext⟩, Nat.le_succ _, Nat.le_add_right .., fun key hkey => ?_⟩
  · exact (Nat.le_add_right ..).trans (hturns _)
  · exact Nat.le_add_right ..
  · exact Nat.le_add_right ..
  · exact Nat.le_add_right ..
  · exact Nat.le_add_right ..
  · simp only [Guard.apply, addCounters]
    omega
  · exact OrderedSet.mem_add.mpr (.inl hkey)

theorem Guard.call_fst {guard : Guard} (call : GuardCall) :
    (guard.call numberText budget landingPolicy call).1 = guard ∨
      ∃ observation applied, (guard.call numberText budget landingPolicy call).1 =
        guard.apply observation applied := by
  cases call with
  | snapshot => exact .inl rfl
  | observe event =>
      rw [Guard.call, Guard.observe]
      cases extractLiveUsageObservation numberText event with
      | none => exact .inl rfl
      | some observation =>
          dsimp only
          split_ifs
          · exact .inl rfl
          · exact .inr ⟨observation, _, rfl⟩
          · exact .inr ⟨observation, _, rfl⟩

section Calls

variable (numberText budget landingPolicy)

theorem Guard.Sound.call {guard : Guard} (hsound : guard.Sound) (call : GuardCall) :
    (guard.call numberText budget landingPolicy call).1.Sound ∧
      guard.Below (guard.call numberText budget landingPolicy call).1 := by
  obtain hsame | ⟨observation, applied, hnext⟩ := guard.call_fst call
  · rw [hsame]
    exact ⟨hsound, .refl guard⟩
  · rw [hnext]
    exact ⟨guard.sound_apply observation applied, below_apply hsound observation applied⟩

theorem Guard.Sound.after {guard : Guard} (hsound : guard.Sound) (calls : List GuardCall) :
    (guard.after numberText budget landingPolicy calls).Sound ∧
      guard.Below (guard.after numberText budget landingPolicy calls) := by
  induction calls generalizing guard with
  | nil => exact ⟨hsound, .refl guard⟩
  | cons call calls ih =>
      obtain ⟨hnext, hbelow⟩ := hsound.call numberText budget landingPolicy call
      obtain ⟨hafter, hbelow'⟩ := ih hnext
      exact ⟨hafter, hbelow.trans hbelow'⟩

end Calls

/-! ### Ceilings -/

theorem lt_of_le {limit : JsNumber} {actual later : Nat} (hle : actual ≤ later)
    (hlt : JsNumber.lt limit (.finite actual) = true) : JsNumber.lt limit (.finite later) = true := by
  cases limit with
  | finite limit =>
      simp only [JsNumber.lt, decide_eq_true_eq] at hlt ⊢
      exact hlt.trans_le (Nat.cast_le.mpr hle)
  | _ => exact hlt

theorem le_of_le {limit : JsNumber} {actual later : Nat} (hle : actual ≤ later)
    (hlimit : JsNumber.le limit (.finite actual) = true) : JsNumber.le limit (.finite later) = true := by
  cases limit with
  | finite limit =>
      simp only [JsNumber.le, JsNumber.lt, Bool.not_eq_true', decide_eq_false_iff_not, not_lt] at hlimit ⊢
      exact hlimit.trans (Nat.cast_le.mpr hle)
  | _ => exact hlimit

structure Check.Raised (first second : Check) : Prop where
  limit : first.limit = second.limit
  label : first.label = second.label
  actual : first.actual ≤ second.actual

theorem forall₂_checks {first second : LiveUsageCounters} (hbelow : first.Below second) :
    List.Forall₂ Check.Raised (checks budget first) (checks budget second) :=
  .cons ⟨rfl, rfl, hbelow.turns⟩ <| .cons ⟨rfl, rfl, hbelow.inputTokens⟩ <|
    .cons ⟨rfl, rfl, hbelow.outputTokens⟩ <| .cons ⟨rfl, rfl, hbelow.cacheReadTokens⟩ <|
    .cons ⟨rfl, rfl, hbelow.cacheCreationTokens⟩ <| .cons ⟨rfl, rfl, hbelow.totalTokens⟩ <|
    .cons ⟨rfl, rfl, hbelow.maxContextTokens⟩ .nil

theorem exceededReason?_isSome {check : Check} : (exceededReason? numberText check).isSome = true ↔
    ∃ limit, check.limit = some limit ∧ JsNumber.lt limit (.finite check.actual) = true := by
  rw [exceededReason?]
  cases check.limit with
  | none => simp
  | some limit => simp

theorem Check.Raised.exceeded {first second : Check} (hraised : first.Raised second)
    (hexceeded : (exceededReason? numberText first).isSome = true) :
    (exceededReason? numberText second).isSome = true := by
  obtain ⟨limit, hlimit, hlt⟩ := exceededReason?_isSome.mp hexceeded
  exact exceededReason?_isSome.mpr ⟨limit, hraised.limit ▸ hlimit, lt_of_le hraised.actual hlt⟩

theorem exceeded_of_forall₂ {first second : List Check} (hraised : List.Forall₂ Check.Raised first second)
    (hexceeded : first.filterMap (exceededReason? numberText) ≠ []) :
    second.filterMap (exceededReason? numberText) ≠ [] := by
  induction hraised with
  | nil => exact hexceeded
  | @cons check check' first second hcheck _ ih =>
      cases hreason : exceededReason? numberText check with
      | none =>
          rw [List.filterMap_cons_none hreason] at hexceeded
          cases hreason' : exceededReason? numberText check' with
          | none =>
              rw [List.filterMap_cons_none hreason']
              exact ih hexceeded
          | some reason =>
              rw [List.filterMap_cons_some hreason']
              exact List.cons_ne_nil _ _
      | some reason =>
          have hsome := hcheck.exceeded (by rw [hreason]; rfl)
          obtain ⟨reason', hreason'⟩ := Option.isSome_iff_exists.mp hsome
          rw [List.filterMap_cons_some hreason']
          exact List.cons_ne_nil _ _

theorem landing_of_forall₂ {policy : ExecutionLandingPolicyConfig} {first second : List Check}
    (hraised : List.Forall₂ Check.Raised first second) {reasons : List String}
    (hlanding : landingReasons numberText policy first = .ok reasons) :
    ∃ later, landingReasons numberText policy second = .ok later ∧ (reasons ≠ [] → later ≠ []) := by
  induction hraised generalizing reasons with
  | nil => exact ⟨reasons, hlanding, id⟩
  | @cons check check' first second hcheck _ ih =>
      rw [landingReasons] at hlanding ⊢
      rw [← hcheck.limit, ← hcheck.label]
      cases hlimit : check.limit with
      | none =>
          rw [hlimit] at hlanding
          exact ih hlanding
      | some limit =>
          rw [hlimit] at hlanding
          obtain ⟨threshold, hthreshold, hrest⟩ := bind_eq_ok.mp hlanding
          obtain ⟨rest, hrest, hreasons⟩ := bind_eq_ok.mp hrest
          obtain ⟨later, hlater, hmore⟩ := ih hrest
          by_cases hreached : JsNumber.le threshold (.finite check'.actual) = true
          · exact ⟨_, bind_eq_ok.mpr ⟨threshold, hthreshold, bind_eq_ok.mpr ⟨later, hlater, if_pos hreached⟩⟩,
              fun _ => List.cons_ne_nil _ _⟩
          · have hbefore : ¬JsNumber.le threshold (.finite check.actual) = true :=
              fun hle => hreached (le_of_le hcheck.actual hle)
            rw [if_neg hbefore] at hreasons
            cases hreasons
            exact ⟨later, bind_eq_ok.mpr ⟨threshold, hthreshold, bind_eq_ok.mpr ⟨later, hlater,
              if_neg hreached⟩⟩, hmore⟩

/-! ### Verdicts -/

variable (numberText budget) in
def Guard.Passed (guard : Guard) : Prop := guard.exceededReasons numberText budget ≠ []

variable (numberText budget landingPolicy) in
def Guard.Landing (guard : Guard) : Prop :=
  (∃ reasons, guard.landing numberText budget landingPolicy = .ok reasons ∧ reasons ≠ []) ∧
    ¬(budget.maxContextTokens.isSome = true ∧ guard.incrementalUsageEvents = 0)

theorem Guard.Passed.later {guard later : Guard} (hpassed : guard.Passed numberText budget)
    (hbelow : guard.Below later) : later.Passed numberText budget :=
  exceeded_of_forall₂ (forall₂_checks hbelow.counters) hpassed

theorem Guard.Landing.later {guard later : Guard} (hlanding : guard.Landing numberText budget landingPolicy)
    (hbelow : guard.Below later) (hpassed : ¬later.Passed numberText budget) :
    later.Landing numberText budget landingPolicy := by
  obtain ⟨⟨reasons, hreasons, hsome⟩, hcontext⟩ := hlanding
  have hlater : later.exceededReasons numberText budget = [] := not_not.mp hpassed
  have hguard : guard.exceededReasons numberText budget = [] :=
    not_not.mp fun hguard => hpassed (Guard.Passed.later hguard hbelow)
  refine ⟨?_, fun hboth => hcontext ⟨hboth.1, Nat.le_zero.mp (hboth.2 ▸ hbelow.incremental)⟩⟩
  unfold Guard.landing at hreasons ⊢
  cases landingPolicy with
  | none =>
      cases hreasons
      exact absurd rfl hsome
  | some policy =>
      dsimp only at hreasons ⊢
      rw [if_pos hguard] at hreasons
      obtain ⟨rest, hrest, hmore⟩ := landing_of_forall₂ (forall₂_checks hbelow.counters) hreasons
      exact ⟨rest, (if_pos hlater).trans hrest, hmore hsome⟩

section Decisions

variable {guard : Guard} {emptyState : BudgetState} {observation : Option LiveUsageObservation}
  {applied : Option UsageCounts} {decision : LiveBudgetDecision}

theorem Guard.counters_of_decision (hdecision : guard.decision numberText budget landingPolicy emptyState
    observation applied = .ok decision) : decision.counters = guard.counters := by
  obtain ⟨landing, -, rfl⟩ := exceptMap_eq_ok.mp hdecision
  rw [Guard.verdict]
  split_ifs <;> rfl

theorem Guard.passed_of_decision (hdecision : guard.decision numberText budget landingPolicy emptyState
    observation applied = .ok decision) (hstate : decision.state = .exceeded)
    (hempty : emptyState ≠ .exceeded) : guard.Passed numberText budget := by
  obtain ⟨landing, -, rfl⟩ := exceptMap_eq_ok.mp hdecision
  intro hnone
  rw [Guard.verdict] at hstate
  split_ifs at hstate with hcontext hmeasured hreasons
  · exact hreasons hnone
  · cases hstate
    exact hempty rfl

variable (landingPolicy) in
theorem Guard.decision_of_passed (hpassed : guard.Passed numberText budget)
    (hmeasured : 0 < guard.measurableEvents) (emptyState : BudgetState)
    (observation : Option LiveUsageObservation) (applied : Option UsageCounts) :
    ∃ decision, guard.decision numberText budget landingPolicy emptyState observation applied = .ok decision ∧
      decision.state = .exceeded := by
  have hsome : guard.exceededReasons numberText budget ≠ [] := hpassed
  have hlanding : guard.landing numberText budget landingPolicy = .ok [] := by
    unfold Guard.landing
    cases landingPolicy with
    | none => rfl
    | some policy => exact if_neg hsome
  refine ⟨_, exceptMap_eq_ok.mpr ⟨[], hlanding, rfl⟩, ?_⟩
  simp [Guard.verdict, hsome, hmeasured.ne']

theorem Guard.landing_of_decision (hdecision : guard.decision numberText budget landingPolicy emptyState
    observation applied = .ok decision) (hstate : decision.state = .landingRequested)
    (hempty : emptyState ≠ .landingRequested) :
    guard.Landing numberText budget landingPolicy ∧ ¬guard.Passed numberText budget := by
  obtain ⟨landing, hlanding, rfl⟩ := exceptMap_eq_ok.mp hdecision
  rw [Guard.verdict] at hstate
  split_ifs at hstate with hcontext hmeasured hreasons hsome
  · refine ⟨⟨⟨landing, hlanding, hsome⟩, fun hboth => hcontext ?_⟩, hreasons⟩
    simp [not_not.mp hreasons, hboth.1, hboth.2]
  · exact absurd hstate hempty

theorem Guard.decision_of_landing (hlanding : guard.Landing numberText budget landingPolicy)
    (hpassed : ¬guard.Passed numberText budget) (hmeasured : 0 < guard.measurableEvents)
    (emptyState : BudgetState) (observation : Option LiveUsageObservation) (applied : Option UsageCounts) :
    ∃ decision, guard.decision numberText budget landingPolicy emptyState observation applied = .ok decision ∧
      decision.state = .landingRequested := by
  obtain ⟨⟨reasons, hreasons, hsome⟩, hcontext⟩ := hlanding
  have hnone : guard.exceededReasons numberText budget = [] := not_not.mp hpassed
  refine ⟨_, exceptMap_eq_ok.mpr ⟨reasons, hreasons, rfl⟩, ?_⟩
  have hcontext' : (budget.maxContextTokens.isSome && decide (guard.incrementalUsageEvents = 0)) = false := by
    rw [← Bool.not_eq_true, Bool.and_eq_true, decide_eq_true_eq]
    exact hcontext
  simp [Guard.verdict, hnone, hcontext', hmeasured.ne', hsome]

theorem Guard.measured_of_decision (hdecision : guard.decision numberText budget landingPolicy emptyState
    observation applied = .ok decision) (hstate : decision.state ≠ .unmeasurable)
    (hempty : emptyState = .withinBudget ∧ 0 < guard.measurableEvents ∨ emptyState = .unmeasurable) :
    0 < guard.measurableEvents := by
  obtain ⟨-, hmeasured⟩ | rfl := hempty
  · exact hmeasured
  · obtain ⟨landing, -, rfl⟩ := exceptMap_eq_ok.mp hdecision
    by_contra hzero
    have hnone : (decide (BudgetState.unmeasurable = .unmeasurable) && decide (guard.measurableEvents = 0)) =
        true := by simpa using hzero
    rw [Guard.verdict, if_pos hnone] at hstate
    split_ifs at hstate <;> exact hstate rfl

end Decisions

/-! ### Runs -/

section Runs

variable (numberText budget landingPolicy)

/-- The verdict of an earlier call is upheld by a later one. -/
def Upholds (earlier later : Except String LiveBudgetDecision) : Prop :=
  (∀ decision, earlier = .ok decision → decision.state = .exceeded →
    ∃ decision', later = .ok decision' ∧ decision'.state = .exceeded) ∧
  ∀ decision, earlier = .ok decision → decision.state = .landingRequested →
    ∃ decision', later = .ok decision' ∧
      (decision'.state = .landingRequested ∨ decision'.state = .exceeded)

theorem Guard.Sound.call_snd {guard : Guard} (hsound : guard.Sound) (call : GuardCall) :
    ∃ emptyState observation applied,
      (guard.call numberText budget landingPolicy call).2 =
        (guard.call numberText budget landingPolicy call).1.decision numberText budget landingPolicy emptyState
          observation applied ∧
      (emptyState = .withinBudget ∧ 0 < (guard.call numberText budget landingPolicy call).1.measurableEvents ∨
        emptyState = .unmeasurable) := by
  cases call with
  | snapshot =>
      refine ⟨_, none, none, rfl, ?_⟩
      by_cases hmeasured : guard.measurableEvents > 0
      · exact .inl ⟨if_pos hmeasured, hmeasured⟩
      · exact .inr (if_neg hmeasured)
  | observe event =>
      rw [Guard.call, Guard.observe]
      cases extractLiveUsageObservation numberText event with
      | none => exact ⟨.unmeasurable, none, none, rfl, .inr rfl⟩
      | some observation =>
          dsimp only
          by_cases hseen : observation.dedupeKey ∈ guard.seen
          · rw [if_pos hseen]
            exact ⟨.withinBudget, _, _, rfl, .inl ⟨rfl, hsound.measurable _ hseen⟩⟩
          · rw [if_neg hseen]
            exact ⟨.withinBudget, _, _, rfl, .inl ⟨rfl, Nat.succ_pos _⟩⟩

theorem Guard.Sound.upholds {guard : Guard} (hsound : guard.Sound) (first last : GuardCall)
    (between : List GuardCall) :
    Upholds (guard.call numberText budget landingPolicy first).2
      ((guard.after numberText budget landingPolicy (first :: between)).call numberText budget landingPolicy
        last).2 := by
  have hreached : guard.after numberText budget landingPolicy (first :: between) =
      (guard.call numberText budget landingPolicy first).1.after numberText budget landingPolicy between := rfl
  rw [hreached]
  obtain ⟨hnext, -⟩ := hsound.call numberText budget landingPolicy first
  obtain ⟨hafter, hbetween⟩ := hnext.after numberText budget landingPolicy between
  obtain ⟨-, hlast⟩ := hafter.call numberText budget landingPolicy last
  have hbelow := hbetween.trans hlast
  obtain ⟨empty, observation, applied, hearlier, hempty⟩ :=
    hsound.call_snd numberText budget landingPolicy first
  obtain ⟨empty', observation', applied', hlater, -⟩ :=
    hafter.call_snd numberText budget landingPolicy last
  have hmeasured {decision : LiveBudgetDecision}
      (hdecision : (guard.call numberText budget landingPolicy first).2 = .ok decision)
      (hstate : decision.state ≠ .unmeasurable) :=
    (Guard.measured_of_decision (hearlier ▸ hdecision) hstate hempty).trans_le hbelow.measurable
  refine ⟨fun decision hdecision hstate => ?_, fun decision hdecision hstate => ?_⟩
  · have hpassed := Guard.passed_of_decision (hearlier ▸ hdecision) hstate (by rintro rfl; simp at hempty)
    obtain ⟨decision', hdecision', hstate'⟩ := Guard.decision_of_passed landingPolicy
      (hpassed.later hbelow) (hmeasured hdecision (by rw [hstate]; decide)) empty' observation' applied'
    exact ⟨decision', hlater.trans hdecision', hstate'⟩
  · obtain ⟨hlanding, -⟩ :=
      Guard.landing_of_decision (hearlier ▸ hdecision) hstate (by rintro rfl; simp at hempty)
    have hcounted := hmeasured hdecision (by rw [hstate]; decide)
    by_cases hpassed : Guard.Passed numberText budget
        (((guard.call numberText budget landingPolicy first).1.after numberText budget landingPolicy
          between).call numberText budget landingPolicy last).1
    · obtain ⟨decision', hdecision', hstate'⟩ := Guard.decision_of_passed landingPolicy
        hpassed hcounted empty' observation' applied'
      exact ⟨decision', hlater.trans hdecision', .inr hstate'⟩
    · obtain ⟨decision', hdecision', hstate'⟩ := Guard.decision_of_landing (hlanding.later hbelow hpassed)
        hpassed hcounted empty' observation' applied'
      exact ⟨decision', hlater.trans hdecision', .inl hstate'⟩

theorem Guard.mem_seen_observe (guard : Guard) {event : StreamLogEvent} {observation : LiveUsageObservation}
    (hobservation : extractLiveUsageObservation numberText event = some observation) :
    observation.dedupeKey ∈ (guard.observe numberText budget landingPolicy event).1.seen := by
  rw [Guard.observe, hobservation]
  dsimp only
  by_cases hseen : observation.dedupeKey ∈ guard.seen
  · rw [if_pos hseen]
    exact hseen
  · rw [if_neg hseen]
    exact OrderedSet.mem_add.mpr (.inr rfl)

theorem Guard.observe_of_seen {guard : Guard} {event : StreamLogEvent} {observation : LiveUsageObservation}
    (hobservation : extractLiveUsageObservation numberText event = some observation)
    (hseen : observation.dedupeKey ∈ guard.seen) :
    (guard.observe numberText budget landingPolicy event).1 = guard := by
  rw [Guard.observe, hobservation]
  exact congrArg Prod.fst (if_pos hseen)

theorem Guard.after_append (guard : Guard) (before between : List GuardCall) :
    guard.after numberText budget landingPolicy (before ++ between) =
      (guard.after numberText budget landingPolicy before).after numberText budget landingPolicy between :=
  List.foldl_append ..

theorem Guard.answers_append (guard : Guard) (before between : List GuardCall) :
    guard.answers numberText budget landingPolicy (before ++ between) =
      guard.answers numberText budget landingPolicy before ++
        (guard.after numberText budget landingPolicy before).answers numberText budget landingPolicy between := by
  induction before generalizing guard with
  | nil => rfl
  | cons call before ih =>
      rw [List.cons_append, Guard.answers, Guard.answers, ih, List.cons_append]
      rfl

theorem Guard.Sound.mem_seen {guard : Guard} (hsound : guard.Sound) {calls : List GuardCall}
    {event : StreamLogEvent} {observation : LiveUsageObservation} (hevent : .observe event ∈ calls)
    (hobservation : extractLiveUsageObservation numberText event = some observation) :
    observation.dedupeKey ∈ (guard.after numberText budget landingPolicy calls).seen := by
  obtain ⟨before, between, rfl⟩ := List.mem_iff_append.mp hevent
  obtain ⟨hreached, -⟩ := hsound.after numberText budget landingPolicy before
  obtain ⟨hobserved, -⟩ := hreached.call numberText budget landingPolicy (.observe event)
  obtain ⟨-, hbelow⟩ := hobserved.after numberText budget landingPolicy between
  rw [Guard.after_append]
  exact hbelow.seen _ (Guard.mem_seen_observe numberText budget landingPolicy _ hobservation)

theorem Guard.restore_exportState (guard : Guard) : Guard.restore guard.exportState = guard := by
  rw [Guard.exportState, Guard.restore, OrderedSet.ofList_members]

/-- The guard after the calls of a run. -/
abbrev reached (calls : List GuardCall) : Guard := Guard.fresh.after numberText budget landingPolicy calls

end Runs

end Deckent.LiveBudget
