import Deckent.Proof.SchedulerSlots

/-!
# Settlements of the scheduler

A dispatch comes to one answer of the store: its claim is settled, or the scheduler fails. It fails where
the engine has lost its lease, or where the store refuses the settlement: the claim has been revoked, it
names no item or mission, or the result brings a plan that the item may not adopt.
-/

namespace Deckent.Mission

variable {host : SchedulerHost} {opts : MissionSchedulerOptions} {now : Int} {db : MissionDb}
  {moves : List SchedulerMove} {state middle next : SchedulerState}

/-! ### Refused settlements -/

def Unheld (db : MissionDb) (claim : MissionDispatchClaim) : Prop :=
  ∀ row ∈ db.items, row.holds claim = false

def BringsOtherPlan (runtime : JsonRuntime) (db : MissionDb) (claim : MissionDispatchClaim)
    (result : Json) : Prop :=
  ∃ exactPlanRef, specMember (some result) "exactPlanRef" = some exactPlanRef
    ∧ db.adoption? runtime claim exactPlanRef = none

def Unnamed (claim : MissionDispatchClaim) : Prop := claim.workItemId = "" ∨ claim.missionId = ""

theorem wellFormedClaim_dispatchClaim (row : WorkItemRow) (fence : Option WorkItemAdmissionFence)
    (tokens : ClaimTokens) :
    wellFormedClaim (dispatchClaim now row ⟨"scheduler", tokens.attemptId, tokens.fenceToken⟩ fence)
        = true
      ∨ Unnamed (dispatchClaim now row ⟨"scheduler", tokens.attemptId, tokens.fenceToken⟩ fence) := by
  by_cases hid : row.id = ""
  · exact .inr (.inl hid)
  · by_cases hmission : row.missionId = ""
    · exact .inr (.inr hmission)
    · left
      simp [wellFormedClaim, dispatchClaim, hid, hmission, tokens.attemptId_ne, tokens.fenceToken_ne]

theorem unheld_of_changes {db : MissionDb} (hkeys : (db.items.map (·.id)).Nodup)
    {claim : MissionDispatchClaim} (hchanges : db.changes (·.holds claim) ≠ 1) : Unheld db claim := by
  have hle : db.changes (·.holds claim) ≤ 1 := changes_le_one hkeys fun row hholds => (holds_eq_true hholds).1
  have hzero : db.items.filter (·.holds claim) = [] := by
    apply List.eq_nil_of_length_eq_zero
    unfold MissionDb.changes at hchanges hle
    omega
  intro row hrow
  exact Bool.eq_false_of_not_eq_true (List.filter_eq_nil_iff.mp hzero row hrow)

/-- Why a settlement is refused while the engine has its lease. -/
theorem refused_cases {claim : MissionDispatchClaim} {status : SettlementStatus} {result : Json}
    {after : MissionDb} (hkeys : (db.items.map (·.id)).Nodup)
    (hclaim : wellFormedClaim claim = true ∨ Unnamed claim)
    (hlease : ∀ lease, opts.engineLease = some lease → db.isEngineLeaseActive now lease = true)
    (hrefused : db.settleClaimedItem host.runtime now claim status (some result) opts.engineLease
      = (after, .ok false)) :
    Unheld db claim ∨ Unnamed claim ∨ BringsOtherPlan host.runtime db claim result := by
  obtain hclaim | hunnamed := hclaim
  · have hpredicate : db.engineLeasePredicate now opts.engineLease = some true := by
      cases hoption : opts.engineLease with
      | none => rfl
      | some lease =>
          have hactive := hlease lease hoption
          unfold MissionDb.isEngineLeaseActive at hactive
          rw [Bool.and_eq_true] at hactive
          simp only [MissionDb.engineLeasePredicate, hactive.1, if_true, hactive.2]
    have hwith {adoption : Option PlanAdoption} {next : MissionDb}
        (hsettle : db.settleWith now claim status (some result) adoption true = .ok (false, next)) :
        Unheld db claim := by
      unfold MissionDb.settleWith at hsettle
      simp only [Bool.and_true] at hsettle
      split at hsettle
      · next hchanges => exact unheld_of_changes hkeys hchanges
      · split at hsettle
        · cases hsettle
        · obtain ⟨fenced, -, hanswer⟩ := exceptMap_eq_ok.mp hsettle
          cases hanswer
    unfold MissionDb.settleClaimedItem at hrefused
    rw [if_neg (by simp [hclaim])] at hrefused
    have hbody := transaction_eq_ok (congrArg Prod.snd hrefused)
    unfold MissionDb.settleBody at hbody
    rw [hpredicate] at hbody
    dsimp only at hbody
    split at hbody
    · exact .inl (hwith hbody)
    · next exactPlanRef hbrings =>
        split at hbody
        · next hother => exact .inr (.inr ⟨exactPlanRef, hbrings, hother⟩)
        · exact .inl (hwith hbody)
  · exact .inr (.inl hunnamed)

/-! ### Why a scheduler fails -/

inductive Failure (host : SchedulerHost) (opts : MissionSchedulerOptions) (state : SchedulerState)
    (now : Int) (flight : Flight) (outcome : DispatchOutcome) : Prop
  | leaseLost (hlost : state.leaseError? opts now ≠ none)
  | reported (lease : LeaseLost) (hphase : flight.phase = .dispatched)
      (houtcome : outcome = .rejected (.engineLeaseLost lease))
  | revoked (hactive : flight.phase.isActive = true) (hunheld : Unheld state.db flight.claim)
  | unnamed (hactive : flight.phase.isActive = true) (hunnamed : Unnamed flight.claim)
  | otherPlan (result : Json) (hphase : flight.phase = .dispatched) (houtcome : outcome = .resolved result)
      (hother : BringsOtherPlan host.runtime state.db flight.claim result)

def HasFailed (host : SchedulerHost) (opts : MissionSchedulerOptions) (db : MissionDb)
    (moves : List SchedulerMove) : Prop :=
  ∃ before now index outcome after earlier flight, moves = before ++ .callback now index outcome :: after
    ∧ SchedulerRun host opts db before earlier ∧ earlier.flights[index]? = some flight
    ∧ Failure host opts earlier now flight outcome

theorem HasFailed.append (hfailed : HasFailed host opts db moves) (rest : List SchedulerMove) :
    HasFailed host opts db (moves ++ rest) := by
  obtain ⟨before, now, index, outcome, after, earlier, flight, rfl, hfailure⟩ := hfailed
  exact ⟨before, now, index, outcome, after ++ rest, earlier, flight, by simp, hfailure⟩

def SchedulerState.holdsLeaseLost (state : SchedulerState) : Prop :=
  ∃ flight ∈ state.flights, ∃ lease, flight.phase = .rejected (.engineLeaseLost lease)

/-! ### Accounts -/

/-- Each dispatch is settled once, or the scheduler fails. -/
structure Accounts (host : SchedulerHost) (opts : MissionSchedulerOptions) (db : MissionDb)
    (moves : List SchedulerMove) (state : SchedulerState) : Prop where
  keys : (state.db.items.map (·.id)).Nodup
  claims : ∀ flight ∈ state.flights, wellFormedClaim flight.claim = true ∨ Unnamed flight.claim
  once : state.settlements.Nodup
  passed : ∀ index ∈ state.settlements, ∃ flight, state.flights[index]? = some flight
    ∧ flight.phase.isActive = false ∧ Passed state.db flight.claim
  settled : ∀ index flight, state.flights[index]? = some flight → flight.phase.isActive = false →
    index ∈ state.settlements ∨ state.fatalError ≠ none
  failed : state.fatalError ≠ none ∨ state.holdsLeaseLost → HasFailed host opts db moves

theorem accounts_start (hkeys : (db.items.map (·.id)).Nodup) :
    Accounts host opts db [] (.start db) where
  keys := hkeys
  claims := by simp [SchedulerState.start]
  once := List.nodup_nil
  passed := by simp [SchedulerState.start]
  settled := by simp [SchedulerState.start]
  failed := by simp [SchedulerState.start, SchedulerState.holdsLeaseLost]

theorem ages_move {move : SchedulerMove} (hkeys : (state.db.items.map (·.id)).Nodup)
    (hmove : state.move? host opts move = some next) : Ages state.db next.db := by
  cases hown : move.isOwn with
  | true =>
      obtain ⟨set, hitems, hforward⟩ := (checksOnce_move hown hmove).items
      exact ages_of_map hkeys hitems fun row hrow => (hforward row hrow).later
  | false =>
      cases move with
      | coordinate timed =>
          simp only [SchedulerState.move?] at hmove
          split at hmove
          · obtain rfl := Option.some.inj hmove
            exact ages_perform hkeys timed
          · cases hmove
      | foreign timed =>
          obtain rfl := Option.some.inj hmove
          exact ages_perform hkeys timed
      | _ => cases hown

theorem Accounts.of_idle (haccounts : Accounts host opts db moves state) (hidle : Idle state next)
    (hages : Ages state.db next.db) (move : SchedulerMove) :
    Accounts host opts db (moves ++ [move]) next where
  keys := hages.nodup
  claims := by
    rw [hidle.flights]
    exact haccounts.claims
  once := by
    rw [hidle.settlements]
    exact haccounts.once
  passed := by
    rw [hidle.settlements, hidle.flights]
    intro index hindex
    obtain ⟨flight, hflight, hactive, hpassed⟩ := haccounts.passed index hindex
    exact ⟨flight, hflight, hactive, hages.passed hpassed⟩
  settled := by
    rw [hidle.settlements, hidle.flights, hidle.fatalError]
    exact haccounts.settled
  failed := by
    unfold SchedulerState.holdsLeaseLost
    rw [hidle.flights, hidle.fatalError]
    exact fun hfailed => (haccounts.failed hfailed).append [move]

theorem Accounts.launch (haccounts : Accounts host opts db moves state)
    (hlaunch : Launch opts now state next) (hages : Ages state.db next.db) (move : SchedulerMove) :
    Accounts host opts db (moves ++ [move]) next := by
  obtain ⟨-, -⟩ := hlaunch
  rename_i after item row fence tokens
  constructor
  case keys => exact hages.nodup
  case claims =>
    intro flight hflight
    obtain hold | hnew := List.mem_append.mp hflight
    · exact haccounts.claims flight hold
    · obtain rfl := List.mem_singleton.mp hnew
      exact wellFormedClaim_dispatchClaim row fence tokens
  case once => exact haccounts.once
  case passed =>
    intro index hindex
    obtain ⟨flight, hflight, hactive, hpassed⟩ := haccounts.passed index hindex
    refine ⟨flight, ?_, hactive, hages.passed hpassed⟩
    exact (List.getElem?_append_left (List.getElem?_eq_some_iff.mp hflight).1).trans hflight
  case settled =>
    intro index flight hflight hactive
    refine haccounts.settled index flight ?_ hactive
    obtain hlt | hge := lt_or_ge index state.flights.length
    · rwa [SchedulerState.launch, List.getElem?_append_left hlt] at hflight
    · have hnew := List.mem_of_getElem? ((List.getElem?_append_right hge).symm.trans hflight)
      obtain rfl := List.mem_singleton.mp hnew
      cases hactive
  case failed =>
    rintro (hfatal | ⟨flight, hflight, lease, hphase⟩)
    · exact (haccounts.failed (.inl hfatal)).append [move]
    · obtain hold | hnew := List.mem_append.mp hflight
      · exact (haccounts.failed (.inr ⟨flight, hold, lease, hphase⟩)).append [move]
      · obtain rfl := List.mem_singleton.mp hnew
        cases hphase

inductive SettledWith (state : SchedulerState) (index : Nat) (flight replacement : Flight)
    (next : SchedulerState) : Prop
  | same (hsame : next.settlements = state.settlements)
  | more (hmore : next.settlements = state.settlements ++ [index])
      (hactive : flight.phase.isActive = true) (hsettled : replacement.phase.isActive = false)
      (hpassed : Passed next.db flight.claim)

/-- One flight is replaced. -/
theorem Accounts.set (haccounts : Accounts host opts db moves state) (hages : Ages state.db next.db)
    {move : SchedulerMove} {index : Nat} {flight replacement : Flight}
    (hflight : state.flights[index]? = some flight)
    (hflights : next.flights = state.flights.set index replacement)
    (hclaim : replacement.claim = flight.claim)
    (hphase : flight.phase.isActive = false → replacement.phase.isActive = false)
    (hsettlements : SettledWith state index flight replacement next)
    (hfatal : state.fatalError ≠ none → next.fatalError ≠ none)
    (hsettled : replacement.phase.isActive = false →
      index ∈ next.settlements ∨ next.fatalError ≠ none)
    (hfailed : (next.fatalError ≠ none ∨ ∃ lease, replacement.phase = .rejected (.engineLeaseLost lease)) →
      state.fatalError ≠ none ∨ state.holdsLeaseLost ∨ HasFailed host opts db (moves ++ [move])) :
    Accounts host opts db (moves ++ [move]) next := by
  have hlt : index < state.flights.length := (List.getElem?_eq_some_iff.mp hflight).1
  have hself : next.flights[index]? = some replacement := by
    rw [hflights, List.getElem?_set_self hlt]
  have hother {other : Nat} (hne : index ≠ other) : next.flights[other]? = state.flights[other]? := by
    rw [hflights, List.getElem?_set_ne hne]
  have hkept : ∀ other ∈ state.settlements, ∃ found, next.flights[other]? = some found
      ∧ found.phase.isActive = false ∧ Passed next.db found.claim := by
    intro other hmem
    obtain ⟨found, hfound, hactive, hpassed⟩ := haccounts.passed other hmem
    obtain rfl | hne := eq_or_ne index other
    · obtain rfl := Option.some.inj (hflight.symm.trans hfound)
      exact ⟨replacement, hself, hphase hactive, hclaim ▸ hages.passed hpassed⟩
    · exact ⟨found, (hother hne).trans hfound, hactive, hages.passed hpassed⟩
  constructor
  case keys => exact hages.nodup
  case claims =>
    intro found hfound
    rw [hflights] at hfound
    obtain hold | rfl := List.mem_or_eq_of_mem_set hfound
    · exact haccounts.claims found hold
    · rw [hclaim]
      exact haccounts.claims flight (List.mem_of_getElem? hflight)
  case once =>
    cases hsettlements with
    | same hsame => exact hsame ▸ haccounts.once
    | more hmore hactive _ _ =>
        have hfresh : index ∉ state.settlements := by
          intro hmem
          obtain ⟨found, hfound, hinactive, -⟩ := haccounts.passed index hmem
          obtain rfl := Option.some.inj (hflight.symm.trans hfound)
          rw [hactive] at hinactive
          cases hinactive
        rw [hmore]
        exact haccounts.once.append (List.nodup_singleton _) (by simpa using hfresh)
  case passed =>
    intro other hmem
    cases hsettlements with
    | same hsame => exact hkept other (hsame ▸ hmem)
    | more hmore _ hinactive hpassed =>
        rw [hmore] at hmem
        obtain hold | hnew := List.mem_append.mp hmem
        · exact hkept other hold
        · obtain rfl := List.mem_singleton.mp hnew
          exact ⟨replacement, hself, hinactive, hclaim ▸ hpassed⟩
  case settled =>
    intro other found hfound hinactive
    obtain rfl | hne := eq_or_ne index other
    · obtain rfl := Option.some.inj (hself.symm.trans hfound)
      exact hsettled hinactive
    · obtain hmem | hfails := haccounts.settled other found ((hother hne).symm.trans hfound) hinactive
      · cases hsettlements with
        | same hsame => exact .inl (hsame ▸ hmem)
        | more hmore => exact .inl (hmore ▸ List.mem_append_left _ hmem)
      · exact .inr (hfatal hfails)
  case failed =>
    have hbefore (hfails : state.fatalError ≠ none ∨ state.holdsLeaseLost) :
        HasFailed host opts db (moves ++ [move]) := (haccounts.failed hfails).append [move]
    have hstep (hfails : next.fatalError ≠ none
        ∨ ∃ lease, replacement.phase = .rejected (.engineLeaseLost lease)) :
        HasFailed host opts db (moves ++ [move]) := by
      obtain hfails | hholds | hfailed := hfailed hfails
      · exact hbefore (.inl hfails)
      · exact hbefore (.inr hholds)
      · exact hfailed
    rintro (hfails | ⟨found, hfound, lease, hlost⟩)
    · exact hstep (.inl hfails)
    · rw [hflights] at hfound
      obtain hold | rfl := List.mem_or_eq_of_mem_set hfound
      · exact hbefore (.inr ⟨found, hold, lease, hlost⟩)
      · exact hstep (.inr ⟨lease, hlost⟩)

theorem isEngineLeaseActive_of_leaseError? (hlease : state.leaseError? opts now = none)
    {lease : MissionEngineLease} (hoption : opts.engineLease = some lease) :
    state.db.isEngineLeaseActive now lease = true := by
  unfold SchedulerState.leaseError? at hlease
  rw [hoption] at hlease
  by_contra hinactive
  simp [hinactive] at hlease

theorem Accounts.callback (haccounts : Accounts host opts db moves state)
    (hrun : SchedulerRun host opts db moves state) {outcome : DispatchOutcome} {index : Nat}
    {flight : Flight} (hflight : state.flights[index]? = some flight)
    (hstep : CallbackStep host opts now outcome state index flight next)
    (hages : Ages state.db next.db) :
    Accounts host opts db (moves ++ [.callback now index outcome]) next := by
  have hfails (hfailure : Failure host opts state now flight outcome) :
      HasFailed host opts db (moves ++ [.callback now index outcome]) :=
    ⟨moves, now, index, outcome, [], state, flight, rfl, hrun, hflight, hfailure⟩
  have hlost {lease : LeaseLost} (hlost : state.leaseError? opts now = some lease) :
      HasFailed host opts db (moves ++ [.callback now index outcome]) :=
    hfails (.leaseLost (by rw [hlost]; simp))
  cases hstep with
  | called hphase =>
      refine haccounts.set hages hflight rfl rfl ?_ (.same rfl) id ?_ ?_
      · intro hinactive
        rw [hphase] at hinactive
        cases hinactive
      · intro hinactive
        cases hinactive
      · rintro (hfatal | ⟨lease, hrejected⟩)
        · exact .inl hfatal
        · cases hrejected
  | rejected hactive hcause =>
      refine haccounts.set hages hflight rfl rfl ?_ (.same rfl) id ?_ ?_
      · intro hinactive
        rw [hactive] at hinactive
        cases hinactive
      · intro hinactive
        cases hinactive
      · rintro (hfatal | ⟨lease, hrejected⟩)
        · exact .inl hfatal
        · obtain rfl := FlightPhase.rejected.inj hrejected
          obtain hnow | ⟨hphase, houtcome⟩ := hcause lease rfl
          · exact .inr (.inr (hlost hnow))
          · exact .inr (.inr (hfails (.reported lease hphase houtcome)))
  | leaseLost hactive hcause =>
      refine haccounts.set hages hflight rfl rfl ?_ (.same rfl) ?_ ?_ ?_
      · intro _
        rfl
      · simp [SchedulerState.fail, SchedulerState.moved]
      · intro _
        right
        simp [SchedulerState.fail]
      · intro _
        obtain hnow | hheld := hcause
        · exact .inr (.inr (hlost hnow))
        · exact .inr (.inl ⟨flight, List.mem_of_getElem? hflight, _, hheld⟩)
  | settled hactive hsettles =>
      have hpassed := passed_of_settles haccounts.keys (congrArg Prod.snd hsettles)
      rw [hsettles] at hpassed
      refine haccounts.set hages hflight rfl rfl (fun _ => rfl) (.more rfl hactive rfl hpassed) id ?_ ?_
      · intro _
        left
        simp
      · rintro (hfatal | ⟨lease, hrejected⟩)
        · exact .inl hfatal
        · cases hrejected
  | refused hactive hlease hresult hrefuses =>
      refine haccounts.set hages hflight rfl rfl (fun _ => rfl) (.same rfl) ?_ ?_ ?_
      · simp [SchedulerState.fail, SchedulerState.moved]
      · intro _
        right
        simp [SchedulerState.fail]
      · intro _
        refine .inr (.inr (hfails ?_))
        obtain hunheld | hunnamed | hother := refused_cases haccounts.keys
          (haccounts.claims flight (List.mem_of_getElem? hflight))
          (fun lease => isEngineLeaseActive_of_leaseError? hlease) hrefuses
        · exact .revoked hactive hunheld
        · exact .unnamed hactive hunnamed
        · -- a failure of the item brings no plan, so the result is that of the dispatch
          unfold FlightPhase.settlement? at hresult
          split at hresult
          · next result hphase =>
              obtain ⟨-, rfl⟩ := Prod.mk.inj (Option.some.inj hresult)
              exact .otherPlan result hphase rfl hother
          · obtain ⟨-, rfl⟩ := Prod.mk.inj (Option.some.inj hresult)
            obtain ⟨exactPlanRef, hbrings, -⟩ := hother
            cases hbrings
          · cases hresult
  | finished hphase =>
      rename_i rejection
      have hinactive : flight.phase.isActive = false := by rw [hphase]; rfl
      have hfinish : Finishes opts now state index flight rejection _ :=
        finishes_finish index flight rejection
      refine haccounts.set hages hflight hfinish.flights rfl (fun _ => rfl) (.same hfinish.settlements)
        ?_ ?_ ?_
      · intro hfatal
        rw [hfinish.fatalError]
        simp [hfatal]
      · intro _
        rw [hfinish.settlements, hfinish.fatalError]
        exact (haccounts.settled index flight hflight hinactive).imp_right fun hfatal => by simp [hfatal]
      · rintro (hfatal | ⟨lease, hrejected⟩)
        · rw [hfinish.fatalError] at hfatal
          by_cases hbefore : state.fatalError = none
          · exact .inr (.inr (hfails (.leaseLost fun hlease => hfatal (by simp [hbefore, hlease]))))
          · exact .inl hbefore
        · cases hrejected

theorem Accounts.move (haccounts : Accounts host opts db moves state)
    (hrun : SchedulerRun host opts db moves state) {move : SchedulerMove}
    (hmove : state.move? host opts move = some next) :
    Accounts host opts db (moves ++ [move]) next := by
  have hages := ages_move haccounts.keys hmove
  cases move with
  | advance now aborted tokens =>
      obtain hturn | ⟨-, hlaunch⟩ := advance_cases hmove
      · exact haccounts.of_idle hturn.idle hages _
      · exact haccounts.launch hlaunch hages _
  | callback now index outcome =>
      obtain ⟨-, flight, hflight, hstep⟩ := callback_cases hmove
      exact haccounts.callback hrun hflight hstep hages
  | ticked now missionIds => exact haccounts.of_idle (idle_of_woken hmove rfl) hages _
  | tickFailed message => exact haccounts.of_idle (idle_of_woken hmove rfl) hages _
  | raced index => exact haccounts.of_idle (idle_of_woken hmove rfl) hages _
  | slept => exact haccounts.of_idle (idle_of_woken hmove rfl) hages _
  | allSettled => exact haccounts.of_idle (idle_of_woken hmove rfl) hages _
  | coordinate timed => exact haccounts.of_idle (idle_of_woken hmove rfl) hages _
  | foreign timed => exact haccounts.of_idle (idle_of_woken hmove rfl) hages _

theorem accounts_of_run (hkeys : (db.items.map (·.id)).Nodup)
    (hrun : SchedulerRun host opts db moves state) : Accounts host opts db moves state := by
  refine replay_induction (motive := Accounts host opts db) (accounts_start hkeys) ?_ hrun
  intro before earlier move later hbefore haccounts hmove
  exact haccounts.move hbefore (move_eq_ok.mp hmove)

/-! ### Returns -/

structure Returns (state : SchedulerState) : Prop where
  finished : ∀ reason, state.point = .returned reason → state.unfinished = 0
  fatalError : ∀ reason, state.point = .returned reason → reason ≠ .drained → state.fatalError = none

theorem returns_start (db : MissionDb) : Returns (.start db) := by
  constructor <;> intro reason hpoint <;> cases hpoint

theorem unfinished_eq_zero_iff :
    state.unfinished = 0 ↔ ∀ flight ∈ state.flights, flight.isFinished = true := by
  unfold SchedulerState.unfinished
  rw [List.countP_eq_zero]
  simp [Flight.isUnfinished]

theorem Returns.move (hreturns : Returns state) (hslots : Slots opts state) {move : SchedulerMove}
    (hmove : state.move? host opts move = some next) : Returns next := by
  -- a scheduler that has returned has no callback left
  have hidle : (∃ reason, state.point = .returned reason) → Idle state next := by
    rintro ⟨reason, hpoint⟩
    cases hwoken : move.isWoken with
    | true => exact idle_of_woken hmove hwoken
    | false =>
        cases move with
        | advance now aborted tokens =>
            simp only [SchedulerState.move?, SchedulerState.advance, hpoint] at hmove
            cases hmove
        | callback now index outcome =>
            obtain ⟨-, flight, hflight, hstep⟩ := callback_cases hmove
            have hfinished := unfinished_eq_zero_iff.mp (hreturns.finished reason hpoint) flight
              (List.mem_of_getElem? hflight)
            rw [hstep.isFinished] at hfinished
            cases hfinished
        | _ => cases hwoken
  have hunfinished (hidle : Idle state next) : next.unfinished = state.unfinished := by
    unfold SchedulerState.unfinished
    rw [hidle.flights]
  cases pointStep_move hmove with
  | stays hstays =>
      constructor
      · intro reason hpoint
        rw [hstays] at hpoint
        rw [hunfinished (hidle ⟨reason, hpoint⟩)]
        exact hreturns.finished reason hpoint
      · intro reason hpoint hreason
        rw [hstays] at hpoint
        rw [(hidle ⟨reason, hpoint⟩).fatalError]
        exact hreturns.fatalError reason hpoint hreason
  | elsewhere helse =>
      constructor <;> intro reason hpoint <;> rw [hpoint] at helse <;> cases helse
  | visits due hvisit =>
      constructor <;> intro reason hpoint <;> rw [hpoint] at hvisit <;> cases hvisit
  | drains hdrains hdrained hempty =>
      constructor
      · intro _ _
        rw [hunfinished hdrained, ← hslots.size, hempty]
      · intro reason hpoint hreason
        rw [hpoint] at hdrains
        exact absurd (SchedulerPoint.returned.inj hdrains) hreason
  | returns _ _ hreturned hall hfatal =>
      constructor
      · intro _ _
        rw [hunfinished hreturned, unfinished_eq_zero_iff]
        exact List.all_eq_true.mp hall
      · intro _ _ _
        exact hfatal

theorem returns_of_run (hrun : SchedulerRun host opts db moves state) : Returns state := by
  refine replay_induction (motive := fun _ state => Returns state) (returns_start db) ?_ hrun
  intro before earlier move later hbefore hreturns hmove
  exact hreturns.move (slots_of_run hbefore) (move_eq_ok.mp hmove)

/-! ### The contract -/

/-- What a run of the scheduler promises of its dispatches. -/
structure SchedulerContract (host : SchedulerHost) (opts : MissionSchedulerOptions) (db : MissionDb)
    (moves : List SchedulerMove) (state : SchedulerState) : Prop where
  pool : state.unfinished ≤ opts.poolSize
  tenants : ∀ cap, opts.perTenantPoolSize = some cap → ∀ tenant, state.unfinishedOf tenant ≤ cap
  once : state.settlements.Nodup
  settled : ∀ index flight, state.flights[index]? = some flight → flight.isFinished = true →
    index ∈ state.settlements ∨ state.fatalError ≠ none
  fatal : state.fatalError ≠ none → HasFailed host opts db moves
  raised : ∀ reason, state.point = .returned reason → reason ≠ .drained → state.fatalError = none
  released : ∀ reason, state.point = .returned reason → state.fatalError = none →
    ∀ flight ∈ state.flights, Unheld state.db flight.claim

theorem keys_sampleTables : ((sampleTables ["a"]).items.map (·.id)).Nodup := by
  decide

def drainedMoves : List SchedulerMove :=
  sampleAdvances 8 ++ List.replicate 3 (sampleCallback 0) ++ .raced 0 :: sampleAdvances 6

theorem drainedMoves_run :
    (replay (SchedulerState.move sampleHost sampleOptions) (.start (sampleTables ["a"]))
      drainedMoves).map (fun state => (state.settlements, decide (state.fatalError = none),
        state.db.items.map (·.status))) = .ok ([0], true, [.done]) := by
  decide +kernel

def otherPlanMoves : List SchedulerMove :=
  sampleAdvances 8 ++ List.replicate 3
    (.callback 2 0 (.resolved (.object [("ok", .bool true), ("exactPlanRef", .string "plan")])))

theorem otherPlanMoves_run :
    (replay (SchedulerState.move sampleHost sampleOptions) (.start (sampleTables ["a"]))
      otherPlanMoves).map (fun state => (state.settlements, state.flights.map (·.isFinished),
        state.flights.map fun flight => state.db.items.map (·.holds flight.claim)))
          = .ok ([], [true], [[true]]) := by
  decide +kernel

end Deckent.Mission
