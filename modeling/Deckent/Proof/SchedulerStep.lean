import Deckent.Proof.MissionProgress

/-!
# What a move of the scheduler can do

A turn of the loop leaves the dispatches as they are, but for a claim that takes flight. A callback moves
one dispatch on. Either makes one completion check at most, and a check is all that writes a mission.
-/

namespace Deckent.Mission

variable {host : SchedulerHost} {opts : MissionSchedulerOptions} {now : Int}
  {state middle next : SchedulerState}

/-! ### Completion checks -/

structure Quiet (state next : SchedulerState) : Prop where
  proceeds : Proceeds state.db next.db
  checks : next.checks = state.checks
  notices : next.notices = state.notices

theorem Quiet.refl (state : SchedulerState) : Quiet state state := ⟨.refl _, rfl, rfl⟩

inductive ChecksOnce (opts : MissionSchedulerOptions) (state next : SchedulerState) : Prop
  | none (hquiet : Quiet state next)
  | once (middle : SchedulerState) (now : Int) (missionId : String) (hbefore : Quiet state middle)
      (hafter : Quiet (middle.checkMissionComplete opts now missionId).1 next)

structure Idle (state next : SchedulerState) : Prop where
  flights : next.flights = state.flights
  inFlight : next.inFlight = state.inFlight
  perTenantFlight : next.perTenantFlight = state.perTenantFlight
  settlements : next.settlements = state.settlements
  fatalError : next.fatalError = state.fatalError

theorem Idle.refl (state : SchedulerState) : Idle state state := ⟨rfl, rfl, rfl, rfl, rfl⟩

theorem Idle.trans (hfirst : Idle state middle) (hsecond : Idle middle next) : Idle state next where
  flights := hsecond.flights.trans hfirst.flights
  inFlight := hsecond.inFlight.trans hfirst.inFlight
  perTenantFlight := hsecond.perTenantFlight.trans hfirst.perTenantFlight
  settlements := hsecond.settlements.trans hfirst.settlements
  fatalError := hsecond.fatalError.trans hfirst.fatalError

theorem idle_checkMissionComplete (state : SchedulerState) (missionId : String) :
    Idle state (state.checkMissionComplete opts now missionId).1 := by
  unfold SchedulerState.checkMissionComplete
  split
  · exact .refl state
  · dsimp only
    split <;> exact ⟨rfl, rfl, rfl, rfl, rfl⟩

theorem point_checkMissionComplete (state : SchedulerState) (missionId : String) :
    (state.checkMissionComplete opts now missionId).1.point = state.point := by
  unfold SchedulerState.checkMissionComplete
  split
  · rfl
  · dsimp only
    split <;> rfl

theorem items_checkMissionComplete (state : SchedulerState) (missionId : String) :
    (state.checkMissionComplete opts now missionId).1.db.items = state.db.items := by
  unfold SchedulerState.checkMissionComplete
  split
  · rfl
  · dsimp only
    split <;> rfl

theorem ChecksOnce.items (hchecks : ChecksOnce opts state next) :
    ∃ set, next.db.items = state.db.items.map set ∧ ∀ row ∈ state.db.items, Forward row (set row) := by
  cases hchecks with
  | none hquiet => exact hquiet.proceeds.items
  | once middle now missionId hbefore hafter =>
      have hitems : (middle.checkMissionComplete opts now missionId).1.db.items = middle.db.items :=
        items_checkMissionComplete middle missionId
      have hwhole : Proceeds state.db { next.db with missions := state.db.missions } := by
        refine hbefore.proceeds.trans ⟨?_, hbefore.proceeds.missions.symm⟩
        rw [← hitems]
        exact hafter.proceeds.items
      exact hwhole.items

/-! ### Turns of the loop -/

structure Turn (opts : MissionSchedulerOptions) (state next : SchedulerState) : Prop where
  idle : Idle state next
  checks : ChecksOnce opts state next

theorem Turn.of_quiet (hidle : Idle state next) (hquiet : Quiet state next) : Turn opts state next :=
  ⟨hidle, .none hquiet⟩

theorem turn_of_eq (hidle : Idle state next) (hdb : next.db = state.db)
    (hchecks : next.checks = state.checks) (hnotices : next.notices = state.notices) :
    Turn opts state next :=
  .of_quiet hidle ⟨by rw [hdb]; exact .refl _, hchecks, hnotices⟩

theorem turn_atTop (aborted : Bool) : Turn opts state (state.atTop opts now aborted) := by
  unfold SchedulerState.atTop
  split
  · exact turn_of_eq ⟨rfl, rfl, rfl, rfl, rfl⟩ rfl rfl rfl
  · split
    · exact turn_of_eq ⟨rfl, rfl, rfl, rfl, rfl⟩ rfl rfl rfl
    · split
      · exact turn_of_eq ⟨rfl, rfl, rfl, rfl, rfl⟩ rfl rfl rfl
      · split <;> exact turn_of_eq ⟨rfl, rfl, rfl, rfl, rfl⟩ rfl rfl rfl

theorem turn_atAdmission : Turn opts state (state.atAdmission host opts now) := by
  unfold SchedulerState.atAdmission
  split
  · exact turn_of_eq ⟨rfl, rfl, rfl, rfl, rfl⟩ rfl rfl rfl
  · next registry _ =>
      have hproceeds : Proceeds state.db
          (state.db.reconcileRuntimeAdmission host.runtime now registry none).1 :=
        (closes_reconcileRuntimeAdmission state.db registry none).proceeds
      split
      · next db error hreconcile =>
          rw [hreconcile] at hproceeds
          exact .of_quiet ⟨rfl, rfl, rfl, rfl, rfl⟩ ⟨hproceeds, rfl, rfl⟩
      · next db hreconcile =>
          rw [hreconcile] at hproceeds
          exact .of_quiet ⟨rfl, rfl, rfl, rfl, rfl⟩ ⟨hproceeds, rfl, rfl⟩

theorem turn_atDependencies (approved : Bool) :
    Turn opts state (state.atDependencies host opts now approved) := by
  unfold SchedulerState.atDependencies
  have hproceeds : Proceeds state.db
      (state.db.reconcilePendingDependencies host.runtime now opts.dependencyReconcile).1 :=
    (closes_reconcilePendingDependencies state.db opts.dependencyReconcile).proceeds
  split
  · next db error hreconcile =>
      rw [hreconcile] at hproceeds
      exact .of_quiet ⟨rfl, rfl, rfl, rfl, rfl⟩ ⟨hproceeds, rfl, rfl⟩
  · next db hreconcile =>
      rw [hreconcile] at hproceeds
      dsimp only
      split <;> exact .of_quiet ⟨rfl, rfl, rfl, rfl, rfl⟩ ⟨hproceeds, rfl, rfl⟩

theorem turn_of_check {checked : SchedulerState} {answer : Option LeaseLost} {missionId : String}
    (hcheck : middle.checkMissionComplete opts now missionId = (checked, answer))
    (hbefore : Quiet state middle) (hidle : Idle state middle) (hdb : next.db = checked.db)
    (hchecks : next.checks = checked.checks) (hnotices : next.notices = checked.notices)
    (hafter : Idle checked next) : Turn opts state next := by
  obtain rfl : (middle.checkMissionComplete opts now missionId).1 = checked := by rw [hcheck]
  refine ⟨hidle.trans ((idle_checkMissionComplete middle missionId).trans hafter),
    .once middle now missionId hbefore ⟨?_, hchecks, hnotices⟩⟩
  rw [hdb]
  exact .refl _

theorem turn_atChecks (missionIds : List String) :
    Turn opts state (state.atChecks opts now missionIds) := by
  cases missionIds with
  | nil => exact turn_of_eq ⟨rfl, rfl, rfl, rfl, rfl⟩ rfl rfl rfl
  | cons missionId rest =>
      rw [SchedulerState.atChecks]
      split
      · next checked error hcheck =>
          exact turn_of_check hcheck (.refl state) (.refl state) rfl rfl rfl ⟨rfl, rfl, rfl, rfl, rfl⟩
      · next checked hcheck =>
          exact turn_of_check hcheck (.refl state) (.refl state) rfl rfl rfl ⟨rfl, rfl, rfl, rfl, rfl⟩

theorem turn_atWave : Turn opts state (state.atWave host opts now) := by
  unfold SchedulerState.atWave
  split
  · split
    · exact turn_of_eq ⟨rfl, rfl, rfl, rfl, rfl⟩ rfl rfl rfl
    · have hproceeds : Proceeds state.db
          (state.db.queryDue host.runtime now host.isReady opts.runtimeRegistry
            (if opts.perTenantPoolSize.isNone then some 1 else none)).1 :=
        proceeds_queryDue state.db host.isReady opts.runtimeRegistry _
      split
      · next db error hquery =>
          rw [hquery] at hproceeds
          exact .of_quiet ⟨rfl, rfl, rfl, rfl, rfl⟩ ⟨hproceeds, rfl, rfl⟩
      · next db hquery =>
          rw [hquery] at hproceeds
          exact .of_quiet ⟨rfl, rfl, rfl, rfl, rfl⟩ ⟨hproceeds, rfl, rfl⟩
      · next db due hdue hquery =>
          rw [hquery] at hproceeds
          exact .of_quiet ⟨rfl, rfl, rfl, rfl, rfl⟩ ⟨hproceeds, rfl, rfl⟩
  · exact turn_of_eq ⟨rfl, rfl, rfl, rfl, rfl⟩ rfl rfl rfl

theorem turn_atTail : Turn opts state (state.atTail opts) := by
  unfold SchedulerState.atTail
  split
  · exact turn_of_eq ⟨rfl, rfl, rfl, rfl, rfl⟩ rfl rfl rfl
  · split
    · exact turn_of_eq ⟨rfl, rfl, rfl, rfl, rfl⟩ rfl rfl rfl
    · split
      · exact turn_of_eq ⟨rfl, rfl, rfl, rfl, rfl⟩ rfl rfl rfl
      · split <;> exact turn_of_eq ⟨rfl, rfl, rfl, rfl, rfl⟩ rfl rfl rfl

inductive Launch (opts : MissionSchedulerOptions) (now : Int) (state : SchedulerState) :
    SchedulerState → Prop
  | intro {db : MissionDb} {item : DueItem} {row : WorkItemRow} {fence : Option WorkItemAdmissionFence}
      {tokens : ClaimTokens} (hproceeds : Proceeds state.db db)
      (hfull : state.tenantIsFull opts (state.tenantOf opts item) = false) :
      Launch opts now state ({ state with db := db }.launch opts item
        (dispatchClaim now row ⟨"scheduler", tokens.attemptId, tokens.fenceToken⟩ fence))

theorem tenantOf_eq {item : DueItem} {db : MissionDb} (hproceeds : Proceeds state.db db) :
    state.tenantOf opts item = { state with db := db }.tenantOf opts item := by
  unfold SchedulerState.tenantOf MissionDb.mission?
  rw [hproceeds.missions]

theorem visitItem_cases (tokens : ClaimTokens) (item : DueItem) (rest : List DueItem) :
    Turn opts state (state.visitItem host opts now tokens item rest)
      ∨ Launch opts now state (state.visitItem host opts now tokens item rest) := by
  unfold SchedulerState.visitItem
  split
  · exact .inl (turn_of_eq ⟨rfl, rfl, rfl, rfl, rfl⟩ rfl rfl rfl)
  · next hfull =>
      split
      · next _ registry _ _ =>
          have hproceeds : Proceeds state.db (state.db.reconcileRuntimeAdmission host.runtime now
              registry (some item.row.id)).1 :=
            (closes_reconcileRuntimeAdmission state.db registry _).proceeds
          split
          · next db error hreconcile =>
              rw [hreconcile] at hproceeds
              exact .inl (.of_quiet ⟨rfl, rfl, rfl, rfl, rfl⟩ ⟨hproceeds, rfl, rfl⟩)
          · next db hreconcile =>
              rw [hreconcile] at hproceeds
              exact .inl (.of_quiet ⟨rfl, rfl, rfl, rfl, rfl⟩ ⟨hproceeds, rfl, rfl⟩)
      · split
        · exact .inl (turn_of_eq ⟨rfl, rfl, rfl, rfl, rfl⟩ rfl rfl rfl)
        · have hproceeds : Proceeds state.db (state.db.claimItemWithAuthority host.runtime now
              item.row.id ⟨"scheduler", tokens.attemptId, tokens.fenceToken⟩ (claimFence opts item)
              opts.engineLease).1 :=
            proceeds_claimItemWithAuthority state.db item.row.id _ _ opts.engineLease
          split
          · next db error hclaim =>
              rw [hclaim] at hproceeds
              exact .inl (.of_quiet ⟨rfl, rfl, rfl, rfl, rfl⟩ ⟨hproceeds, rfl, rfl⟩)
          · next db claim hclaim =>
              rw [hclaim] at hproceeds
              obtain ⟨row, fence, rfl⟩ := exists_dispatchClaim (congrArg Prod.snd hclaim)
              exact .inr (.intro hproceeds (Bool.eq_false_of_not_eq_true hfull))
          · next db hclaim =>
              rw [hclaim] at hproceeds
              have hbefore : Quiet state { state with db := db } := ⟨hproceeds, rfl, rfl⟩
              left
              split
              · next checked error hcheck =>
                  exact turn_of_check hcheck hbefore ⟨rfl, rfl, rfl, rfl, rfl⟩ rfl rfl rfl
                    ⟨rfl, rfl, rfl, rfl, rfl⟩
              · next checked hcheck =>
                  exact turn_of_check hcheck hbefore ⟨rfl, rfl, rfl, rfl, rfl⟩ rfl rfl rfl
                    ⟨rfl, rfl, rfl, rfl, rfl⟩

theorem advance_cases {aborted : Bool} {tokens : ClaimTokens}
    (hadvance : state.advance host opts now aborted tokens = some next) :
    Turn opts state next
      ∨ (∃ due, state.point = .visit due) ∧ Launch opts now state next := by
  unfold SchedulerState.advance at hadvance
  split at hadvance
  case h_8 => cases hadvance
  all_goals obtain rfl := Option.some.inj hadvance
  case h_1 => exact .inl (turn_atTop aborted)
  case h_2 => exact .inl turn_atAdmission
  case h_3 approved _ => exact .inl (turn_atDependencies approved)
  case h_4 missionIds _ => exact .inl (turn_atChecks missionIds)
  case h_5 => exact .inl turn_atWave
  case h_6 due hpoint =>
      cases due with
      | nil => exact .inl (turn_of_eq ⟨rfl, rfl, rfl, rfl, rfl⟩ rfl rfl rfl)
      | cons item rest =>
          exact (visitItem_cases tokens item rest).imp_right fun hlaunch => ⟨⟨_, hpoint⟩, hlaunch⟩
  case h_7 => exact .inl turn_atTail

theorem turn_ticked {missionIds : List String} (hticked : state.ticked opts now missionIds = some next) :
    Turn opts state next := by
  unfold SchedulerState.ticked at hticked
  split at hticked
  · split at hticked
    · obtain rfl := Option.some.inj hticked
      exact turn_of_eq ⟨rfl, rfl, rfl, rfl, rfl⟩ rfl rfl rfl
    · obtain rfl := Option.some.inj hticked
      exact turn_of_eq ⟨rfl, rfl, rfl, rfl, rfl⟩ rfl rfl rfl
  · cases hticked

theorem turn_tickFailed (opts : MissionSchedulerOptions) {message : String}
    (hfailed : state.tickFailed message = some next) : Turn opts state next := by
  unfold SchedulerState.tickFailed at hfailed
  split at hfailed
  · obtain rfl := Option.some.inj hfailed
    exact turn_of_eq ⟨rfl, rfl, rfl, rfl, rfl⟩ rfl rfl rfl
  · cases hfailed

theorem turn_raced (opts : MissionSchedulerOptions) {index : Nat}
    (hraced : state.raced index = some next) : Turn opts state next := by
  unfold SchedulerState.raced at hraced
  split at hraced
  · split at hraced
    · split at hraced <;> obtain rfl := Option.some.inj hraced <;>
        exact turn_of_eq ⟨rfl, rfl, rfl, rfl, rfl⟩ rfl rfl rfl
    · cases hraced
  · cases hraced

theorem turn_slept (opts : MissionSchedulerOptions) (hslept : state.slept = some next) :
    Turn opts state next := by
  unfold SchedulerState.slept at hslept
  split at hslept
  · obtain rfl := Option.some.inj hslept
    exact turn_of_eq ⟨rfl, rfl, rfl, rfl, rfl⟩ rfl rfl rfl
  · cases hslept

theorem turn_allSettled (opts : MissionSchedulerOptions) (hsettled : state.allSettled = some next) :
    Turn opts state next := by
  unfold SchedulerState.allSettled at hsettled
  split at hsettled
  · split at hsettled
    · split at hsettled <;> obtain rfl := Option.some.inj hsettled <;>
        exact turn_of_eq ⟨rfl, rfl, rfl, rfl, rfl⟩ rfl rfl rfl
    · cases hsettled
  · cases hsettled

/-! ### Callbacks -/

def Flight.moved (flight : Flight) (counted : Bool) (phase : FlightPhase) : Flight :=
  { flight with providerDispatchCounted := counted, phase := phase }

def SchedulerState.moved (state : SchedulerState) (index : Nat) (flight : Flight) (db : MissionDb)
    (dispatched : Nat) : SchedulerState :=
  { state with db := db, flights := state.flights.set index flight, dispatched := dispatched }

/-- The dispatch has not come to an answer of the store. -/
def FlightPhase.isActive : FlightPhase → Bool
  | queued | dispatched | rejected _ => true
  | settled _ | finished _ => false

def FlightPhase.settlement? (phase : FlightPhase) (outcome : DispatchOutcome) :
    Option (SettlementStatus × Json) :=
  match phase, outcome with
  | .dispatched, .resolved result => some (settlementStatus result, result)
  | .rejected (.other message), _ => some (.failed, failureResult message)
  | _, _ => none

/-- What a callback does to its flight. -/
inductive CallbackStep (host : SchedulerHost) (opts : MissionSchedulerOptions) (now : Int)
    (outcome : DispatchOutcome) (state : SchedulerState) (index : Nat) (flight : Flight) :
    SchedulerState → Prop
  | called (hphase : flight.phase = .queued) :
      CallbackStep host opts now outcome state index flight
        (state.moved index (flight.moved flight.providerDispatchCounted .dispatched) state.db
          state.dispatched)
  | rejected {counted : Bool} {dispatched : Nat} {error : Rejection}
      (hactive : flight.phase.isActive = true)
      (hlost : ∀ lease, error = .engineLeaseLost lease →
        state.leaseError? opts now = some lease
          ∨ flight.phase = .dispatched ∧ outcome = .rejected error) :
      CallbackStep host opts now outcome state index flight
        (state.moved index (flight.moved counted (.rejected error)) state.db dispatched)
  | leaseLost {lease : LeaseLost} (hactive : flight.phase.isActive = true)
      (hlost : state.leaseError? opts now = some lease ∨ flight.phase = .rejected (.engineLeaseLost lease)) :
      CallbackStep host opts now outcome state index flight
        ((state.moved index (flight.moved flight.providerDispatchCounted (.settled none)) state.db
          state.dispatched).fail (some (.engineLeaseLost lease)))
  | settled {db : MissionDb} {counted : Bool} {dispatched : Nat} {status : SettlementStatus}
      {result : Json} (hactive : flight.phase.isActive = true)
      (hsettles : state.db.settleClaimedItem host.runtime now flight.claim status (some result)
        opts.engineLease = (db, .ok true)) :
      CallbackStep host opts now outcome state index flight
        { state.moved index (flight.moved counted (.settled none)) db dispatched with
          settlements := state.settlements ++ [index] }
  | refused {db : MissionDb} {counted : Bool} {dispatched : Nat} {status : SettlementStatus}
      {result : Json} (hactive : flight.phase.isActive = true)
      (hlease : state.leaseError? opts now = none)
      (hresult : flight.phase.settlement? outcome = some (status, result))
      (hrefuses : state.db.settleClaimedItem host.runtime now flight.claim status (some result)
        opts.engineLease = (db, .ok false)) :
      CallbackStep host opts now outcome state index flight
        ((state.moved index (flight.moved counted (.settled none)) db dispatched).fail
          (some (.claimSettlement flight.claim.workItemId flight.claim.attemptId)))
  | finished {rejection : Option String} (hphase : flight.phase = .settled rejection) :
      CallbackStep host opts now outcome state index flight
        (state.finish opts now index flight rejection)

theorem settle_failure {db : MissionDb} {claim : MissionDispatchClaim} {message error : String} :
    (db.settleClaimedItem host.runtime now claim .failed (some (failureResult message))
      opts.engineLease).2 ≠ .error error := by
  unfold MissionDb.settleClaimedItem
  split
  · simp
  · unfold MissionDb.settleBody
    have hresult : specMember (some (failureResult message)) "exactPlanRef" = none := rfl
    rw [hresult]
    split
    · simp [transaction]
    · unfold MissionDb.settleWith
      dsimp only
      split <;> simp [transaction]

theorem transaction_error {α : Type} {db next : MissionDb} {body : Except String (α × MissionDb)}
    {error : String} (herror : transaction db body = (next, .error error)) : next = db := by
  cases body with
  | error _ => exact (congrArg Prod.fst herror).symm
  | ok result => cases congrArg Prod.snd herror

theorem db_of_settle_error {db next : MissionDb} {claim : MissionDispatchClaim}
    {status : SettlementStatus} {result : Option Json} {error : String}
    (herror : db.settleClaimedItem host.runtime now claim status result opts.engineLease
      = (next, .error error)) : next = db := by
  unfold MissionDb.settleClaimedItem at herror
  split at herror
  · cases congrArg Prod.snd herror
  · exact transaction_error herror

theorem callbackStep_dispatch {outcome : DispatchOutcome} {index : Nat} {flight : Flight}
    (hphase : flight.phase = .queued) :
    CallbackStep host opts now outcome state index flight (state.dispatch opts now index flight) := by
  unfold SchedulerState.dispatch
  split
  · next lease hlost =>
      refine .rejected (by rw [hphase]; rfl) fun other hother => ?_
      obtain rfl := Rejection.engineLeaseLost.inj hother
      exact .inl hlost
  · exact .called hphase

theorem callbackStep_answer {index : Nat} {flight : Flight} {result : Json}
    (hphase : flight.phase = .dispatched) :
    CallbackStep host opts now (.resolved result) state index flight
      (state.answer host opts now index flight result) := by
  have hactive : flight.phase.isActive = true := by rw [hphase]; rfl
  unfold SchedulerState.answer
  split
  · next lease hlost =>
      refine .rejected hactive fun other hother => ?_
      obtain rfl := Rejection.engineLeaseLost.inj hother
      exact .inl hlost
  · next hlease =>
      split
      · exact .rejected hactive fun lease hlost => by cases hlost
      · obtain ⟨dispatched, hdispatched⟩ : ∃ dispatched,
            (if isDisposition result "parked" = true then state
              else { state with dispatched := state.dispatched + 1 })
              = { state with dispatched := dispatched } := by
          split
          · exact ⟨state.dispatched, rfl⟩
          · exact ⟨state.dispatched + 1, rfl⟩
        dsimp only
        rw [hdispatched]
        split
        · next db error hsettle =>
            obtain rfl := db_of_settle_error hsettle
            exact .rejected hactive fun lease hlost => by cases hlost
        · next db isSettled hsettle =>
            cases isSettled with
            | true => exact .settled hactive hsettle
            | false => exact .refused hactive hlease (by rw [hphase]; rfl) hsettle

theorem callbackStep_handle {outcome : DispatchOutcome} {index : Nat} {flight : Flight}
    {error : Rejection} (hphase : flight.phase = .rejected error) :
    CallbackStep host opts now outcome state index flight
      (state.handle host opts now index flight error) := by
  have hactive : flight.phase.isActive = true := by rw [hphase]; rfl
  unfold SchedulerState.handle
  split
  · next lease => exact .leaseLost hactive (.inr hphase)
  · next message =>
      split
      · next lease hlost => exact .leaseLost hactive (.inl hlost)
      · next hlease =>
          obtain ⟨dispatched, hdispatched⟩ : ∃ dispatched,
              (if flight.providerDispatchCounted = true then state
                else { state with dispatched := state.dispatched + 1 })
                = { state with dispatched := dispatched } := by
            split
            · exact ⟨state.dispatched, rfl⟩
            · exact ⟨state.dispatched + 1, rfl⟩
          dsimp only
          rw [hdispatched]
          split
          · next db error hsettle => exact absurd (congrArg Prod.snd hsettle) settle_failure
          · next db isSettled hsettle =>
              cases isSettled with
              | true => exact .settled hactive hsettle
              | false => exact .refused hactive hlease (by rw [hphase]; rfl) hsettle

theorem callback_cases {index : Nat} {outcome : DispatchOutcome}
    (hcallback : state.callback host opts now index outcome = some next) :
    state.point.isAwait = true ∧ ∃ flight, state.flights[index]? = some flight
      ∧ CallbackStep host opts now outcome state index flight next := by
  unfold SchedulerState.callback at hcallback
  split at hcallback
  · cases hcallback
  · next hawait =>
      refine ⟨by simpa using hawait, ?_⟩
      split at hcallback
      · cases hcallback
      · next flight hflight =>
          refine ⟨flight, hflight, ?_⟩
          split at hcallback
          case h_1 hphase =>
              obtain rfl := Option.some.inj hcallback
              exact callbackStep_dispatch hphase
          case h_2 hphase =>
              split at hcallback
              · obtain rfl := Option.some.inj hcallback
                exact callbackStep_answer hphase
              · next error =>
                  obtain rfl := Option.some.inj hcallback
                  exact .rejected (by rw [hphase]; rfl) fun lease hlost => .inr ⟨hphase, by rw [hlost]⟩
          case h_3 error hphase =>
              obtain rfl := Option.some.inj hcallback
              exact callbackStep_handle hphase
          case h_4 rejection hphase =>
              obtain rfl := Option.some.inj hcallback
              exact .finished hphase
          case h_5 => cases hcallback

theorem CallbackStep.isFinished {outcome : DispatchOutcome} {index : Nat} {flight : Flight}
    (hstep : CallbackStep host opts now outcome state index flight next) : flight.isFinished = false := by
  have hactive (hactive : flight.phase.isActive = true) : flight.isFinished = false := by
    unfold Flight.isFinished
    cases hphase : flight.phase <;> simp_all [FlightPhase.isActive]
  cases hstep with
  | called hphase => exact hactive (by rw [hphase]; rfl)
  | rejected h => exact hactive h
  | leaseLost h => exact hactive h
  | settled h => exact hactive h
  | refused h => exact hactive h
  | finished hphase =>
      unfold Flight.isFinished
      rw [hphase]

/-! ### Checks of a move -/

theorem checksOnce_of_eq (hdb : next.db = state.db) (hchecks : next.checks = state.checks)
    (hnotices : next.notices = state.notices) : ChecksOnce opts state next :=
  .none ⟨by rw [hdb]; exact .refl _, hchecks, hnotices⟩

def SchedulerState.freed (opts : MissionSchedulerOptions) (state : SchedulerState) (index : Nat)
    (flight : Flight) (rejection : Option String) : SchedulerState :=
  { state with
    flights := state.flights.set index (flight.moved flight.providerDispatchCounted (.finished rejection))
    inFlight := state.inFlight.delete index
    perTenantFlight :=
      if opts.perTenantPoolSize.isNone then state.perTenantFlight
      else state.perTenantFlight.upsert flight.tenant fun held => held.getD 1 - 1 }

theorem finish_eq (index : Nat) (flight : Flight) (rejection : Option String) :
    state.finish opts now index flight rejection =
      if state.fatalError.isSome then state.freed opts index flight rejection
      else
        let checked := (state.freed opts index flight rejection).checkMissionComplete opts now
          flight.missionId
        checked.1.fail (checked.2.map .engineLeaseLost) := by
  unfold SchedulerState.finish
  dsimp only
  split
  · next error hfatal =>
      have hfatal : state.fatalError = some error := hfatal
      have hfails : state.fatalError.isSome = true := by rw [hfatal]; rfl
      exact (if_pos hfails).symm
  · next hfatal =>
      have hfatal : state.fatalError = none := hfatal
      have hgoesOn : ¬ state.fatalError.isSome = true := by rw [hfatal]; simp
      exact (if_neg hgoesOn).symm

theorem leaseError?_checkMissionComplete (state : SchedulerState) (missionId : String) :
    (state.checkMissionComplete opts now missionId).2 = state.leaseError? opts now := by
  unfold SchedulerState.checkMissionComplete
  split
  · next error hlost => exact hlost.symm
  · next hlease =>
      rw [hlease]
      dsimp only
      split <;> rfl

structure Finishes (opts : MissionSchedulerOptions) (now : Int) (state : SchedulerState) (index : Nat)
    (flight : Flight) (rejection : Option String) (next : SchedulerState) : Prop where
  flights : next.flights
    = state.flights.set index (flight.moved flight.providerDispatchCounted (.finished rejection))
  settlements : next.settlements = state.settlements
  fatalError : next.fatalError
    = state.fatalError.or ((state.leaseError? opts now).map .engineLeaseLost)

theorem finishes_finish (index : Nat) (flight : Flight) (rejection : Option String) :
    Finishes opts now state index flight rejection (state.finish opts now index flight rejection) := by
  rw [finish_eq]
  split
  · next hfatal =>
      obtain ⟨error, herror⟩ := Option.isSome_iff_exists.mp hfatal
      refine ⟨rfl, rfl, ?_⟩
      rw [herror]
      exact herror
  · next hfatal =>
      have hidle : Idle (state.freed opts index flight rejection)
          ((state.freed opts index flight rejection).checkMissionComplete opts now
            flight.missionId).1 := idle_checkMissionComplete _ flight.missionId
      refine ⟨hidle.flights, hidle.settlements, ?_⟩
      dsimp only
      rw [SchedulerState.fail, hidle.fatalError, leaseError?_checkMissionComplete]
      rfl

theorem checksOnce_finish (index : Nat) (flight : Flight) (rejection : Option String) :
    ChecksOnce opts state (state.finish opts now index flight rejection) := by
  rw [finish_eq]
  split
  · exact checksOnce_of_eq rfl rfl rfl
  · exact .once (state.freed opts index flight rejection) now flight.missionId ⟨.refl _, rfl, rfl⟩
      ⟨.refl _, rfl, rfl⟩

theorem CallbackStep.point {outcome : DispatchOutcome} {index : Nat} {flight : Flight}
    (hstep : CallbackStep host opts now outcome state index flight next) :
    next.point = state.point := by
  cases hstep with
  | finished =>
      rw [finish_eq]
      split
      · rfl
      · exact point_checkMissionComplete _ _
  | _ => rfl

theorem CallbackStep.checksOnce {outcome : DispatchOutcome} {index : Nat} {flight : Flight}
    (hstep : CallbackStep host opts now outcome state index flight next) :
    ChecksOnce opts state next := by
  have hsettle {db : MissionDb} {status : SettlementStatus} {result : Json} {answer : Bool}
      (hanswer : state.db.settleClaimedItem host.runtime now flight.claim status (some result)
        opts.engineLease = (db, .ok answer)) : Proceeds state.db db := by
    obtain rfl : (state.db.settleClaimedItem host.runtime now flight.claim status (some result)
        opts.engineLease).1 = db := congrArg Prod.fst hanswer
    exact proceeds_settleClaimedItem _ _ _ _ _
  cases hstep with
  | called => exact checksOnce_of_eq rfl rfl rfl
  | rejected => exact checksOnce_of_eq rfl rfl rfl
  | leaseLost => exact checksOnce_of_eq rfl rfl rfl
  | settled _ hsettles => exact .none ⟨hsettle hsettles, rfl, rfl⟩
  | refused _ _ _ hrefuses => exact .none ⟨hsettle hrefuses, rfl, rfl⟩
  | finished => exact checksOnce_finish index flight _

theorem Launch.checksOnce (hlaunch : Launch opts now state next) : ChecksOnce opts state next := by
  obtain ⟨hproceeds, -⟩ := hlaunch
  exact .none ⟨hproceeds, rfl, rfl⟩

def SchedulerMove.isOwn : SchedulerMove → Bool
  | .coordinate _ | .foreign _ => false
  | _ => true

theorem checksOnce_move {move : SchedulerMove} (hown : move.isOwn = true)
    (hmove : state.move? host opts move = some next) : ChecksOnce opts state next := by
  cases move with
  | advance now aborted tokens =>
      obtain hturn | ⟨-, hlaunch⟩ := advance_cases hmove
      · exact hturn.checks
      · exact hlaunch.checksOnce
  | ticked now missionIds => exact (turn_ticked hmove).checks
  | tickFailed message => exact (turn_tickFailed opts hmove).checks
  | raced index => exact (turn_raced opts hmove).checks
  | slept => exact (turn_slept opts hmove).checks
  | allSettled => exact (turn_allSettled opts hmove).checks
  | callback now index outcome =>
      obtain ⟨-, flight, -, hstep⟩ := callback_cases hmove
      exact hstep.checksOnce
  | coordinate timed => cases hown
  | foreign timed => cases hown

theorem move_eq_ok {move : SchedulerMove} :
    state.move host opts move = .ok next ↔ state.move? host opts move = some next := by
  unfold SchedulerState.move
  cases state.move? host opts move <;> simp

def SchedulerMove.isWoken : SchedulerMove → Bool
  | .advance _ _ _ | .callback _ _ _ => false
  | _ => true

theorem idle_of_woken {move : SchedulerMove} (hmove : state.move? host opts move = some next)
    (hwoken : move.isWoken = true) : Idle state next := by
  cases move with
  | advance now aborted tokens => cases hwoken
  | callback now index outcome => cases hwoken
  | ticked now missionIds => exact (turn_ticked hmove).idle
  | tickFailed message => exact (turn_tickFailed opts hmove).idle
  | raced index => exact (turn_raced opts hmove).idle
  | slept => exact (turn_slept opts hmove).idle
  | allSettled => exact (turn_allSettled opts hmove).idle
  | coordinate timed =>
      simp only [SchedulerState.move?] at hmove
      split at hmove
      · obtain rfl := Option.some.inj hmove
        exact ⟨rfl, rfl, rfl, rfl, rfl⟩
      · cases hmove
  | foreign timed =>
      obtain rfl := Option.some.inj hmove
      exact ⟨rfl, rfl, rfl, rfl, rfl⟩

/-! ### Where a move takes the loop -/

def SchedulerPoint.isElsewhere : SchedulerPoint → Bool
  | visit _ | returned _ => false
  | _ => true

inductive PointStep (opts : MissionSchedulerOptions) (state next : SchedulerState) : Prop
  | stays (hpoint : next.point = state.point)
  | elsewhere (hpoint : next.point.isElsewhere = true)
  | visits (due : List DueItem) (hpoint : next.point = .visit due)
      (hroom : state.inFlight.size < opts.poolSize ∨ ∃ earlier, state.point = .visit earlier)
  | drains (hpoint : next.point = .returned .drained) (hidle : Idle state next)
      (hempty : state.inFlight.size = 0)
  | returns (reason : ReturnReason) (hpoint : next.point = .returned reason) (hidle : Idle state next)
      (hall : state.flights.all (·.isFinished) = true) (hfatal : next.fatalError = none)

theorem pointStep_visitItem {tokens : ClaimTokens} {item : DueItem} {rest due : List DueItem}
    (hvisit : state.point = .visit due) :
    PointStep opts state (state.visitItem host opts now tokens item rest) := by
  unfold SchedulerState.visitItem
  split
  · exact .visits rest rfl (.inr ⟨due, hvisit⟩)
  · split
    · split
      · exact .elsewhere rfl
      · exact .visits rest rfl (.inr ⟨due, hvisit⟩)
    · split
      · exact .visits rest rfl (.inr ⟨due, hvisit⟩)
      · split
        · exact .elsewhere rfl
        · exact .elsewhere rfl
        · split
          · exact .elsewhere rfl
          · exact .visits rest rfl (.inr ⟨due, hvisit⟩)

theorem pointStep_advance {aborted : Bool} {tokens : ClaimTokens}
    (hadvance : state.advance host opts now aborted tokens = some next) : PointStep opts state next := by
  unfold SchedulerState.advance at hadvance
  split at hadvance
  case h_8 => cases hadvance
  all_goals obtain rfl := Option.some.inj hadvance
  case h_1 =>
      unfold SchedulerState.atTop
      split
      · exact .elsewhere rfl
      · split
        · exact .elsewhere rfl
        · split
          · exact .elsewhere rfl
          · split <;> exact .elsewhere rfl
  case h_2 =>
      unfold SchedulerState.atAdmission
      split
      · exact .elsewhere rfl
      · split <;> exact .elsewhere rfl
  case h_3 =>
      unfold SchedulerState.atDependencies
      split
      · exact .elsewhere rfl
      · dsimp only
        split <;> exact .elsewhere rfl
  case h_4 missionIds _ =>
      cases missionIds with
      | nil => exact .elsewhere rfl
      | cons missionId rest =>
          rw [SchedulerState.atChecks]
          split <;> exact .elsewhere rfl
  case h_5 =>
      unfold SchedulerState.atWave
      split
      · next hroom =>
          split
          · exact .elsewhere rfl
          · split
            · exact .elsewhere rfl
            · exact .elsewhere rfl
            · exact .visits _ rfl (.inl hroom)
      · exact .elsewhere rfl
  case h_6 due hvisit =>
      cases due with
      | nil => exact .elsewhere rfl
      | cons item rest => exact pointStep_visitItem hvisit
  case h_7 =>
      unfold SchedulerState.atTail
      split
      · exact .elsewhere rfl
      · next hempty =>
          split
          · exact .elsewhere rfl
          · split
            · exact .elsewhere rfl
            · split
              · exact .drains rfl ⟨rfl, rfl, rfl, rfl, rfl⟩ (not_not.mp hempty)
              · exact .elsewhere rfl

theorem pointStep_move {move : SchedulerMove} (hmove : state.move? host opts move = some next) :
    PointStep opts state next := by
  cases move with
  | advance now aborted tokens => exact pointStep_advance hmove
  | ticked now missionIds =>
      simp only [SchedulerState.move?, SchedulerState.ticked] at hmove
      split at hmove
      · split at hmove <;> obtain rfl := Option.some.inj hmove <;> exact .elsewhere rfl
      · cases hmove
  | tickFailed message =>
      simp only [SchedulerState.move?, SchedulerState.tickFailed] at hmove
      split at hmove
      · obtain rfl := Option.some.inj hmove
        exact .elsewhere rfl
      · cases hmove
  | raced index =>
      simp only [SchedulerState.move?, SchedulerState.raced] at hmove
      split at hmove
      · split at hmove
        · split at hmove <;> obtain rfl := Option.some.inj hmove <;> exact .elsewhere rfl
        · cases hmove
      · cases hmove
  | slept =>
      simp only [SchedulerState.move?, SchedulerState.slept] at hmove
      split at hmove
      · obtain rfl := Option.some.inj hmove
        exact .elsewhere rfl
      · cases hmove
  | allSettled =>
      simp only [SchedulerState.move?, SchedulerState.allSettled] at hmove
      split at hmove
      · split at hmove
        · next hall =>
            split at hmove
            · obtain rfl := Option.some.inj hmove
              exact .elsewhere rfl
            · next hfatal =>
                obtain rfl := Option.some.inj hmove
                exact .returns _ rfl ⟨rfl, rfl, rfl, rfl, rfl⟩ hall hfatal
        · cases hmove
      · cases hmove
  | callback now index outcome =>
      obtain ⟨-, flight, -, hstep⟩ := callback_cases hmove
      exact .stays hstep.point
  | coordinate timed =>
      simp only [SchedulerState.move?] at hmove
      split at hmove
      · obtain rfl := Option.some.inj hmove
        exact .stays rfl
      · cases hmove
  | foreign timed =>
      obtain rfl := Option.some.inj hmove
      exact .stays rfl

/-! ### A store with one mission -/

def sampleHost : SchedulerHost where
  runtime := sampleRuntime
  contract := sampleContract
  isReady := fun _ _ => true
  authorizeClaim := fun _ _ => false

def sampleOptions : MissionSchedulerOptions where
  poolSize := 2
  maxIterations := some 5
  perTenantPoolSize := none
  hasApprovalCoordinator := false
  hasSettledListener := true
  runtimeRegistry := none
  engineLease := none
  dependencyReconcile := ⟨none, none⟩

/-- A store with one mission. -/
def sampleTables (ids : List String) : MissionDb :=
  tablesAfter sampleRuntime sampleContract
    [⟨0, .createMissionWithItems false sampleMission (ids.map fun id => { sampleItem with id := id })⟩]

def sampleTokens (turn : Nat) : ClaimTokens where
  attemptId := "attempt" ++ toString turn
  fenceToken := "token" ++ toString turn
  attemptId_ne := by simp
  fenceToken_ne := by simp

def sampleAdvances (count : Nat) : List SchedulerMove :=
  (List.range count).map fun turn => .advance 1 false (sampleTokens turn)

def sampleCallback (index : Nat) : SchedulerMove :=
  .callback 2 index (.resolved (.object [("ok", .bool true)]))

end Deckent.Mission
