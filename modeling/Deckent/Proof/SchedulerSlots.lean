import Mathlib.Data.List.Count
import Deckent.Proof.SchedulerStep

/-!
# Slots of the scheduler

A dispatch has a slot of the pool, and one of its tenant, until its last callback has run. The counters of
the loop agree with the dispatches in whatever order these end, so neither cap is exceeded.
-/

namespace Deckent.Mission

variable {host : SchedulerHost} {opts : MissionSchedulerOptions} {now : Int}
  {state middle next : SchedulerState}

/-! ### Dispatches that have not finished -/

def Flight.isUnfinished (flight : Flight) : Bool := !flight.isFinished

def SchedulerState.unfinished (state : SchedulerState) : Nat := state.flights.countP (·.isUnfinished)

def SchedulerState.unfinishedOf (state : SchedulerState) (tenant : String) : Nat :=
  state.flights.countP fun flight => flight.isUnfinished && flight.tenant = tenant

section Count

variable {flights : List Flight} {index : Nat} {flight replacement : Flight} {p : Flight → Bool}

theorem countP_set_of_eq (hflight : flights[index]? = some flight) (hsame : p replacement = p flight) :
    (flights.set index replacement).countP p = flights.countP p := by
  obtain ⟨hlt, rfl⟩ := List.getElem?_eq_some_iff.mp hflight
  rw [List.countP_set hlt, hsame]
  split
  · next hholds =>
      have hpos : 0 < flights.countP p := List.countP_pos_iff.mpr ⟨_, List.getElem_mem hlt, hholds⟩
      omega
  · omega

theorem countP_set_of_lost (hflight : flights[index]? = some flight) (hholds : p flight = true)
    (hlost : p replacement = false) :
    (flights.set index replacement).countP p + 1 = flights.countP p := by
  obtain ⟨hlt, rfl⟩ := List.getElem?_eq_some_iff.mp hflight
  have hpos : 0 < flights.countP p := List.countP_pos_iff.mpr ⟨_, List.getElem_mem hlt, hholds⟩
  rw [List.countP_set hlt, hholds, hlost]
  simp only [if_true, Bool.false_eq_true, if_false]
  omega

end Count

/-- The counters agree with the dispatches, and the caps are kept. -/
structure Slots (opts : MissionSchedulerOptions) (state : SchedulerState) : Prop where
  mem : ∀ index, index ∈ state.inFlight
    ↔ ∃ flight, state.flights[index]? = some flight ∧ flight.isUnfinished = true
  size : state.inFlight.size = state.unfinished
  pool : state.unfinished ≤ opts.poolSize
  room : ∀ due, state.point = .visit due → state.unfinished < opts.poolSize
  tenants : ∀ cap, opts.perTenantPoolSize = some cap → ∀ tenant,
    (state.perTenantFlight.get? tenant).getD 0 = state.unfinishedOf tenant
      ∧ state.unfinishedOf tenant ≤ cap

theorem slots_start (db : MissionDb) : Slots opts (.start db) := by
  constructor <;> simp [SchedulerState.start, SchedulerState.unfinished, SchedulerState.unfinishedOf,
    OrderedSet.size, OrderedMap.get?_empty, EmptyCollection.emptyCollection, OrderedSet.empty,
    OrderedSet.mem_def]

/-! ### Turns of the loop -/

theorem Slots.of_eq (hslots : Slots opts state) (hflights : next.flights = state.flights)
    (hinFlight : next.inFlight = state.inFlight) (hmap : next.perTenantFlight = state.perTenantFlight)
    (hroom : ∀ due, next.point = .visit due → state.unfinished < opts.poolSize) : Slots opts next where
  mem := by
    rw [hinFlight, hflights]
    exact hslots.mem
  size := by
    unfold SchedulerState.unfinished
    rw [hinFlight, hflights]
    exact hslots.size
  pool := by
    unfold SchedulerState.unfinished
    rw [hflights]
    exact hslots.pool
  room := by
    unfold SchedulerState.unfinished
    rw [hflights]
    exact hroom
  tenants := by
    unfold SchedulerState.unfinishedOf
    rw [hmap, hflights]
    exact hslots.tenants

/-- The slot of a claim that takes flight is a new one. -/
theorem Slots.launch (hslots : Slots opts state) (hlaunch : Launch opts now state next)
    (hroom : state.unfinished < opts.poolSize) : Slots opts next := by
  obtain ⟨hproceeds, hfull⟩ := hlaunch
  rename_i db item row fence tokens
  have hfresh : state.flights.length ∉ state.inFlight := by
    intro hmem
    obtain ⟨flight, hflight, -⟩ := (hslots.mem _).mp hmem
    simp at hflight
  constructor
  case mem =>
    intro index
    change index ∈ state.inFlight.add state.flights.length ↔ _
    rw [OrderedSet.mem_add, hslots.mem]
    change _ ↔ ∃ flight, (state.flights ++ [_])[index]? = some flight ∧ _
    rcases lt_trichotomy index state.flights.length with hlt | rfl | hgt
    · rw [List.getElem?_append_left hlt]
      simp [hlt.ne]
    · simp [Flight.isUnfinished, Flight.isFinished]
    · rw [List.getElem?_eq_none hgt.le, List.getElem?_eq_none (by simp; omega)]
      simp [hgt.ne']
  case size =>
    have hnew : state.flights.length ∉ state.inFlight.members := hfresh
    change (state.inFlight.add state.flights.length).members.length = (state.flights ++ [_]).countP _
    rw [OrderedSet.add, dif_neg hnew, List.length_append, List.countP_append]
    change state.inFlight.size + 1 = state.unfinished + 1
    rw [hslots.size]
  case pool =>
    change (state.flights ++ [_]).countP _ ≤ _
    rw [List.countP_append]
    exact hroom
  case room =>
    intro due hpoint
    cases hpoint
  case tenants =>
    intro cap hcap tenant
    obtain ⟨hcount, hle⟩ := hslots.tenants cap hcap tenant
    have hsome : opts.perTenantPoolSize.isNone = false := by rw [hcap]; rfl
    rw [tenantOf_eq hproceeds] at hfull
    simp only [SchedulerState.launch, SchedulerState.unfinishedOf, hsome, Bool.false_eq_true, if_false,
      OrderedMap.get?_upsert, List.countP_append]
    generalize { state with db := db }.tenantOf opts item = launched at hfull
    change _ = ((state.unfinishedOf tenant + _ : Nat) : Int) ∧ state.unfinishedOf tenant + _ ≤ cap
    by_cases hsame : tenant = launched
    · subst hsame
      unfold SchedulerState.tenantIsFull at hfull
      rw [hcap] at hfull
      have hfull : ¬ (cap : Int) ≤ (state.perTenantFlight.get? tenant).getD 0 := by simpa using hfull
      simp only [if_true, Option.getD_some, hcount, List.countP_singleton, Flight.isUnfinished,
        Flight.isFinished, Bool.not_false, decide_true, Bool.true_and]
      omega
    · simpa [hsame, Ne.symm hsame] using ⟨hcount, hle⟩

/-! ### Callbacks -/

theorem Slots.set (hslots : Slots opts state) {index : Nat} {flight replacement : Flight}
    (hflight : state.flights[index]? = some flight)
    (hflights : next.flights = state.flights.set index replacement)
    (hunfinished : flight.isUnfinished = true) (hstill : replacement.isUnfinished = true)
    (htenant : replacement.tenant = flight.tenant)
    (hinFlight : next.inFlight = state.inFlight) (hmap : next.perTenantFlight = state.perTenantFlight)
    (hpoint : next.point = state.point) : Slots opts next := by
  have hcount : next.unfinished = state.unfinished := by
    unfold SchedulerState.unfinished
    rw [hflights, countP_set_of_eq hflight (hstill.trans hunfinished.symm)]
  constructor
  case mem =>
    intro other
    rw [hinFlight, hslots.mem, hflights]
    obtain rfl | hother := eq_or_ne index other
    · have hlt : index < state.flights.length := (List.getElem?_eq_some_iff.mp hflight).1
      rw [List.getElem?_set_self hlt, hflight]
      simp [hunfinished, hstill]
    · rw [List.getElem?_set_ne hother]
  case size => rw [hinFlight, hslots.size, hcount]
  case pool => rw [hcount]; exact hslots.pool
  case room => rw [hcount, hpoint]; exact hslots.room
  case tenants =>
    intro cap hcap tenant
    have htenants : next.unfinishedOf tenant = state.unfinishedOf tenant := by
      unfold SchedulerState.unfinishedOf
      rw [hflights, countP_set_of_eq hflight]
      rw [hstill, hunfinished, htenant]
    rw [hmap, htenants]
    exact hslots.tenants cap hcap tenant

/-- The last callback gives the slot back. -/
theorem Slots.freed (hslots : Slots opts state) {index : Nat} {flight : Flight}
    {rejection : Option String} (hflight : state.flights[index]? = some flight)
    (hunfinished : flight.isUnfinished = true) : Slots opts (state.freed opts index flight rejection) := by
  have hmem : index ∈ state.inFlight := (hslots.mem index).mpr ⟨flight, hflight, hunfinished⟩
  have hcount : (state.freed opts index flight rejection).unfinished + 1 = state.unfinished :=
    countP_set_of_lost hflight hunfinished rfl
  constructor
  case mem =>
    intro other
    change other ∈ state.inFlight.delete index ↔ ∃ found, (state.flights.set index _)[other]? = _ ∧ _
    rw [OrderedSet.mem_delete, hslots.mem]
    obtain rfl | hother := eq_or_ne index other
    · have hlt : index < state.flights.length := (List.getElem?_eq_some_iff.mp hflight).1
      rw [List.getElem?_set_self hlt]
      simp [Flight.isUnfinished, Flight.isFinished, Flight.moved]
    · rw [List.getElem?_set_ne hother]
      simp [Ne.symm hother]
  case size =>
    have hsize : state.inFlight.members.length = state.unfinished := hslots.size
    change (state.inFlight.members.erase index).length = _
    rw [List.length_erase_of_mem hmem, hsize]
    omega
  case pool => exact (Nat.le_of_succ_le (hcount.trans_le hslots.pool) : _)
  case room =>
    intro due hpoint
    have hlt := hslots.room due hpoint
    omega
  case tenants =>
    intro cap hcap tenant
    obtain ⟨hheld, hle⟩ := hslots.tenants cap hcap tenant
    have hsome : opts.perTenantPoolSize.isNone = false := by rw [hcap]; rfl
    simp only [SchedulerState.freed, hsome, Bool.false_eq_true, if_false, OrderedMap.get?_upsert]
    by_cases hsame : tenant = flight.tenant
    · subst hsame
      have hlost : (state.freed opts index flight rejection).unfinishedOf flight.tenant + 1
          = state.unfinishedOf flight.tenant :=
        countP_set_of_lost hflight (by simp [hunfinished]) (by simp [Flight.isUnfinished,
          Flight.isFinished, Flight.moved])
      rw [if_pos rfl]
      -- the tenant has a flight, so the map has an entry for it
      cases hentry : state.perTenantFlight.get? flight.tenant with
      | none =>
          rw [hentry] at hheld
          simp only [Option.getD_none] at hheld
          omega
      | some held =>
          rw [hentry] at hheld
          simp only [Option.getD_some] at hheld ⊢
          change held - 1 = ((state.freed opts index flight rejection).unfinishedOf flight.tenant : Int)
            ∧ (state.freed opts index flight rejection).unfinishedOf flight.tenant ≤ cap
          omega
    · have hkept : (state.freed opts index flight rejection).unfinishedOf tenant
          = state.unfinishedOf tenant := by
        refine countP_set_of_eq hflight ?_
        simp [Flight.moved, Ne.symm hsame]
      rw [if_neg hsame]
      change _ = ((state.freed opts index flight rejection).unfinishedOf tenant : Int)
        ∧ (state.freed opts index flight rejection).unfinishedOf tenant ≤ cap
      rw [hkept]
      exact ⟨hheld, hle⟩

theorem isUnfinished_of_isActive {flight : Flight} (hactive : flight.phase.isActive = true) :
    flight.isUnfinished = true := by
  unfold Flight.isUnfinished Flight.isFinished
  cases hphase : flight.phase <;> simp_all [FlightPhase.isActive]

theorem Slots.callback (hslots : Slots opts state) {outcome : DispatchOutcome} {index : Nat}
    {flight : Flight} (hflight : state.flights[index]? = some flight)
    (hstep : CallbackStep host opts now outcome state index flight next) : Slots opts next := by
  cases hstep with
  | called hphase =>
      exact hslots.set hflight rfl (isUnfinished_of_isActive (by rw [hphase]; rfl)) rfl rfl rfl rfl rfl
  | rejected hactive =>
      exact hslots.set hflight rfl (isUnfinished_of_isActive hactive) rfl rfl rfl rfl rfl
  | leaseLost hactive =>
      exact hslots.set hflight rfl (isUnfinished_of_isActive hactive) rfl rfl rfl rfl rfl
  | settled hactive =>
      exact hslots.set hflight rfl (isUnfinished_of_isActive hactive) rfl rfl rfl rfl rfl
  | refused hactive =>
      exact hslots.set hflight rfl (isUnfinished_of_isActive hactive) rfl rfl rfl rfl rfl
  | finished hphase =>
      have hunfinished : flight.isUnfinished = true := by
        unfold Flight.isUnfinished Flight.isFinished
        rw [hphase]
        rfl
      rename_i rejection
      have hfreed : Slots opts (state.freed opts index flight rejection) :=
        hslots.freed hflight hunfinished
      rw [finish_eq]
      split
      · exact hfreed
      · have hidle : Idle (state.freed opts index flight rejection)
            ((state.freed opts index flight rejection).checkMissionComplete opts now
              flight.missionId).1 := idle_checkMissionComplete _ flight.missionId
        refine hfreed.of_eq hidle.flights hidle.inFlight hidle.perTenantFlight fun due hpoint => ?_
        refine hfreed.room due ?_
        rw [← hpoint]
        exact (point_checkMissionComplete _ _).symm

theorem Slots.room_of_pointStep (hslots : Slots opts state) (hpoint : PointStep opts state next)
    (due : List DueItem) (hvisit : next.point = .visit due) : state.unfinished < opts.poolSize := by
  cases hpoint with
  | stays hstays => exact hslots.room due (hstays ▸ hvisit)
  | elsewhere helse =>
      rw [hvisit] at helse
      cases helse
  | visits _ _ hroom =>
      obtain hlt | ⟨earlier, hearlier⟩ := hroom
      · rwa [hslots.size] at hlt
      · exact hslots.room earlier hearlier
  | drains hdrains =>
      rw [hvisit] at hdrains
      cases hdrains
  | returns reason hreturns =>
      rw [hvisit] at hreturns
      cases hreturns

theorem Slots.move (hslots : Slots opts state) {move : SchedulerMove}
    (hmove : state.move? host opts move = some next) : Slots opts next := by
  have hroom := hslots.room_of_pointStep (pointStep_move hmove)
  have hidle (hidle : Idle state next) : Slots opts next :=
    hslots.of_eq hidle.flights hidle.inFlight hidle.perTenantFlight hroom
  cases move with
  | advance now aborted tokens =>
      obtain hturn | ⟨⟨due, hpoint⟩, hlaunch⟩ := advance_cases hmove
      · exact hidle hturn.idle
      · exact hslots.launch hlaunch (hslots.room due hpoint)
  | callback now index outcome =>
      obtain ⟨-, flight, hflight, hstep⟩ := callback_cases hmove
      exact hslots.callback hflight hstep
  | ticked now missionIds => exact hidle (idle_of_woken hmove rfl)
  | tickFailed message => exact hidle (idle_of_woken hmove rfl)
  | raced index => exact hidle (idle_of_woken hmove rfl)
  | slept => exact hidle (idle_of_woken hmove rfl)
  | allSettled => exact hidle (idle_of_woken hmove rfl)
  | coordinate timed => exact hidle (idle_of_woken hmove rfl)
  | foreign timed => exact hidle (idle_of_woken hmove rfl)

theorem slots_of_run {db : MissionDb} {moves : List SchedulerMove}
    (hrun : SchedulerRun host opts db moves state) : Slots opts state := by
  refine replay_induction (motive := fun _ state => Slots opts state) (slots_start db) ?_ hrun
  intro before earlier move later _ hslots hmove
  exact hslots.move (move_eq_ok.mp hmove)

end Deckent.Mission
