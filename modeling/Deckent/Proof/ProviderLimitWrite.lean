import Deckent.Lib.Fallible
import Deckent.Model.ProviderLimitStore

/-!
# What a call writes

A call that succeeds adds a snapshot, a reservation or an event, or nothing. A reservation is added only
where no row has its keys, and an event only where the one before it lets it follow.
-/

namespace Deckent.ProviderLimit

variable {host : LimitHost} {store next : ProviderLimitStore} {now : Int} {resolver : PolicyResolver}

/-! ### Checks that pass -/

@[simp]
theorem require_eq_ok {condition : Bool} {message : String} {unit : Unit} :
    require condition message = .ok unit ↔ condition = true := by
  unfold require
  split <;> simp_all

@[simp]
theorem requireStore_eq_ok {condition : Bool} {code : ProviderLimitStoreErrorCode} {message : String}
    {unit : Unit} : requireStore condition code message = .ok unit ↔ condition = true := by
  unfold requireStore storeError
  split <;> simp_all

@[simp]
theorem requireIntegrity_eq_ok {condition : Bool} {message : String} {unit : Unit} :
    requireIntegrity condition message = .ok unit ↔ condition = true :=
  requireStore_eq_ok

theorem verifyReservationRow_eq_ok {row reservation : ProviderLimitReservation} :
    verifyReservationRow host row = .ok reservation
      ↔ assertProviderLimitReservation host.toTruthHost row = .ok () ∧ reservation = row := by
  unfold verifyReservationRow
  rw [exceptMap_eq_ok]
  constructor
  · rintro ⟨_, hassert, rfl⟩
    exact ⟨hassert, rfl⟩
  · rintro ⟨hassert, rfl⟩
    exact ⟨(), hassert, rfl⟩

theorem eventFromRow_eq_ok {row event : StoredReservationEvent} :
    eventFromRow row = .ok event
      ↔ assertProviderLimitReservationEvent row.toProviderLimitReservationEvent = .ok ()
        ∧ event = row := by
  unfold eventFromRow
  rw [exceptMap_eq_ok]
  constructor
  · rintro ⟨_, hassert, rfl⟩
    exact ⟨hassert, rfl⟩
  · rintro ⟨hassert, rfl⟩
    exact ⟨(), hassert, rfl⟩

theorem eventsFromRows_eq_ok {rows events : List StoredReservationEvent} :
    eventsFromRows rows = .ok events
      ↔ (∀ row ∈ rows,
          assertProviderLimitReservationEvent row.toProviderLimitReservationEvent = .ok ())
        ∧ events = rows := by
  induction rows generalizing events with
  | nil => simp [eventsFromRows, eq_comm]
  | cons row rest ih =>
      rw [eventsFromRows, bind_eq_ok]
      constructor
      · rintro ⟨first, hfirst, hrest⟩
        obtain ⟨others, hothers, hevents⟩ := bind_eq_ok.mp hrest
        obtain ⟨hassert, rfl⟩ := eventFromRow_eq_ok.mp hfirst
        obtain ⟨hall, rfl⟩ := ih.mp hothers
        rw [pure_eq_ok] at hevents
        exact ⟨List.forall_mem_cons.mpr ⟨hassert, hall⟩, hevents.symm⟩
      · rintro ⟨hall, rfl⟩
        obtain ⟨hassert, hothers⟩ := List.forall_mem_cons.mp hall
        exact ⟨row, eventFromRow_eq_ok.mpr ⟨hassert, rfl⟩,
          bind_eq_ok.mpr ⟨rest, ih.mpr ⟨hothers, rfl⟩, rfl⟩⟩

/-! ### Snapshots -/

theorem insertSnapshot_eq_ok {row : ProviderLimitResult}
    (hinsert : store.insertSnapshot row = .ok next) :
    next = { store with snapshots := store.snapshots ++ [row] } := by
  unfold ProviderLimitStore.insertSnapshot at hinsert
  split at hinsert
  · cases hinsert
  · split at hinsert
    · cases hinsert
    · exact (Except.ok.inj hinsert).symm

theorem putSnapshot_eq_ok {result : ProviderLimitResult} {write : SnapshotWrite}
    (hput : store.putSnapshot host resolver now result = .ok (write, next)) :
    next = store ∨ ∃ row, next = { store with snapshots := store.snapshots ++ [row] } := by
  unfold ProviderLimitStore.putSnapshot at hput
  obtain ⟨-, -, hput⟩ := bind_eq_ok.mp hput
  obtain ⟨-, -, hput⟩ := bind_eq_ok.mp hput
  obtain ⟨policy, -, hput⟩ := bind_eq_ok.mp hput
  obtain ⟨authoritative, -, hput⟩ := bind_eq_ok.mp hput
  obtain ⟨-, -, hput⟩ := bind_eq_ok.mp hput
  unfold ProviderLimitStore.writeSnapshot at hput
  obtain ⟨-, -, hput⟩ := bind_eq_ok.mp hput
  split at hput
  · obtain ⟨persisted, -, hput⟩ := bind_eq_ok.mp hput
    obtain ⟨-, -, hput⟩ := bind_eq_ok.mp hput
    rw [pure_eq_ok] at hput
    exact .inl (Prod.mk.inj hput).2.symm
  · obtain ⟨inserted, hinsert, hput⟩ := bind_eq_ok.mp hput
    rw [pure_eq_ok] at hput
    obtain ⟨-, rfl⟩ := Prod.mk.inj hput
    exact .inr ⟨authoritative, insertSnapshot_eq_ok hinsert⟩

/-! ### Reservations -/

structure Reserves (host : LimitHost) (store : ProviderLimitStore) (row : ProviderLimitReservation)
    (next : ProviderLimitStore) : Prop where
  freshId : ∀ other ∈ store.reservations, other.reservationId ≠ row.reservationId
  freshKey : ∀ other ∈ store.reservations, other.toProviderLimitReservationRequest.sameKey
    row.toProviderLimitReservationRequest = false
  winner : row.decision = .allow → ∀ other ∈ store.reservations, other.decision = .allow →
    other.toProviderLimitReservationRequest.sameInvocation row.toProviderLimitReservationRequest
      = false
  verified : assertProviderLimitReservation host.toTruthHost row = .ok ()
  next_eq : next = { store with reservations := store.reservations ++ [row] }

theorem reserves_of_insertReservation {row : ProviderLimitReservation}
    (hverified : assertProviderLimitReservation host.toTruthHost row = .ok ())
    (hinsert : store.insertReservation host row = .ok next) : Reserves host store row next := by
  unfold ProviderLimitStore.insertReservation at hinsert
  split at hinsert
  · cases hinsert
  · next hid =>
      split at hinsert
      · cases hinsert
      · next hkey =>
          have hid : ∀ other ∈ store.reservations, other.reservationId ≠ row.reservationId := by
            simpa using hid
          have hkey : ∀ other ∈ store.reservations,
              other.toProviderLimitReservationRequest.sameKey
                row.toProviderLimitReservationRequest = false := by
            simpa using hkey
          split at hinsert
          · split at hinsert
            · next hfree =>
                have hfree := List.find?_eq_none.mp hfree
                refine ⟨hid, hkey, fun _ other hother hallow => ?_, hverified,
                  (Except.ok.inj hinsert).symm⟩
                simpa [hallow] using hfree other hother
            · obtain ⟨winner, -, hinsert⟩ := bind_eq_ok.mp hinsert
              cases hinsert
          · next hhold =>
              exact ⟨hid, hkey, fun hallow => absurd hallow hhold, hverified,
                (Except.ok.inj hinsert).symm⟩

theorem decideReservation_request {request : ProviderLimitReservationRequest}
    {reservation : ProviderLimitReservation}
    (hdecide : store.decideReservation host resolver now request = .ok reservation) :
    reservation.toProviderLimitReservationRequest = request := by
  unfold ProviderLimitStore.decideReservation at hdecide
  obtain ⟨snapshot, -, hdecide⟩ := bind_eq_ok.mp hdecide
  cases snapshot with
  | none =>
      obtain ⟨policy, -, hdecide⟩ := bind_eq_ok.mp hdecide
      rw [pure_eq_ok] at hdecide
      rw [← hdecide]
  | some snapshot =>
      obtain ⟨verdict, -, hdecide⟩ := bind_eq_ok.mp hdecide
      rw [pure_eq_ok] at hdecide
      rw [← hdecide]

structure NewReservation (host : LimitHost) (store : ProviderLimitStore) (resolver : PolicyResolver)
    (now : Int) (request : ProviderLimitReservationRequest) (row : ProviderLimitReservation)
    (next : ProviderLimitStore) : Prop where
  decided : store.decideReservation host resolver now request = .ok row
  reserves : Reserves host store row next

theorem reserveWithStatus_eq_ok {request : ProviderLimitReservationRequest}
    {write : ProviderLimitReservationWrite}
    (hreserve : store.reserveWithStatus host resolver now request = .ok (write, next)) :
    assertProviderLimitReservationRequest host.toTruthHost request = .ok ()
      ∧ write.reservation.toProviderLimitReservationRequest = request
      ∧ (write.created = false ∧ write.reservation ∈ store.reservations ∧ next = store
        ∨ write.created = true
          ∧ NewReservation host store resolver now request write.reservation next) := by
  unfold ProviderLimitStore.reserveWithStatus at hreserve
  obtain ⟨_, hrequest, hreserve⟩ := bind_eq_ok.mp hreserve
  refine ⟨hrequest, ?_⟩
  unfold ProviderLimitStore.writeReservation at hreserve
  split at hreserve
  · next existing hfound =>
      obtain ⟨persisted, hverify, hreserve⟩ := bind_eq_ok.mp hreserve
      obtain ⟨_, hsame, hreserve⟩ := bind_eq_ok.mp hreserve
      obtain ⟨-, heq⟩ := verifyReservationRow_eq_ok.mp hverify
      subst persisted
      rw [pure_eq_ok] at hreserve
      obtain ⟨rfl, rfl⟩ := Prod.mk.inj hreserve
      rw [requireStore_eq_ok, Bool.and_eq_true, decide_eq_true_eq] at hsame
      exact ⟨hsame.1, .inl ⟨rfl, List.mem_of_find?_eq_some hfound, rfl⟩⟩
  · obtain ⟨-, -, hreserve⟩ := bind_eq_ok.mp hreserve
    obtain ⟨reservation, hdecide, hreserve⟩ := bind_eq_ok.mp hreserve
    obtain ⟨_, hverified, hreserve⟩ := bind_eq_ok.mp hreserve
    obtain ⟨inserted, hinsert, hreserve⟩ := bind_eq_ok.mp hreserve
    rw [pure_eq_ok] at hreserve
    obtain ⟨rfl, rfl⟩ := Prod.mk.inj hreserve
    exact ⟨decideReservation_request hdecide,
      .inr ⟨rfl, hdecide, reserves_of_insertReservation hverified hinsert⟩⟩

/-! ### Events -/

/-- An event is added to the chain of an allowed reservation. -/
structure Appends (host : LimitHost) (store : ProviderLimitStore) (now : Int)
    (reservation : ProviderLimitReservation) (event : ProviderLimitReservationEvent)
    (next : ProviderLimitStore) : Prop where
  mem : reservation ∈ store.reservations
  allow : reservation.decision = .allow
  fresh : ∀ other ∈ store.events, other.eventId ≠ event.eventId
  verified : assertProviderLimitReservationEvent event = .ok ()
  follows : assertFollows (store.eventsOf reservation.reservationId).getLast? event = .ok ()
  belongs : assertBelongs host reservation now (store.eventsOf reservation.reservationId).getLast?
    event = .ok ()
  next_eq : next = { store with events := store.events ++
    [chainEvent host reservation.reservationId (store.eventsOf reservation.reservationId).getLast?
      event] }

theorem previousEvent_eq_ok {reservationId : String} {previous : Option StoredReservationEvent}
    (hprevious : store.previousEvent reservationId = .ok previous) :
    previous = (store.eventsOf reservationId).getLast? := by
  unfold ProviderLimitStore.previousEvent at hprevious
  split at hprevious
  · next hnone => rw [hnone, ← Except.ok.inj hprevious]
  · next row hsome =>
      obtain ⟨event, hevent, rfl⟩ := exceptMap_eq_ok.mp hprevious
      obtain ⟨-, rfl⟩ := eventFromRow_eq_ok.mp hevent
      rw [hsome]

theorem selectReservation_eq_some {query : ProviderLimitReservationQuery} {reservationId : String}
    {row : ProviderLimitReservation} (hselect : store.selectReservation query reservationId = some row) :
    row ∈ store.reservations ∧ row.reservationId = reservationId := by
  unfold ProviderLimitStore.selectReservation at hselect
  refine ⟨List.mem_of_find?_eq_some hselect, ?_⟩
  have hrow := List.find?_some hselect
  simp only [Bool.and_eq_true, decide_eq_true_eq] at hrow
  exact hrow.1.1

structure EventWritten (host : LimitHost) (store : ProviderLimitStore) (now : Int)
    (query : ProviderLimitReservationQuery) (reservationId : String)
    (event : ProviderLimitReservationEvent) (write : ProviderLimitReservationEventWrite)
    (next : ProviderLimitStore) (row : ProviderLimitReservation) : Prop where
  selected : store.selectReservation query reservationId = some row
  allow : row.decision = .allow
  rowVerified : assertProviderLimitReservation host.toTruthHost row = .ok ()
  verified : assertProviderLimitReservationEvent event = .ok ()
  released : verifyRelease host row event "" = .ok ()
  event_eq : write.event.toProviderLimitReservationEvent = event
  reservation_eq : write.event.reservationId = reservationId
  written : write.created = false ∧ write.event ∈ store.events ∧ next = store
    ∨ write.created = true ∧ Appends host store now row event next ∧ write.event ∈ next.events

theorem verifyRelease_congr {reservation : ProviderLimitReservation}
    {event : ProviderLimitReservationEvent} {message : String} (other : String)
    (hverify : verifyRelease host reservation event message = .ok ()) :
    verifyRelease host reservation event other = .ok () := by
  unfold verifyRelease at hverify ⊢
  rw [requireIntegrity_eq_ok] at hverify ⊢
  exact hverify

theorem eventWritten_of_append {query : ProviderLimitReservationQuery} {reservationId : String}
    {event : ProviderLimitReservationEvent} {write : ProviderLimitReservationEventWrite}
    (happend : store.appendReservationEventWithStatus host now query reservationId event
      = .ok (write, next)) :
    ∃ row, EventWritten host store now query reservationId event write next row := by
  unfold ProviderLimitStore.appendReservationEventWithStatus at happend
  obtain ⟨_, hevent, happend⟩ := bind_eq_ok.mp happend
  split at happend
  · cases happend
  · next row hselect =>
      obtain ⟨reservation, hverify, happend⟩ := bind_eq_ok.mp happend
      obtain ⟨hrow, heq⟩ := verifyReservationRow_eq_ok.mp hverify
      subst reservation
      obtain ⟨_, hallow, happend⟩ := bind_eq_ok.mp happend
      rw [requireStore_eq_ok, decide_eq_true_eq] at hallow
      obtain ⟨hmem, hid⟩ := selectReservation_eq_some hselect
      refine ⟨row, ?_⟩
      split at happend
      · next duplicate hfound =>
          obtain ⟨stored, hreplay, happend⟩ := bind_eq_ok.mp happend
          rw [pure_eq_ok] at happend
          obtain ⟨rfl, rfl⟩ := Prod.mk.inj happend
          unfold replayEvent at hreplay
          obtain ⟨read, hread, hreplay⟩ := bind_eq_ok.mp hreplay
          obtain ⟨-, heq⟩ := eventFromRow_eq_ok.mp hread
          subst read
          obtain ⟨_, hsame, hreplay⟩ := bind_eq_ok.mp hreplay
          obtain ⟨_, hrelease, hreplay⟩ := bind_eq_ok.mp hreplay
          rw [pure_eq_ok] at hreplay
          subst hreplay
          rw [requireStore_eq_ok, Bool.and_eq_true, decide_eq_true_eq, decide_eq_true_eq] at hsame
          refine ⟨hselect, hallow, hrow, hevent, ?_, hsame.2, hsame.1.trans hid,
            .inl ⟨rfl, List.mem_of_find?_eq_some hfound, rfl⟩⟩
          rw [← hsame.2]
          exact verifyRelease_congr _ hrelease
      · next hfresh =>
          unfold ProviderLimitStore.insertEvent at happend
          obtain ⟨previous, hprevious, happend⟩ := bind_eq_ok.mp happend
          obtain rfl := previousEvent_eq_ok hprevious
          obtain ⟨_, hfollows, happend⟩ := bind_eq_ok.mp happend
          obtain ⟨_, hbelongs, happend⟩ := bind_eq_ok.mp happend
          rw [pure_eq_ok] at happend
          obtain ⟨rfl, rfl⟩ := Prod.mk.inj happend
          have hrelease : verifyRelease host row event "" = .ok () := by
            have hparts := hbelongs
            unfold assertBelongs at hparts
            obtain ⟨-, -, hparts⟩ := bind_eq_ok.mp hparts
            obtain ⟨-, -, hparts⟩ := bind_eq_ok.mp hparts
            obtain ⟨-, -, hparts⟩ := bind_eq_ok.mp hparts
            obtain ⟨_, hrelease, -⟩ := bind_eq_ok.mp hparts
            exact verifyRelease_congr _ hrelease
          refine ⟨hselect, hallow, hrow, hevent, hrelease, rfl, hid, .inr ⟨rfl, ?_, by simp⟩⟩
          refine ⟨hmem, hallow, ?_, hevent, hfollows, hbelongs, rfl⟩
          simpa using hfresh

/-! ### Dispatch -/

theorem claimDispatch_eq_ok {query : ProviderLimitReservationQuery} {reservationId : String}
    {event : ProviderLimitReservationEvent} {claim : ProviderLimitDispatchClaim}
    (hclaim : store.claimDispatch host now query reservationId event = .ok (claim, next)) :
    event.type = .dispatched
      ∧ ((∃ write, write.created = true
          ∧ store.appendReservationEventWithStatus host now query reservationId event
            = .ok (write, next)
          ∧ claim = .claimed reservationId (reservationEventRef write.event.eventId)
            write.event.hash)
        ∨ next = store ∧ ∃ ref, claim = .taken ref) := by
  unfold ProviderLimitStore.claimDispatch at hclaim
  split at hclaim
  · cases hclaim
  · next htype =>
      refine ⟨not_not.mp htype, ?_⟩
      split at hclaim
      · next write appended happend =>
          split at hclaim
          · next hcreated =>
              obtain ⟨rfl, rfl⟩ := Prod.mk.inj (Except.ok.inj hclaim)
              exact .inl ⟨write, hcreated, happend, rfl⟩
          · next hcreated =>
              obtain ⟨rfl, rfl⟩ := Prod.mk.inj (Except.ok.inj hclaim)
              obtain ⟨row, hwritten⟩ := eventWritten_of_append happend
              obtain ⟨-, -, rfl⟩ | ⟨htrue, -⟩ := hwritten.written
              · exact .inr ⟨rfl, _, rfl⟩
              · exact absurd htrue hcreated
      · obtain ⟨answer, hexisting, hanswer⟩ := exceptMap_eq_ok.mp hclaim
        obtain ⟨rfl, rfl⟩ := Prod.mk.inj hanswer
        refine .inr ⟨rfl, ?_⟩
        unfold ProviderLimitStore.existingDispatch at hexisting
        obtain ⟨view, -, hexisting⟩ := bind_eq_ok.mp hexisting
        split at hexisting
        · rw [pure_eq_ok] at hexisting
          exact ⟨_, hexisting.symm⟩
        · cases hexisting
      · cases hclaim

end Deckent.ProviderLimit
