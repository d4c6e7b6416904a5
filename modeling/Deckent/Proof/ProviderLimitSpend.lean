import Deckent.Proof.ProviderLimitWrite
import Mathlib.Data.List.Range

/-!
# An invocation spends once

Of the reservations of one invocation a single one is allowed, and a reservation is dispatched once. Its
events are a dispatch and a settlement, or a release alone, and a call that is repeated finds what it has
written.
-/

namespace Deckent.ProviderLimit

variable {host : LimitHost} {store next : ProviderLimitStore} {now : Int} {resolver : PolicyResolver}

/-! ### Lifecycles -/

def lifecycles : List (List ReservationEventType) :=
  [[], [.dispatched], [.released], [.dispatched, .consumed], [.dispatched, .released]]

structure IsChain (events : List StoredReservationEvent) : Prop where
  types : events.map (·.type) ∈ lifecycles
  sequence : events.map (·.sequence) = List.range' 1 events.length

theorem isChain_nil : IsChain [] := ⟨by simp [lifecycles], rfl⟩

theorem IsChain.sorted {events : List StoredReservationEvent} (hchain : IsChain events) :
    sortBy (fun left right => compareNumber left.sequence right.sequence) events = events := by
  refine sortBy_eq_self ?_
  have hpairwise : (events.map (·.sequence)).Pairwise (· < ·) := by
    rw [hchain.sequence]
    exact List.pairwise_lt_range'
  refine (List.pairwise_map.mp hpairwise).imp fun {left right} hlt => ?_
  simp only [compareNumber]
  omega

theorem assertFollows_eq_ok {previous : Option StoredReservationEvent}
    {event : ProviderLimitReservationEvent} (hfollows : assertFollows previous event = .ok ()) :
    (∀ earlier ∈ previous, earlier.type = .dispatched)
      ∧ (event.type = .consumed → previous.isSome = true)
      ∧ (event.type = .dispatched → previous = none) := by
  unfold assertFollows at hfollows
  obtain ⟨_, hsettled, hfollows⟩ := bind_eq_ok.mp hfollows
  obtain ⟨_, hconsumed, hdispatched⟩ := bind_eq_ok.mp hfollows
  rw [requireStore_eq_ok] at hsettled hdispatched
  rw [requireIntegrity_eq_ok] at hconsumed
  cases previous with
  | none =>
      refine ⟨by simp, fun htype => ?_, fun _ => rfl⟩
      simp [htype] at hconsumed
  | some earlier =>
      refine ⟨fun other hother => ?_, fun _ => rfl, fun htype => ?_⟩
      · obtain rfl := Option.some.inj hother
        cases htype : earlier.type <;> simp_all
      · simp [htype] at hdispatched

theorem IsChain.concat {events : List StoredReservationEvent} (hchain : IsChain events)
    {reservationId : String} {event : ProviderLimitReservationEvent}
    (hfollows : assertFollows events.getLast? event = .ok ()) :
    IsChain (events ++ [chainEvent host reservationId events.getLast? event]) := by
  obtain ⟨hopen, hconsumed, hdispatched⟩ := assertFollows_eq_ok hfollows
  obtain ⟨htypes, hsequence⟩ := hchain
  match events, htypes, hsequence, hopen, hconsumed, hdispatched with
  | [], _, _, _, hconsumed, _ =>
      refine ⟨?_, rfl⟩
      cases htype : event.type with
      | dispatched => simp [lifecycles, chainEvent, htype]
      | consumed => exact absurd (hconsumed htype) (by simp)
      | released => simp [lifecycles, chainEvent, htype]
  | [first], _, hsequence, hopen, _, hdispatched =>
      have hfirst : first.type = .dispatched := hopen first rfl
      have hseq : first.sequence = 1 := by simpa using hsequence
      refine ⟨?_, by simp [chainEvent, hseq, List.range'_succ]⟩
      cases htype : event.type with
      | dispatched => exact absurd (hdispatched htype) (by simp)
      | consumed => simp [lifecycles, chainEvent, htype, hfirst]
      | released => simp [lifecycles, chainEvent, htype, hfirst]
  | [first, second], htypes, _, hopen, _, _ =>
      have hsecond : second.type = .dispatched := hopen second rfl
      simp [lifecycles, hsecond] at htypes
  | first :: second :: third :: rest, htypes, _, _, _, _ => simp [lifecycles] at htypes

/-! ### Tables -/

def ProviderLimitStore.chain (store : ProviderLimitStore) (reservationId : String) :
    List StoredReservationEvent :=
  store.events.filter (·.reservationId = reservationId)

/-- Tables that calls can reach. -/
structure Valid (host : LimitHost) (store : ProviderLimitStore) : Prop where
  ids : (store.reservations.map (·.reservationId)).Nodup
  keys : store.reservations.Pairwise fun left right =>
    left.toProviderLimitReservationRequest.sameKey right.toProviderLimitReservationRequest = false
  winners : store.reservations.Pairwise fun left right => left.decision = .allow →
    right.decision = .allow → left.toProviderLimitReservationRequest.sameInvocation
      right.toProviderLimitReservationRequest = false
  verified : ∀ row ∈ store.reservations,
    assertProviderLimitReservation host.toTruthHost row = .ok ()
  eventIds : (store.events.map (·.eventId)).Nodup
  eventsVerified : ∀ row ∈ store.events,
    assertProviderLimitReservationEvent row.toProviderLimitReservationEvent = .ok ()
  chains : ∀ reservationId, IsChain (store.chain reservationId)
  owned : ∀ event ∈ store.events, ∃ row ∈ store.reservations, row.reservationId = event.reservationId

theorem valid_empty : Valid host .empty where
  ids := List.nodup_nil
  keys := List.Pairwise.nil
  winners := List.Pairwise.nil
  verified := by simp [ProviderLimitStore.empty]
  eventIds := List.nodup_nil
  eventsVerified := by simp [ProviderLimitStore.empty]
  chains := fun _ => isChain_nil
  owned := by simp [ProviderLimitStore.empty]

theorem Valid.eventsOf_eq (hvalid : Valid host store) (reservationId : String) :
    store.eventsOf reservationId = store.chain reservationId :=
  (hvalid.chains reservationId).sorted

theorem pairwise_concat {α : Type} {relation : α → α → Prop} {list : List α} {last : α}
    (hlist : list.Pairwise relation) (hlast : ∀ a ∈ list, relation a last) :
    (list ++ [last]).Pairwise relation := by
  rw [List.pairwise_append]
  refine ⟨hlist, List.pairwise_singleton _ _, fun a ha b hb => ?_⟩
  rw [List.mem_singleton.mp hb]
  exact hlast a ha

theorem nodup_map_concat {α β : Type} {key : α → β} {list : List α} {last : α}
    (hlist : (list.map key).Nodup) (hlast : ∀ a ∈ list, key a ≠ key last) :
    ((list ++ [last]).map key).Nodup := by
  rw [List.map_append]
  refine hlist.append (List.nodup_singleton _) ?_
  simpa using hlast

theorem Reserves.valid {row : ProviderLimitReservation} (hreserves : Reserves host store row next)
    (hvalid : Valid host store) : Valid host next := by
  obtain ⟨hid, hkey, hwinner, hverified, rfl⟩ := hreserves
  refine ⟨nodup_map_concat hvalid.ids hid, pairwise_concat hvalid.keys hkey,
    pairwise_concat hvalid.winners fun other hother hallow hrow => hwinner hrow other hother hallow,
    fun other hother => ?_, hvalid.eventIds, hvalid.eventsVerified, hvalid.chains,
    fun event hevent => ?_⟩
  · obtain hold | hnew := List.mem_append.mp hother
    · exact hvalid.verified other hold
    · rw [List.mem_singleton.mp hnew]
      exact hverified
  · obtain ⟨owner, howner, hid⟩ := hvalid.owned event hevent
    exact ⟨owner, List.mem_append_left _ howner, hid⟩

theorem chain_concat (store : ProviderLimitStore) (row : StoredReservationEvent)
    (reservationId : String) :
    ({ store with events := store.events ++ [row] } : ProviderLimitStore).chain reservationId
      = if row.reservationId = reservationId then store.chain reservationId ++ [row]
        else store.chain reservationId := by
  unfold ProviderLimitStore.chain
  rw [List.filter_append]
  split
  · next hrow => simp [hrow]
  · next hrow => simp [hrow]

theorem Appends.valid {reservation : ProviderLimitReservation} {event : ProviderLimitReservationEvent}
    (happends : Appends host store now reservation event next) (hvalid : Valid host store) :
    Valid host next := by
  obtain ⟨hmem, -, hfresh, hverified, hfollows, -, rfl⟩ := happends
  refine ⟨hvalid.ids, hvalid.keys, hvalid.winners, hvalid.verified,
    nodup_map_concat hvalid.eventIds hfresh, fun row hrow => ?_, fun reservationId => ?_,
    fun row hrow => ?_⟩
  · obtain hold | hnew := List.mem_append.mp hrow
    · exact hvalid.eventsVerified row hold
    · rw [List.mem_singleton.mp hnew]
      exact hverified
  · rw [chain_concat]
    split
    · next hid =>
        obtain rfl : reservation.reservationId = reservationId := hid
        rw [hvalid.eventsOf_eq] at hfollows ⊢
        exact (hvalid.chains _).concat hfollows
    · exact hvalid.chains reservationId
  · obtain hold | hnew := List.mem_append.mp hrow
    · exact hvalid.owned row hold
    · rw [List.mem_singleton.mp hnew]
      exact ⟨reservation, hmem, rfl⟩

/-! ### Calls -/

/-- What a call can do to the tables. -/
inductive Wrote (host : LimitHost) (store : ProviderLimitStore) : ProviderLimitStore → Prop where
  | nothing : Wrote host store store
  | snapshot (row : ProviderLimitResult) :
      Wrote host store { store with snapshots := store.snapshots ++ [row] }
  | reservation (now : Int) (resolver : PolicyResolver) (request : ProviderLimitReservationRequest)
      (row : ProviderLimitReservation) (next : ProviderLimitStore)
      (hrequest : assertProviderLimitReservationRequest host.toTruthHost request = .ok ())
      (hnew : NewReservation host store resolver now request row next) : Wrote host store next
  | event (now : Int) (reservation : ProviderLimitReservation) (event : ProviderLimitReservationEvent)
      (next : ProviderLimitStore) (happends : Appends host store now reservation event next) :
      Wrote host store next

theorem wrote_of_append {query : ProviderLimitReservationQuery} {reservationId : String}
    {event : ProviderLimitReservationEvent} {write : ProviderLimitReservationEventWrite}
    (happend : store.appendReservationEventWithStatus host now query reservationId event
      = .ok (write, next)) : Wrote host store next := by
  obtain ⟨row, hwritten⟩ := eventWritten_of_append happend
  obtain ⟨-, -, rfl⟩ | ⟨-, happends, -⟩ := hwritten.written
  · exact .nothing
  · exact .event now row event next happends

theorem wrote_of_perform {turn : LimitTurn} {answer : LimitAnswer}
    (hperform : store.perform host turn = .ok (answer, next)) : Wrote host store next := by
  obtain ⟨now, resolver, call⟩ := turn
  cases call with
  | putSnapshot result =>
      obtain ⟨write, hput, hanswer⟩ := exceptMap_eq_ok.mp hperform
      obtain ⟨-, rfl⟩ := Prod.mk.inj hanswer
      obtain hsame | ⟨row, hrow⟩ := putSnapshot_eq_ok hput
      · rw [hsame]
        exact .nothing
      · rw [hrow]
        exact .snapshot row
  | reserveWithStatus request =>
      obtain ⟨write, hreserve, hanswer⟩ := exceptMap_eq_ok.mp hperform
      obtain ⟨-, rfl⟩ := Prod.mk.inj hanswer
      obtain ⟨hrequest, -, ⟨-, -, hsame⟩ | ⟨-, hnew⟩⟩ := reserveWithStatus_eq_ok hreserve
      · rw [hsame]
        exact .nothing
      · exact .reservation now resolver request _ _ hrequest hnew
  | appendReservationEventWithStatus query reservationId event =>
      obtain ⟨write, happend, hanswer⟩ := exceptMap_eq_ok.mp hperform
      obtain ⟨-, rfl⟩ := Prod.mk.inj hanswer
      exact wrote_of_append happend
  | claimDispatch query reservationId event =>
      obtain ⟨claim, hclaim, hanswer⟩ := exceptMap_eq_ok.mp hperform
      obtain ⟨-, rfl⟩ := Prod.mk.inj hanswer
      obtain ⟨-, ⟨write, -, happend, -⟩ | ⟨hsame, -⟩⟩ := claimDispatch_eq_ok hclaim
      · exact wrote_of_append happend
      · rw [hsame]
        exact .nothing

theorem wrote_after (store : ProviderLimitStore) (turn : LimitTurn) :
    Wrote host store (store.after host turn) := by
  unfold ProviderLimitStore.after
  split
  · next answer next hperform => exact wrote_of_perform hperform
  · exact .nothing

theorem Wrote.valid (hwrote : Wrote host store next) (hvalid : Valid host store) : Valid host next := by
  cases hwrote with
  | nothing => exact hvalid
  | snapshot row =>
      exact ⟨hvalid.ids, hvalid.keys, hvalid.winners, hvalid.verified, hvalid.eventIds,
        hvalid.eventsVerified, hvalid.chains, hvalid.owned⟩
  | reservation now resolver request row _ _ hnew => exact hnew.reserves.valid hvalid
  | event now reservation event _ happends => exact happends.valid hvalid

structure Grows (store next : ProviderLimitStore) : Prop where
  reservations : store.reservations <+: next.reservations
  events : store.events <+: next.events

theorem Grows.refl (store : ProviderLimitStore) : Grows store store :=
  ⟨List.prefix_refl _, List.prefix_refl _⟩

theorem Wrote.grows (hwrote : Wrote host store next) : Grows store next := by
  cases hwrote with
  | nothing => exact .refl store
  | snapshot row => exact ⟨List.prefix_refl _, List.prefix_refl _⟩
  | reservation now resolver request row _ _ hnew =>
      rw [hnew.reserves.next_eq]
      exact ⟨List.prefix_append _ _, List.prefix_refl _⟩
  | event now reservation event _ happends =>
      rw [happends.next_eq]
      exact ⟨List.prefix_refl _, List.prefix_append _ _⟩

/-! ### Calls that are repeated -/

theorem related_of_pairwise {α : Type} {relation : α → α → Prop} {list : List α}
    (hlist : list.Pairwise relation) {left right : α} (hleft : left ∈ list) (hright : right ∈ list)
    (hne : left ≠ right) : relation left right ∨ relation right left := by
  induction hlist with
  | nil => cases hleft
  | @cons first rest hfirst _ ih =>
      obtain rfl | hleft := List.mem_cons.mp hleft
      · obtain rfl | hright := List.mem_cons.mp hright
        · exact absurd rfl hne
        · exact .inl (hfirst right hright)
      · obtain heq | hright := List.mem_cons.mp hright
        · rw [heq]
          exact .inr (hfirst left hleft)
        · exact ih hleft hright

theorem sameKey_comm (left right : ProviderLimitReservationRequest) :
    left.sameKey right = right.sameKey left := by
  simp only [ProviderLimitReservationRequest.sameKey, eq_comm]

theorem sameInvocation_comm (left right : ProviderLimitReservationRequest) :
    left.sameInvocation right = right.sameInvocation left := by
  simp only [ProviderLimitReservationRequest.sameInvocation, eq_comm]

theorem Valid.eq_of_sameKey (hvalid : Valid host store) {left right : ProviderLimitReservation}
    (hleft : left ∈ store.reservations) (hright : right ∈ store.reservations)
    (hsame : left.toProviderLimitReservationRequest.sameKey
      right.toProviderLimitReservationRequest = true) : left = right := by
  by_contra hne
  obtain hdistinct | hdistinct := related_of_pairwise hvalid.keys hleft hright hne
  · rw [hsame] at hdistinct
    cases hdistinct
  · rw [sameKey_comm, hsame] at hdistinct
    cases hdistinct

theorem sameKey_of_covers {left right : ProviderLimitReservationRequest}
    (hquery : left.toProviderLimitSnapshotQuery = right.toProviderLimitSnapshotQuery)
    (hkey : left.idempotencyKey = right.idempotencyKey) : left.sameKey right = true := by
  have htenant := congrArg (·.tenantId) hquery
  have hprovider := congrArg (·.provider) hquery
  have hscope := congrArg (·.quotaScopeRefHash) hquery
  have hauth := congrArg (·.authMode) hquery
  simp [ProviderLimitReservationRequest.sameKey, htenant, hprovider, hscope, hauth, hkey]

theorem Valid.reserve_again (hvalid : Valid host store) {request : ProviderLimitReservationRequest}
    {row : ProviderLimitReservation}
    (hassert : assertProviderLimitReservationRequest host.toTruthHost request = .ok ())
    (hmem : row ∈ store.reservations) (hrow : row.toProviderLimitReservationRequest = request) :
    store.reserveWithStatus host resolver now request = .ok (⟨row, false⟩, store) := by
  unfold ProviderLimitStore.reserveWithStatus
  refine bind_eq_ok.mpr ⟨(), hassert, ?_⟩
  unfold ProviderLimitStore.writeReservation
  split
  · next existing hfound =>
      have hexisting := List.find?_some hfound
      simp only [ProviderLimitSnapshotQuery.covers, Bool.and_eq_true, decide_eq_true_eq]
        at hexisting
      have hsame : existing = row := by
        refine hvalid.eq_of_sameKey (List.mem_of_find?_eq_some hfound) hmem ?_
        rw [hrow]
        exact sameKey_of_covers hexisting.1 hexisting.2
      subst existing
      refine bind_eq_ok.mpr
        ⟨row, verifyReservationRow_eq_ok.mpr ⟨hvalid.verified row hmem, rfl⟩, ?_⟩
      refine bind_eq_ok.mpr ⟨(), ?_, rfl⟩
      rw [requireStore_eq_ok, Bool.and_eq_true, decide_eq_true_eq, decide_eq_true_eq]
      exact ⟨hrow, congrArg (·.reservationId) hrow⟩
  · next hnone =>
      have hmissing := List.find?_eq_none.mp hnone row hmem
      subst hrow
      simp [ProviderLimitSnapshotQuery.covers] at hmissing

theorem selectReservation_of_grows {query : ProviderLimitReservationQuery} {reservationId : String}
    {row : ProviderLimitReservation} (hselect : store.selectReservation query reservationId = some row)
    (hgrows : Grows store next) : next.selectReservation query reservationId = some row := by
  unfold ProviderLimitStore.selectReservation at hselect ⊢
  obtain ⟨added, hadded⟩ := hgrows.reservations
  rw [← hadded, List.find?_append, hselect, Option.some_or]

theorem Valid.append_again {later : ProviderLimitStore} (hlater : Valid host later)
    {query : ProviderLimitReservationQuery} {reservationId : String}
    {event : ProviderLimitReservationEvent} {write : ProviderLimitReservationEventWrite}
    {row : ProviderLimitReservation} (now' : Int)
    (hwritten : EventWritten host store now query reservationId event write next row)
    (hgrows : Grows next later) (hbefore : Grows store next) :
    later.appendReservationEventWithStatus host now' query reservationId event
      = .ok (⟨write.event, false⟩, later) := by
  have hselect := selectReservation_of_grows
    (selectReservation_of_grows hwritten.selected hbefore) hgrows
  have hmem : write.event ∈ later.events := by
    obtain ⟨-, hmem, -⟩ | ⟨-, -, hmem⟩ := hwritten.written
    · exact hgrows.events.subset (hbefore.events.subset hmem)
    · exact hgrows.events.subset hmem
  have hid : row.reservationId = reservationId := (selectReservation_eq_some hwritten.selected).2
  unfold ProviderLimitStore.appendReservationEventWithStatus
  refine bind_eq_ok.mpr ⟨(), hwritten.verified, ?_⟩
  rw [hselect]
  refine bind_eq_ok.mpr
    ⟨row, verifyReservationRow_eq_ok.mpr ⟨hwritten.rowVerified, rfl⟩, ?_⟩
  refine bind_eq_ok.mpr ⟨(), by simp [hwritten.allow], ?_⟩
  have hfound : later.events.find? (·.eventId = event.eventId) = some write.event := by
    cases hfind : later.events.find? (·.eventId = event.eventId) with
    | none =>
        have hmissing := List.find?_eq_none.mp hfind write.event hmem
        simp [← hwritten.event_eq] at hmissing
    | some duplicate =>
        have hduplicate := List.find?_some hfind
        rw [decide_eq_true_eq, ← hwritten.event_eq] at hduplicate
        rw [List.inj_on_of_nodup_map hlater.eventIds (List.mem_of_find?_eq_some hfind) hmem hduplicate]
  rw [hfound]
  refine bind_eq_ok.mpr ⟨write.event, ?_, rfl⟩
  unfold replayEvent
  refine bind_eq_ok.mpr
    ⟨write.event, eventFromRow_eq_ok.mpr ⟨hwritten.event_eq ▸ hwritten.verified, rfl⟩, ?_⟩
  refine bind_eq_ok.mpr ⟨(), by simp [hwritten.reservation_eq, hwritten.event_eq, hid], ?_⟩
  refine bind_eq_ok.mpr ⟨(), ?_, rfl⟩
  rw [hwritten.event_eq]
  exact verifyRelease_congr _ hwritten.released

/-! ### Runs -/

section Run

variable {before : List LimitTurn} {turn : LimitTurn}

theorem storeAfter_append (before rest : List LimitTurn) :
    storeAfter host (before ++ rest)
      = rest.foldl (ProviderLimitStore.after host) (storeAfter host before) :=
  List.foldl_append

theorem foldl_keeps (turns : List LimitTurn) (property : ProviderLimitStore → Prop)
    (hwrite : ∀ store next, Wrote host store next → property store → property next)
    (hstore : property store) : property (turns.foldl (ProviderLimitStore.after host) store) := by
  induction turns generalizing store with
  | nil => exact hstore
  | cons turn rest ih => exact ih (hwrite store _ (wrote_after store turn) hstore)

theorem valid_storeAfter (turns : List LimitTurn) : Valid host (storeAfter host turns) :=
  foldl_keeps turns (Valid host) (fun _ _ hwrote => hwrote.valid) valid_empty

theorem grows_foldl (store : ProviderLimitStore) (turns : List LimitTurn) :
    Grows store (turns.foldl (ProviderLimitStore.after host) store) :=
  foldl_keeps turns (Grows store)
    (fun _ _ hwrote hgrows => ⟨hgrows.reservations.trans hwrote.grows.reservations,
      hgrows.events.trans hwrote.grows.events⟩) (.refl store)

theorem after_of_perform {answer : LimitAnswer} (hperform : store.perform host turn = .ok (answer, next)) :
    store.after host turn = next := by
  unfold ProviderLimitStore.after
  rw [hperform]

theorem grows_of_perform {answer : LimitAnswer} (between : List LimitTurn)
    (hperform : (storeAfter host before).perform host turn = .ok (answer, next)) :
    Grows next (storeAfter host (before ++ turn :: between)) := by
  rw [storeAfter_append, List.foldl_cons, after_of_perform hperform]
  exact grows_foldl next between

/-! ### The contract of a store -/

/-- The call claims the dispatch of the reservation. -/
def Claims (host : LimitHost) (store : ProviderLimitStore) (turn : LimitTurn) (reservationId : String) :
    Prop :=
  ∃ query event ref hash next, turn.call = .claimDispatch query reservationId event
    ∧ store.perform host turn = .ok (.dispatch (.claimed reservationId ref hash), next)

theorem exists_appends_of_claims {reservationId : String} (hclaims : Claims host store turn reservationId) :
    ∃ row event, row.reservationId = reservationId ∧ event.type = .dispatched
      ∧ Appends host store turn.now row event (store.after host turn) := by
  obtain ⟨query, event, ref, hash, next, hcall, hperform⟩ := hclaims
  rw [after_of_perform hperform]
  obtain ⟨now, resolver, call⟩ := turn
  obtain rfl : call = _ := hcall
  obtain ⟨claim, hclaim, hanswer⟩ := exceptMap_eq_ok.mp hperform
  obtain ⟨hclaimed, rfl⟩ := Prod.mk.inj hanswer
  have hclaimed := LimitAnswer.dispatch.inj hclaimed
  obtain ⟨htype, ⟨write, hcreated, happend, -⟩ | ⟨-, ref, htaken⟩⟩ := claimDispatch_eq_ok hclaim
  · obtain ⟨row, hwritten⟩ := eventWritten_of_append happend
    obtain ⟨hfalse, -⟩ | ⟨-, happends, -⟩ := hwritten.written
    · rw [hcreated] at hfalse
      cases hfalse
    · exact ⟨row, event, (selectReservation_eq_some hwritten.selected).2, htype, happends⟩
  · rw [htaken] at hclaimed
    cases hclaimed

theorem sameInvocation_trans {left middle right : ProviderLimitReservationRequest}
    (hleft : left.sameInvocation middle = true) (hright : right.sameInvocation middle = true) :
    left.sameInvocation right = true := by
  simp only [ProviderLimitReservationRequest.sameInvocation, Bool.and_eq_true,
    decide_eq_true_eq] at hleft hright ⊢
  obtain ⟨⟨⟨⟨h1, h2⟩, h3⟩, h4⟩, h5⟩ := hleft
  obtain ⟨⟨⟨⟨g1, g2⟩, g3⟩, g4⟩, g5⟩ := hright
  exact ⟨⟨⟨⟨h1.trans g1.symm, h2.trans g2.symm⟩, h3.trans g3.symm⟩, h4.trans g4.symm⟩,
    h5.trans g5.symm⟩

theorem length_le_one_of_pairwise_false {α : Type} {list : List α}
    (hlist : list.Pairwise fun _ _ => False) : list.length ≤ 1 := by
  match list, hlist with
  | [], _ => simp
  | [_], _ => simp
  | first :: second :: rest, hlist =>
      exact (List.pairwise_cons.mp hlist).1 second List.mem_cons_self |>.elim

theorem Valid.length_winners_le_one (hvalid : Valid host store)
    (request : ProviderLimitReservationRequest) :
    (store.reservations.filter fun row => row.decision = .allow
      && row.toProviderLimitReservationRequest.sameInvocation request).length ≤ 1 := by
  refine length_le_one_of_pairwise_false ?_
  refine (hvalid.winners.filter _).imp_of_mem fun {left right} hleft hright hwinner => ?_
  have hleft := (List.mem_filter.mp hleft).2
  have hright := (List.mem_filter.mp hright).2
  rw [Bool.and_eq_true, decide_eq_true_eq] at hleft hright
  have hdistinct := hwinner hleft.1 hright.1
  rw [sameInvocation_trans hleft.2 hright.2] at hdistinct
  cases hdistinct

/-- What a store owes to the processes that share it. -/
structure SpendContract (host : LimitHost) (turns : List LimitTurn) : Prop where
  /-- One reservation of an invocation is allowed at most. -/
  winner : ∀ request : ProviderLimitReservationRequest,
    ((storeAfter host turns).reservations.filter fun row => row.decision = .allow
      && row.toProviderLimitReservationRequest.sameInvocation request).length ≤ 1
  /-- Two claims are of reservations of different invocations. -/
  grant : ∀ before first between second after reservationId other,
    turns = before ++ first :: between ++ second :: after →
    Claims host (storeAfter host before) first reservationId →
    Claims host (storeAfter host (before ++ first :: between)) second other →
    ∃ left ∈ (storeAfter host turns).reservations, ∃ right ∈ (storeAfter host turns).reservations,
      left.reservationId = reservationId ∧ right.reservationId = other
        ∧ left.toProviderLimitReservationRequest.sameInvocation
          right.toProviderLimitReservationRequest = false
  /-- The events of a reservation are a dispatch and a settlement, or a release alone. -/
  lifecycle : ∀ reservationId,
    ((storeAfter host turns).eventsOf reservationId).map (·.type) ∈ lifecycles
  /-- A request that is repeated gets the reservation that there is. -/
  reserveAgain : ∀ before turn between again after write next request,
    turns = before ++ turn :: between ++ again :: after →
    turn.call = .reserveWithStatus request → again.call = .reserveWithStatus request →
    (storeAfter host before).perform host turn = .ok (.reserved write, next) →
    (storeAfter host (before ++ turn :: between)).perform host again
      = .ok (.reserved ⟨write.reservation, false⟩, storeAfter host (before ++ turn :: between))
  /-- An event that is repeated is the event that there is. -/
  appendAgain : ∀ before turn between again after write next query reservationId event,
    turns = before ++ turn :: between ++ again :: after →
    turn.call = .appendReservationEventWithStatus query reservationId event →
    again.call = .appendReservationEventWithStatus query reservationId event →
    (storeAfter host before).perform host turn = .ok (.appended write, next) →
    (storeAfter host (before ++ turn :: between)).perform host again
      = .ok (.appended ⟨write.event, false⟩, storeAfter host (before ++ turn :: between))
  /-- A claim that is repeated finds the dispatch taken, by the event of the claim. -/
  claimAgain : ∀ before turn between again after next query reservationId event ref hash,
    turns = before ++ turn :: between ++ again :: after →
    turn.call = .claimDispatch query reservationId event →
    again.call = .claimDispatch query reservationId event →
    (storeAfter host before).perform host turn
      = .ok (.dispatch (.claimed reservationId ref hash), next) →
    (storeAfter host (before ++ turn :: between)).perform host again
      = .ok (.dispatch (.taken ref), storeAfter host (before ++ turn :: between))

theorem Valid.not_appends_dispatched (hvalid : Valid host store) {row : ProviderLimitReservation}
    {event : ProviderLimitReservationEvent} (htype : event.type = .dispatched)
    (happends : Appends host store now row event next) {earlier : StoredReservationEvent}
    (hearlier : earlier ∈ store.events) (hid : earlier.reservationId = row.reservationId) : False := by
  have hnone := (assertFollows_eq_ok happends.follows).2.2 htype
  rw [hvalid.eventsOf_eq, List.getLast?_eq_none_iff] at hnone
  have hmem : earlier ∈ store.chain row.reservationId := by
    unfold ProviderLimitStore.chain
    simp [hearlier, hid]
  rw [hnone] at hmem
  cases hmem

end Run

end Deckent.ProviderLimit
