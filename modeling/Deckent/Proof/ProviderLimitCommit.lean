import Deckent.Proof.ProviderLimitSpend
import Mathlib.Algebra.Order.BigOperators.Group.List
import Mathlib.Tactic.Linarith
import Mathlib.Tactic.NormNum

/-!
# What is committed of a quota

The reservations of a quota commit their estimates, or what was used in their place. A reservation is
allowed only where all of it fits into what the latest snapshot leaves, and no call but a snapshot or a
consumption above its estimate can undo that.
-/

namespace Deckent.ProviderLimit

variable {host : LimitHost} {store next : ProviderLimitStore} {now : Int} {resolver : PolicyResolver}

/-! ### Amounts -/

def amountIn (windowId : String) (amounts : List WindowAmount) : ℚ :=
  ((amounts.filter (·.windowId = windowId)).map (·.amount)).sum

@[simp]
theorem amountIn_nil (windowId : String) : amountIn windowId [] = 0 := rfl

theorem amountIn_cons (windowId : String) (amount : WindowAmount) (rest : List WindowAmount) :
    amountIn windowId (amount :: rest)
      = (if amount.windowId = windowId then amount.amount else 0) + amountIn windowId rest := by
  unfold amountIn
  split
  · next hwindow => simp [hwindow]
  · next hwindow => simp [hwindow]

theorem amountIn_nonneg {amounts : List WindowAmount} (hamounts : ∀ amount ∈ amounts, 0 ≤ amount.amount)
    (windowId : String) : 0 ≤ amountIn windowId amounts := by
  refine List.sum_nonneg fun value hvalue => ?_
  obtain ⟨amount, hamount, rfl⟩ := List.mem_map.mp hvalue
  exact hamounts amount (List.mem_of_mem_filter hamount)

theorem amountIn_eq_zero {amounts : List WindowAmount} {windowId : String}
    (hamounts : windowId ∉ amounts.map (·.windowId)) : amountIn windowId amounts = 0 := by
  unfold amountIn
  rw [List.filter_eq_nil_iff.mpr]
  · rfl
  · intro amount hamount hwindow
    rw [decide_eq_true_eq] at hwindow
    exact hamounts (List.mem_map.mpr ⟨amount, hamount, hwindow⟩)

theorem amountIn_of_mem {amounts : List WindowAmount} (hnodup : (amounts.map (·.windowId)).Nodup)
    {amount : WindowAmount} (hmem : amount ∈ amounts) :
    amountIn amount.windowId amounts = amount.amount := by
  induction amounts with
  | nil => cases hmem
  | cons first rest ih =>
      obtain ⟨hfirst, hrest⟩ := List.nodup_cons.mp hnodup
      rw [amountIn_cons]
      obtain rfl | hmem := List.mem_cons.mp hmem
      · rw [if_pos rfl, amountIn_eq_zero hfirst, add_zero]
      · have hne : first.windowId ≠ amount.windowId := fun heq =>
          hfirst (List.mem_map.mpr ⟨amount, hmem, heq.symm⟩)
        rw [if_neg hne, ih hrest hmem, zero_add]

theorem assertAmounts_eq_ok {check : WindowAmount → Except ProviderLimitError Unit} {duplicate : String}
    {amounts : List WindowAmount} {seen : List String}
    (hassert : assertAmounts check duplicate amounts seen = .ok ()) :
    (∀ amount ∈ amounts, check amount = .ok () ∧ amount.windowId ∉ seen)
      ∧ (amounts.map (·.windowId)).Nodup := by
  induction amounts generalizing seen with
  | nil => simp
  | cons first rest ih =>
      obtain ⟨_, hfirst, hassert⟩ := bind_eq_ok.mp hassert
      obtain ⟨_, hfresh, hassert⟩ := bind_eq_ok.mp hassert
      obtain ⟨hrest, hnodup⟩ := ih hassert
      have hfresh : first.windowId ∉ seen := by simpa using hfresh
      refine ⟨List.forall_mem_cons.mpr ⟨⟨hfirst, hfresh⟩, fun amount hamount => ?_⟩, ?_⟩
      · obtain ⟨hcheck, hseen⟩ := hrest amount hamount
        exact ⟨hcheck, fun hmem => hseen (List.mem_cons_of_mem _ hmem)⟩
      · refine List.nodup_cons.mpr ⟨fun hmem => ?_, hnodup⟩
        obtain ⟨amount, hamount, hwindow⟩ := List.mem_map.mp hmem
        exact (hrest amount hamount).2 (List.mem_cons.mpr (.inl hwindow))

theorem estimates_of_assert {request : ProviderLimitReservationRequest}
    (hrequest : assertProviderLimitReservationRequest host.toTruthHost request = .ok ()) :
    (∀ estimate ∈ request.estimates, 0 < estimate.amount)
      ∧ (request.estimates.map (·.windowId)).Nodup := by
  unfold assertProviderLimitReservationRequest at hrequest
  iterate 22 obtain ⟨_, -, hrequest⟩ := bind_eq_ok.mp hrequest
  obtain ⟨hestimates, hnodup⟩ := assertAmounts_eq_ok hrequest
  refine ⟨fun estimate hestimate => ?_, hnodup⟩
  obtain ⟨_, -, hpositive⟩ := bind_eq_ok.mp (hestimates estimate hestimate).1
  simpa using hpositive

theorem request_of_assert {row : ProviderLimitReservation}
    (hrow : assertProviderLimitReservation host.toTruthHost row = .ok ()) :
    assertProviderLimitReservationRequest host.toTruthHost row.toProviderLimitReservationRequest
      = .ok () := by
  obtain ⟨_, hrequest, -⟩ := bind_eq_ok.mp hrow
  exact hrequest

/-! ### What is committed -/

/-- What a reservation commits of a window: its estimate, and in place of it what was used once it is
consumed. -/
def committed (incorporatedEventRefs : List String) (windowId : String) (row : ProviderLimitReservation)
    (events : List StoredReservationEvent) : ℚ :=
  if events.any (·.type = .released) then 0
  else
    match events.find? (·.type = .consumed) with
    | none => amountIn windowId row.estimates
    | some usage =>
        if incorporatedEventRefs.contains (reservationEventRef usage.eventId) then 0
        else amountIn windowId (usage.actual.getD [])

theorem IsChain.amountIn_heldAmounts {events : List StoredReservationEvent} (hchain : IsChain events)
    (incorporatedEventRefs : List String) (windowId : String) (row : ProviderLimitReservation) :
    amountIn windowId (heldAmounts incorporatedEventRefs row events)
      = committed incorporatedEventRefs windowId row events := by
  obtain ⟨htypes, -⟩ := hchain
  match events, htypes with
  | [], _ => rfl
  | [first], htypes =>
      have hfirst : first.type = .dispatched ∨ first.type = .released := by
        simpa [lifecycles] using htypes
      obtain hfirst | hfirst := hfirst
      · simp [heldAmounts, committed, hfirst]
      · simp [heldAmounts, committed, hfirst]
  | [first, second], htypes =>
      have hboth : first.type = .dispatched ∧ second.type = .consumed
          ∨ first.type = .dispatched ∧ second.type = .released := by
        simpa [lifecycles] using htypes
      obtain ⟨hfirst, hsecond⟩ | ⟨hfirst, hsecond⟩ := hboth
      · simp only [heldAmounts, committed, List.getLast?_cons_cons, List.getLast?_singleton, hsecond,
          List.any_cons, List.any_nil, hfirst, List.find?_cons]
        split
        · simp_all
        · simp_all
      · simp [heldAmounts, committed, hsecond]
  | first :: second :: third :: rest, htypes => simp [lifecycles] at htypes

def ProviderLimitStore.committedIn (store : ProviderLimitStore) (snapshot : ProviderLimitResult)
    (windowId : String) : ℚ :=
  ((store.activeReservations snapshot.toProviderLimitSnapshotQuery).map fun row =>
    committed snapshot.source.incorporatedReservationEventRefs windowId row
      (store.eventsOf row.reservationId)).sum

def ProviderLimitResult.remaining? (snapshot : ProviderLimitResult) (windowId : String) : Option ℚ :=
  (findWindow snapshot.windows windowId).bind (·.remaining)

def ReservedAmounts.amount (totals : ReservedAmounts) (windowId : String) : ℚ :=
  (totals.get? windowId).getD 0

theorem amount_addAmount (totals : ReservedAmounts) (amount : WindowAmount) (windowId : String) :
    (addAmount totals amount).amount windowId
      = totals.amount windowId + (if amount.windowId = windowId then amount.amount else 0) := by
  unfold addAmount ReservedAmounts.amount
  rw [OrderedMap.get?_upsert]
  by_cases hwindow : windowId = amount.windowId
  · subst hwindow
    simp
  · simp [hwindow, Ne.symm hwindow]

theorem amount_foldl_addAmount (amounts : List WindowAmount) (totals : ReservedAmounts)
    (windowId : String) :
    (amounts.foldl addAmount totals).amount windowId
      = totals.amount windowId + amountIn windowId amounts := by
  induction amounts generalizing totals with
  | nil => simp
  | cons amount rest ih => rw [List.foldl_cons, ih, amount_addAmount, amountIn_cons, add_assoc]

theorem Valid.amount_addReserved (hvalid : Valid host store) {incorporatedEventRefs : List String}
    {rows : List ProviderLimitReservation} {totals result : ReservedAmounts}
    (hadd : store.addReserved host incorporatedEventRefs rows totals = .ok result) (windowId : String) :
    result.amount windowId = totals.amount windowId
      + (rows.map fun row => committed incorporatedEventRefs windowId row
          (store.eventsOf row.reservationId)).sum := by
  induction rows generalizing totals with
  | nil =>
      rw [← Except.ok.inj hadd]
      simp
  | cons row rest ih =>
      obtain ⟨reservation, hverify, hadd⟩ := bind_eq_ok.mp hadd
      obtain ⟨-, rfl⟩ := verifyReservationRow_eq_ok.mp hverify
      obtain ⟨events, hevents, hadd⟩ := bind_eq_ok.mp hadd
      obtain ⟨-, rfl⟩ := eventsFromRows_eq_ok.mp hevents
      obtain ⟨_, -, hadd⟩ := bind_eq_ok.mp hadd
      rw [ih hadd, amount_foldl_addAmount, List.map_cons, List.sum_cons, hvalid.eventsOf_eq,
        (hvalid.chains _).amountIn_heldAmounts, add_assoc]

theorem Valid.amount_activeReservedAmounts (hvalid : Valid host store) {snapshot : ProviderLimitResult}
    {totals : ReservedAmounts}
    (hreserved : store.activeReservedAmounts host snapshot.toProviderLimitSnapshotQuery
      snapshot.source.incorporatedReservationEventRefs = .ok totals) (windowId : String) :
    totals.amount windowId = store.committedIn snapshot windowId := by
  rw [hvalid.amount_addReserved hreserved]
  simp [ReservedAmounts.amount, ProviderLimitStore.committedIn]

/-! ### Judgements -/

/-- What an estimate that is not held back leaves of its window. -/
theorem judgeEstimate_allows {policy : ProviderLimitPolicy} {model : String} {reserved : ReservedAmounts}
    {window : ProviderLimitWindow} {windowRemaining : ℚ} {estimate : WindowAmount}
    (hpositive : 0 < estimate.amount)
    (hjudge : (judgeEstimate policy model reserved window windowRemaining estimate).1 = none) :
    window.unit = estimate.unit
      ∧ reserved.amount estimate.windowId + estimate.amount ≤ windowRemaining
      ∧ ∀ floor ∈ policy.minimumRemaining.floor? estimate.unit,
        floor < windowRemaining - (reserved.amount estimate.windowId + estimate.amount) := by
  dsimp only [judgeEstimate] at hjudge
  split at hjudge
  · cases hjudge
  · next hunit =>
      have hunit : window.unit = estimate.unit := not_not.mp hunit
      split at hjudge
      · cases hjudge
      · split at hjudge
        · cases hjudge
        · next hfits =>
            have hfits : estimate.amount ≤ max 0 (windowRemaining - reserved.amount estimate.windowId) :=
              not_lt.mp hfits
            have hremaining : max 0 (windowRemaining - reserved.amount estimate.windowId)
                = windowRemaining - reserved.amount estimate.windowId := by
              refine max_eq_right ?_
              by_contra hnegative
              rw [max_eq_left (not_le.mp hnegative).le] at hfits
              exact absurd hpositive (not_lt.mpr hfits)
            rw [hremaining] at hfits
            split at hjudge
            · cases hjudge
            · next hblock =>
                refine ⟨hunit, by linarith, fun floor hfloor => ?_⟩
                have hfloor : policy.minimumRemaining.floor? window.unit = some floor := by
                  rw [hunit]
                  exact hfloor
                rw [Bool.or_eq_true, not_or] at hblock
                have habove := hblock.1
                rw [hfloor, Option.any_some, decide_eq_true_eq] at habove
                have habove : ¬max 0 (windowRemaining - reserved.amount estimate.windowId)
                    - estimate.amount ≤ floor := habove
                rw [hremaining] at habove
                linarith

theorem judgeEstimates_allow {snapshot : ProviderLimitResult} {model : String}
    {reserved : ReservedAmounts} {estimates : List WindowAmount} {effectiveRemaining : List (String × ℚ)}
    (hallow : (judgeEstimates snapshot model reserved estimates effectiveRemaining).decision = .allow) :
    ∀ estimate ∈ estimates, ∃ window remaining,
      findWindow snapshot.windows estimate.windowId = some window ∧ window.remaining = some remaining
        ∧ (judgeEstimate snapshot.policy model reserved window remaining estimate).1 = none := by
  induction estimates generalizing effectiveRemaining with
  | nil => simp
  | cons first rest ih =>
      unfold judgeEstimates at hallow
      split at hallow
      · cases hallow
      · next window remaining hfound =>
          obtain ⟨found, hwindow, hmap⟩ := Option.bind_eq_some_iff.mp hfound
          obtain ⟨left, hremaining, hpair⟩ := Option.map_eq_some_iff.mp hmap
          obtain ⟨rfl, rfl⟩ := Prod.mk.inj hpair
          dsimp only at hallow
          split at hallow
          · cases hallow
          · next hnone =>
              refine List.forall_mem_cons.mpr ⟨⟨_, _, hwindow, hremaining, hnone⟩, ih hallow⟩

/-! ### The latest snapshot -/

theorem mem_of_foldl_laterSnapshot {rows : List ProviderLimitResult} {latest : Option ProviderLimitResult}
    {row : ProviderLimitResult} (hlatest : rows.foldl laterSnapshot latest = some row) :
    latest = some row ∨ row ∈ rows := by
  induction rows generalizing latest with
  | nil => exact .inl hlatest
  | cons first rest ih =>
      obtain hfirst | hrest := ih hlatest
      · unfold laterSnapshot at hfirst
        split at hfirst
        · split at hfirst
          · exact .inl hfirst
          · exact .inr (List.mem_cons.mpr (.inl (Option.some.inj hfirst).symm))
        · exact .inr (List.mem_cons.mpr (.inl (Option.some.inj hfirst).symm))
      · exact .inr (List.mem_cons_of_mem _ hrest)

theorem selectLatestSnapshot_scope {query : ProviderLimitSnapshotQuery} {row : ProviderLimitResult}
    (hlatest : store.selectLatestSnapshot query = some row) :
    row.toProviderLimitSnapshotQuery = query := by
  obtain hnone | hmem := mem_of_foldl_laterSnapshot hlatest
  · cases hnone
  · simpa [ProviderLimitSnapshotQuery.covers] using List.of_mem_filter hmem

structure Judges (store : ProviderLimitStore) (resolver : PolicyResolver)
    (query : ProviderLimitSnapshotQuery) (row current : ProviderLimitResult) : Prop where
  latest : store.selectLatestSnapshot query = some row
  policy : resolver query = some current.policy
  limitResultId : current.limitResultId = row.limitResultId
  windows : current.windows = row.windows
  source : current.source = row.source

theorem applyProviderLimitPolicy_eq_ok {result applied : ProviderLimitResult}
    {policy : ProviderLimitPolicy}
    (happly : applyProviderLimitPolicy host.toTruthHost result policy = .ok applied) :
    applied.policy = policy ∧ applied.limitResultId = result.limitResultId
      ∧ applied.windows = result.windows ∧ applied.source = result.source
      ∧ applied.toProviderLimitSnapshotQuery = result.toProviderLimitSnapshotQuery := by
  unfold applyProviderLimitPolicy at happly
  obtain ⟨_, -, happly⟩ := bind_eq_ok.mp happly
  obtain ⟨_, -, happly⟩ := bind_eq_ok.mp happly
  split at happly
  · rw [pure_eq_ok] at happly
    rw [← happly]
    exact ⟨rfl, rfl, rfl, rfl, rfl⟩
  · obtain ⟨_, -, happly⟩ := bind_eq_ok.mp happly
    rw [pure_eq_ok] at happly
    rw [← happly]
    exact ⟨rfl, rfl, rfl, rfl, rfl⟩

theorem materializeProviderLimitResult_eq_ok {result materialized : ProviderLimitResult}
    (hmaterialize : materializeProviderLimitResult host.toTruthHost result now = .ok materialized) :
    materialized.limitResultId = result.limitResultId ∧ materialized.windows = result.windows
      ∧ materialized.source = result.source
      ∧ materialized.toProviderLimitSnapshotQuery = result.toProviderLimitSnapshotQuery := by
  unfold materializeProviderLimitResult at hmaterialize
  obtain ⟨_, -, hmaterialize⟩ := bind_eq_ok.mp hmaterialize
  split at hmaterialize
  · rw [pure_eq_ok] at hmaterialize
    rw [← hmaterialize]
    exact ⟨rfl, rfl, rfl, rfl⟩
  · split at hmaterialize
    · rw [pure_eq_ok] at hmaterialize
      rw [← hmaterialize]
      exact ⟨rfl, rfl, rfl, rfl⟩
    · rw [pure_eq_ok] at hmaterialize
      rw [← hmaterialize]
      exact ⟨rfl, rfl, rfl, rfl⟩

theorem judges_of_currentSnapshot {query : ProviderLimitSnapshotQuery} {current : ProviderLimitResult}
    (hcurrent : store.currentSnapshot host resolver now query = .ok (some current)) :
    ∃ row, Judges store resolver query row current := by
  unfold ProviderLimitStore.currentSnapshot at hcurrent
  split at hcurrent
  · cases hcurrent
  · next row hlatest =>
      obtain ⟨verified, hverify, hcurrent⟩ := bind_eq_ok.mp hcurrent
      obtain ⟨_, -, rfl⟩ := exceptMap_eq_ok.mp hverify
      obtain ⟨materialized, hmaterialize, hcurrent⟩ := bind_eq_ok.mp hcurrent
      obtain ⟨policy, hpolicy, hcurrent⟩ := bind_eq_ok.mp hcurrent
      obtain ⟨applied, happly, hcurrent⟩ := bind_eq_ok.mp hcurrent
      rw [pure_eq_ok] at hcurrent
      obtain rfl := Option.some.inj hcurrent
      obtain ⟨hpolicyEq, happliedId, happliedWindows, happliedSource, -⟩ :=
        applyProviderLimitPolicy_eq_ok happly
      obtain ⟨hid, hwindows, hsource, -⟩ := materializeProviderLimitResult_eq_ok hmaterialize
      refine ⟨row, hlatest, ?_, happliedId.trans hid, happliedWindows.trans hwindows,
        happliedSource.trans hsource⟩
      unfold requirePolicy at hpolicy
      split at hpolicy
      · next found hfound => rw [hfound, hpolicyEq, Except.ok.inj hpolicy]
      · cases hpolicy

/-! ### Admission -/

def Fits (store : ProviderLimitStore) (snapshot : ProviderLimitResult) (policy : ProviderLimitPolicy)
    (estimate : WindowAmount) : Prop :=
  ∃ remaining ∈ snapshot.remaining? estimate.windowId,
    store.committedIn snapshot estimate.windowId ≤ remaining
      ∧ ∀ floor ∈ policy.minimumRemaining.floor? estimate.unit,
        floor < remaining - store.committedIn snapshot estimate.windowId

/-- A reservation that is decided to be allowed. -/
theorem Valid.decideReservation_allow (hvalid : Valid host store)
    {request : ProviderLimitReservationRequest} {reservation : ProviderLimitReservation}
    (hpositive : ∀ estimate ∈ request.estimates, 0 < estimate.amount)
    (hdecide : store.decideReservation host resolver now request = .ok reservation)
    (hallow : reservation.decision = .allow) :
    ∃ row, store.selectLatestSnapshot request.toProviderLimitSnapshotQuery = some row
      ∧ resolver request.toProviderLimitSnapshotQuery = some reservation.appliedPolicy
      ∧ reservation.snapshotEvidenceRef = some (snapshotEvidenceRef row.limitResultId)
      ∧ ∀ estimate ∈ request.estimates, ∃ remaining ∈ row.remaining? estimate.windowId,
        store.committedIn row estimate.windowId + estimate.amount ≤ remaining
          ∧ ∀ floor ∈ reservation.appliedPolicy.minimumRemaining.floor? estimate.unit,
            floor < remaining - (store.committedIn row estimate.windowId + estimate.amount) := by
  unfold ProviderLimitStore.decideReservation at hdecide
  obtain ⟨current?, hcurrent, hdecide⟩ := bind_eq_ok.mp hdecide
  cases current? with
  | none =>
      obtain ⟨policy, -, hdecide⟩ := bind_eq_ok.mp hdecide
      rw [pure_eq_ok] at hdecide
      rw [← hdecide] at hallow
      cases hallow
  | some current =>
      obtain ⟨row, hlatest, hpolicy, hid, hwindows, hsource⟩ := judges_of_currentSnapshot hcurrent
      obtain ⟨verdict, hjudge, hdecide⟩ := bind_eq_ok.mp hdecide
      rw [pure_eq_ok] at hdecide
      rw [← hdecide] at hallow ⊢
      refine ⟨row, hlatest, hpolicy, by rw [hid], fun estimate hestimate => ?_⟩
      have hallow : verdict.decision = .allow := hallow
      unfold ProviderLimitStore.judge at hjudge
      split at hjudge
      · rw [← Except.ok.inj hjudge] at hallow
        cases hallow
      · split at hjudge
        · rw [← Except.ok.inj hjudge] at hallow
          cases hallow
        · split at hjudge
          · rw [← Except.ok.inj hjudge] at hallow
            cases hallow
          · obtain ⟨reserved, hreserved, hjudge⟩ := bind_eq_ok.mp hjudge
            rw [pure_eq_ok] at hjudge
            rw [← hjudge] at hallow
            obtain ⟨window, remaining, hwindow, hremaining, hnone⟩ :=
              judgeEstimates_allow hallow estimate hestimate
            rw [← selectLatestSnapshot_scope hlatest, hsource] at hreserved
            rw [← hvalid.amount_activeReservedAmounts hreserved]
            obtain ⟨-, hfits, hfloor⟩ := judgeEstimate_allows (hpositive estimate hestimate) hnone
            refine ⟨remaining, ?_, hfits, hfloor⟩
            unfold ProviderLimitResult.remaining?
            rw [← hwindows, hwindow]
            exact hremaining

/-! ### What a call commits -/

theorem Valid.eventsOf_fresh (hvalid : Valid host store) {reservationId : String}
    (hfresh : ∀ other ∈ store.reservations, other.reservationId ≠ reservationId) :
    store.eventsOf reservationId = [] := by
  rw [hvalid.eventsOf_eq]
  refine List.filter_eq_nil_iff.mpr fun event hevent hid => ?_
  obtain ⟨owner, howner, howns⟩ := hvalid.owned event hevent
  rw [decide_eq_true_eq] at hid
  exact hfresh owner howner (howns.trans hid)

theorem Reserves.committedIn {row : ProviderLimitReservation} (hreserves : Reserves host store row next)
    (hvalid : Valid host store) (snapshot : ProviderLimitResult) (windowId : String) :
    next.committedIn snapshot windowId = store.committedIn snapshot windowId
      + (if row.toProviderLimitSnapshotQuery = snapshot.toProviderLimitSnapshotQuery
            ∧ row.decision = .allow
          then amountIn windowId row.estimates else 0) := by
  have hnone := hvalid.eventsOf_fresh hreserves.freshId
  rw [hreserves.next_eq]
  unfold ProviderLimitStore.committedIn ProviderLimitStore.activeReservations
  rw [List.filter_append, List.map_append, List.sum_append]
  congr 1
  split
  · next hactive =>
      obtain ⟨hscope, hallow⟩ := hactive
      have hevents : ProviderLimitStore.eventsOf { store with reservations := store.reservations ++ [row] }
          row.reservationId = [] := hnone
      simp [ProviderLimitSnapshotQuery.covers, hscope, hallow, hevents, committed]
  · next hother =>
      have hfilter : (snapshot.toProviderLimitSnapshotQuery.covers row.toProviderLimitSnapshotQuery
          && row.decision = .allow) = false := by
        simpa [ProviderLimitSnapshotQuery.covers] using hother
      rw [List.filter_cons_of_neg (by rw [hfilter]; exact Bool.false_ne_true)]
      rfl

def Overruns (row : ProviderLimitReservation) (event : ProviderLimitReservationEvent) : Prop :=
  ∃ windowId, amountIn windowId row.estimates < amountIn windowId (event.actual.getD [])

theorem committed_concat_le {incorporatedEventRefs : List String} {windowId : String}
    {row : ProviderLimitReservation} {events : List StoredReservationEvent}
    {event : StoredReservationEvent} (hopen : ∀ earlier ∈ events, earlier.type = .dispatched)
    (hestimates : 0 ≤ amountIn windowId row.estimates)
    (hwithin : ¬Overruns row event.toProviderLimitReservationEvent) :
    committed incorporatedEventRefs windowId row (events ++ [event])
      ≤ committed incorporatedEventRefs windowId row events := by
  have hold : committed incorporatedEventRefs windowId row events = amountIn windowId row.estimates := by
    unfold committed
    rw [if_neg, List.find?_eq_none.mpr]
    · intro earlier hearlier
      simp [hopen earlier hearlier]
    · rw [List.any_eq_true]
      rintro ⟨earlier, hearlier, htype⟩
      simp [hopen earlier hearlier] at htype
  rw [hold]
  have hactual : amountIn windowId (event.actual.getD []) ≤ amountIn windowId row.estimates := by
    by_contra hmore
    exact hwithin ⟨windowId, not_le.mp hmore⟩
  unfold committed
  split
  · exact hestimates
  · split
    · exact le_rfl
    · next usage husage =>
        split
        · exact hestimates
        · obtain hearlier | hlast := List.mem_append.mp (List.mem_of_find?_eq_some husage)
          · have htype := List.find?_some husage
            simp [hopen usage hearlier] at htype
          · rw [List.mem_singleton.mp hlast]
            exact hactual

theorem Valid.open_of_follows (hvalid : Valid host store) {reservationId : String}
    {event : ProviderLimitReservationEvent}
    (hfollows : assertFollows (store.eventsOf reservationId).getLast? event = .ok ()) :
    ∀ earlier ∈ store.eventsOf reservationId, earlier.type = .dispatched := by
  obtain ⟨hopen, -, -⟩ := assertFollows_eq_ok hfollows
  have hchain := hvalid.chains reservationId
  rw [← hvalid.eventsOf_eq] at hchain
  obtain ⟨htypes, -⟩ := hchain
  match store.eventsOf reservationId, htypes, hopen with
  | [], _, _ => simp
  | [first], _, hopen => simpa using hopen
  | [first, second], htypes, hopen =>
      have hsecond : second.type = .dispatched := hopen second rfl
      simp [lifecycles, hsecond] at htypes
  | first :: second :: third :: rest, htypes, _ => simp [lifecycles] at htypes

theorem Valid.estimates_nonneg (hvalid : Valid host store) {row : ProviderLimitReservation}
    (hrow : row ∈ store.reservations) (windowId : String) : 0 ≤ amountIn windowId row.estimates :=
  amountIn_nonneg (fun estimate hestimate =>
    ((estimates_of_assert (request_of_assert (hvalid.verified row hrow))).1 estimate hestimate).le) _

theorem Appends.committedIn_le {reservation : ProviderLimitReservation}
    {event : ProviderLimitReservationEvent}
    (happends : Appends host store now reservation event next) (hvalid : Valid host store)
    (snapshot : ProviderLimitResult) (windowId : String)
    (hwithin : reservation.toProviderLimitSnapshotQuery = snapshot.toProviderLimitSnapshotQuery →
      ¬Overruns reservation event) :
    next.committedIn snapshot windowId ≤ store.committedIn snapshot windowId := by
  have hactive : next.activeReservations snapshot.toProviderLimitSnapshotQuery
      = store.activeReservations snapshot.toProviderLimitSnapshotQuery := by
    rw [happends.next_eq]
    rfl
  unfold ProviderLimitStore.committedIn
  rw [hactive]
  refine List.sum_le_sum fun row hrow => ?_
  obtain ⟨hmem, hscope⟩ := List.mem_filter.mp hrow
  have hnext := (happends.valid hvalid).eventsOf_eq row.reservationId
  rw [hnext, happends.next_eq, chain_concat]
  split
  · next hid =>
      have hsame : reservation = row :=
        List.inj_on_of_nodup_map hvalid.ids happends.mem hmem hid
      subst hsame
      rw [← hvalid.eventsOf_eq]
      refine committed_concat_le (hvalid.open_of_follows happends.follows)
        (hvalid.estimates_nonneg hmem windowId) (hwithin ?_)
      simpa [ProviderLimitSnapshotQuery.covers] using (Bool.and_eq_true_iff.mp hscope).1
  · rw [← hvalid.eventsOf_eq]

/-! ### Runs -/

def Covered (store : ProviderLimitStore) (snapshot : ProviderLimitResult) (windowId : String) : Prop :=
  ∃ remaining ∈ snapshot.remaining? windowId, store.committedIn snapshot windowId ≤ remaining

/-- The call brings no newer snapshot of the quota, and no use above an estimate. -/
structure Undisturbed (host : LimitHost) (store : ProviderLimitStore) (snapshot : ProviderLimitResult)
    (turn : LimitTurn) : Prop where
  latest : (store.after host turn).selectLatestSnapshot snapshot.toProviderLimitSnapshotQuery
    = some snapshot
  within : ∀ event ∈ (store.after host turn).events, event ∉ store.events →
    ∀ row ∈ store.reservations, row.reservationId = event.reservationId →
      row.toProviderLimitSnapshotQuery = snapshot.toProviderLimitSnapshotQuery →
      ¬Overruns row event.toProviderLimitReservationEvent

theorem NewReservation.committed_fits {request : ProviderLimitReservationRequest}
    {row : ProviderLimitReservation} (hnew : NewReservation host store resolver now request row next)
    (hrequest : assertProviderLimitReservationRequest host.toTruthHost request = .ok ())
    (hvalid : Valid host store) (hallow : row.decision = .allow) :
    ∃ snapshot, next.selectLatestSnapshot request.toProviderLimitSnapshotQuery = some snapshot
      ∧ row.snapshotEvidenceRef = some (snapshotEvidenceRef snapshot.limitResultId)
      ∧ resolver request.toProviderLimitSnapshotQuery = some row.appliedPolicy
      ∧ ∀ estimate ∈ request.estimates, Fits next snapshot row.appliedPolicy estimate := by
  obtain ⟨hpositive, hnodup⟩ := estimates_of_assert hrequest
  obtain ⟨snapshot, hlatest, hpolicy, href, hestimates⟩ :=
    hvalid.decideReservation_allow hpositive hnew.decided hallow
  have hrow := decideReservation_request hnew.decided
  refine ⟨snapshot, ?_, href, hpolicy, fun estimate hestimate => ?_⟩
  · rw [hnew.reserves.next_eq]
    exact hlatest
  obtain ⟨remaining, hremaining, hfits, hfloor⟩ := hestimates estimate hestimate
  have hcommitted : next.committedIn snapshot estimate.windowId
      = store.committedIn snapshot estimate.windowId + estimate.amount := by
    rw [hnew.reserves.committedIn hvalid, if_pos, hrow, amountIn_of_mem hnodup hestimate]
    rw [hrow]
    exact ⟨(selectLatestSnapshot_scope hlatest).symm, hallow⟩
  rw [← hcommitted] at hfits hfloor
  exact ⟨remaining, hremaining, hfits, hfloor⟩

theorem NewReservation.covered {request : ProviderLimitReservationRequest}
    {row : ProviderLimitReservation} (hnew : NewReservation host store resolver now request row next)
    (hrequest : assertProviderLimitReservationRequest host.toTruthHost request = .ok ())
    (hvalid : Valid host store) {snapshot : ProviderLimitResult} {windowId : String}
    (hlatest : next.selectLatestSnapshot snapshot.toProviderLimitSnapshotQuery = some snapshot)
    (hcovered : Covered store snapshot windowId) : Covered next snapshot windowId := by
  obtain ⟨remaining, hremaining, hbound⟩ := hcovered
  have hrow := decideReservation_request hnew.decided
  have hunchanged (hzero : amountIn windowId row.estimates = 0) : Covered next snapshot windowId := by
    refine ⟨remaining, hremaining, ?_⟩
    rw [hnew.reserves.committedIn hvalid, hzero, ite_self, add_zero]
    exact hbound
  by_cases hactive : row.toProviderLimitSnapshotQuery = snapshot.toProviderLimitSnapshotQuery
      ∧ row.decision = .allow
  · by_cases hwindow : windowId ∈ row.estimates.map (·.windowId)
    · obtain ⟨estimate, hestimate, rfl⟩ := List.mem_map.mp hwindow
      obtain ⟨latest, hnext, -, -, hfits⟩ := hnew.committed_fits hrequest hvalid hactive.2
      have hscope := hactive.1
      rw [hrow] at hscope hestimate
      rw [hscope, hlatest] at hnext
      obtain rfl := Option.some.inj hnext
      obtain ⟨left, hleft, hcommitted, -⟩ := hfits estimate hestimate
      exact ⟨left, hleft, hcommitted⟩
    · exact hunchanged (amountIn_eq_zero hwindow)
  · refine ⟨remaining, hremaining, ?_⟩
    rw [hnew.reserves.committedIn hvalid, if_neg hactive, add_zero]
    exact hbound

theorem Undisturbed.covered {turn : LimitTurn} {snapshot : ProviderLimitResult} {windowId : String}
    (hturn : Undisturbed host store snapshot turn) (hvalid : Valid host store)
    (hcovered : Covered store snapshot windowId) :
    Covered (store.after host turn) snapshot windowId := by
  obtain ⟨hlatest, hwithin⟩ := hturn
  generalize hnext : store.after host turn = next at hlatest hwithin
  have hwrote : Wrote host store next := hnext ▸ wrote_after store turn
  cases hwrote with
  | nothing => exact hcovered
  | snapshot row => exact hcovered
  | reservation now resolver request row _ hrequest hnew =>
      exact hnew.covered hrequest hvalid hlatest hcovered
  | event now reservation event _ happends =>
      obtain ⟨remaining, hremaining, hbound⟩ := hcovered
      refine ⟨remaining, hremaining, ?_⟩
      refine (happends.committedIn_le hvalid snapshot windowId fun hscope => ?_).trans hbound
      have hadded : chainEvent host reservation.reservationId
          (store.eventsOf reservation.reservationId).getLast? event ∈ next.events := by
        rw [happends.next_eq]
        simp
      exact hwithin _ hadded (fun hold => happends.fresh _ hold rfl) reservation happends.mem rfl hscope

theorem covered_foldl {snapshot : ProviderLimitResult} {windowId : String} (between : List LimitTurn)
    (hvalid : Valid host store) (hcovered : Covered store snapshot windowId)
    (hbetween : ∀ earlier turn later, between = earlier ++ turn :: later →
      Undisturbed host (earlier.foldl (ProviderLimitStore.after host) store) snapshot turn) :
    Covered (between.foldl (ProviderLimitStore.after host) store) snapshot windowId := by
  induction between generalizing store with
  | nil => exact hcovered
  | cons turn rest ih =>
      refine ih ((wrote_after store turn).valid hvalid)
        ((hbetween [] turn rest rfl).covered hvalid hcovered) fun earlier later rest hrest => ?_
      exact hbetween (turn :: earlier) later rest (congrArg (turn :: ·) hrest)

/-! ### The contract of a quota -/

/-- What a store owes to the quota that its reservations are of. -/
structure CommitContract (host : LimitHost) (turns : List LimitTurn) : Prop where
  /-- A new reservation that is allowed fits, with all the others, into what the latest snapshot leaves,
  and leaves the floor of the policy. -/
  admits : ∀ before turn after write next request,
    turns = before ++ turn :: after → turn.call = .reserveWithStatus request →
    (storeAfter host before).perform host turn = .ok (.reserved write, next) →
    write.created = true → write.reservation.decision = .allow →
    ∃ snapshot, next.selectLatestSnapshot request.toProviderLimitSnapshotQuery = some snapshot
      ∧ write.reservation.snapshotEvidenceRef = some (snapshotEvidenceRef snapshot.limitResultId)
      ∧ turn.resolver request.toProviderLimitSnapshotQuery = some write.reservation.appliedPolicy
      ∧ ∀ estimate ∈ request.estimates,
        Fits next snapshot write.reservation.appliedPolicy estimate
  /-- All of it still fits after any further calls, until a newer snapshot or a use above an estimate. -/
  stays : ∀ before turn between after write next request snapshot,
    turns = before ++ turn :: between ++ after → turn.call = .reserveWithStatus request →
    (storeAfter host before).perform host turn = .ok (.reserved write, next) →
    write.created = true → write.reservation.decision = .allow →
    next.selectLatestSnapshot request.toProviderLimitSnapshotQuery = some snapshot →
    (∀ earlier step later, between = earlier ++ step :: later →
      Undisturbed host (storeAfter host (before ++ turn :: earlier)) snapshot step) →
    ∀ estimate ∈ request.estimates,
      Covered (storeAfter host (before ++ turn :: between)) snapshot estimate.windowId

theorem newReservation_of_perform {turn : LimitTurn} {request : ProviderLimitReservationRequest}
    {write : ProviderLimitReservationWrite} (hcall : turn.call = .reserveWithStatus request)
    (hperform : store.perform host turn = .ok (.reserved write, next)) (hcreated : write.created = true) :
    assertProviderLimitReservationRequest host.toTruthHost request = .ok ()
      ∧ NewReservation host store turn.resolver turn.now request write.reservation next := by
  unfold ProviderLimitStore.perform at hperform
  rw [hcall] at hperform
  obtain ⟨answer, hreserve, hanswer⟩ := exceptMap_eq_ok.mp hperform
  obtain ⟨hwrite, rfl⟩ := Prod.mk.inj hanswer
  obtain rfl := LimitAnswer.reserved.inj hwrite
  obtain ⟨hrequest, -, ⟨hreplayed, -⟩ | ⟨-, hnew⟩⟩ := reserveWithStatus_eq_ok hreserve
  · rw [hreplayed] at hcreated
    cases hcreated
  · exact ⟨hrequest, hnew⟩

/-- Whatever is called, no quota is committed beyond what is left of it. -/
theorem providerLimit_neverOvercommits (host : LimitHost) (turns : List LimitTurn) :
    CommitContract host turns := by
  constructor
  case admits =>
    rintro before turn after write next request - hcall hperform hcreated hallow
    obtain ⟨hrequest, hnew⟩ := newReservation_of_perform hcall hperform hcreated
    exact hnew.committed_fits hrequest (valid_storeAfter before) hallow
  case stays =>
    rintro before turn between after write next request snapshot - hcall hperform hcreated hallow
      hlatest hbetween estimate hestimate
    obtain ⟨hrequest, hnew⟩ := newReservation_of_perform hcall hperform hcreated
    have hnext := after_of_perform hperform
    obtain ⟨found, hfound, -, -, hfits⟩ := hnew.committed_fits hrequest (valid_storeAfter before) hallow
    rw [hlatest] at hfound
    obtain rfl := Option.some.inj hfound
    obtain ⟨remaining, hremaining, hbound, -⟩ := hfits estimate hestimate
    rw [storeAfter_append, List.foldl_cons, hnext]
    refine covered_foldl between ?_ ⟨remaining, hremaining, hbound⟩ fun earlier step later hsplit => ?_
    · exact (wrote_of_perform hperform).valid (valid_storeAfter before)
    · have hstep := hbetween earlier step later hsplit
      rwa [storeAfter_append, List.foldl_cons, hnext] at hstep

/-! ### A reserve that is repeated -/

def sampleHash : String := "e8ff6ce01e464ab1a05896d4ca403f47d111111283a41706c8f9865896c74636"

def sampleHost : LimitHost where
  runtime := ⟨fun _ => "", fun _ _ => 0⟩
  sha256 := fun _ => sampleHash
  nfc := fun text => text
  isLegacyModel := fun _ => false
  verifiesTermination := fun _ _ _ _ => true
  eventHash := fun _ _ _ _ => sampleHash

def sampleScope : ProviderLimitSnapshotQuery := ⟨"acme", "openai", none, sampleHash, .local⟩

def samplePolicy : ProviderLimitPolicy :=
  ⟨"policy:quota-01", none, 1 / 2, 1, ⟨none, none, some 5, none, none⟩⟩

def sampleSnapshot : ProviderLimitResult where
  toProviderLimitSnapshotQuery := sampleScope
  schemaVersion := 1
  limitResultId := "limit-result-1"
  idempotencyKey := "limit-result-1"
  projectId := "web"
  backend := ⟨.cli, .tmux, none⟩
  state := .known
  decision := .allow
  pressure := .ok
  reasonCode := .none
  requiredWindowIds := ["weekly"]
  windows := [⟨"weekly", .weekAll, none, .tokens, some 0, some 100, some 100, ⟨false, none, none⟩⟩]
  policy := samplePolicy
  source := ⟨.providerCli, .authoritative, none, "evidence:limit-01", some 0, some 1000, []⟩
  evidenceRefs := []

def sampleRequest : ProviderLimitReservationRequest where
  toProviderLimitSnapshotQuery := sampleScope
  projectId := "web"
  reservationId := "r1"
  idempotencyKey := "r1"
  runId := "run"
  taskId := none
  callId := "call"
  attemptId := "1"
  fenceTokenHash := sampleHash
  receiptRef := "receipt:call-0001"
  reachabilityEvidenceRef := "evidence:reach-01"
  model := "gpt-5"
  backend := ⟨.cli, .tmux, none⟩
  estimates := [⟨"weekly", .tokens, 10⟩]
  estimateEvidenceRefs := ["evidence:estimate"]
  leaseExpiresAt := some 500
  requestedAt := some 0

def sampleReservation : ProviderLimitReservation where
  toProviderLimitReservationRequest := sampleRequest
  snapshotEvidenceRef := some "provider-limit:limit-result-1"
  decision := .allow
  reasonCode := .allowed
  effectiveRemaining := [("weekly", 100)]
  appliedPolicy := samplePolicy

def sampleTurn (call : LimitCall) : LimitTurn := ⟨10, fun _ => some samplePolicy, call⟩

def sampleDispatch : ProviderLimitReservationEvent :=
  ⟨"e1", .dispatched, some 10, sampleHash, "evidence:event-01", none, none, none⟩

def sampleUsage : ProviderLimitReservationEvent :=
  ⟨"e2", .consumed, some 10, sampleHash, "evidence:event-02", none, none,
    some [⟨"weekly", .tokens, 120⟩]⟩

/-- Ten tokens are reserved, and a hundred and twenty of a hundred are used. -/
def sampleTurns : List LimitTurn :=
  [.putSnapshot sampleSnapshot, .reserveWithStatus sampleRequest,
    .appendReservationEventWithStatus ⟨sampleScope, "web"⟩ "r1" sampleDispatch,
    .appendReservationEventWithStatus ⟨sampleScope, "web"⟩ "r1" sampleUsage].map sampleTurn

def sampleStore : ProviderLimitStore :=
  ⟨[sampleSnapshot], [sampleReservation],
    [⟨sampleDispatch, "r1", 1, none, sampleHash⟩, ⟨sampleUsage, "r1", 2, some sampleHash, sampleHash⟩]⟩

theorem storeAfter_sampleTurns : storeAfter sampleHost sampleTurns = sampleStore := by decide +kernel

/-- A request that is repeated is allowed again, whatever is left. -/
theorem reserve_replayed_uncovered :
    (storeAfter sampleHost sampleTurns).perform sampleHost (sampleTurn (.reserveWithStatus sampleRequest))
        = .ok (.reserved ⟨sampleReservation, false⟩, storeAfter sampleHost sampleTurns)
      ∧ sampleReservation.decision = .allow
      ∧ sampleReservation.snapshotEvidenceRef
        = some (snapshotEvidenceRef sampleSnapshot.limitResultId)
      ∧ (storeAfter sampleHost sampleTurns).selectLatestSnapshot sampleScope = some sampleSnapshot
      ∧ ¬Covered (storeAfter sampleHost sampleTurns) sampleSnapshot "weekly" := by
  have hvalid : Valid sampleHost (storeAfter sampleHost sampleTurns) := valid_storeAfter sampleTurns
  rw [storeAfter_sampleTurns] at hvalid ⊢
  have hrow : sampleReservation ∈ sampleStore.reservations := List.mem_singleton_self _
  refine ⟨?_, rfl, by decide +kernel, by decide +kernel, ?_⟩
  · exact exceptMap_eq_ok.mpr
      ⟨_, hvalid.reserve_again (request_of_assert (hvalid.verified _ hrow)) hrow rfl, rfl⟩
  · rintro ⟨remaining, hremaining, hbound⟩
    have hleft : sampleSnapshot.remaining? "weekly" = some 100 := by decide +kernel
    have hcommitted : sampleStore.committedIn sampleSnapshot "weekly" = 120 := by decide +kernel
    rw [hleft] at hremaining
    rw [hcommitted, ← Option.some.inj hremaining] at hbound
    exact absurd hbound (by norm_num)

end Deckent.ProviderLimit
