import Deckent.Proof.ProviderLimitCommit

/-!
# The gate of a reservation

A snapshot is judged by its windows, and a reservation by what it would leave of them. The two judge alike,
but for the ratios of a policy that only observes them: a reservation is held back by those too.
-/

namespace Deckent.ProviderLimit

variable {host : LimitHost} {store next : ProviderLimitStore} {now : Int} {resolver : PolicyResolver}

/-! ### What a policy holds back -/

def ProviderLimitPolicy.reachesFloor (policy : ProviderLimitPolicy) (window : ProviderLimitWindow) :
    Prop :=
  ∃ floor ∈ policy.minimumRemaining.floor? window.unit, window.remaining.getD 0 ≤ floor

def ProviderLimitPolicy.reachesRatio (policy : ProviderLimitPolicy) (window : ProviderLimitWindow) :
    Prop :=
  policy.blockAtRatio ≤ window.consumed.getD 0 / window.limit.getD 1

def ProviderLimitPolicy.enforcesRatios (policy : ProviderLimitPolicy) : Prop :=
  policy.ratioEnforcement.getD .enforce = .enforce

theorem any_floor_iff (policy : ProviderLimitPolicy) (window : ProviderLimitWindow) :
    ((policy.minimumRemaining.floor? window.unit).any (window.remaining.getD 0 ≤ ·)) = true
      ↔ policy.reachesFloor window := by
  simp [ProviderLimitPolicy.reachesFloor, Option.any_eq_true]

theorem evaluateRequired_hold_iff {policy : ProviderLimitPolicy} {windows : List ProviderLimitWindow}
    {pressure : ProviderLimitPressure} :
    (evaluateRequired policy windows pressure).decision = .hold
      ↔ ∃ window ∈ windows, policy.reachesFloor window
        ∨ policy.enforcesRatios ∧ policy.reachesRatio window := by
  induction windows generalizing pressure with
  | nil => simp [evaluateRequired]
  | cons window rest ih =>
      rw [List.exists_mem_cons_iff]
      dsimp only [evaluateRequired]
      by_cases hfloor : policy.reachesFloor window
      · rw [if_pos ((any_floor_iff policy window).mpr hfloor)]
        exact iff_of_true rfl (.inl (.inl hfloor))
      · rw [if_neg fun hany => hfloor ((any_floor_iff policy window).mp hany)]
        by_cases hratio : policy.blockAtRatio ≤ window.consumed.getD 0 / window.limit.getD 1
        · have hreaches : policy.reachesRatio window := hratio
          rw [if_pos hratio]
          by_cases henforce : policy.ratioEnforcement.getD .enforce = .enforce
          · have henforces : policy.enforcesRatios := henforce
            rw [if_pos henforce]
            exact iff_of_true rfl (.inl (.inr ⟨henforces, hreaches⟩))
          · have hobserves : ¬policy.enforcesRatios := henforce
            rw [if_neg henforce, ih]
            simp [hfloor, hobserves]
        · have hbelow : ¬policy.reachesRatio window := hratio
          rw [if_neg hratio, ih]
          simp [hfloor, hbelow]

/-! ### The windows that a reservation would leave -/

def ProviderLimitWindow.used (window : ProviderLimitWindow) (amount : ℚ) : ProviderLimitWindow :=
  { window with
    consumed := window.consumed.map (· + amount)
    remaining := window.remaining.map (· - amount) }

/-- The windows of a snapshot, with all used of them that is committed or estimated. -/
def ProviderLimitStore.projectedWindows (store : ProviderLimitStore) (snapshot : ProviderLimitResult)
    (estimates : List WindowAmount) : List ProviderLimitWindow :=
  snapshot.windows.map fun window =>
    window.used (store.committedIn snapshot window.windowId + amountIn window.windowId estimates)

theorem findWindow_eq_some {windows : List ProviderLimitWindow} {windowId : String}
    {window : ProviderLimitWindow} (hfind : findWindow windows windowId = some window) :
    window ∈ windows ∧ window.windowId = windowId := by
  refine ⟨List.mem_reverse.mp (List.mem_of_find?_eq_some hfind), ?_⟩
  simpa using List.find?_some hfind

theorem findWindow_projectedWindows (snapshot : ProviderLimitResult) (estimates : List WindowAmount)
    (windowId : String) :
    findWindow (store.projectedWindows snapshot estimates) windowId
      = (findWindow snapshot.windows windowId).map fun window =>
        window.used (store.committedIn snapshot window.windowId
          + amountIn window.windowId estimates) := by
  unfold findWindow ProviderLimitStore.projectedWindows
  rw [← List.map_reverse, List.find?_map]
  rfl

theorem isComplete_used (window : ProviderLimitWindow) (amount : ℚ) :
    isComplete (window.used amount) = isComplete window := by
  simp [isComplete, ProviderLimitWindow.used]

/-! ### The gate -/

structure Sufficient (store : ProviderLimitStore) (snapshot : ProviderLimitResult) (model : String)
    (estimate : WindowAmount) (window : ProviderLimitWindow) (consumed remaining limit : ℚ) : Prop where
  found : findWindow snapshot.windows estimate.windowId = some window
  unit : window.unit = estimate.unit
  model : window.model = none ∨ window.model = some model
  consumed_eq : window.consumed = some consumed
  remaining_eq : window.remaining = some remaining
  limit_eq : window.limit = some limit
  adds : consumed + remaining = limit
  enough : estimate.amount ≤ remaining - store.committedIn snapshot estimate.windowId

/-- A request that gets as far as the policy: the snapshot is known, authoritative and itself allowed, it
outlives the lease, and the estimates are of its required windows, with enough left in each. -/
structure ReachesPolicy (store : ProviderLimitStore) (snapshot : ProviderLimitResult)
    (request : ProviderLimitReservationRequest) : Prop where
  known : snapshot.state = .known
  authoritative : snapshot.source.authority = .authoritative
  allowed : snapshot.decision = .allow
  lease : Timestamp.ms request.leaseExpiresAt ≤ Timestamp.ms snapshot.source.expiresAt
  length_eq : request.estimates.length = snapshot.requiredWindowIds.length
  required : ∀ estimate ∈ request.estimates, estimate.windowId ∈ snapshot.requiredWindowIds
  sufficient : ∀ estimate ∈ request.estimates, ∃ window consumed remaining limit,
    Sufficient store snapshot request.model estimate window consumed remaining limit

/-- What the estimate would leave of its window. -/
def ProviderLimitStore.leaves (store : ProviderLimitStore) (snapshot : ProviderLimitResult)
    (estimate : WindowAmount) (window : ProviderLimitWindow) : ProviderLimitWindow :=
  window.used (store.committedIn snapshot estimate.windowId + estimate.amount)

theorem Sufficient.projectedRatio_eq {snapshot : ProviderLimitResult} {model : String}
    {estimate : WindowAmount} {window : ProviderLimitWindow} {consumed remaining limit : ℚ}
    (hsufficient : Sufficient store snapshot model estimate window consumed remaining limit)
    (hcomplete : isComplete window = true) (policy : ProviderLimitPolicy) :
    (projectedRatio window.limit
        (remaining - store.committedIn snapshot estimate.windowId - estimate.amount)).any
          (policy.blockAtRatio ≤ ·) = true
      ↔ policy.reachesRatio (store.leaves snapshot estimate window) := by
  have hlimit : 0 < limit := by
    have hlimit := (Bool.and_eq_true_iff.mp hcomplete).2
    rw [hsufficient.limit_eq] at hlimit
    simpa using hlimit
  have hconsumed : limit - (remaining - store.committedIn snapshot estimate.windowId - estimate.amount)
      = consumed + (store.committedIn snapshot estimate.windowId + estimate.amount) := by
    rw [← hsufficient.adds]
    ring
  rw [hsufficient.limit_eq, projectedRatio, Option.bind_some, if_neg (not_le.mpr hlimit), Option.any_some,
    decide_eq_true_eq, hconsumed]
  simp [ProviderLimitPolicy.reachesRatio, ProviderLimitStore.leaves, ProviderLimitWindow.used,
    hsufficient.consumed_eq, hsufficient.limit_eq]

theorem Sufficient.judgeEstimate_eq {snapshot : ProviderLimitResult} {model : String}
    {estimate : WindowAmount} {window : ProviderLimitWindow} {consumed remaining limit : ℚ}
    {reserved : ReservedAmounts}
    (hsufficient : Sufficient store snapshot model estimate window consumed remaining limit)
    (hcomplete : isComplete window = true) (hpositive : 0 < estimate.amount)
    (hreserved : reserved.amount estimate.windowId = store.committedIn snapshot estimate.windowId)
    (policy : ProviderLimitPolicy) :
    (policy.reachesFloor (store.leaves snapshot estimate window)
        ∨ policy.reachesRatio (store.leaves snapshot estimate window))
        ∧ (judgeEstimate policy model reserved window remaining estimate).1 = some .policyBlock
      ∨ ¬(policy.reachesFloor (store.leaves snapshot estimate window)
        ∨ policy.reachesRatio (store.leaves snapshot estimate window))
        ∧ (judgeEstimate policy model reserved window remaining estimate).1 = none := by
  have henough := hsufficient.enough
  have hremaining : max 0 (remaining - (reserved.get? estimate.windowId).getD 0)
      = remaining - store.committedIn snapshot estimate.windowId := by
    rw [← hreserved]
    refine max_eq_right ?_
    rw [← hreserved] at henough
    exact (hpositive.trans_le henough).le
  have hmodel : ¬(window.model.isSome = true ∧ window.model ≠ some model) := by
    obtain hmodel | hmodel := hsufficient.model
    · simp [hmodel]
    · simp [hmodel]
  have hfloor : ((policy.minimumRemaining.floor? window.unit).any
        (remaining - store.committedIn snapshot estimate.windowId - estimate.amount ≤ ·)) = true
      ↔ policy.reachesFloor (store.leaves snapshot estimate window) := by
    rw [← any_floor_iff]
    simp [ProviderLimitStore.leaves, ProviderLimitWindow.used, hsufficient.remaining_eq, sub_sub]
  have hratio := hsufficient.projectedRatio_eq hcomplete policy
  dsimp only [judgeEstimate]
  rw [if_neg (not_not.mpr hsufficient.unit), if_neg hmodel, hremaining, if_neg (not_lt.mpr henough)]
  by_cases hblocked : policy.reachesFloor (store.leaves snapshot estimate window)
      ∨ policy.reachesRatio (store.leaves snapshot estimate window)
  · refine .inl ⟨hblocked, ?_⟩
    rw [if_pos (Bool.or_eq_true_iff.mpr (hblocked.imp hfloor.mpr hratio.mpr))]
  · refine .inr ⟨hblocked, ?_⟩
    rw [if_neg fun hany => hblocked ((Bool.or_eq_true_iff.mp hany).imp hfloor.mp hratio.mp)]

theorem judgeEstimates_policyBlock_iff {snapshot : ProviderLimitResult} {model : String}
    {reserved : ReservedAmounts} {estimates : List WindowAmount}
    (hpositive : ∀ estimate ∈ estimates, 0 < estimate.amount)
    (hreserved : ∀ windowId, reserved.amount windowId = store.committedIn snapshot windowId)
    (hsufficient : ∀ estimate ∈ estimates, ∃ window consumed remaining limit,
      Sufficient store snapshot model estimate window consumed remaining limit
        ∧ isComplete window = true)
    (effectiveRemaining : List (String × ℚ)) :
    (judgeEstimates snapshot model reserved estimates effectiveRemaining).reasonCode = .policyBlock
      ↔ ∃ estimate ∈ estimates, ∃ window, findWindow snapshot.windows estimate.windowId = some window
        ∧ (snapshot.policy.reachesFloor (store.leaves snapshot estimate window)
          ∨ snapshot.policy.reachesRatio (store.leaves snapshot estimate window)) := by
  induction estimates generalizing effectiveRemaining with
  | nil => simp [judgeEstimates]
  | cons estimate rest ih =>
      obtain ⟨hfirst, hpositive⟩ := List.forall_mem_cons.mp hpositive
      obtain ⟨⟨window, consumed, remaining, limit, hwindow, hcomplete⟩, hsufficient⟩ :=
        List.forall_mem_cons.mp hsufficient
      rw [List.exists_mem_cons_iff]
      have hfound : ((findWindow snapshot.windows estimate.windowId).bind fun window =>
          window.remaining.map fun remaining => (window, remaining)) = some (window, remaining) := by
        rw [hwindow.found, Option.bind_some, hwindow.remaining_eq, Option.map_some]
      unfold judgeEstimates
      rw [hfound]
      dsimp only
      obtain ⟨hblocked, hjudge⟩ | ⟨hfree, hjudge⟩ :=
        hwindow.judgeEstimate_eq hcomplete hfirst (hreserved _) snapshot.policy
      · rw [hjudge]
        exact iff_of_true rfl (.inl ⟨window, hwindow.found, hblocked⟩)
      · rw [hjudge]
        refine (ih hpositive hsufficient _).trans ⟨.inr, fun hblocked => hblocked.resolve_left ?_⟩
        rintro ⟨found, hfound, hblocked⟩
        rw [hwindow.found] at hfound
        exact hfree (Option.some.inj hfound ▸ hblocked)

/-! ### The two gates -/

theorem decision_of_currentSnapshot {query : ProviderLimitSnapshotQuery} {snapshot : ProviderLimitResult}
    (hcurrent : store.currentSnapshot host resolver now query = .ok (some snapshot))
    (hknown : snapshot.state = .known) (hauthoritative : snapshot.source.authority = .authoritative) :
    snapshot.decision = (evaluateKnownWindows snapshot.windows snapshot.requiredWindowIds
      snapshot.policy).decision := by
  unfold ProviderLimitStore.currentSnapshot at hcurrent
  split at hcurrent
  · cases hcurrent
  · obtain ⟨_, -, hcurrent⟩ := bind_eq_ok.mp hcurrent
    obtain ⟨materialized, -, hcurrent⟩ := bind_eq_ok.mp hcurrent
    obtain ⟨policy, -, hcurrent⟩ := bind_eq_ok.mp hcurrent
    obtain ⟨applied, happly, hcurrent⟩ := bind_eq_ok.mp hcurrent
    rw [pure_eq_ok] at hcurrent
    obtain rfl := Option.some.inj hcurrent
    unfold applyProviderLimitPolicy at happly
    obtain ⟨_, -, happly⟩ := bind_eq_ok.mp happly
    obtain ⟨_, -, happly⟩ := bind_eq_ok.mp happly
    split at happly
    · next hunusable =>
        rw [pure_eq_ok] at happly
        rw [← happly] at hknown hauthoritative
        exact absurd hunusable (not_or.mpr ⟨not_not.mpr hknown, not_not.mpr hauthoritative⟩)
    · obtain ⟨_, -, happly⟩ := bind_eq_ok.mp happly
      rw [pure_eq_ok] at happly
      rw [← happly]
      rfl

theorem scope_of_currentSnapshot {query : ProviderLimitSnapshotQuery} {snapshot : ProviderLimitResult}
    (hcurrent : store.currentSnapshot host resolver now query = .ok (some snapshot)) :
    snapshot.toProviderLimitSnapshotQuery = query := by
  unfold ProviderLimitStore.currentSnapshot at hcurrent
  split at hcurrent
  · cases hcurrent
  · next row hlatest =>
      obtain ⟨verified, hverify, hcurrent⟩ := bind_eq_ok.mp hcurrent
      obtain ⟨_, -, rfl⟩ := exceptMap_eq_ok.mp hverify
      obtain ⟨materialized, hmaterialize, hcurrent⟩ := bind_eq_ok.mp hcurrent
      obtain ⟨policy, -, hcurrent⟩ := bind_eq_ok.mp hcurrent
      obtain ⟨applied, happly, hcurrent⟩ := bind_eq_ok.mp hcurrent
      rw [pure_eq_ok] at hcurrent
      obtain rfl := Option.some.inj hcurrent
      obtain ⟨-, -, -, -, happlied⟩ := applyProviderLimitPolicy_eq_ok happly
      obtain ⟨-, -, -, hmaterialized⟩ := materializeProviderLimitResult_eq_ok hmaterialize
      rw [happlied, hmaterialized, selectLatestSnapshot_scope hlatest]

theorem required_of_evaluateKnownWindows {windows : List ProviderLimitWindow}
    {requiredWindowIds : List String} {policy : ProviderLimitPolicy}
    (hallow : (evaluateKnownWindows windows requiredWindowIds policy).decision = .allow) :
    requiredWindowIds ≠ []
      ∧ ∀ id ∈ requiredWindowIds, (findWindow windows id).any isComplete = true := by
  unfold evaluateKnownWindows at hallow
  split at hallow
  · cases hallow
  · next hcomplete =>
      rw [Bool.or_eq_true, not_or] at hcomplete
      refine ⟨by simpa using hcomplete.1, fun id hid => ?_⟩
      by_contra hincomplete
      exact hcomplete.2 (List.any_eq_true.mpr ⟨id, hid, by simpa using hincomplete⟩)

theorem evaluateKnownWindows_hold_iff {windows : List ProviderLimitWindow}
    {requiredWindowIds : List String} {policy : ProviderLimitPolicy} (hrequired : requiredWindowIds ≠ [])
    (hcomplete : ∀ id ∈ requiredWindowIds, (findWindow windows id).any isComplete = true) :
    (evaluateKnownWindows windows requiredWindowIds policy).decision = .hold
      ↔ ∃ id ∈ requiredWindowIds, ∃ window, findWindow windows id = some window
        ∧ (policy.reachesFloor window ∨ policy.enforcesRatios ∧ policy.reachesRatio window) := by
  unfold evaluateKnownWindows
  rw [if_neg, evaluateRequired_hold_iff]
  · simp only [List.mem_filterMap]
    constructor
    · rintro ⟨window, ⟨id, hid, hfind⟩, hheld⟩
      exact ⟨id, hid, window, hfind, hheld⟩
    · rintro ⟨id, hid, window, hfind, hheld⟩
      exact ⟨window, ⟨id, hid, hfind⟩, hheld⟩
  · rw [Bool.or_eq_true, not_or]
    refine ⟨by simpa using hrequired, fun hany => ?_⟩
    obtain ⟨id, hid, hincomplete⟩ := List.any_eq_true.mp hany
    rw [hcomplete id hid] at hincomplete
    cases hincomplete

theorem ReachesPolicy.mem_required_iff {snapshot : ProviderLimitResult}
    {request : ProviderLimitReservationRequest} (hreaches : ReachesPolicy store snapshot request)
    (hnodup : (request.estimates.map (·.windowId)).Nodup) (id : String) :
    id ∈ snapshot.requiredWindowIds ↔ ∃ estimate ∈ request.estimates, estimate.windowId = id := by
  have hsubset : request.estimates.map (·.windowId) ⊆ snapshot.requiredWindowIds := by
    intro windowId hwindow
    obtain ⟨estimate, hestimate, rfl⟩ := List.mem_map.mp hwindow
    exact hreaches.required estimate hestimate
  have hperm : (request.estimates.map (·.windowId)).Perm snapshot.requiredWindowIds := by
    refine (hnodup.subperm hsubset).perm_of_length_le ?_
    rw [List.length_map, hreaches.length_eq]
  rw [← hperm.mem_iff, List.mem_map]

/-- The window of a request in what its reservation would leave. -/
def ProviderLimitStore.IsLeft (store : ProviderLimitStore) (snapshot : ProviderLimitResult)
    (request : ProviderLimitReservationRequest) (window : ProviderLimitWindow) : Prop :=
  ∃ id ∈ snapshot.requiredWindowIds,
    findWindow (store.projectedWindows snapshot request.estimates) id = some window

theorem ReachesPolicy.isLeft_iff {snapshot : ProviderLimitResult}
    {request : ProviderLimitReservationRequest} (hreaches : ReachesPolicy store snapshot request)
    (hnodup : (request.estimates.map (·.windowId)).Nodup) (left : ProviderLimitWindow) :
    store.IsLeft snapshot request left ↔ ∃ estimate ∈ request.estimates, ∃ window,
      findWindow snapshot.windows estimate.windowId = some window
        ∧ store.leaves snapshot estimate window = left := by
  have hproject {estimate : WindowAmount} (hestimate : estimate ∈ request.estimates) :
      findWindow (store.projectedWindows snapshot request.estimates) estimate.windowId
        = (findWindow snapshot.windows estimate.windowId).map (store.leaves snapshot estimate) := by
    rw [findWindow_projectedWindows]
    refine Option.map_congr fun window hwindow => ?_
    rw [(findWindow_eq_some hwindow).2, amountIn_of_mem hnodup hestimate]
    rfl
  constructor
  · rintro ⟨id, hid, hfind⟩
    obtain ⟨estimate, hestimate, rfl⟩ := (hreaches.mem_required_iff hnodup id).mp hid
    rw [hproject hestimate] at hfind
    obtain ⟨window, hwindow, hleft⟩ := Option.map_eq_some_iff.mp hfind
    exact ⟨estimate, hestimate, window, hwindow, hleft⟩
  · rintro ⟨estimate, hestimate, window, hwindow, rfl⟩
    refine ⟨estimate.windowId, hreaches.required estimate hestimate, ?_⟩
    rw [hproject hestimate, hwindow, Option.map_some]

theorem ReachesPolicy.projected_hold_iff {snapshot : ProviderLimitResult}
    {request : ProviderLimitReservationRequest} (hreaches : ReachesPolicy store snapshot request)
    {query : ProviderLimitSnapshotQuery}
    (hcurrent : store.currentSnapshot host resolver now query = .ok (some snapshot)) :
    (evaluateKnownWindows (store.projectedWindows snapshot request.estimates)
        snapshot.requiredWindowIds snapshot.policy).decision = .hold
      ↔ ∃ left, store.IsLeft snapshot request left
        ∧ (snapshot.policy.reachesFloor left
          ∨ snapshot.policy.enforcesRatios ∧ snapshot.policy.reachesRatio left) := by
  have hdecision := decision_of_currentSnapshot hcurrent hreaches.known hreaches.authoritative
  rw [hreaches.allowed] at hdecision
  obtain ⟨hrequired, hcomplete⟩ := required_of_evaluateKnownWindows hdecision.symm
  rw [evaluateKnownWindows_hold_iff hrequired]
  · constructor
    · rintro ⟨id, hid, left, hfind, hheld⟩
      exact ⟨left, ⟨id, hid, hfind⟩, hheld⟩
    · rintro ⟨left, ⟨id, hid, hfind⟩, hheld⟩
      exact ⟨id, hid, left, hfind, hheld⟩
  · intro id hid
    have hcomplete := hcomplete id hid
    rw [findWindow_projectedWindows, Option.any_map]
    simpa [isComplete_used, Function.comp_def] using hcomplete

/-- What the store decides about a reservation that gets as far as the policy. -/
theorem ReachesPolicy.policyBlock_iff {snapshot : ProviderLimitResult}
    {request : ProviderLimitReservationRequest} (hreaches : ReachesPolicy store snapshot request)
    (hvalid : Valid host store)
    (hrequest : assertProviderLimitReservationRequest host.toTruthHost request = .ok ())
    (hcurrent : store.currentSnapshot host resolver now request.toProviderLimitSnapshotQuery
      = .ok (some snapshot))
    {reservation : ProviderLimitReservation}
    (hdecide : store.decideReservation host resolver now request = .ok reservation) :
    reservation.reasonCode = .policyBlock
      ↔ ∃ left, store.IsLeft snapshot request left
        ∧ (snapshot.policy.reachesFloor left ∨ snapshot.policy.reachesRatio left) := by
  obtain ⟨hpositive, hnodup⟩ := estimates_of_assert hrequest
  have hdecision := decision_of_currentSnapshot hcurrent hreaches.known hreaches.authoritative
  rw [hreaches.allowed] at hdecision
  obtain ⟨-, hcomplete⟩ := required_of_evaluateKnownWindows hdecision.symm
  have hscope := scope_of_currentSnapshot hcurrent
  unfold ProviderLimitStore.decideReservation at hdecide
  obtain ⟨current, hfound, hdecide⟩ := bind_eq_ok.mp hdecide
  rw [hcurrent] at hfound
  obtain rfl := Except.ok.inj hfound
  obtain ⟨verdict, hjudge, hdecide⟩ := bind_eq_ok.mp hdecide
  rw [pure_eq_ok] at hdecide
  rw [← hdecide]
  unfold ProviderLimitStore.judge at hjudge
  have hscopes : ¬(request.estimates.length ≠ snapshot.requiredWindowIds.length
      ∨ request.estimates.any (fun estimate => !snapshot.requiredWindowIds.contains estimate.windowId)
        = true) := by
    rw [not_or]
    refine ⟨not_not.mpr hreaches.length_eq, fun hany => ?_⟩
    obtain ⟨estimate, hestimate, hmissing⟩ := List.any_eq_true.mp hany
    simp [hreaches.required estimate hestimate] at hmissing
  rw [if_neg (not_or.mpr ⟨not_not.mpr hreaches.known, not_not.mpr hreaches.allowed⟩),
    if_neg (not_lt.mpr hreaches.lease), if_neg hscopes] at hjudge
  obtain ⟨reserved, hreserved, hjudge⟩ := bind_eq_ok.mp hjudge
  rw [pure_eq_ok] at hjudge
  rw [← hscope] at hreserved
  rw [← hjudge]
  have hsufficient : ∀ estimate ∈ request.estimates, ∃ window consumed remaining limit,
      Sufficient store snapshot request.model estimate window consumed remaining limit
        ∧ isComplete window = true := by
    intro estimate hestimate
    obtain ⟨window, consumed, remaining, limit, hwindow⟩ := hreaches.sufficient estimate hestimate
    have hcomplete := hcomplete _ (hreaches.required estimate hestimate)
    rw [hwindow.found, Option.any_some] at hcomplete
    exact ⟨window, consumed, remaining, limit, hwindow, hcomplete⟩
  refine (judgeEstimates_policyBlock_iff hpositive (hvalid.amount_activeReservedAmounts hreserved)
    hsufficient []).trans ?_
  constructor
  · rintro ⟨estimate, hestimate, window, hwindow, hblocked⟩
    exact ⟨_, (hreaches.isLeft_iff hnodup _).mpr ⟨estimate, hestimate, window, hwindow, rfl⟩, hblocked⟩
  · rintro ⟨left, hleft, hblocked⟩
    obtain ⟨estimate, hestimate, window, hwindow, rfl⟩ := (hreaches.isLeft_iff hnodup left).mp hleft
    exact ⟨estimate, hestimate, window, hwindow, hblocked⟩

/-- The two gates agree on a reservation just if the policy enforces its ratios, or a floor is reached, or
no ratio is. -/
theorem reservationGate_agrees_iff (host : LimitHost) (turns : List LimitTurn) (turn : LimitTurn)
    (request : ProviderLimitReservationRequest) (write : ProviderLimitReservationWrite)
    (next : ProviderLimitStore) (snapshot : ProviderLimitResult)
    (hcall : turn.call = .reserveWithStatus request)
    (hperform : (storeAfter host turns).perform host turn = .ok (.reserved write, next))
    (hcreated : write.created = true)
    (hcurrent : (storeAfter host turns).currentSnapshot host turn.resolver turn.now
      request.toProviderLimitSnapshotQuery = .ok (some snapshot))
    (hreaches : ReachesPolicy (storeAfter host turns) snapshot request) :
    (write.reservation.reasonCode = .policyBlock
        ↔ (evaluateKnownWindows ((storeAfter host turns).projectedWindows snapshot request.estimates)
          snapshot.requiredWindowIds snapshot.policy).decision = .hold)
      ↔ snapshot.policy.enforcesRatios
        ∨ (∃ left, (storeAfter host turns).IsLeft snapshot request left
          ∧ snapshot.policy.reachesFloor left)
        ∨ ∀ left, (storeAfter host turns).IsLeft snapshot request left →
          ¬snapshot.policy.reachesRatio left := by
  obtain ⟨hrequest, hnew⟩ := newReservation_of_perform hcall hperform hcreated
  rw [hreaches.policyBlock_iff (valid_storeAfter turns) hrequest hcurrent hnew.decided,
    hreaches.projected_hold_iff hcurrent]
  constructor
  · intro hagree
    by_cases hratio : ∃ left, (storeAfter host turns).IsLeft snapshot request left
        ∧ snapshot.policy.reachesRatio left
    · obtain ⟨left, hleft, hratio⟩ := hratio
      obtain ⟨held, hheld, hfloor | henforces⟩ := hagree.mp ⟨left, hleft, .inr hratio⟩
      · exact .inr (.inl ⟨held, hheld, hfloor⟩)
      · exact .inl henforces.1
    · exact .inr (.inr fun left hleft hreached => hratio ⟨left, hleft, hreached⟩)
  · intro hcondition
    constructor
    · rintro ⟨left, hleft, hblocked⟩
      obtain henforces | ⟨held, hheld, hfloor⟩ | hbelow := hcondition
      · exact ⟨left, hleft, hblocked.imp_right fun hratio => ⟨henforces, hratio⟩⟩
      · exact ⟨held, hheld, .inl hfloor⟩
      · exact ⟨left, hleft, .inl (hblocked.resolve_right (hbelow left hleft))⟩
    · rintro ⟨left, hleft, hheld⟩
      exact ⟨left, hleft, hheld.imp_right fun henforced => henforced.2⟩

/-! ### A ratio that is only observed -/

def observingPolicy : ProviderLimitPolicy :=
  ⟨"policy:quota-01", some .observeOnly, 1 / 4, 1 / 2, ⟨none, none, none, none, none⟩⟩

def observingTurn (call : LimitCall) : LimitTurn := ⟨10, fun _ => some observingPolicy, call⟩

def observedSnapshot : ProviderLimitResult := { sampleSnapshot with policy := observingPolicy }

def largeRequest : ProviderLimitReservationRequest :=
  { sampleRequest with estimates := [⟨"weekly", .tokens, 60⟩] }

def blockedReservation : ProviderLimitReservation where
  toProviderLimitReservationRequest := largeRequest
  snapshotEvidenceRef := some "provider-limit:limit-result-1"
  decision := .hold
  reasonCode := .policyBlock
  effectiveRemaining := [("weekly", 100)]
  appliedPolicy := observingPolicy

def observedTurns : List LimitTurn := [observingTurn (.putSnapshot sampleSnapshot)]

theorem storeAfter_observedTurns :
    storeAfter sampleHost observedTurns = ⟨[observedSnapshot], [], []⟩ := by
  decide +kernel

theorem perform_largeRequest :
    (storeAfter sampleHost observedTurns).perform sampleHost
        (observingTurn (.reserveWithStatus largeRequest))
      = .ok (.reserved ⟨blockedReservation, true⟩, ⟨[observedSnapshot], [blockedReservation], []⟩) := by
  have hwrite : (ProviderLimitStore.reserveWithStatus sampleHost ⟨[observedSnapshot], [], []⟩
      (fun _ => some observingPolicy) 10 largeRequest).toOption
        = some (⟨blockedReservation, true⟩, ⟨[observedSnapshot], [blockedReservation], []⟩) := by
    decide +kernel
  rw [storeAfter_observedTurns]
  exact exceptMap_eq_ok.mpr ⟨_, toOption_eq_some.mp hwrite, rfl⟩

theorem currentSnapshot_observed :
    (storeAfter sampleHost observedTurns).currentSnapshot sampleHost (fun _ => some observingPolicy) 10
      sampleScope = .ok (some observedSnapshot) := by
  refine toOption_eq_some.mp ?_
  rw [storeAfter_observedTurns]
  decide +kernel

theorem reachesPolicy_observed :
    ReachesPolicy (storeAfter sampleHost observedTurns) observedSnapshot largeRequest := by
  have hcommitted : (storeAfter sampleHost observedTurns).committedIn observedSnapshot "weekly" = 0 := by
    rw [storeAfter_observedTurns]
    decide +kernel
  refine ⟨rfl, rfl, rfl, by decide, rfl, by decide, fun estimate hestimate => ?_⟩
  obtain rfl := List.mem_singleton.mp hestimate
  refine ⟨⟨"weekly", .weekAll, none, .tokens, some 0, some 100, some 100, ⟨false, none, none⟩⟩, 0, 100, 100,
    by decide +kernel, rfl, .inl rfl, rfl, rfl, rfl, by norm_num, ?_⟩
  rw [hcommitted]
  norm_num

/-- A reservation is held back by a ratio that its policy only observes. -/
theorem observedRatio_blocks :
    (storeAfter sampleHost observedTurns).perform sampleHost
        (observingTurn (.reserveWithStatus largeRequest))
        = .ok (.reserved ⟨blockedReservation, true⟩, ⟨[observedSnapshot], [blockedReservation], []⟩)
      ∧ (storeAfter sampleHost observedTurns).currentSnapshot sampleHost
        (observingTurn (.reserveWithStatus largeRequest)).resolver 10
        largeRequest.toProviderLimitSnapshotQuery = .ok (some observedSnapshot)
      ∧ ReachesPolicy (storeAfter sampleHost observedTurns) observedSnapshot largeRequest
      ∧ blockedReservation.reasonCode = .policyBlock
      ∧ (evaluateKnownWindows
        ((storeAfter sampleHost observedTurns).projectedWindows observedSnapshot largeRequest.estimates)
        observedSnapshot.requiredWindowIds observedSnapshot.policy).decision = .allow := by
  refine ⟨perform_largeRequest, currentSnapshot_observed, reachesPolicy_observed, rfl, ?_⟩
  rw [storeAfter_observedTurns]
  decide +kernel

/-- The condition, where the ratio is only observed. -/
theorem reservationGate_agrees_iff_observed :
    (blockedReservation.reasonCode = .policyBlock
        ↔ (evaluateKnownWindows
          ((storeAfter sampleHost observedTurns).projectedWindows observedSnapshot largeRequest.estimates)
          observedSnapshot.requiredWindowIds observedSnapshot.policy).decision = .hold)
      ↔ observedSnapshot.policy.enforcesRatios
        ∨ (∃ left, (storeAfter sampleHost observedTurns).IsLeft observedSnapshot largeRequest left
          ∧ observedSnapshot.policy.reachesFloor left)
        ∨ ∀ left, (storeAfter sampleHost observedTurns).IsLeft observedSnapshot largeRequest left →
          ¬observedSnapshot.policy.reachesRatio left :=
  reservationGate_agrees_iff sampleHost observedTurns (observingTurn (.reserveWithStatus largeRequest))
    largeRequest ⟨blockedReservation, true⟩ ⟨[observedSnapshot], [blockedReservation], []⟩
    observedSnapshot rfl perform_largeRequest rfl currentSnapshot_observed reachesPolicy_observed

end Deckent.ProviderLimit
