import Deckent.Lib.OrderedMap
import Deckent.Model.ProviderLimitTruth

/-!
# The store of provider limits

Processes share the store, and each of its calls is one transaction. A process reserves what an invocation
may use, claims the dispatch of the reservation, and settles it with what was used or without. Rows are only
added. A row keeps the record that its text says, and the codes that authenticate it always verify.
-/

namespace Deckent.ProviderLimit

/-! ### Tables -/

structure StoredReservationEvent extends ProviderLimitReservationEvent where
  reservationId : String
  sequence : Nat
  previousHash : Option String
  hash : String
  deriving DecidableEq

/-- The tables, each in the order of its insertions. -/
structure ProviderLimitStore where
  snapshots : List ProviderLimitResult
  reservations : List ProviderLimitReservation
  events : List StoredReservationEvent
  deriving DecidableEq

def ProviderLimitStore.empty : ProviderLimitStore := ⟨[], [], []⟩

structure ProviderLimitReservationQuery extends ProviderLimitSnapshotQuery where
  projectId : String

/-- What the store takes from its host. -/
structure LimitHost extends TruthHost where
  /-- What the authority over terminations has verified, for good. -/
  verifiesTermination : String → String → ProviderLimitReservation → ProviderLimitReservationEvent → Bool
  /-- The code that authenticates an event in its chain. -/
  eventHash : String → Nat → ProviderLimitReservationEvent → Option String → String

def storeError {α : Type} (code : ProviderLimitStoreErrorCode) (message : String) :
    Except ProviderLimitError α :=
  .error (.store code message none)

def integrityFailure {α : Type} (message : String) : Except ProviderLimitError α :=
  storeError .integrityFailure message

def requireStore (condition : Bool) (code : ProviderLimitStoreErrorCode) (message : String) :
    Except ProviderLimitError Unit :=
  if condition then .ok () else storeError code message

def requireIntegrity (condition : Bool) (message : String) : Except ProviderLimitError Unit :=
  requireStore condition .integrityFailure message

section Store

variable (host : LimitHost)

/-! ### Reading -/

def ProviderLimitSnapshotQuery.covers (query row : ProviderLimitSnapshotQuery) : Bool := row = query

def verifySnapshotRow (row : ProviderLimitResult) : Except ProviderLimitError ProviderLimitResult :=
  (assertProviderLimitResult host.toTruthHost row).map fun _ => row

def verifyReservationRow (row : ProviderLimitReservation) :
    Except ProviderLimitError ProviderLimitReservation :=
  (assertProviderLimitReservation host.toTruthHost row).map fun _ => row

def eventFromRow (row : StoredReservationEvent) : Except ProviderLimitError StoredReservationEvent :=
  (assertProviderLimitReservationEvent row.toProviderLimitReservationEvent).map fun _ => row

def eventsFromRows : List StoredReservationEvent →
    Except ProviderLimitError (List StoredReservationEvent)
  | [] => .ok []
  | row :: rest => do
      let first ← eventFromRow row
      let others ← eventsFromRows rest
      return first :: others

def ProviderLimitStore.eventsOf (store : ProviderLimitStore) (reservationId : String) :
    List StoredReservationEvent :=
  sortBy (fun left right => compareNumber left.sequence right.sequence)
    (store.events.filter (·.reservationId = reservationId))

def laterSnapshot (latest : Option ProviderLimitResult) (row : ProviderLimitResult) :
    Option ProviderLimitResult :=
  match latest with
  | some held =>
      if Timestamp.ms row.source.fetchedAt < Timestamp.ms held.source.fetchedAt then some held else some row
  | none => some row

def ProviderLimitStore.selectLatestSnapshot (store : ProviderLimitStore)
    (query : ProviderLimitSnapshotQuery) : Option ProviderLimitResult :=
  (store.snapshots.filter fun row => query.covers row.toProviderLimitSnapshotQuery).foldl
    laterSnapshot none

def ProviderLimitStore.selectReservation (store : ProviderLimitStore)
    (query : ProviderLimitReservationQuery) (reservationId : String) : Option ProviderLimitReservation :=
  store.reservations.find? fun row => row.reservationId = reservationId
    && row.projectId = query.projectId
    && query.toProviderLimitSnapshotQuery.covers row.toProviderLimitSnapshotQuery

def verifyRelease (reservation : ProviderLimitReservation) (event : ProviderLimitReservationEvent)
    (message : String) : Except ProviderLimitError Unit :=
  requireIntegrity (event.type ≠ .released
    || host.verifiesTermination (event.terminationEvidenceRef.getD "")
      (event.terminationAuthorityRef.getD "") reservation event) message

/-- What `assertReservationLifecycle` asks of one event after the one before it. -/
def assertLifecycleEvent (reservation : ProviderLimitReservation) (index : Nat)
    (previous : Option StoredReservationEvent) (event : StoredReservationEvent) :
    Except ProviderLimitError Unit := do
  requireIntegrity (event.sequence = index + 1 && event.previousHash = previous.map (·.hash))
    "Provider limit event chain is not contiguous"
  requireIntegrity (event.fenceTokenHash = reservation.fenceTokenHash
      && Timestamp.ms reservation.requestedAt ≤ Timestamp.ms event.occurredAt
      && !(event.type = .dispatched
        && Timestamp.ms reservation.leaseExpiresAt ≤ Timestamp.ms event.occurredAt)
      && previous.all fun earlier => Timestamp.ms earlier.occurredAt ≤ Timestamp.ms event.occurredAt)
    "Provider limit lifecycle scope is invalid"
  requireIntegrity (!(index = 0 && event.type = .consumed))
    "Provider limit lifecycle consumed before dispatch"
  requireIntegrity (!(index = 1 && (!previous.any (·.type = .dispatched)
      || event.type = .dispatched))) "Provider limit lifecycle transition is invalid"
  verifyRelease host reservation event.toProviderLimitReservationEvent
    "Persisted termination/cancellation evidence is no longer verifiable"

def assertLifecycleEvents (reservation : ProviderLimitReservation) :
    List StoredReservationEvent → Nat → Option StoredReservationEvent → Except ProviderLimitError Unit
  | [], _, _ => .ok ()
  | event :: rest, index, previous => do
      assertLifecycleEvent host reservation index previous event
      assertLifecycleEvents reservation rest (index + 1) (some event)

def assertReservationLifecycle (reservation : ProviderLimitReservation)
    (events : List StoredReservationEvent) : Except ProviderLimitError Unit := do
  requireIntegrity (events.length ≤ 2) "Provider limit lifecycle has excess events"
  assertLifecycleEvents host reservation events 0 none

/-! ### What is reserved -/

def reservationEventRef (eventId : String) : String := "provider-limit-reservation-event:" ++ eventId

def heldAmounts (incorporatedEventRefs : List String) (reservation : ProviderLimitReservation)
    (events : List StoredReservationEvent) : List WindowAmount :=
  match events.getLast? with
  | none => reservation.estimates
  | some terminal =>
      match terminal.type with
      | .released => []
      | .consumed =>
          if incorporatedEventRefs.contains (reservationEventRef terminal.eventId) then []
          else terminal.actual.getD []
      | .dispatched => reservation.estimates

abbrev ReservedAmounts := OrderedMap String ℚ

def addAmount (totals : ReservedAmounts) (amount : WindowAmount) : ReservedAmounts :=
  totals.upsert amount.windowId fun held => held.getD 0 + amount.amount

/-- The loop of `activeReservedAmounts` over the reservations that are allowed. -/
def ProviderLimitStore.addReserved (store : ProviderLimitStore) (incorporatedEventRefs : List String) :
    List ProviderLimitReservation → ReservedAmounts → Except ProviderLimitError ReservedAmounts
  | [], totals => .ok totals
  | row :: rest, totals => do
      let reservation ← verifyReservationRow host row
      let events ← eventsFromRows (store.eventsOf row.reservationId)
      assertReservationLifecycle host reservation events
      store.addReserved incorporatedEventRefs rest
        ((heldAmounts incorporatedEventRefs reservation events).foldl addAmount totals)

def ProviderLimitStore.activeReservations (store : ProviderLimitStore)
    (query : ProviderLimitSnapshotQuery) : List ProviderLimitReservation :=
  store.reservations.filter fun row =>
    query.covers row.toProviderLimitSnapshotQuery && row.decision = .allow

def ProviderLimitStore.activeReservedAmounts (store : ProviderLimitStore)
    (query : ProviderLimitSnapshotQuery) (incorporatedEventRefs : List String) :
    Except ProviderLimitError ReservedAmounts :=
  store.addReserved host incorporatedEventRefs (store.activeReservations query) .empty

/-! ### Snapshots -/

def stripPrefix (text start : String) : Option String :=
  if start.toList.isPrefixOf text.toList then
    some (String.ofList (text.toList.drop start.toList.length))
  else none

/-- An event that a snapshot incorporates is a consumption in its quota, with evidence. -/
def ProviderLimitStore.verifyIncorporatedEvent (store : ProviderLimitStore)
    (snapshot : ProviderLimitResult) (eventRef : String) : Except ProviderLimitError Unit :=
  match stripPrefix eventRef "provider-limit-reservation-event:" with
  | none => integrityFailure "Invalid incorporated reservation event reference"
  | some eventId =>
      match store.events.find? (·.eventId = eventId) with
      | none => integrityFailure "Incorporated reservation event does not exist"
      | some eventRow => do
          let event ← eventFromRow eventRow
          requireIntegrity (event.type = .consumed
              && Timestamp.ms event.occurredAt ≤ Timestamp.ms snapshot.source.fetchedAt)
            "Provider snapshot cannot incorporate this reservation event"
          match store.reservations.find? (·.reservationId = event.reservationId) with
          | none => integrityFailure "Incorporated reservation is missing"
          | some reservationRow => do
              let reservation ← verifyReservationRow host reservationRow
              requireIntegrity
                (reservation.toProviderLimitSnapshotQuery = snapshot.toProviderLimitSnapshotQuery)
                "Incorporated reservation scope mismatch"
              requireIntegrity (snapshot.evidenceRefs.contains event.evidenceRef
                  && snapshot.evidenceRefs.contains reservation.receiptRef)
                "Provider snapshot lacks usage and invocation coverage evidence"

abbrev PolicyResolver := ProviderLimitSnapshotQuery → Option ProviderLimitPolicy

def requirePolicy (resolver : PolicyResolver) (scope : ProviderLimitSnapshotQuery) :
    Except ProviderLimitError ProviderLimitPolicy :=
  match resolver scope with
  | some policy => .ok policy
  | none => integrityFailure "Provider limit policy authority is unavailable"

structure SnapshotWrite where
  evidenceRef : String
  created : Bool

def snapshotEvidenceRef (limitResultId : String) : String := "provider-limit:" ++ limitResultId

/-- `INSERT INTO provider_limit_snapshots`. -/
def ProviderLimitStore.insertSnapshot (store : ProviderLimitStore) (row : ProviderLimitResult) :
    Except ProviderLimitError ProviderLimitStore :=
  if store.snapshots.any (·.limitResultId = row.limitResultId) then
    .error (.sqlite "UNIQUE constraint failed: provider_limit_snapshots.limit_result_id")
  else if store.snapshots.any fun other => other.tenantId = row.tenantId
      && other.provider = row.provider && other.quotaScopeRefHash = row.quotaScopeRefHash
      && other.authMode = row.authMode && other.idempotencyKey = row.idempotencyKey then
    .error (.sqlite ("UNIQUE constraint failed: provider_limit_snapshots.tenant_id, "
      ++ "provider_limit_snapshots.provider, provider_limit_snapshots.quota_scope_ref_hash, "
      ++ "provider_limit_snapshots.auth_mode, provider_limit_snapshots.idempotency_key"))
  else .ok { store with snapshots := store.snapshots ++ [row] }

/-- The transaction of `putSnapshot`. -/
def ProviderLimitStore.writeSnapshot (store : ProviderLimitStore) (authoritative : ProviderLimitResult) :
    Except ProviderLimitError (SnapshotWrite × ProviderLimitStore) := do
  assertAll (store.verifyIncorporatedEvent host authoritative)
    authoritative.source.incorporatedReservationEventRefs
  match store.snapshots.find? fun row =>
      authoritative.toProviderLimitSnapshotQuery.covers row.toProviderLimitSnapshotQuery
        && row.idempotencyKey = authoritative.idempotencyKey with
  | some existing => do
      let persisted ← verifySnapshotRow host existing
      requireStore (persisted.limitResultId = authoritative.limitResultId && existing = authoritative)
        .idempotencyConflict "Provider limit snapshot idempotency conflict"
      return (⟨snapshotEvidenceRef authoritative.limitResultId, false⟩, store)
  | none => do
      let inserted ← store.insertSnapshot authoritative
      return (⟨snapshotEvidenceRef authoritative.limitResultId, true⟩, inserted)

def ProviderLimitStore.putSnapshot (store : ProviderLimitStore) (resolver : PolicyResolver) (now : Int)
    (result : ProviderLimitResult) :
    Except ProviderLimitError (SnapshotWrite × ProviderLimitStore) := do
  requireStore (!(result.state = .stale || result.reasonCode = .evidenceNotYetValid))
    .idempotencyConflict "Read-time limit projections cannot be persisted"
  assertProviderLimitResult host.toTruthHost result
  let policy ← requirePolicy resolver result.toProviderLimitSnapshotQuery
  let authoritative ← applyProviderLimitPolicy host.toTruthHost result policy
  requireIntegrity (Timestamp.ms result.source.fetchedAt ≤ now)
    "Future-dated provider limit evidence cannot be persisted"
  store.writeSnapshot host authoritative

/-! ### Reservations -/

structure ProviderLimitReservationWrite where
  reservation : ProviderLimitReservation
  created : Bool
  deriving DecidableEq

structure ReservationVerdict where
  decision : ProviderLimitDecision
  reasonCode : ProviderLimitReservationReason
  effectiveRemaining : List (String × ℚ)

def projectedRatio (limit : Option ℚ) (projectedRemaining : ℚ) : Option ℚ :=
  limit.bind fun limit => if limit ≤ 0 then none else some ((limit - projectedRemaining) / limit)

def judgeEstimate (policy : ProviderLimitPolicy) (model : String) (reserved : ReservedAmounts)
    (window : ProviderLimitWindow) (windowRemaining : ℚ) (estimate : WindowAmount) :
    Option ProviderLimitReservationReason × Option ℚ :=
  if window.unit ≠ estimate.unit then (some .unitMismatch, none)
  else if window.model.isSome ∧ window.model ≠ some model then (some .modelMismatch, none)
  else
    let remaining := max 0 (windowRemaining - (reserved.get? estimate.windowId).getD 0)
    if remaining < estimate.amount then (some .insufficientRemaining, some remaining)
    else
      let projectedRemaining := remaining - estimate.amount
      if (policy.minimumRemaining.floor? window.unit).any (projectedRemaining ≤ ·)
          || (projectedRatio window.limit projectedRemaining).any (policy.blockAtRatio ≤ ·) then
        (some .policyBlock, some remaining)
      else (none, some remaining)

def judgeEstimates (snapshot : ProviderLimitResult) (model : String) (reserved : ReservedAmounts) :
    List WindowAmount → List (String × ℚ) → ReservationVerdict
  | [], effectiveRemaining => ⟨.allow, .allowed, effectiveRemaining⟩
  | estimate :: rest, effectiveRemaining =>
      match (findWindow snapshot.windows estimate.windowId).bind fun window =>
          window.remaining.map fun remaining => (window, remaining) with
      | none => ⟨.hold, .windowMissing, effectiveRemaining⟩
      | some (window, windowRemaining) =>
          let (reason, remaining) :=
            judgeEstimate snapshot.policy model reserved window windowRemaining estimate
          let effectiveRemaining := effectiveRemaining
            ++ (remaining.map fun remaining => (estimate.windowId, remaining)).toList
          match reason with
          | some reason => ⟨.hold, reason, effectiveRemaining⟩
          | none => judgeEstimates snapshot model reserved rest effectiveRemaining

def ProviderLimitStore.judge (store : ProviderLimitStore) (request : ProviderLimitReservationRequest)
    (snapshot : ProviderLimitResult) : Except ProviderLimitError ReservationVerdict :=
  if snapshot.state ≠ .known ∨ snapshot.decision ≠ .allow then .ok ⟨.hold, .snapshotNotUsable, []⟩
  else if Timestamp.ms snapshot.source.expiresAt < Timestamp.ms request.leaseExpiresAt then
    .ok ⟨.hold, .leaseOutlivesSnapshot, []⟩
  else if request.estimates.length ≠ snapshot.requiredWindowIds.length
      ∨ request.estimates.any (fun estimate => !snapshot.requiredWindowIds.contains estimate.windowId)
    then .ok ⟨.hold, .estimateScopeMismatch, []⟩
  else do
    let reserved ← store.activeReservedAmounts host request.toProviderLimitSnapshotQuery
      snapshot.source.incorporatedReservationEventRefs
    return judgeEstimates snapshot request.model reserved request.estimates []

def ProviderLimitReservationRequest.sameInvocation (request other : ProviderLimitReservationRequest) :
    Bool :=
  request.tenantId = other.tenantId && request.projectId = other.projectId
    && request.runId = other.runId && request.callId = other.callId
    && request.attemptId = other.attemptId

def ProviderLimitReservationRequest.sameKey (request other : ProviderLimitReservationRequest) : Bool :=
  request.tenantId = other.tenantId && request.provider = other.provider
    && request.quotaScopeRefHash = other.quotaScopeRefHash && request.authMode = other.authMode
    && request.idempotencyKey = other.idempotencyKey

def reservationEvidenceRef (reservationId : String) : String :=
  "provider-limit-reservation:" ++ host.sha256 reservationId

/-- `INSERT INTO provider_limit_reservations`. The winner of an invocation is the one that is allowed. -/
def ProviderLimitStore.insertReservation (store : ProviderLimitStore) (row : ProviderLimitReservation) :
    Except ProviderLimitError ProviderLimitStore :=
  if store.reservations.any (·.reservationId = row.reservationId) then
    .error (.sqlite "UNIQUE constraint failed: provider_limit_reservations.reservation_id")
  else if store.reservations.any fun other =>
      other.toProviderLimitReservationRequest.sameKey row.toProviderLimitReservationRequest then
    .error (.sqlite ("UNIQUE constraint failed: provider_limit_reservations.tenant_id, "
      ++ "provider_limit_reservations.provider, provider_limit_reservations.quota_scope_ref_hash, "
      ++ "provider_limit_reservations.auth_mode, provider_limit_reservations.idempotency_key"))
  else if row.decision = .allow then
    match store.reservations.find? fun other => other.decision = .allow
        && other.toProviderLimitReservationRequest.sameInvocation
          row.toProviderLimitReservationRequest with
    | none => .ok { store with reservations := store.reservations ++ [row] }
    | some winnerRow => do
        let winner ← verifyReservationRow host winnerRow
        .error (.store .logicalWinnerExists
          "A provider limit winner already exists for this logical invocation"
          (some (reservationEvidenceRef host winner.reservationId)))
  else .ok { store with reservations := store.reservations ++ [row] }

/-- The snapshot that a request is judged by. -/
def ProviderLimitStore.currentSnapshot (store : ProviderLimitStore) (resolver : PolicyResolver)
    (now : Int) (query : ProviderLimitSnapshotQuery) :
    Except ProviderLimitError (Option ProviderLimitResult) :=
  match store.selectLatestSnapshot query with
  | none => .ok none
  | some row => do
      let verified ← verifySnapshotRow host row
      let materialized ← materializeProviderLimitResult host.toTruthHost verified now
      let policy ← requirePolicy resolver query
      let snapshot ← applyProviderLimitPolicy host.toTruthHost materialized policy
      return some snapshot

def ProviderLimitStore.decideReservation (store : ProviderLimitStore) (resolver : PolicyResolver)
    (now : Int) (request : ProviderLimitReservationRequest) :
    Except ProviderLimitError ProviderLimitReservation := do
  let snapshot ← store.currentSnapshot host resolver now request.toProviderLimitSnapshotQuery
  match snapshot with
  | none => do
      let policy ← requirePolicy resolver request.toProviderLimitSnapshotQuery
      return ⟨request, none, .hold, .snapshotMissing, [], policy⟩
  | some snapshot => do
      let verdict ← store.judge host request snapshot
      return ⟨request, some (snapshotEvidenceRef snapshot.limitResultId), verdict.decision,
        verdict.reasonCode, verdict.effectiveRemaining, snapshot.policy⟩

/-- The transaction of `reserveWithStatus`. -/
def ProviderLimitStore.writeReservation (store : ProviderLimitStore) (resolver : PolicyResolver)
    (now : Int) (request : ProviderLimitReservationRequest) :
    Except ProviderLimitError (ProviderLimitReservationWrite × ProviderLimitStore) :=
  match store.reservations.find? fun row =>
      request.toProviderLimitSnapshotQuery.covers row.toProviderLimitSnapshotQuery
        && row.idempotencyKey = request.idempotencyKey with
  | some existing => do
      let persisted ← verifyReservationRow host existing
      requireStore (persisted.toProviderLimitReservationRequest = request
          && persisted.reservationId = request.reservationId)
        .idempotencyConflict "Provider limit reservation conflict"
      return (⟨persisted, false⟩, store)
  | none => do
      requireIntegrity (Timestamp.ms request.requestedAt ≤ now && now < Timestamp.ms request.leaseExpiresAt)
        "Provider limit reservation lease is not currently valid"
      let reservation ← store.decideReservation host resolver now request
      assertProviderLimitReservation host.toTruthHost reservation
      let inserted ← store.insertReservation host reservation
      return (⟨reservation, true⟩, inserted)

def ProviderLimitStore.reserveWithStatus (store : ProviderLimitStore) (resolver : PolicyResolver)
    (now : Int) (request : ProviderLimitReservationRequest) :
    Except ProviderLimitError (ProviderLimitReservationWrite × ProviderLimitStore) := do
  assertProviderLimitReservationRequest host.toTruthHost request
  store.writeReservation host resolver now request

/-! ### Events of reservations -/

structure ProviderLimitReservationEventWrite where
  event : StoredReservationEvent
  created : Bool
  deriving DecidableEq

def assertFollows (previous : Option StoredReservationEvent) (event : ProviderLimitReservationEvent) :
    Except ProviderLimitError Unit := do
  requireStore (!previous.any fun earlier => earlier.type = .consumed || earlier.type = .released)
    .reservationSettled "Provider limit reservation is already settled"
  requireIntegrity (!(event.type = .consumed && !previous.any (·.type = .dispatched)))
    "Provider usage cannot be consumed before dispatch is durable"
  requireStore (!(event.type = .dispatched && previous.isSome)) .reservationSettled
    "Provider limit reservation is already dispatched"

/-- The event is of its reservation. -/
def assertBelongs (reservation : ProviderLimitReservation) (now : Int)
    (previous : Option StoredReservationEvent) (event : ProviderLimitReservationEvent) :
    Except ProviderLimitError Unit := do
  requireIntegrity (Timestamp.ms reservation.requestedAt ≤ Timestamp.ms event.occurredAt
      && Timestamp.ms event.occurredAt ≤ now
      && (previous.all fun earlier => Timestamp.ms earlier.occurredAt ≤ Timestamp.ms event.occurredAt)
      && !(event.type = .dispatched
        && Timestamp.ms reservation.leaseExpiresAt ≤ Timestamp.ms event.occurredAt))
    "Reservation event timestamp is outside its lease history"
  requireIntegrity (!(event.type = .consumed
      && event.actual.map (·.length) ≠ some reservation.estimates.length))
    "Actual usage must settle every reserved window"
  requireIntegrity (event.fenceTokenHash = reservation.fenceTokenHash)
    "Reservation event fencing token mismatch"
  verifyRelease host reservation event
    "Provider termination/cancellation evidence is not durably verified"
  requireIntegrity ((event.actual.getD []).all fun actual => reservation.estimates.any fun estimate =>
      estimate.windowId = actual.windowId && estimate.unit = actual.unit)
    "Actual usage does not match reserved window scope"

def chainEvent (reservationId : String) (previous : Option StoredReservationEvent)
    (event : ProviderLimitReservationEvent) : StoredReservationEvent where
  toProviderLimitReservationEvent := event
  reservationId := reservationId
  sequence := (previous.map (·.sequence)).getD 0 + 1
  previousHash := previous.map (·.hash)
  hash := host.eventHash reservationId ((previous.map (·.sequence)).getD 0 + 1) event
    (previous.map (·.hash))

def ProviderLimitStore.previousEvent (store : ProviderLimitStore) (reservationId : String) :
    Except ProviderLimitError (Option StoredReservationEvent) :=
  match (store.eventsOf reservationId).getLast? with
  | none => .ok none
  | some row => (eventFromRow row).map some

def ProviderLimitStore.insertEvent (store : ProviderLimitStore) (now : Int)
    (reservation : ProviderLimitReservation) (event : ProviderLimitReservationEvent) :
    Except ProviderLimitError (ProviderLimitReservationEventWrite × ProviderLimitStore) := do
  let previous ← store.previousEvent reservation.reservationId
  assertFollows previous event
  assertBelongs host reservation now previous event
  let row := chainEvent host reservation.reservationId previous event
  return (⟨row, true⟩, { store with events := store.events ++ [row] })

def replayEvent (reservation : ProviderLimitReservation) (duplicate : StoredReservationEvent)
    (event : ProviderLimitReservationEvent) : Except ProviderLimitError StoredReservationEvent := do
  let stored ← eventFromRow duplicate
  requireStore (stored.reservationId = reservation.reservationId
      && stored.toProviderLimitReservationEvent = event)
    .idempotencyConflict "Reservation event conflict"
  verifyRelease host reservation stored.toProviderLimitReservationEvent
    "Persisted termination/cancellation evidence is no longer verifiable"
  return stored

def ProviderLimitStore.appendReservationEventWithStatus (store : ProviderLimitStore) (now : Int)
    (query : ProviderLimitReservationQuery) (reservationId : String)
    (event : ProviderLimitReservationEvent) :
    Except ProviderLimitError (ProviderLimitReservationEventWrite × ProviderLimitStore) := do
  assertProviderLimitReservationEvent event
  match store.selectReservation query reservationId with
  | none => storeError .reservationNotFound "Provider limit reservation not found"
  | some row => do
      let reservation ← verifyReservationRow host row
      requireStore (reservation.decision = .allow) .reservationSettled
        "Rejected reservation cannot be settled"
      match store.events.find? (·.eventId = event.eventId) with
      | some duplicate => do
          let stored ← replayEvent host reservation duplicate event
          return (⟨stored, false⟩, store)
      | none => store.insertEvent host now reservation event

/-! ### Dispatch -/

structure ProviderLimitReservationView where
  reservation : ProviderLimitReservation
  events : List StoredReservationEvent

/-- `getReservation`, but for the state that it derives. -/
def ProviderLimitStore.getReservation (store : ProviderLimitStore)
    (query : ProviderLimitReservationQuery) (reservationId : String) :
    Except ProviderLimitError (Option ProviderLimitReservationView) :=
  match store.selectReservation query reservationId with
  | none => .ok none
  | some row => do
      let reservation ← verifyReservationRow host row
      let events ← eventsFromRows (store.eventsOf reservationId)
      assertReservationLifecycle host reservation events
      return some ⟨reservation, events⟩

inductive ProviderLimitDispatchClaim where
  | claimed (reservationId dispatchEventRef dispatchEventHash : String)
  | taken (existingDispatchEvidenceRef : String)

def ProviderLimitStore.existingDispatch (store : ProviderLimitStore)
    (query : ProviderLimitReservationQuery) (reservationId : String) (error : ProviderLimitError) :
    Except ProviderLimitError ProviderLimitDispatchClaim := do
  let view ← store.getReservation host query reservationId
  match view.bind fun view => view.events.find? (·.type = .dispatched) with
  | some grant => return .taken (reservationEventRef grant.eventId)
  | none => .error error

def ProviderLimitStore.claimDispatch (store : ProviderLimitStore) (now : Int)
    (query : ProviderLimitReservationQuery) (reservationId : String)
    (event : ProviderLimitReservationEvent) :
    Except ProviderLimitError (ProviderLimitDispatchClaim × ProviderLimitStore) :=
  if event.type ≠ .dispatched then integrityFailure "Dispatch claim requires a dispatched event"
  else match store.appendReservationEventWithStatus host now query reservationId event with
    | .ok (write, next) =>
        if write.created then
          .ok (.claimed reservationId (reservationEventRef write.event.eventId) write.event.hash, next)
        else .ok (.taken (reservationEventRef write.event.eventId), next)
    | .error (.store .reservationSettled message evidenceRef) =>
        (store.existingDispatch host query reservationId
          (.store .reservationSettled message evidenceRef)).map fun claim => (claim, store)
    | .error error => .error error

/-! ### Runs -/

inductive LimitCall where
  | putSnapshot (result : ProviderLimitResult)
  | reserveWithStatus (request : ProviderLimitReservationRequest)
  | appendReservationEventWithStatus (query : ProviderLimitReservationQuery) (reservationId : String)
      (event : ProviderLimitReservationEvent)
  | claimDispatch (query : ProviderLimitReservationQuery) (reservationId : String)
      (event : ProviderLimitReservationEvent)

/-- A call, with the clock and the policies at its time. -/
structure LimitTurn where
  now : Int
  resolver : PolicyResolver
  call : LimitCall

inductive LimitAnswer where
  | snapshot (write : SnapshotWrite)
  | reserved (write : ProviderLimitReservationWrite)
  | appended (write : ProviderLimitReservationEventWrite)
  | dispatch (claim : ProviderLimitDispatchClaim)

def ProviderLimitStore.perform (store : ProviderLimitStore) (turn : LimitTurn) :
    Except ProviderLimitError (LimitAnswer × ProviderLimitStore) :=
  match turn.call with
  | .putSnapshot result =>
      (store.putSnapshot host turn.resolver turn.now result).map fun answer =>
        (.snapshot answer.1, answer.2)
  | .reserveWithStatus request =>
      (store.reserveWithStatus host turn.resolver turn.now request).map fun answer =>
        (.reserved answer.1, answer.2)
  | .appendReservationEventWithStatus query reservationId event =>
      (store.appendReservationEventWithStatus host turn.now query reservationId event).map
        fun answer => (.appended answer.1, answer.2)
  | .claimDispatch query reservationId event =>
      (store.claimDispatch host turn.now query reservationId event).map fun answer =>
        (.dispatch answer.1, answer.2)

def ProviderLimitStore.after (store : ProviderLimitStore) (turn : LimitTurn) : ProviderLimitStore :=
  match store.perform host turn with
  | .ok (_, next) => next
  | .error _ => store

def storeAfter (turns : List LimitTurn) : ProviderLimitStore :=
  turns.foldl (ProviderLimitStore.after host) .empty

end Store

end Deckent.ProviderLimit
