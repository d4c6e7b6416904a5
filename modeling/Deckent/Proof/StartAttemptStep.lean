import Deckent.Lib.EventLog
import Deckent.Lib.Fallible
import Deckent.Model.StartAttempt

/-!
# What a start-attempt call can do

A transaction that commits leaves the tables as they were, opens the generation after the latest one
of its flow, or adds a record to the latest generation. A generation is opened under the constraints of
the tables, after a settled predecessor that its manifest names. A record is added where the state of
the current one allows it.
-/

namespace Deckent.RunFlow

variable {host : HostFunctions} {tables next : StartAttemptTables} {result : StartAttemptResult}

@[simp]
theorem check_eq_ok {holds : Bool} {code : RunFlowStoreErrorCode} {message : String} {passed : Unit} :
    check holds code message = .ok passed ↔ holds = true := by
  cases holds <;> simp [check]

/-! ### The states of one generation -/

def StartAttemptState.Follows : StartAttemptState → StartAttemptState → Prop
  | prepared, processSpawned => True
  | processSpawned, admitted => True
  | current, completed => current = admitted
  | current, next => isTerminalStartAttemptState current = false ∧ isTerminalStartAttemptState next = true

def StartAttemptRecord.IsSettled (record : StartAttemptRecord) : Prop :=
  isTerminalStartAttemptState record.state = true
    ∧ ∃ settlement, record.settlement = some settlement ∧ settlement.state = record.state

theorem follows_settlement {current next : StartAttemptState}
    (hactive : isTerminalStartAttemptState current = false)
    (hterminal : isTerminalStartAttemptState next = true)
    (hcompleted : next ≠ .completed ∨ current = .admitted) : current.Follows next := by
  cases current <;> cases next <;> simp_all [StartAttemptState.Follows, isTerminalStartAttemptState]

/-! ### Steps -/

def StartAttemptTables.rowFor (tables : StartAttemptTables) (record : StartAttemptRecord) :
    StartAttemptJournalRow where
  flowId := record.flowId
  generation := record.generation
  sequence := tables.journalHead record.flowId record.generation + 1
  attemptId := record.attemptId
  payload := record

structure Opens (tables : StartAttemptTables) (identity : StartAttemptIdentityRow)
    (record : StartAttemptRecord) : Prop where
  state : record.state = .prepared
  flowId : record.flowId = identity.flowId
  generation : record.generation = identity.generation
  attemptId : record.attemptId = identity.attemptId
  tenantId : record.lineage.tenantId = identity.tenantId
  idempotencyKey : record.lineage.idempotencyKey = identity.idempotencyKey
  fresh : ∀ other ∈ tables.identities,
    (other.flowId = identity.flowId → other.generation ≠ identity.generation)
      ∧ other.attemptId ≠ identity.attemptId
      ∧ (other.tenantId = identity.tenantId → other.idempotencyKey ≠ identity.idempotencyKey)

/-- The record that a call adds after the current one. -/
structure Advances (tables : StartAttemptTables) (current record : StartAttemptRecord) : Prop where
  byId : tables.startAttemptByIdInDb current.attemptId = some current
  latest : ∃ latest, tables.latestStartAttemptInDb current.flowId = some latest
    ∧ latest.generation = current.generation
  follows : current.state.Follows record.state
  settlement : isTerminalStartAttemptState record.state = true → record.IsSettled
  flowId : record.flowId = current.flowId
  generation : record.generation = current.generation
  attemptId : record.attemptId = current.attemptId
  lineage : record.lineage = current.lineage

/-- What a committed call does to the tables. -/
inductive StartAttemptStep (tables : StartAttemptTables) : StartAttemptTables → Prop where
  | replayed : StartAttemptStep tables tables
  | first (identity : StartAttemptIdentityRow) (record : StartAttemptRecord)
      (hopens : Opens tables identity record) (hgeneration : identity.generation = 1)
      (hnone : tables.latestStartAttemptInDb identity.flowId = none) :
      StartAttemptStep tables {
        tables with
        identities := tables.identities ++ [identity]
        journal := tables.journal ++ [tables.rowFor record] }
  | later (identity : StartAttemptIdentityRow) (record previous : StartAttemptRecord)
      (row : RecoveryManifestRow) (hopens : Opens tables identity record)
      (hprevious : tables.latestStartAttemptInDb identity.flowId = some previous)
      (hgeneration : identity.generation = previous.generation + 1)
      (hterminal : isTerminalStartAttemptState previous.state = true)
      (hmanifest : row.payload.predecessorGeneration = previous.generation
        ∧ row.payload.predecessorAttemptId = previous.attemptId
        ∧ row.payload.predecessorState = previous.state
        ∧ previous.settlement = some row.payload.predecessorSettlement)
      (hrow : row.flowId = identity.flowId ∧ row.generation = identity.generation
        ∧ row.attemptId = identity.attemptId ∧ row.payload.flowId = identity.flowId
        ∧ row.payload.generation = identity.generation
        ∧ row.payload.attemptId = identity.attemptId) :
      StartAttemptStep tables {
        tables with
        identities := tables.identities ++ [identity]
        manifests := tables.manifests ++ [row]
        journal := tables.journal ++ [tables.rowFor record] }
  | advanced (current record : StartAttemptRecord) (handles : List HandleRow)
      (hadvances : Advances tables current record) :
      StartAttemptStep tables {
        tables with
        journal := tables.journal ++ [tables.rowFor record]
        handles := handles }

/-! ### Each operation -/

theorem replayPrepared_eq_ok {input : PrepareStartAttemptInput} {replay : StartAttemptRecord}
    {binding : String} (hok : replayPrepared host tables input replay binding = .ok (result, next)) :
    next = tables := by
  simp only [replayPrepared, bind_eq_ok] at hok
  obtain ⟨_, -, _, -, hresult⟩ := hok
  cases hresult
  rfl

theorem insertIdentity_eq_ok {row : StartAttemptIdentityRow} {failure : String}
    (hok : tables.insertIdentity row failure = .ok next) :
    (∀ other ∈ tables.identities,
      (other.flowId = row.flowId → other.generation ≠ row.generation)
        ∧ other.attemptId ≠ row.attemptId
        ∧ (other.tenantId = row.tenantId → other.idempotencyKey ≠ row.idempotencyKey))
      ∧ next = { tables with identities := tables.identities ++ [row] } := by
  simp only [StartAttemptTables.insertIdentity, bind_eq_ok, check_eq_ok] at hok
  obtain ⟨_, hfresh, hnext⟩ := hok
  simp only [Bool.and_eq_true, List.all_eq_true, Bool.or_eq_true, decide_eq_true_eq] at hfresh
  cases hnext
  refine ⟨?_, rfl⟩
  intro other hother
  obtain ⟨⟨hgeneration, hattemptId⟩, hkey⟩ := hfresh.2 other hother
  exact ⟨fun hflow => hgeneration.resolve_left (not_not_intro hflow), hattemptId,
    fun htenant => hkey.resolve_left (not_not_intro htenant)⟩

theorem insertManifest_eq_ok {manifest : RunFlowRecoveryManifest} {failure : String}
    (hok : tables.insertManifest manifest failure = .ok next) :
    next = { tables with manifests := tables.manifests ++ [{
      flowId := manifest.flowId
      generation := manifest.generation
      attemptId := manifest.attemptId
      payload := manifest
      recordedAt := manifest.recordedAt }] } := by
  simp only [StartAttemptTables.insertManifest, bind_eq_ok] at hok
  obtain ⟨_, -, hnext⟩ := hok
  cases hnext
  rfl

theorem nextGeneration_eq_ok {input : PrepareStartAttemptInput} {previous : Option StartAttemptRecord}
    {generation : Nat} {manifest : Option RunFlowRecoveryManifest}
    (hok : nextGeneration host input previous = .ok (generation, manifest)) :
    previous = none ∧ generation = 1 ∧ manifest = none
      ∨ ∃ record settlement, previous = some record
        ∧ isTerminalStartAttemptState record.state = true ∧ record.settlement = some settlement
        ∧ generation = record.generation + 1
        ∧ manifest = some {
          flowId := input.flowId
          generation := record.generation + 1
          attemptId := input.attemptId
          predecessorGeneration := record.generation
          predecessorAttemptId := record.attemptId
          predecessorState := record.state
          predecessorSettlement := settlement
          recordedAt := input.preparedAt } := by
  cases previous with
  | none =>
      simp only [nextGeneration, bind_eq_ok] at hok
      obtain ⟨_, -, hresult⟩ := hok
      cases hresult
      exact .inl ⟨rfl, rfl, rfl⟩
  | some record =>
      simp only [nextGeneration, bind_eq_ok, check_eq_ok] at hok
      obtain ⟨_, -, _, hterminal, hok⟩ := hok
      cases hsettlement : record.settlement with
      | none => simp [hsettlement] at hok
      | some settlement =>
          simp only [hsettlement, bind_eq_ok] at hok
          obtain ⟨_, -, hresult⟩ := hok
          cases hresult
          exact .inr ⟨record, settlement, rfl, hterminal, hsettlement, rfl, rfl⟩

theorem step_of_prepareStartAttempt {input : PrepareStartAttemptInput}
    (hok : prepareStartAttempt host input tables = .ok (result, next)) :
    StartAttemptStep tables next := by
  simp only [prepareStartAttempt, bind_eq_ok] at hok
  obtain ⟨_, -, _, -, _, -, _, -, _, -, _, -, _, -, hok⟩ := hok
  cases hkey : tables.startAttemptByIdempotencyInDb input.lineage.tenantId
      input.lineage.idempotencyKey with
  | some replay =>
      rw [hkey] at hok
      rw [replayPrepared_eq_ok hok]
      exact .replayed
  | none =>
      rw [hkey] at hok
      cases hid : tables.startAttemptByIdInDb input.attemptId with
      | some replay =>
          rw [hid] at hok
          rw [replayPrepared_eq_ok hok]
          exact .replayed
      | none =>
          simp only [hid, bind_eq_ok] at hok
          obtain ⟨⟨generation, manifest⟩, hgeneration, hok⟩ := hok
          simp only [insertGeneration, bind_eq_ok] at hok
          obtain ⟨identified, hidentity, hresult⟩ := hok
          obtain ⟨hfresh, rfl⟩ := insertIdentity_eq_ok hidentity
          rcases nextGeneration_eq_ok hgeneration with
            ⟨hnone, rfl, rfl⟩ | ⟨previous, settlement, hprevious, hterminal, hsettlement, rfl, rfl⟩
          · simp only [bind_eq_ok] at hresult
            obtain ⟨_, hunfenced, hresult⟩ := hresult
            cases hunfenced
            cases hresult
            exact .first _ _ ⟨rfl, rfl, rfl, rfl, rfl, rfl, hfresh⟩ rfl hnone
          · simp only [bind_eq_ok] at hresult
            obtain ⟨_, hfenced, hresult⟩ := hresult
            obtain rfl := insertManifest_eq_ok hfenced
            cases hresult
            exact .later _ _ previous _ ⟨rfl, rfl, rfl, rfl, rfl, rfl, hfresh⟩ hprevious rfl hterminal
              ⟨rfl, rfl, rfl, hsettlement⟩ ⟨rfl, rfl, rfl, rfl, rfl, rfl⟩

theorem assertLatestAttemptGeneration_eq_ok {cas : StartAttemptCas} {current : StartAttemptRecord}
    (hok : tables.assertLatestAttemptGeneration host cas = .ok current) :
    tables.startAttemptByIdInDb current.attemptId = some current
      ∧ ∃ latest, tables.latestStartAttemptInDb current.flowId = some latest
        ∧ latest.generation = current.generation := by
  simp only [StartAttemptTables.assertLatestAttemptGeneration, bind_eq_ok, check_eq_ok] at hok
  obtain ⟨byId, hmatches, _, hlatest, _, -, hcurrent⟩ := hok
  cases hcurrent
  cases hid : tables.startAttemptByIdInDb cas.attemptId with
  | none => simp [StartAttemptTables.assertAttemptMatches, hid] at hmatches
  | some actual =>
      simp only [StartAttemptTables.assertAttemptMatches, hid, bind_eq_ok, check_eq_ok,
        Bool.and_eq_true, decide_eq_true_eq] at hmatches
      obtain ⟨_, ⟨⟨⟨⟨⟨hflowId, -⟩, -⟩, hgeneration⟩, hattemptId⟩, -⟩, hactual⟩ := hmatches
      cases hactual
      rw [hattemptId, hflowId]
      refine ⟨hid, ?_⟩
      obtain ⟨latest, hfound, hagrees⟩ := (Option.any_eq_true _ _).mp hlatest
      simp only [Bool.and_eq_true, decide_eq_true_eq] at hagrees
      refine ⟨latest, hfound, ?_⟩
      have hfinite := hagrees.1.trans hgeneration.symm
      simpa using hfinite

theorem step_of_recordStartAttemptProcessSpawned {input : RecordStartAttemptProcessInput}
    (hok : recordStartAttemptProcessSpawned host input tables = .ok (result, next)) :
    StartAttemptStep tables next := by
  simp only [recordStartAttemptProcessSpawned, bind_eq_ok] at hok
  obtain ⟨_, -, _, -, _, -, current, hcurrent, hok⟩ := hok
  obtain ⟨hid, hlatest⟩ := assertLatestAttemptGeneration_eq_ok hcurrent
  split at hok
  · obtain ⟨_, -, hresult⟩ := bind_eq_ok.mp hok
    cases hresult
    exact .replayed
  · simp only [bind_eq_ok, check_eq_ok, decide_eq_true_eq] at hok
    obtain ⟨_, hprepared, _, -, hresult⟩ := hok
    cases hresult
    refine .advanced current _ tables.handles ⟨hid, hlatest, ?_, ?_, rfl, rfl, rfl, rfl⟩
    · rw [hprepared]
      trivial
    · intro hterminal
      simp [isTerminalStartAttemptState] at hterminal

theorem step_of_admitStartAttempt {input : AdmitStartAttemptInput}
    (hok : admitStartAttempt host input tables = .ok (result, next)) :
    StartAttemptStep tables next := by
  simp only [admitStartAttempt, bind_eq_ok] at hok
  obtain ⟨_, -, _, -, _, -, _, -, current, hcurrent, hok⟩ := hok
  obtain ⟨hid, hlatest⟩ := assertLatestAttemptGeneration_eq_ok hcurrent
  split at hok
  · obtain ⟨_, -, hresult⟩ := bind_eq_ok.mp hok
    cases hresult
    exact .replayed
  · simp only [bind_eq_ok, check_eq_ok, Bool.and_eq_true, decide_eq_true_eq] at hok
    obtain ⟨_, ⟨hspawned, -⟩, hresult⟩ := hok
    cases hresult
    refine .advanced current _ _ ⟨hid, hlatest, ?_, ?_, rfl, rfl, rfl, rfl⟩
    · rw [hspawned]
      trivial
    · intro hterminal
      simp [isTerminalStartAttemptState] at hterminal

theorem step_of_settleStartAttempt {input : SettleStartAttemptInput}
    (hok : settleStartAttempt host input tables = .ok (result, next)) :
    StartAttemptStep tables next := by
  simp only [settleStartAttempt, bind_eq_ok, check_eq_ok] at hok
  obtain ⟨_, -, _, -, _, -, _, hterminal, _, -, current, hcurrent, _, -, hok⟩ := hok
  obtain ⟨hid, hlatest⟩ := assertLatestAttemptGeneration_eq_ok hcurrent
  split at hok
  · obtain ⟨_, -, hresult⟩ := bind_eq_ok.mp hok
    cases hresult
    exact .replayed
  · next hactive =>
    simp only [bind_eq_ok, check_eq_ok, Bool.or_eq_true, decide_eq_true_eq] at hok
    obtain ⟨_, hcompleted, hresult⟩ := hok
    cases hresult
    refine .advanced current _ tables.handles ⟨hid, hlatest, ?_, ?_, rfl, rfl, rfl, rfl⟩
    · exact follows_settlement (by simpa using hactive) hterminal hcompleted
    · intro _
      exact ⟨hterminal, input.settlement, rfl, rfl⟩

theorem step_of_transaction {call : StartAttemptCall}
    (hok : call.transaction host tables = .ok (result, next)) : StartAttemptStep tables next := by
  cases call with
  | prepare input => exact step_of_prepareStartAttempt hok
  | spawned input => exact step_of_recordStartAttemptProcessSpawned hok
  | admission input projected => exact step_of_admitStartAttempt hok
  | settle input => exact step_of_settleStartAttempt hok

end Deckent.RunFlow
