import Deckent.Proof.StartAttempt

/-!
# A settlement that is repeated

The reply to a settlement can be lost, and then the call is made again. It finds the attempt settled, and
answers with it, unless its authority is only good for an attempt that is still prepared.
-/

namespace Deckent.RunFlow

variable {host : HostFunctions} {tables next : StartAttemptTables} {result : StartAttemptResult}

def SettlementAuthority.OutlivesPreparation : SettlementAuthority → Prop
  | .ownerCapability | .processRecovery _ => True
  | .effectUnknown | .preparerRecovery _ => False

/-! ### What a settlement writes -/

/-- A settlement of the current attempt. -/
structure Settles (host : HostFunctions) (input : SettleStartAttemptInput)
    (tables next : StartAttemptTables) (current record : StartAttemptRecord) : Prop where
  cas : assertStartAttemptCas input.toStartAttemptCas = .ok ()
  settledAt : assertTimestamp host input.settlement.settledAt "start-attempt settledAt" = .ok ()
  code : assertNonEmptyBounded input.settlement.code "start-attempt settlement code" = .ok ()
  terminal : isTerminalStartAttemptState input.settlement.state = true
  recovery : checkRecovery host input.authority input.settlement.state = .ok ()
  latest : tables.assertLatestAttemptGeneration host input.toStartAttemptCas = .ok current
  authority : checkAuthority input.authority input.attemptId current = .ok ()
  active : isTerminalStartAttemptState current.state = false
  record_eq : record = { current with
    state := input.settlement.state
    settlement := some input.settlement
    updatedAt := input.settlement.settledAt }
  next_eq : next = tables.appendStartAttemptState record

theorem settles_of_applied {input : SettleStartAttemptInput}
    (hok : settleStartAttempt host input tables = .ok (result, next)) (happlied : result.applied = true) :
    ∃ current, Settles host input tables next current result.attempt := by
  simp only [settleStartAttempt, bind_eq_ok] at hok
  obtain ⟨_, hcas, _, hsettledAt, _, hcode, _, hterminal, _, hrecovery, current, hlatest, _, hauthority,
    hok⟩ := hok
  split at hok
  · obtain ⟨_, -, hresult⟩ := bind_eq_ok.mp hok
    cases hresult
    cases happlied
  · next hactive =>
      obtain ⟨_, -, hresult⟩ := bind_eq_ok.mp hok
      cases hresult
      exact ⟨current, hcas, hsettledAt, hcode, check_eq_ok.mp hterminal, hrecovery, hlatest, hauthority,
        by simpa using hactive, rfl, rfl⟩

namespace Settles

variable {input : SettleStartAttemptInput} {current record : StartAttemptRecord}

theorem flowId (hsettles : Settles host input tables next current record) :
    record.flowId = current.flowId := by
  rw [hsettles.record_eq]

theorem generation (hsettles : Settles host input tables next current record) :
    record.generation = current.generation := by
  rw [hsettles.record_eq]

theorem attemptId (hsettles : Settles host input tables next current record) :
    record.attemptId = current.attemptId := by
  rw [hsettles.record_eq]

theorem journal (hsettles : Settles host input tables next current record) :
    next.journal = tables.journal ++ [tables.rowFor record] := by
  rw [hsettles.next_eq]
  rfl

/-! ### What the repeated call finds -/

theorem startAttemptById (hsettles : Settles host input tables next current record)
    (hsound : next.Sound) : next.startAttemptByIdInDb record.attemptId = some record := by
  have hmem : tables.rowFor record ∈ next.journal := by
    rw [hsettles.journal]
    simp
  have hlast := hsound.startAttemptById_of_mem hmem
  rw [StartAttemptTables.records_append hsettles.journal, if_pos ⟨rfl, rfl⟩,
    List.getLast?_concat] at hlast
  exact hlast

theorem latestStartAttempt (hsettles : Settles host input tables next current record)
    (hsound : next.Sound) : next.latestStartAttemptInDb record.flowId = some record := by
  have hrow : (tables.rowFor record).flowId = record.flowId := rfl
  rw [hsound.latestStartAttempt, StartAttemptTables.rowsOf_append hsettles.journal, if_pos hrow,
    List.getLast?_concat]
  rfl

theorem startAttemptByGeneration (hsettles : Settles host input tables next current record)
    {flowId : String} {generation : Nat} (hother : generation ≠ record.generation) :
    next.startAttemptByGenerationInDb flowId generation
      = tables.startAttemptByGenerationInDb flowId generation := by
  unfold StartAttemptTables.startAttemptByGenerationInDb
  rw [hsettles.journal, List.filter_append, List.filter_cons_of_neg, List.filter_nil, List.append_nil]
  intro hrow
  rw [Bool.and_eq_true, decide_eq_true_eq, decide_eq_true_eq] at hrow
  exact hother hrow.2.symm

theorem recoveryManifest (hsettles : Settles host input tables next current record) (flowId : String) :
    next.recoveryManifestForGenerationInDb host flowId record.generation
      = tables.recoveryManifestForGenerationInDb host flowId record.generation := by
  have hmanifests : next.manifests = tables.manifests := by
    rw [hsettles.next_eq]
    rfl
  have hidentities : next.identities = tables.identities := by
    rw [hsettles.next_eq]
    rfl
  unfold StartAttemptTables.recoveryManifestForGenerationInDb
  rw [hmanifests]
  cases hfound : tables.manifests.find? fun row =>
      row.flowId = flowId && row.generation = record.generation with
  | none => rfl
  | some row =>
      dsimp only
      by_cases hformed : StartAttemptTables.isWellFormedManifest host row = true
      · have hpredecessor : row.payload.predecessorGeneration ≠ record.generation := by
          have hgeneration := List.find?_some hfound
          simp only [Bool.and_eq_true, decide_eq_true_eq] at hgeneration
          simp only [StartAttemptTables.isWellFormedManifest, Bool.and_eq_true, decide_eq_true_eq] at hformed
          omega
        unfold StartAttemptTables.bindsManifest
        rw [hsettles.startAttemptByGeneration hpredecessor, hidentities]
      · have hcheck : ∀ message, check (StartAttemptTables.isWellFormedManifest host row) .corruptRecord
            message = .error (refusal .corruptRecord message) := fun message => if_neg hformed
        rw [hcheck]
        rfl

theorem requireFence (hsettles : Settles host input tables next current record)
    (hfence : tables.requireFence host current = .ok ()) : next.requireFence host record = .ok () := by
  unfold StartAttemptTables.requireFence StartAttemptTables.requireRecoveryManifestForAttemptInDb at hfence ⊢
  rw [hsettles.recoveryManifest, hsettles.flowId, hsettles.generation, hsettles.attemptId]
  exact hfence

theorem assertLatestAttemptGeneration (hsettles : Settles host input tables next current record)
    (hsound : next.Sound) :
    next.assertLatestAttemptGeneration host input.toStartAttemptCas = .ok record := by
  have hlatest := hsettles.latest
  simp only [StartAttemptTables.assertLatestAttemptGeneration, bind_eq_ok] at hlatest ⊢
  obtain ⟨byId, hmatches, _, -, _, hfence, hcurrent⟩ := hlatest
  cases hcurrent
  cases hid : tables.startAttemptByIdInDb input.attemptId with
  | none => simp [StartAttemptTables.assertAttemptMatches, hid] at hmatches
  | some actual =>
      simp only [StartAttemptTables.assertAttemptMatches, hid, bind_eq_ok, check_eq_ok,
        Bool.and_eq_true, decide_eq_true_eq] at hmatches
      obtain ⟨_, hcas, hactual⟩ := hmatches
      cases hactual
      have hrecordId := hsettles.attemptId.trans hcas.1.2
      have hrecordFlow := hsettles.flowId.trans hcas.1.1.1.1.1
      refine ⟨record, ?_, (), ?_, (), hsettles.requireFence hfence, rfl⟩
      · rw [← hrecordId, hsettles.startAttemptById hsound]
        simp only [StartAttemptTables.assertAttemptMatches, bind_eq_ok, check_eq_ok, Bool.and_eq_true,
          decide_eq_true_eq]
        refine ⟨(), ?_, trivial⟩
        rw [hsettles.record_eq]
        exact hcas
      · rw [← hrecordFlow, hsettles.latestStartAttempt hsound, check_eq_ok, Option.any_some,
          hsettles.generation, hrecordId]
        simpa using hcas.1.1.2

theorem checkAuthority_iff (hsettles : Settles host input tables next current record) :
    checkAuthority input.authority input.attemptId record = .ok ()
      ↔ input.authority.OutlivesPreparation := by
  have hterminal := hsettles.terminal
  have hauthority := hsettles.authority
  have hstate : record.state = input.settlement.state := by rw [hsettles.record_eq]
  have hprocess : record.process = current.process := by rw [hsettles.record_eq]
  have hprepared : record.state ≠ .prepared := by
    intro hprepared
    rw [← hstate, hprepared] at hterminal
    cases hterminal
  cases hkind : input.authority with
  | ownerCapability => simp [checkAuthority, SettlementAuthority.OutlivesPreparation]
  | effectUnknown => simp [checkAuthority, check_eq_ok, SettlementAuthority.OutlivesPreparation, hprepared]
  | processRecovery observedAt =>
      rw [hkind] at hauthority
      rw [checkAuthority, check_eq_ok] at hauthority ⊢
      simpa [SettlementAuthority.OutlivesPreparation, hprocess] using hauthority
  | preparerRecovery observedAt =>
      simp [checkAuthority, check_eq_ok, SettlementAuthority.OutlivesPreparation, hprepared]

theorem repeated_iff (hsettles : Settles host input tables next current record) (hsound : next.Sound) :
    settleStartAttempt host input next = .ok ({ applied := false, attempt := record }, next)
      ↔ input.authority.OutlivesPreparation := by
  rw [← hsettles.checkAuthority_iff]
  have hterminal : isTerminalStartAttemptState record.state = true := by
    rw [hsettles.record_eq]
    exact hsettles.terminal
  have hsettlement : record.settlement = some input.settlement := by rw [hsettles.record_eq]
  simp only [settleStartAttempt, bind_eq_ok]
  constructor
  · rintro ⟨_, -, _, -, _, -, _, -, _, -, found, hfound, _, hauthority, -⟩
    rw [hsettles.assertLatestAttemptGeneration hsound] at hfound
    cases hfound
    exact hauthority
  · intro hauthority
    refine ⟨(), hsettles.cas, (), hsettles.settledAt, (), hsettles.code, (),
      check_eq_ok.mpr hsettles.terminal, (), hsettles.recovery, record,
      hsettles.assertLatestAttemptGeneration hsound, (), hauthority, ?_⟩
    rw [if_pos hterminal, bind_eq_ok]
    exact ⟨(), check_eq_ok.mpr (decide_eq_true hsettlement), rfl⟩

end Settles

/-- A settlement that is repeated answers with the attempt and changes nothing, just if its authority is
the owner's capability or the recovery of a process. -/
theorem settleStartAttempt_repeats_iff (host : HostFunctions) (calls : List StartAttemptCall)
    (input : SettleStartAttemptInput) (result : StartAttemptResult) (next : StartAttemptTables)
    (hok : settleStartAttempt host input (runStartAttempts host calls {}) = .ok (result, next))
    (happlied : result.applied = true) :
    settleStartAttempt host input next = .ok ({ applied := false, attempt := result.attempt }, next)
      ↔ input.authority.OutlivesPreparation := by
  obtain ⟨current, hsettles⟩ := settles_of_applied hok happlied
  exact hsettles.repeated_iff (sound_step (sound_run host calls StartAttemptTables.sound_empty)
    (step_of_settleStartAttempt hok))

/-! ### A settlement that is refused when it is repeated -/

def settlementTime : String := "2026-01-01T00:00:00.000Z"

def repeatHost : HostFunctions where
  dateParse := fun text => if text = settlementTime then some 1767225600000 else none
  lineageHash := fun lineage => lineage.idempotencyKey
  settlementHash := fun settlement => settlement.code

def preparation : PrepareStartAttemptInput where
  flowId := "f"
  revision := 1
  planDigest := "d"
  attemptId := "a"
  preparedAt := settlementTime
  lineage := {
    tenantId := "local"
    projectId := "p"
    actor := { id := "operator" }
    origin := .cli
    correlationId := "c"
    idempotencyKey := "k"
    parentPlanLineageHash := "h"
    parentCorrelationId := "c"
    authorizationAuthority := "approval" }
  owner := {
    process := { pid := 1, startToken := none, evidence := .unavailable }
    ownerNonce := "n"
    leaseUntil := settlementTime }

/-- The attempt whose process was perhaps born, and what is said of it. -/
def unknownEffect : SettleStartAttemptInput where
  flowId := "f"
  revision := 1
  planDigest := "d"
  generation := 1
  attemptId := "a"
  ownerNonce := "n"
  settlement := {
    state := .unknown
    code := "SPAWN_EFFECT_OUTCOME_UNKNOWN"
    settledAt := settlementTime }
  authority := .effectUnknown

def preparedTables : StartAttemptTables := runStartAttempts repeatHost [.prepare preparation] {}

def unknownAttempt : StartAttemptRecord where
  flowId := "f"
  revision := 1
  planDigest := "d"
  generation := 1
  attemptId := "a"
  state := .unknown
  createdAt := settlementTime
  updatedAt := settlementTime
  lineage := preparation.lineage
  owner := preparation.owner
  settlement := some unknownEffect.settlement

theorem settle_unknownEffect :
    ∃ next, settleStartAttempt repeatHost unknownEffect preparedTables
      = .ok (⟨true, unknownAttempt⟩, next) := by
  have hresult : ((settleStartAttempt repeatHost unknownEffect preparedTables).map Prod.fst).toOption
      = some ⟨true, unknownAttempt⟩ := by
    decide +kernel
  obtain ⟨⟨result, next⟩, hok, rfl⟩ := exceptMap_eq_ok.mp (toOption_eq_some.mp hresult)
  exact ⟨next, hok⟩

/-- A settlement under `effect-unknown` is refused when it is repeated. -/
theorem settle_unknownEffect_again :
    ∃ next, settleStartAttempt repeatHost unknownEffect preparedTables
        = .ok (⟨true, unknownAttempt⟩, next)
      ∧ ∃ error, settleStartAttempt repeatHost unknownEffect next = .error error := by
  obtain ⟨next, hok⟩ := settle_unknownEffect
  refine ⟨next, hok, ?_⟩
  obtain ⟨current, hsettles⟩ := settles_of_applied hok rfl
  have hagain : (settleStartAttempt repeatHost unknownEffect
      (preparedTables.appendStartAttemptState unknownAttempt)).toOption.isNone = true := by
    decide +kernel
  rw [hsettles.next_eq]
  cases hrepeated : settleStartAttempt repeatHost unknownEffect
      (preparedTables.appendStartAttemptState unknownAttempt) with
  | error error => exact ⟨error, rfl⟩
  | ok answer =>
      rw [hrepeated] at hagain
      cases hagain

theorem settleStartAttempt_repeats_iff_sample :
    ∃ next, settleStartAttempt repeatHost unknownEffect preparedTables
        = .ok (⟨true, unknownAttempt⟩, next)
      ∧ (settleStartAttempt repeatHost unknownEffect next = .ok (⟨false, unknownAttempt⟩, next)
        ↔ unknownEffect.authority.OutlivesPreparation) := by
  obtain ⟨next, hok⟩ := settle_unknownEffect
  exact ⟨next, hok, settleStartAttempt_repeats_iff repeatHost [.prepare preparation] unknownEffect
    ⟨true, unknownAttempt⟩ next hok rfl⟩

end Deckent.RunFlow
