import Deckent.Lib.EventLog
import Deckent.Lib.Fallible
import Deckent.Lib.Paging
import Deckent.Model.AcceptanceReconciliation

/-!
# Reading what the reconciliation store writes

A row is genuine if it is what its own receipt makes of it. A genuine row reads as found, and a store
of genuine rows stays one under every call but one that records a prepared receipt at another time than
the receipt's own.
-/

namespace Deckent.AcceptanceReconciliation

variable {tables next later : ReconciliationTables} {input : AcceptanceReconciliationWrite} {row : Row}
  {value : AcceptanceConfirmationReceipt} {result : AcceptanceReconciliationWriteResult}

/-! ### Validation -/

theorem eq_some_of_validate {candidate : Option AcceptanceConfirmationReceipt}
    (hvalidate : validateAcceptanceConfirmationReceipt candidate none = .ok value) :
    candidate = some value := by
  unfold validateAcceptanceConfirmationReceipt at hvalidate
  cases hfilter : candidate.filter (·.wellFormed) with
  | none => simp [hfilter] at hvalidate
  | some receipt =>
      simp only [hfilter, bind_eq_ok, pure_eq_ok] at hvalidate
      obtain ⟨-, -, -, -, -, -, -, -, rfl⟩ := hvalidate
      exact (Option.filter_eq_some_iff.mp hfilter).1

theorem confirmationConflict_self (lineage : AcceptanceConfirmationLineage) :
    confirmationConflict lineage lineage = none := by
  simp [confirmationConflict]

theorem verifyAcceptanceConfirmationTerminalEvent_self {event : AcceptanceConfirmationTerminalEvent}
    (hformed : event.wellFormed = true)
    (hid : deriveAcceptanceConfirmationId event.lineage = event.confirmationId)
    (hdigest : acceptanceConfirmationDigest event.unsigned = event.eventDigest) :
    verifyAcceptanceConfirmationTerminalEvent event (some event.lineage) = .ok event := by
  have hlineage : event.lineage.wellFormed = true := by
    unfold AcceptanceConfirmationTerminalEvent.wellFormed at hformed
    simp only [Bool.and_eq_true] at hformed
    exact hformed.1.1.2
  unfold verifyAcceptanceConfirmationTerminalEvent requireConfirmationLineage
    parseAcceptanceConfirmationLineage
  simp [Option.filter, hformed, hid, hdigest, hlineage, confirmationRequire, confirmationConflict_self,
    bind, Except.bind, pure, Except.pure]

theorem validateAcceptanceConfirmationReceipt_eq (hformed : value.wellFormed = true)
    (hverify : verifyAcceptanceConfirmationTerminalEvent value.terminalEvent (some value.lineage)
      = .ok value.terminalEvent)
    (hid : value.confirmationId = value.terminalEvent.confirmationId)
    (hdigest : acceptanceConfirmationDigest value.unsigned = value.receiptDigest) :
    validateAcceptanceConfirmationReceipt (some value) none = .ok value := by
  unfold validateAcceptanceConfirmationReceipt
  simp [Option.filter, hformed, hverify, ← hid, hdigest, confirmationRequire, bind, Except.bind, pure,
    Except.pure]

/-! ### Genuine rows -/

def genuineRow (sequence : Nat) (value : AcceptanceConfirmationReceipt) (debt : String) : Row :=
  newRow sequence value ⟨some value, debt, none⟩

def receiptAt (sequence : Nat) (value : AcceptanceConfirmationReceipt) (debt : String) :
    AcceptanceReconciliationReceipt :=
  ⟨unsigned sequence value debt, (unsigned sequence value debt).digest⟩

structure Row.Genuine (row : Row) : Prop where
  valid : validateAcceptanceConfirmationReceipt (some row.confirmation) none = .ok row.confirmation
  debt : isSha256Text row.debtProjectionDigest = true
  eq : row = genuineRow row.sequence row.confirmation row.debtProjectionDigest

theorem Row.Genuine.readRow (hgenuine : row.Genuine) :
    readRow row
      = .found (receiptAt row.sequence row.confirmation row.debtProjectionDigest) := by
  have hdebt := hgenuine.debt
  have heq := hgenuine.eq
  unfold AcceptanceReconciliation.readRow
  rw [hgenuine.valid]
  generalize row.sequence = sequence, row.confirmation = value, row.debtProjectionDigest = debt
    at heq hdebt
  subst heq
  simp [genuineRow, newRow, unsigned, receiptAt, hdebt]

theorem Row.Genuine.state (hgenuine : row.Genuine) : row.receiptState = row.confirmation.state := by
  have heq := congrArg Row.receiptState hgenuine.eq
  exact heq

/-- The unique columns of a row. -/
def Row.slot (row : Row) : String × AcceptanceConfirmationState :=
  (row.reconciliationKey, row.receiptState)

def FollowsPrepared (tables : ReconciliationTables) (row : Row) : Prop :=
  ∀ application, row.confirmation.application = some application →
    ∃ predecessor ∈ tables.receipts, predecessor.reconciliationKey = row.reconciliationKey
      ∧ predecessor.receiptState = .prepared
      ∧ predecessor.confirmation.receiptDigest = application.preparedReceiptDigest
      ∧ predecessor.debtProjectionDigest = row.debtProjectionDigest

structure ReconciliationTables.Sound (tables : ReconciliationTables) : Prop where
  genuine : ∀ row ∈ tables.receipts, row.Genuine
  slots : (tables.receipts.map (·.slot)).Nodup
  sequences : tables.receipts.map (·.sequence) = List.range' 1 tables.receipts.length
  prepared : ∀ row ∈ tables.receipts, FollowsPrepared tables row

theorem sound_empty : ReconciliationTables.empty.Sound where
  genuine := by
    intro row hrow
    cases hrow
  slots := List.nodup_nil
  sequences := rfl
  prepared := by
    intro row hrow
    cases hrow

/-! ### Appending -/

def KeepsTime (tables : ReconciliationTables) (input : AcceptanceReconciliationWrite) : Prop :=
  ∀ value, validateAcceptanceConfirmationReceipt input.confirmationReceipt none = .ok value →
    value.application = none → isSha256Text input.debtProjectionDigest = true →
    selectReceipt tables (keyFor value) .prepared = none →
    ∀ appliedAt, input.appliedAt = some appliedAt → appliedAt = value.preparedAt

theorem selectReceipt_eq_none {key : String} {state : AcceptanceConfirmationState} :
    selectReceipt tables key state = none
      ↔ ∀ row ∈ tables.receipts, row.slot ≠ (key, state) := by
  simp [selectReceipt, Row.slot]

theorem selectReceipt_eq_some {key : String} {state : AcceptanceConfirmationState}
    (hselect : selectReceipt tables key state = some row) :
    row ∈ tables.receipts ∧ row.reconciliationKey = key ∧ row.receiptState = state := by
  refine ⟨List.mem_of_find?_eq_some hselect, ?_⟩
  simpa using List.find?_some hselect

/-- The tables with one more receipt. -/
def ReconciliationTables.add (tables : ReconciliationTables) (row : Row) : ReconciliationTables :=
  { tables with receipts := tables.receipts ++ [row] }

theorem nextSequence_eq (hsequences : tables.receipts.map (·.sequence)
      = List.range' 1 tables.receipts.length) :
    nextSequence tables = tables.receipts.length + 1 := by
  have hmax : ∀ count, (List.range' 1 count).foldl max 0 = count := by
    intro count
    induction count with
    | zero => rfl
    | succ count ih =>
        rw [List.range'_concat, List.foldl_append, ih]
        simp
        omega
  rw [nextSequence, hsequences, hmax]

theorem insertReceipt_ok (hinsert : insertReceipt tables row = .ok next) : next = tables.add row := by
  unfold insertReceipt at hinsert
  split_ifs at hinsert
  exact (Except.ok.inj hinsert).symm

theorem predecessorHold_eq_some {debt : String} (hhold : predecessorHold tables value debt = some result) :
    ∃ reasonCode message, result = .hold reasonCode message := by
  unfold predecessorHold at hhold
  cases happlication : value.application with
  | none => simp [happlication] at hhold
  | some application =>
      simp only [happlication] at hhold
      split at hhold
      · exact ⟨_, _, (Option.some.inj hhold).symm⟩
      · split at hhold
        · split_ifs at hhold
          exact ⟨_, _, (Option.some.inj hhold).symm⟩
        · exact ⟨_, _, (Option.some.inj hhold).symm⟩

theorem predecessorHold_eq_none {debt : String} {application : AcceptanceConfirmationApplication}
    (hgenuine : ∀ row ∈ tables.receipts, row.Genuine) (hnone : predecessorHold tables value debt = none)
    (happlication : value.application = some application) :
    ∃ predecessor ∈ tables.receipts, predecessor.reconciliationKey = keyFor value
      ∧ predecessor.receiptState = .prepared
      ∧ predecessor.confirmation.receiptDigest = application.preparedReceiptDigest
      ∧ predecessor.debtProjectionDigest = debt := by
  unfold predecessorHold at hnone
  simp only [happlication] at hnone
  cases hselect : selectReceipt tables (keyFor value) .prepared with
  | none => simp [hselect] at hnone
  | some predecessor =>
      obtain ⟨hmem, hkey, hstate⟩ := selectReceipt_eq_some hselect
      simp only [hselect, (hgenuine predecessor hmem).readRow] at hnone
      split_ifs at hnone with hmismatch
      push Not at hmismatch
      exact ⟨predecessor, hmem, hkey, hstate, hmismatch⟩

structure Admits (tables : ReconciliationTables) (input : AcceptanceReconciliationWrite)
    (value : AcceptanceConfirmationReceipt) : Prop where
  valid : validateAcceptanceConfirmationReceipt input.confirmationReceipt none = .ok value
  debt : isSha256Text input.debtProjectionDigest = true
  new : selectReceipt tables (keyFor value) value.state = none
  predecessor : predecessorHold tables value input.debtProjectionDigest = none

theorem appendOne_ok (happend : appendOne tables input = .ok (result, next)) :
    (∃ reasonCode message, result = .hold reasonCode message ∧ next = tables)
      ∨ (∃ receipt, result = .replayed receipt ∧ next = tables)
      ∨ (∃ value, Admits tables input value
        ∧ result = .written value.state
          (receiptAt (nextSequence tables) value input.debtProjectionDigest)
        ∧ next = tables.add (newRow (nextSequence tables) value input)) := by
  unfold appendOne at happend
  split at happend
  · rename_i value hvalid hdebt
    cases hselect : selectReceipt tables (keyFor value) value.state with
    | some existing =>
        simp only [hselect] at happend
        split at happend
        · split_ifs at happend
          · obtain ⟨rfl, rfl⟩ := Prod.mk.inj (Except.ok.inj happend)
            exact .inr (.inl ⟨_, rfl, rfl⟩)
          · obtain ⟨rfl, rfl⟩ := Prod.mk.inj (Except.ok.inj happend)
            exact .inl ⟨_, _, rfl, rfl⟩
        · obtain ⟨rfl, rfl⟩ := Prod.mk.inj (Except.ok.inj happend)
          exact .inl ⟨_, _, rfl, rfl⟩
    | none =>
        simp only [hselect] at happend
        cases hpredecessor : predecessorHold tables value input.debtProjectionDigest with
        | some hold =>
            simp only [hpredecessor] at happend
            obtain ⟨rfl, rfl⟩ := Prod.mk.inj (Except.ok.inj happend)
            obtain ⟨reasonCode, message, hresult⟩ := predecessorHold_eq_some hpredecessor
            exact .inl ⟨reasonCode, message, hresult, rfl⟩
        | none =>
            simp only [hpredecessor, bind_eq_ok, pure_eq_ok, Prod.mk.injEq] at happend
            obtain ⟨added, hinsert, rfl, rfl⟩ := happend
            obtain rfl := insertReceipt_ok hinsert
            exact .inr (.inr ⟨value, ⟨hvalid, hdebt, hselect, hpredecessor⟩, rfl, rfl⟩)
  · obtain ⟨rfl, rfl⟩ := Prod.mk.inj (Except.ok.inj happend)
    exact .inl ⟨_, _, rfl, rfl⟩

theorem Admits.newRow_eq (hadmits : Admits tables input value) (hkeeps : KeepsTime tables input)
    (sequence : Nat) :
    newRow sequence value input = genuineRow sequence value input.debtProjectionDigest := by
  have htime : timeOf value input.appliedAt = timeOf value none := by
    unfold timeOf
    cases happlication : value.application with
    | some application => rfl
    | none =>
        have hnew := hadmits.new
        unfold AcceptanceConfirmationReceipt.state at hnew
        rw [happlication] at hnew
        cases hlegacy : input.appliedAt with
        | none => rfl
        | some appliedAt =>
            exact hkeeps value hadmits.valid happlication hadmits.debt hnew appliedAt hlegacy
  unfold genuineRow newRow
  rw [htime]

theorem Admits.genuine (hadmits : Admits tables input value) (hkeeps : KeepsTime tables input)
    (sequence : Nat) : (newRow sequence value input).Genuine := by
  rw [hadmits.newRow_eq hkeeps]
  refine ⟨?_, hadmits.debt, rfl⟩
  have hinput := eq_some_of_validate hadmits.valid
  exact hinput ▸ hadmits.valid

theorem ReconciliationTables.Sound.add (hsound : tables.Sound) (hadmits : Admits tables input value)
    (hkeeps : KeepsTime tables input) :
    (tables.add (newRow (nextSequence tables) value input)).Sound where
  genuine := by
    intro row hrow
    rcases List.mem_append.mp hrow with hold | hnew
    · exact hsound.genuine row hold
    · obtain rfl := List.mem_singleton.mp hnew
      exact hadmits.genuine hkeeps _
  slots := by
    have hnew := selectReceipt_eq_none.mp hadmits.new
    rw [ReconciliationTables.add, List.map_append, List.map_singleton, List.nodup_append]
    refine ⟨hsound.slots, List.nodup_singleton _, ?_⟩
    intro slot hslot other hother
    obtain rfl := List.mem_singleton.mp hother
    obtain ⟨row, hrow, rfl⟩ := List.mem_map.mp hslot
    exact hnew row hrow
  sequences := by
    have hnext := nextSequence_eq hsound.sequences
    simp only [ReconciliationTables.add, List.map_append, List.map_singleton, List.length_append,
      List.length_singleton, newRow]
    rw [List.range'_concat, hsound.sequences, hnext]
    simp [Nat.add_comm]
  prepared := by
    intro row hrow application happlication
    rcases List.mem_append.mp hrow with hold | hnew
    · obtain ⟨predecessor, hmem, hfollows⟩ := hsound.prepared row hold application happlication
      exact ⟨predecessor, List.mem_append_left _ hmem, hfollows⟩
    · obtain rfl := List.mem_singleton.mp hnew
      obtain ⟨predecessor, hmem, hfollows⟩ :=
        predecessorHold_eq_none hsound.genuine hadmits.predecessor happlication
      exact ⟨predecessor, List.mem_append_left _ hmem, hfollows⟩

theorem ReconciliationTables.Sound.appendOne (hsound : tables.Sound) (hkeeps : KeepsTime tables input)
    (happend : appendOne tables input = .ok (result, next)) : next.Sound := by
  rcases appendOne_ok happend with ⟨_, _, -, rfl⟩ | ⟨_, -, rfl⟩ | ⟨value, hadmits, -, rfl⟩
  · exact hsound
  · exact hsound
  · exact hsound.add hadmits hkeeps

/-! ### Batches -/

def KeepsTimes : ReconciliationTables → List AcceptanceReconciliationWrite → Prop
  | _, [] => True
  | tables, input :: rest =>
      KeepsTime tables input
        ∧ ∀ results next, appendAll tables [input] = .ok (results, next) → KeepsTimes next rest

theorem appendAll_cons_ok {rest : List AcceptanceReconciliationWrite}
    {results : List AcceptanceReconciliationWriteResult}
    (hall : appendAll tables (input :: rest) = .ok (results, next)) :
    ∃ first middle others, appendOne tables input = .ok (first, middle)
      ∧ (∀ reasonCode message, first ≠ .hold reasonCode message)
      ∧ appendAll middle rest = .ok (others, next) ∧ results = first :: others
      ∧ appendAll tables [input] = .ok ([first], middle) := by
  unfold appendAll at hall
  cases happend : appendOne tables input with
  | error message => simp [happend] at hall
  | ok done =>
      obtain ⟨first, middle⟩ := done
      cases first with
      | hold reasonCode message => simp [happend] at hall
      | replayed receipt =>
          simp only [happend] at hall
          cases hrest : appendAll middle rest with
          | error ended => simp [hrest] at hall
          | ok done =>
              obtain ⟨others, last⟩ := done
              simp only [hrest, Except.ok.injEq, Prod.mk.injEq] at hall
              obtain ⟨rfl, rfl⟩ := hall
              refine ⟨.replayed receipt, middle, others, rfl, ?_, hrest, rfl, ?_⟩
              · intro reasonCode message hhold
                cases hhold
              · simp [appendAll, happend]
      | written state receipt =>
          simp only [happend] at hall
          cases hrest : appendAll middle rest with
          | error ended => simp [hrest] at hall
          | ok done =>
              obtain ⟨others, last⟩ := done
              simp only [hrest, Except.ok.injEq, Prod.mk.injEq] at hall
              obtain ⟨rfl, rfl⟩ := hall
              refine ⟨.written state receipt, middle, others, rfl, ?_, hrest, rfl, ?_⟩
              · intro reasonCode message hhold
                cases hhold
              · simp [appendAll, happend]

theorem not_hold_of_appendAll {inputs : List AcceptanceReconciliationWrite}
    {results : List AcceptanceReconciliationWriteResult} {reasonCode : AcceptanceReconciliationHoldReason}
    {message : String} (hall : appendAll tables inputs = .ok (results, next)) :
    .hold reasonCode message ∉ results := by
  induction inputs generalizing tables results with
  | nil =>
      obtain ⟨rfl, -⟩ := Prod.mk.inj (Except.ok.inj hall)
      exact List.not_mem_nil
  | cons input rest ih =>
      obtain ⟨first, middle, others, -, hfirst, hrest, rfl, -⟩ := appendAll_cons_ok hall
      rw [List.mem_cons]
      rintro (hhold | hmem)
      · exact hfirst reasonCode message hhold.symm
      · exact ih hrest hmem

/-! ### Adopting -/

/-- The write that adopts an envelope. -/
def LegacyEnvelope.write (envelope : LegacyEnvelope) : AcceptanceReconciliationWrite :=
  ⟨envelope.confirmationReceipt, envelope.debtProjectionDigest.getD "", envelope.appliedAt⟩

theorem adoptEnvelope_snd (tables : ReconciliationTables) (envelope : Except String LegacyEnvelope) :
    (adoptEnvelope tables envelope).2 = tables
      ∨ ∃ legacy result, envelope = .ok legacy
        ∧ appendOne tables legacy.write = .ok (result, (adoptEnvelope tables envelope).2) := by
  unfold adoptEnvelope
  cases envelope with
  | error message => exact .inl rfl
  | ok legacy =>
      simp only
      split
      · rename_i value debt hvalid hdebt
        have hwrite : legacy.write = ⟨some value, debt, legacy.appliedAt⟩ := by
          rw [LegacyEnvelope.write, eq_some_of_validate hvalid,
            (Option.filter_eq_some_iff.mp hdebt).1, Option.getD_some]
        rw [← hwrite]
        cases happend : appendOne tables legacy.write with
        | error message => exact .inl rfl
        | ok done =>
            refine .inr ⟨legacy, done.1, rfl, ?_⟩
            obtain ⟨result, next⟩ := done
            cases result <;> exact happend
      · exact .inl rfl

def AdoptsInTime (directory : String) :
    AcceptanceReconciliationAdoptionResult × ReconciliationTables → List LegacyFile → Prop
  | _, [] => True
  | state, file :: rest =>
      (knownSource directory state.2 file = false →
        ∀ envelope, file.envelope = .ok envelope → KeepsTime state.2 envelope.write)
      ∧ AdoptsInTime directory (adoptFile directory state file) rest

theorem adoptFile_snd (directory : String)
    (state : AcceptanceReconciliationAdoptionResult × ReconciliationTables) (file : LegacyFile) :
    (adoptFile directory state file).2 = state.2
      ∨ (knownSource directory state.2 file = false
        ∧ ∃ source, (adoptFile directory state file).2 = {
          (adoptEnvelope state.2 file.envelope).2 with
          legacySources := (adoptEnvelope state.2 file.envelope).2.legacySources ++ [source] }) := by
  unfold adoptFile
  obtain ⟨counts, tables⟩ := state
  simp only
  split_ifs with hknown
  · exact .inl rfl
  · exact .inr ⟨Bool.eq_false_of_not_eq_true hknown, _, rfl⟩

theorem ReconciliationTables.Sound.withSources (hsound : tables.Sound) (sources : List LegacySource) :
    { tables with legacySources := sources }.Sound :=
  ⟨hsound.genuine, hsound.slots, hsound.sequences, hsound.prepared⟩

theorem adoptFiles_induction {motive : ReconciliationTables → Prop} {directory : String}
    {files : List LegacyFile} {state : AcceptanceReconciliationAdoptionResult × ReconciliationTables}
    (happends : ∀ tables next input result, motive tables → KeepsTime tables input →
      appendOne tables input = .ok (result, next) → motive next)
    (hsources : ∀ tables sources, motive tables → motive { tables with legacySources := sources })
    (hkeeps : AdoptsInTime directory state files) (hstate : motive state.2) :
    motive (files.foldl (adoptFile directory) state).2 := by
  induction files generalizing state with
  | nil => exact hstate
  | cons file rest ih =>
      apply ih hkeeps.2
      rcases adoptFile_snd directory state file with hsame | ⟨hnew, source, hnext⟩
      · rwa [hsame]
      · rw [hnext]
        apply hsources
        rcases adoptEnvelope_snd state.2 file.envelope with
          hsame | ⟨legacy, result, henvelope, happend⟩
        · rwa [hsame]
        · exact happends _ _ _ _ hstate (hkeeps.1 hnew legacy henvelope) happend

/-! ### Runs -/

def ReconciliationCall.KeepsTime (tables : ReconciliationTables) : ReconciliationCall → Prop
  | append input => KeepsTimes tables [input]
  | appendBatch inputs => KeepsTimes tables inputs
  | adoptLegacyReceipts directory files =>
      let files := legacyFiles (files.getD [])
      AdoptsInTime directory (⟨files.length, 0, 0, 0⟩, tables) files

def KeptStep (tables next : ReconciliationTables) : Prop :=
  ∃ call : ReconciliationCall, call.KeepsTime tables ∧ next = call.perform tables

theorem appendBatch_ok {inputs : List AcceptanceReconciliationWrite}
    {results : List AcceptanceReconciliationWriteResult}
    (hbatch : appendBatch tables inputs = .ok (results, next)) :
    appendAll tables inputs = .ok (results, next)
      ∨ (next = tables ∧ ∀ result ∈ results, ∃ reasonCode message, result = .hold reasonCode message) := by
  unfold appendBatch at hbatch
  cases hall : appendAll tables inputs with
  | ok done =>
      rw [hall] at hbatch
      exact .inl (congrArg Except.ok (Except.ok.inj hbatch))
  | error ended =>
      cases ended with
      | thrown message => simp [hall] at hbatch
      | hold reasonCode message =>
          simp only [hall, Except.ok.injEq, Prod.mk.injEq] at hbatch
          obtain ⟨rfl, rfl⟩ := hbatch
          refine .inr ⟨rfl, ?_⟩
          intro result hresult
          obtain ⟨input, -, rfl⟩ := List.mem_map.mp hresult
          exact ⟨_, _, rfl⟩

theorem perform_induction {motive : ReconciliationTables → Prop}
    (happends : ∀ tables next input result, motive tables → KeepsTime tables input →
      appendOne tables input = .ok (result, next) → motive next)
    (hsources : ∀ tables sources, motive tables → motive { tables with legacySources := sources })
    {call : ReconciliationCall} (hkeeps : call.KeepsTime tables) (htables : motive tables) :
    motive (call.perform tables) := by
  have hall : ∀ inputs tables next results, KeepsTimes tables inputs → motive tables →
      appendAll tables inputs = .ok (results, next) → motive next := by
    intro inputs
    induction inputs with
    | nil =>
        intro tables next results _ htables hall
        obtain ⟨-, rfl⟩ := Prod.mk.inj (Except.ok.inj hall)
        exact htables
    | cons input rest ih =>
        intro tables next results hkeeps htables hall
        obtain ⟨first, middle, others, happend, -, hrest, -, hsingle⟩ := appendAll_cons_ok hall
        exact ih middle next others (hkeeps.2 _ _ hsingle)
          (happends _ _ _ _ htables hkeeps.1 happend) hrest
  have hbatch : ∀ inputs, KeepsTimes tables inputs →
      motive (ReconciliationCall.perform tables (.appendBatch inputs)) := by
    intro inputs hkeeps
    unfold ReconciliationCall.perform
    simp only
    cases hbatch : appendBatch tables inputs with
    | error message => exact htables
    | ok done =>
        obtain ⟨results, next⟩ := done
        rcases appendBatch_ok hbatch with hdone | ⟨rfl, -⟩
        · exact hall inputs tables next results hkeeps htables hdone
        · exact htables
  cases call with
  | append input => exact hbatch [input] hkeeps
  | appendBatch inputs => exact hbatch inputs hkeeps
  | adoptLegacyReceipts directory files =>
      exact adoptFiles_induction happends hsources hkeeps htables

theorem ReconciliationTables.Sound.step (hsound : tables.Sound) (hstep : KeptStep tables next) :
    next.Sound := by
  obtain ⟨call, hkeeps, rfl⟩ := hstep
  exact perform_induction (fun _ _ _ _ hsound hkeeps happend => hsound.appendOne hkeeps happend)
    (fun _ sources hsound => hsound.withSources sources) hkeeps hsound

theorem ReconciliationTables.Sound.run (hsound : tables.Sound)
    (hrun : Relation.ReflTransGen KeptStep tables next) : next.Sound := by
  induction hrun with
  | refl => exact hsound
  | tail _ hstep ih => exact ih.step hstep

theorem receipts_appendOne (happend : appendOne tables input = .ok (result, next)) :
    tables.receipts <+: next.receipts := by
  rcases appendOne_ok happend with ⟨_, _, -, rfl⟩ | ⟨_, -, rfl⟩ | ⟨value, -, -, rfl⟩
  · exact List.prefix_rfl
  · exact List.prefix_rfl
  · exact List.prefix_append _ _

theorem receipts_of_run (hrun : Relation.ReflTransGen KeptStep tables next) :
    tables.receipts <+: next.receipts := by
  induction hrun with
  | refl => exact List.prefix_rfl
  | tail _ hstep ih =>
      obtain ⟨call, hkeeps, rfl⟩ := hstep
      exact perform_induction (motive := fun later => tables.receipts <+: later.receipts)
        (fun _ _ _ _ hgrown _ happend => hgrown.trans (receipts_appendOne happend))
        (fun _ _ hgrown => hgrown) hkeeps ih

/-! ### Repeating an append -/

/-- The input has been recorded as a receipt. -/
structure Recorded (tables : ReconciliationTables) (input : AcceptanceReconciliationWrite)
    (receipt : AcceptanceReconciliationReceipt) : Prop where
  exists_row : ∃ value sequence,
    validateAcceptanceConfirmationReceipt input.confirmationReceipt none = .ok value
      ∧ isSha256Text input.debtProjectionDigest = true
      ∧ selectReceipt tables (keyFor value) value.state
        = some (genuineRow sequence value input.debtProjectionDigest)
      ∧ receipt = receiptAt sequence value input.debtProjectionDigest

theorem selectReceipt_mono {key : String} {state : AcceptanceConfirmationState}
    (hgrown : tables.receipts <+: later.receipts) (hselect : selectReceipt tables key state = some row) :
    selectReceipt later key state = some row := by
  obtain ⟨more, hmore⟩ := hgrown
  unfold selectReceipt at hselect ⊢
  rw [← hmore, List.find?_append, hselect, Option.some_or]

theorem Recorded.mono {receipt : AcceptanceReconciliationReceipt} (hrecorded : Recorded tables input receipt)
    (hgrown : tables.receipts <+: later.receipts) : Recorded later input receipt := by
  obtain ⟨value, sequence, hvalid, hdebt, hselect, hreceipt⟩ := hrecorded.exists_row
  exact ⟨value, sequence, hvalid, hdebt, selectReceipt_mono hgrown hselect, hreceipt⟩

theorem Recorded.appendBatch_eq {receipt : AcceptanceReconciliationReceipt}
    (hrecorded : Recorded tables input receipt) :
    appendBatch tables [input] = .ok ([.replayed receipt], tables) := by
  obtain ⟨value, sequence, hvalid, hdebt, hselect, rfl⟩ := hrecorded.exists_row
  have hgenuine : (genuineRow sequence value input.debtProjectionDigest).Genuine :=
    ⟨by rw [eq_some_of_validate hvalid] at hvalid; exact hvalid, hdebt, rfl⟩
  have happend : appendOne tables input
      = .ok (.replayed (receiptAt sequence value input.debtProjectionDigest), tables) := by
    unfold appendOne
    simp only [hvalid, hdebt, hselect, hgenuine.readRow]
    exact if_pos rfl
  simp [appendBatch, appendAll, happend]

theorem recorded_of_appendOne {state : AcceptanceConfirmationState}
    {receipt : AcceptanceReconciliationReceipt} (hkeeps : KeepsTime tables input)
    (happend : appendOne tables input = .ok (.written state receipt, next)) :
    Recorded next input receipt := by
  rcases appendOne_ok happend with ⟨_, _, hhold, -⟩ | ⟨_, hreplayed, -⟩ | ⟨value, hadmits, hwritten, rfl⟩
  · cases hhold
  · cases hreplayed
  · injection hwritten with hstate hreceipt
    refine ⟨value, nextSequence tables, hadmits.valid, hadmits.debt, ?_, hreceipt⟩
    have hnew := hadmits.new
    unfold selectReceipt at hnew ⊢
    rw [ReconciliationTables.add, List.find?_append, hnew, hadmits.newRow_eq hkeeps]
    simp [genuineRow, newRow]

theorem receipts_appendAll {inputs : List AcceptanceReconciliationWrite}
    {results : List AcceptanceReconciliationWriteResult}
    (hall : appendAll tables inputs = .ok (results, next)) : tables.receipts <+: next.receipts := by
  induction inputs generalizing tables results with
  | nil =>
      obtain ⟨-, rfl⟩ := Prod.mk.inj (Except.ok.inj hall)
      exact List.prefix_rfl
  | cons input rest ih =>
      obtain ⟨first, middle, others, happend, -, hrest, -, -⟩ := appendAll_cons_ok hall
      exact (receipts_appendOne happend).trans (ih hrest)

theorem recorded_of_appendAll {inputs : List AcceptanceReconciliationWrite}
    {results : List AcceptanceReconciliationWriteResult} {state : AcceptanceConfirmationState}
    {receipt : AcceptanceReconciliationReceipt} (hkeeps : KeepsTimes tables inputs)
    (hall : appendAll tables inputs = .ok (results, next))
    (hmem : (input, .written state receipt) ∈ inputs.zip results) : Recorded next input receipt := by
  induction inputs generalizing tables results with
  | nil => simp at hmem
  | cons first rest ih =>
      obtain ⟨result, middle, others, happend, -, hrest, rfl, hsingle⟩ := appendAll_cons_ok hall
      rw [List.zip_cons_cons] at hmem
      rcases List.mem_cons.mp hmem with heq | hmem
      · obtain ⟨rfl, rfl⟩ := Prod.mk.inj heq
        exact (recorded_of_appendOne hkeeps.1 happend).mono (receipts_appendAll hrest)
      · exact ih (hkeeps.2 _ _ hsingle) hrest hmem

/-! ### Pages -/

def coveredAfter (cursor : AcceptanceReconciliationCursor) (after : Nat)
    (tables : ReconciliationTables) : List Row :=
  tables.receipts.filter fun row => cursor.covers row && after < row.sequence

def AcceptanceReconciliationCursor.behind (cursor : AcceptanceReconciliationCursor) (after : Nat) :
    AcceptanceReconciliationCursor :=
  { cursor with afterSequence := some (.finite (after : Int)) }

inductive FollowsPages (cursor : AcceptanceReconciliationCursor) :
    ReconciliationTables → Nat → List AcceptanceReconciliationReadResult → ReconciliationTables → Prop where
  | last {tables after receipts}
      (hpage : readTenantPage tables (cursor.behind after) = .ok ⟨receipts, none⟩) :
      FollowsPages cursor tables after receipts tables
  | page {tables after receipts nextAfter later rest final}
      (hpage : readTenantPage tables (cursor.behind after) = .ok ⟨receipts, some nextAfter⟩)
      (hrun : Relation.ReflTransGen KeptStep tables later)
      (hrest : FollowsPages cursor later nextAfter rest final) :
      FollowsPages cursor tables after (receipts ++ rest) final

theorem ReconciliationTables.Sound.sorted (hsound : tables.Sound) :
    tables.receipts.Pairwise fun left right => left.sequence < right.sequence := by
  have hrange := List.pairwise_lt_range' (s := 1) (n := tables.receipts.length)
  rw [← hsound.sequences, List.pairwise_map] at hrange
  exact hrange

theorem ReconciliationTables.Sound.selectPage_eq (hsound : tables.Sound)
    (cursor : AcceptanceReconciliationCursor) (after : Nat) (limit : Int) :
    selectPage tables (cursor.behind after) after limit
      = (coveredAfter cursor after tables).take limit.toNat := by
  have hfilter : (tables.receipts.filter fun row =>
      (cursor.behind after).covers row && decide ((after : Int) < row.sequence))
      = coveredAfter cursor after tables := by
    apply List.filter_congr
    intro row _
    simp [AcceptanceReconciliationCursor.covers, AcceptanceReconciliationCursor.behind]
  unfold selectPage
  rw [hfilter, sortBy_eq_self]
  refine (hsound.sorted.filter _).imp ?_
  intro left right hlt
  unfold compareNumber
  omega

theorem readTenantPage_ok {cursor : AcceptanceReconciliationCursor} {after : Nat}
    {page : AcceptanceReconciliationCursorPage} (hsound : tables.Sound)
    (hread : readTenantPage tables (cursor.behind after) = .ok page) :
    ∃ limit, 0 < limit ∧ page.receipts = ((coveredAfter cursor after tables).take limit).map readRow
      ∧ page.nextSequence = ((coveredAfter cursor after tables).take limit).getLast?.map (·.sequence) := by
  unfold readTenantPage at hread
  split at hread
  · rename_i found limit hafter hlimit
    obtain ⟨hfound, -⟩ := JsNumber.toSafeInteger?_eq_some.mp hafter
    obtain rfl : (after : Int) = found := by
      have hcast : ((after : Int) : ℚ) = found := JsNumber.finite.inj hfound
      exact_mod_cast hcast
    split_ifs at hread with hinvalid
    push Not at hinvalid
    refine ⟨limit.toNat, ?_, ?_, ?_⟩
    · have hpositive := hinvalid.2.2.1
      omega
    · rw [← Except.ok.inj hread, hsound.selectPage_eq]
    · rw [← Except.ok.inj hread, hsound.selectPage_eq]
  · cases hread

theorem coveredAfter_eq_append {cursor : AcceptanceReconciliationCursor} {after limit : Nat} {last : Row}
    (hsound : later.Sound) (hgrown : tables.receipts <+: later.receipts)
    (hlast : ((coveredAfter cursor after tables).take limit).getLast? = some last) :
    coveredAfter cursor after later
      = (coveredAfter cursor after tables).take limit ++ coveredAfter cursor last.sequence later := by
  have hpage : (coveredAfter cursor after tables).take limit <+: coveredAfter cursor after later :=
    (List.take_prefix _ _).trans (hgrown.filter _)
  have hmem := List.mem_of_mem_take (List.mem_of_getLast? hlast)
  have hcovered := (List.mem_filter.mp hmem).2
  rw [Bool.and_eq_true, decide_eq_true_eq] at hcovered
  have hafter := hcovered.2
  have hsplit := eq_append_filter_after (hsound.sorted.filter _) hpage hlast
  rw [coveredAfter, filter_after_filter (Nat.le_of_lt hafter)] at hsplit
  exact hsplit

theorem FollowsPages.run {cursor : AcceptanceReconciliationCursor} {after : Nat}
    {receipts : List AcceptanceReconciliationReadResult} {final : ReconciliationTables}
    (hfollows : FollowsPages cursor tables after receipts final) :
    Relation.ReflTransGen KeptStep tables final := by
  induction hfollows with
  | last _ => exact .refl
  | page _ hrun _ ih => exact hrun.trans ih

theorem FollowsPages.receipts_eq {cursor : AcceptanceReconciliationCursor} {after : Nat}
    {receipts : List AcceptanceReconciliationReadResult} {final : ReconciliationTables}
    (hfollows : FollowsPages cursor tables after receipts final) (hsound : tables.Sound) :
    receipts = (coveredAfter cursor after final).map readRow := by
  induction hfollows with
  | last hpage =>
      obtain ⟨limit, hlimit, hreceipts, hnext⟩ := readTenantPage_ok hsound hpage
      rw [eq_comm, Option.map_eq_none_iff, List.getLast?_eq_none_iff, List.take_eq_nil_iff] at hnext
      have hnone := hnext.resolve_left (Nat.ne_of_gt hlimit)
      simpa [hnone] using hreceipts
  | page hpage hrun hrest ih =>
      obtain ⟨limit, -, hreceipts, hnext⟩ := readTenantPage_ok hsound hpage
      simp only at hreceipts hnext
      obtain ⟨last, hlast, rfl⟩ := Option.map_eq_some_iff.mp hnext.symm
      have hfinal := hrun.trans hrest.run
      rw [ih (hsound.run hrun),
        coveredAfter_eq_append (hsound.run hfinal) (receipts_of_run hfinal) hlast, List.map_append,
        hreceipts]

theorem readTenantPage_behind {cursor : AcceptanceReconciliationCursor} {after : Nat}
    {first : AcceptanceReconciliationCursorPage} (hafter : after < 2 ^ 53)
    (hfirst : readTenantPage tables (cursor.behind 0) = .ok first) :
    ∃ page, readTenantPage tables (cursor.behind after) = .ok page := by
  have hsafe : (JsNumber.finite (after : Int)).toSafeInteger? = some (after : Int) := by
    rw [JsNumber.toSafeInteger?_eq_some]
    exact ⟨rfl, by simpa using hafter⟩
  unfold readTenantPage at hfirst ⊢
  split at hfirst
  · rename_i found limit _ hlimit
    split_ifs at hfirst with hinvalid
    push Not at hinvalid
    simp only [AcceptanceReconciliationCursor.behind] at hinvalid hlimit ⊢
    rw [Option.getD_some, hsafe, hlimit]
    refine ⟨_, if_neg ?_⟩
    push Not
    exact ⟨hinvalid.1, Int.natCast_nonneg after, hinvalid.2.2⟩
  · cases hfirst

theorem exists_followsPages {cursor : AcceptanceReconciliationCursor}
    {first : AcceptanceReconciliationCursorPage} (hsound : tables.Sound)
    (hlength : tables.receipts.length < 2 ^ 53)
    (hfirst : readTenantPage tables (cursor.behind 0) = .ok first) :
    ∃ receipts, FollowsPages cursor tables 0 receipts tables := by
  have hgeneral : ∀ count after, after < 2 ^ 53 → (coveredAfter cursor after tables).length = count →
      ∃ receipts, FollowsPages cursor tables after receipts tables := by
    intro count
    induction count using Nat.strong_induction_on with
    | _ count ih =>
        intro after hafter hcount
        obtain ⟨⟨receipts, nextAfter⟩, hpage⟩ := readTenantPage_behind hafter hfirst
        obtain ⟨limit, hlimit, -, hnext⟩ := readTenantPage_ok hsound hpage
        simp only at hnext
        cases hlast : ((coveredAfter cursor after tables).take limit).getLast? with
        | none =>
            rw [hlast, Option.map_none] at hnext
            subst hnext
            exact ⟨receipts, .last hpage⟩
        | some last =>
            rw [hlast, Option.map_some] at hnext
            subst hnext
            have hsplit := congrArg List.length
              (coveredAfter_eq_append hsound List.prefix_rfl hlast)
            have hpage_pos : 0 < ((coveredAfter cursor after tables).take limit).length :=
              List.length_pos_of_mem (List.mem_of_getLast? hlast)
            rw [List.length_append] at hsplit
            have hmem := List.mem_filter.mp (List.mem_of_mem_take (List.mem_of_getLast? hlast))
            have hsequence : last.sequence < 2 ^ 53 := by
              have hrange := List.mem_map_of_mem (f := (·.sequence)) hmem.1
              rw [hsound.sequences, List.mem_range'_1] at hrange
              omega
            obtain ⟨rest, hrest⟩ := ih _ (by omega) last.sequence hsequence rfl
            exact ⟨_, .page hpage .refl hrest⟩
  exact hgeneral _ 0 (by decide) rfl

/-! ### The contract of the store -/

structure ReconciliationContract (tables : ReconciliationTables) : Prop where
  found : ∀ row ∈ tables.receipts, ∃ receipt, readRow row = .found receipt
  unique : (tables.receipts.map (·.slot)).Nodup
  predecessor : ∀ row ∈ tables.receipts, row.receiptState = .applied →
    ∃ predecessor ∈ tables.receipts, predecessor.reconciliationKey = row.reconciliationKey
      ∧ predecessor.receiptState = .prepared
      ∧ row.predecessorDigest = some predecessor.confirmation.receiptDigest
      ∧ predecessor.debtProjectionDigest = row.debtProjectionDigest
  sequences : tables.receipts.map (·.sequence) = List.range' 1 tables.receipts.length
  repeated : ∀ inputs results next, appendBatch tables inputs = .ok (results, next) →
    KeepsTimes tables inputs →
    ∀ input state receipt, (input, .written state receipt) ∈ inputs.zip results →
    ∀ later, Relation.ReflTransGen KeptStep next later →
      appendBatch later [input] = .ok ([.replayed receipt], later)
  held : ∀ inputs results next reasonCode message, appendBatch tables inputs = .ok (results, next) →
    .hold reasonCode message ∈ results → next = tables
  pages : ∀ cursor receipts final, FollowsPages cursor tables 0 receipts final →
    receipts = (final.receipts.filter cursor.covers).map readRow
  lastPage : ∀ cursor first, tables.receipts.length < 2 ^ 53 →
    readTenantPage tables (cursor.behind 0) = .ok first →
    ∃ receipts, FollowsPages cursor tables 0 receipts tables

theorem ReconciliationTables.Sound.contract (hsound : tables.Sound) : ReconciliationContract tables where
  found := fun row hrow => ⟨_, (hsound.genuine row hrow).readRow⟩
  unique := hsound.slots
  predecessor := by
    intro row hrow happlied
    have hgenuine := hsound.genuine row hrow
    rw [hgenuine.state] at happlied
    cases happlication : row.confirmation.application with
    | none => simp [AcceptanceConfirmationReceipt.state, happlication] at happlied
    | some application =>
        obtain ⟨predecessor, hmem, hkey, hstate, hdigest, hdebt⟩ :=
          hsound.prepared row hrow application happlication
        have hnamed : row.predecessorDigest = predecessorOf row.confirmation :=
          congrArg Row.predecessorDigest hgenuine.eq
        refine ⟨predecessor, hmem, hkey, hstate, ?_, hdebt⟩
        rw [hnamed, predecessorOf, happlication, Option.map_some, hdigest]
  sequences := hsound.sequences
  repeated := by
    intro inputs results next hbatch hkeeps input state receipt hmem later hrun
    rcases appendBatch_ok hbatch with hall | ⟨-, hholds⟩
    · exact ((recorded_of_appendAll hkeeps hall hmem).mono (receipts_of_run hrun)).appendBatch_eq
    · obtain ⟨reasonCode, message, hhold⟩ := hholds _ (List.of_mem_zip hmem).2
      cases hhold
  held := by
    intro inputs results next reasonCode message hbatch hmem
    rcases appendBatch_ok hbatch with hall | ⟨hnext, -⟩
    · exact absurd hmem (not_hold_of_appendAll hall)
    · exact hnext
  pages := by
    intro cursor receipts final hfollows
    rw [hfollows.receipts_eq hsound]
    congr 1
    apply List.filter_congr
    intro row hrow
    have hrange := List.mem_map_of_mem (f := (·.sequence)) hrow
    rw [(hsound.run hfollows.run).sequences, List.mem_range'_1] at hrange
    have hpositive : 0 < row.sequence := hrange.1
    simp [hpositive]
  lastPage := fun _ _ hlength hfirst => exists_followsPages hsound hlength hfirst

/-- Along a run in which no new prepared receipt is recorded at another time than its own, the store
meets its contract. -/
theorem reconciliation_readable (hrun : Relation.ReflTransGen KeptStep .empty tables) :
    ReconciliationContract tables :=
  (sound_empty.run hrun).contract

/-! ### One receipt -/

def sampleDigest : String := String.ofList (List.replicate 64 'a')

def sampleLineage : AcceptanceConfirmationLineage where
  tenantId := "tenant"
  projectId := "project"
  sprintId := "sprint"
  taskId := "task"
  attemptId := "attempt"
  generation := 1
  evaluationDigest := sampleDigest
  resultDigest := sampleDigest
  policyDigest := sampleDigest
  sourceDigest := sampleDigest

def unsignedEvent : AcceptanceConfirmationTerminalEvent where
  confirmationId := deriveAcceptanceConfirmationId sampleLineage
  lineage := sampleLineage
  decision := .accepted
  terminalAt := "2026-01-01T00:00:00.000Z"
  eventDigest := ""

def sampleEvent : AcceptanceConfirmationTerminalEvent :=
  { unsignedEvent with eventDigest := acceptanceConfirmationDigest unsignedEvent.unsigned }

def unsignedReceipt : AcceptanceConfirmationReceipt where
  confirmationId := sampleEvent.confirmationId
  lineage := sampleLineage
  terminalEvent := sampleEvent
  preparedAt := "2026-01-01T00:00:01.000Z"
  application := none
  receiptDigest := ""

def sampleReceipt : AcceptanceConfirmationReceipt :=
  { unsignedReceipt with receiptDigest := acceptanceConfirmationDigest unsignedReceipt.unsigned }

@[simp]
theorem isSha256Text_acceptanceConfirmationDigest (members : List (String × String)) :
    isSha256Text (acceptanceConfirmationDigest members) = true :=
  isSha256Text_sha256Hex _

theorem unsigned_withEventDigest (event : AcceptanceConfirmationTerminalEvent) (digest : String) :
    { event with eventDigest := digest }.unsigned = event.unsigned := rfl

theorem unsigned_withReceiptDigest (receipt : AcceptanceConfirmationReceipt) (digest : String) :
    { receipt with receiptDigest := digest }.unsigned = receipt.unsigned := rfl

-- Rewriting keeps the two digests as they are. Comparing them by evaluation would hash.
theorem digest_sampleEvent :
    acceptanceConfirmationDigest sampleEvent.unsigned = sampleEvent.eventDigest := by
  rw [sampleEvent, unsigned_withEventDigest]

theorem digest_sampleReceipt :
    acceptanceConfirmationDigest sampleReceipt.unsigned = sampleReceipt.receiptDigest := by
  rw [sampleReceipt, unsigned_withReceiptDigest]

theorem validate_sampleReceipt :
    validateAcceptanceConfirmationReceipt (some sampleReceipt) none = .ok sampleReceipt := by
  have hlineage : sampleLineage.wellFormed = true := by decide +kernel
  have hterminal : isUtcTimestamp "2026-01-01T00:00:00.000Z" = true := by decide +kernel
  have hprepared : isUtcTimestamp "2026-01-01T00:00:01.000Z" = true := by decide +kernel
  have hevent : sampleEvent.wellFormed = true := by
    simp [AcceptanceConfirmationTerminalEvent.wellFormed, sampleEvent, unsignedEvent,
      deriveAcceptanceConfirmationId, hlineage, hterminal]
  apply validateAcceptanceConfirmationReceipt_eq
  · simp [AcceptanceConfirmationReceipt.wellFormed, sampleReceipt, unsignedReceipt, hlineage, hevent,
      hprepared]
    simp [sampleEvent, unsignedEvent, deriveAcceptanceConfirmationId]
  · exact verifyAcceptanceConfirmationTerminalEvent_self hevent rfl digest_sampleEvent
  · rfl
  · exact digest_sampleReceipt

def sampleWrite (appliedAt : Option String) : AcceptanceReconciliationWrite :=
  ⟨some sampleReceipt, sampleDigest, appliedAt⟩

/-- The store that has appended the receipt. -/
def sampleTables (appliedAt : Option String) : ReconciliationTables :=
  ⟨[newRow 1 sampleReceipt (sampleWrite appliedAt)], []⟩

theorem perform_append_empty
    (hvalid : validateAcceptanceConfirmationReceipt input.confirmationReceipt none = .ok value)
    (hdebt : isSha256Text input.debtProjectionDigest = true) (hprepared : value.application = none) :
    ReconciliationCall.perform .empty (.append input) = ⟨[newRow 1 value input], []⟩ := by
  have happend : appendOne .empty input
      = .ok (.written value.state (receiptAt 1 value input.debtProjectionDigest),
        ⟨[newRow 1 value input], []⟩) := by
    unfold appendOne
    simp [hvalid, hdebt, selectReceipt, predecessorHold, hprepared, insertReceipt, nextSequence,
      ReconciliationTables.empty, receiptAt, newRow, bind, Except.bind, pure, Except.pure]
  simp [ReconciliationCall.perform, appendBatch, appendAll, happend]

theorem perform_sampleWrite (appliedAt : Option String) :
    ReconciliationCall.perform .empty (.append (sampleWrite appliedAt)) = sampleTables appliedAt := by
  have hdebt : isSha256Text sampleDigest = true := by decide +kernel
  exact perform_append_empty validate_sampleReceipt hdebt rfl

/-- A receipt is appended without a time beside it. -/
theorem reconciliation_readable_sample : ReconciliationContract (sampleTables none) := by
  refine reconciliation_readable (.single ⟨.append (sampleWrite none), ⟨?_, ?_⟩, ?_⟩)
  · intro value _ _ _ _ appliedAt happlied
    cases happlied
  · intro _ _ _
    trivial
  · exact (perform_sampleWrite none).symm

theorem readRow_ne_found {receipt : AcceptanceReconciliationReceipt}
    (hvalid : validateAcceptanceConfirmationReceipt (some row.confirmation) none = .ok value)
    (htime : row.recordedAt ≠ (unsigned row.sequence value row.debtProjectionDigest).recordedAt) :
    readRow row ≠ .found receipt := by
  intro hfound
  unfold readRow at hfound
  simp only [hvalid] at hfound
  split at hfound
  · cases hfound
  · rename_i hsame
    simp only [not_or, not_not] at hsame
    exact htime hsame.2.2.2.2.2.2.2.1

theorem readRow_newRow_ne_found {sequence : Nat} {receipt : AcceptanceReconciliationReceipt}
    (hvalid : validateAcceptanceConfirmationReceipt (some value) none = .ok value)
    (htime : timeOf value input.appliedAt ≠ timeOf value none) :
    readRow (newRow sequence value input) ≠ .found receipt :=
  readRow_ne_found hvalid htime

/-- A prepared receipt is appended with another time beside it: its row cannot be read. -/
theorem not_reconciliationContract_late :
    ∃ tables, Relation.ReflTransGen (fun tables next => ∃ call : ReconciliationCall,
        next = call.perform tables) .empty tables
      ∧ ¬ ReconciliationContract tables := by
  refine ⟨sampleTables (some "2026-01-02T00:00:00.000Z"), ?_, ?_⟩
  · exact .single ⟨_, (perform_sampleWrite _).symm⟩
  · intro hcontract
    obtain ⟨receipt, hread⟩ := hcontract.found _ List.mem_cons_self
    have htime : timeOf sampleReceipt (some "2026-01-02T00:00:00.000Z") ≠ timeOf sampleReceipt none := by
      simp [timeOf, sampleReceipt, unsignedReceipt]
    exact readRow_newRow_ne_found validate_sampleReceipt htime hread

end Deckent.AcceptanceReconciliation
