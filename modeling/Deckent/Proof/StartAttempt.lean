import Mathlib.Data.List.Chain
import Mathlib.Data.List.Nodup
import Deckent.Proof.StartAttemptStep

/-!
# The generations of a flow

The identities of a flow are numbered from one without a gap, and the journal holds for each of them one
path of states. Rows are only ever added to the latest generation, so a settled generation stays as its
successor's manifest recorded it. An attempt id belongs to one generation over all flows, and so does an
idempotency key of a tenant.
-/

namespace Deckent.RunFlow

variable {host : HostFunctions} {tables next : StartAttemptTables}

namespace StartAttemptTables

/-! ### The rows of a flow -/

def identitiesOf (tables : StartAttemptTables) (flowId : String) : List StartAttemptIdentityRow :=
  tables.identities.filter fun identity => identity.flowId = flowId

def rowsOf (tables : StartAttemptTables) (flowId : String) : List StartAttemptJournalRow :=
  tables.journal.filter fun row => row.flowId = flowId

def rowsIn (tables : StartAttemptTables) (flowId : String) (generation : Nat) :
    List StartAttemptJournalRow :=
  tables.journal.filter fun row => row.flowId = flowId && row.generation = generation

def records (tables : StartAttemptTables) (flowId : String) (generation : Nat) :
    List StartAttemptRecord :=
  (tables.rowsIn flowId generation).map StartAttemptJournalRow.payload

def manifestsOf (tables : StartAttemptTables) (flowId : String) (generation : Nat) :
    List RecoveryManifestRow :=
  tables.manifests.filter fun row => row.flowId = flowId && row.generation = generation

theorem mem_rowsIn {flowId : String} {generation : Nat} {row : StartAttemptJournalRow} :
    row ∈ tables.rowsIn flowId generation
      ↔ row ∈ tables.journal ∧ row.flowId = flowId ∧ row.generation = generation := by
  simp [rowsIn]

theorem mem_rowsOf {flowId : String} {row : StartAttemptJournalRow} :
    row ∈ tables.rowsOf flowId ↔ row ∈ tables.journal ∧ row.flowId = flowId := by
  simp [rowsOf]

theorem mem_identitiesOf {flowId : String} {identity : StartAttemptIdentityRow} :
    identity ∈ tables.identitiesOf flowId
      ↔ identity ∈ tables.identities ∧ identity.flowId = flowId := by
  simp [identitiesOf]

theorem rowsIn_eq_filter (flowId : String) (generation : Nat) :
    tables.rowsIn flowId generation
      = (tables.rowsOf flowId).filter fun row => row.generation = generation := by
  rw [rowsIn, rowsOf, List.filter_filter]
  congr 1
  funext row
  exact Bool.and_comm _ _

end StartAttemptTables

def StartAttemptJournalRow.Earlier (left right : StartAttemptJournalRow) : Prop :=
  left.generation < right.generation
    ∨ left.generation = right.generation ∧ left.sequence < right.sequence

structure IsLife (records : List StartAttemptRecord) : Prop where
  prepared : records.head?.map StartAttemptRecord.state = some .prepared
  path : (records.map StartAttemptRecord.state).IsChain StartAttemptState.Follows
  settled : ∀ record ∈ records, isTerminalStartAttemptState record.state = true → record.IsSettled

theorem isLife_singleton {record : StartAttemptRecord} (hstate : record.state = .prepared) :
    IsLife [record] where
  prepared := by simp [hstate]
  path := List.isChain_singleton _
  settled := by
    intro other hother hterminal
    cases List.mem_singleton.mp hother
    simp [hstate, isTerminalStartAttemptState] at hterminal

theorem IsLife.concat {records : List StartAttemptRecord} {current record : StartAttemptRecord}
    (hlife : IsLife records) (hlast : records.getLast? = some current)
    (hfollows : current.state.Follows record.state)
    (hsettled : isTerminalStartAttemptState record.state = true → record.IsSettled) :
    IsLife (records ++ [record]) where
  prepared := by
    rw [List.head?_append]
    cases hhead : records.head? with
    | none =>
        have hprepared := hlife.prepared
        simp [hhead] at hprepared
    | some first =>
        have hprepared := hlife.prepared
        rwa [hhead] at hprepared
  path := by
    rw [List.map_append, List.map_singleton]
    refine List.isChain_append.mpr ⟨hlife.path, List.isChain_singleton _, ?_⟩
    intro left hleft right hright
    rw [List.getLast?_map, hlast] at hleft
    cases hleft
    cases hright
    exact hfollows
  settled := by
    intro other hother
    rcases List.mem_append.mp hother with hold | hnew
    · exact hlife.settled other hold
    · cases List.mem_singleton.mp hnew
      exact hsettled

structure Identifies (identity : StartAttemptIdentityRow) (row : StartAttemptJournalRow) : Prop where
  flowId : identity.flowId = row.flowId
  generation : identity.generation = row.generation
  attemptId : identity.attemptId = row.attemptId
  tenantId : identity.tenantId = row.payload.lineage.tenantId
  idempotencyKey : identity.idempotencyKey = row.payload.lineage.idempotencyKey

structure Fences (row : RecoveryManifestRow) (generation : Nat) (predecessor : StartAttemptRecord) :
    Prop where
  own : row.payload.generation = generation
  predecessorGeneration : row.payload.predecessorGeneration + 1 = generation
  predecessorAttemptId : row.payload.predecessorAttemptId = predecessor.attemptId
  predecessorState : row.payload.predecessorState = predecessor.state
  predecessorSettlement : predecessor.settlement = some row.payload.predecessorSettlement

/-- The invariant of the tables. -/
structure StartAttemptTables.Sound (tables : StartAttemptTables) : Prop where
  generations : ∀ flowId, (tables.identitiesOf flowId).map StartAttemptIdentityRow.generation
    = List.range' 1 (tables.identitiesOf flowId).length
  attemptIds : (tables.identities.map StartAttemptIdentityRow.attemptId).Nodup
  keys : (tables.identities.map fun identity =>
    (identity.tenantId, identity.idempotencyKey)).Nodup
  ordered : ∀ flowId, (tables.rowsOf flowId).Pairwise StartAttemptJournalRow.Earlier
  payload : ∀ row ∈ tables.journal, row.payload.flowId = row.flowId
    ∧ row.payload.generation = row.generation ∧ row.payload.attemptId = row.attemptId
  identified : ∀ row ∈ tables.journal, ∃ identity ∈ tables.identities, Identifies identity row
  lives : ∀ identity ∈ tables.identities,
    IsLife (tables.records identity.flowId identity.generation)
  settled : ∀ flowId generation, 0 < generation → generation < (tables.identitiesOf flowId).length →
    ∃ record, (tables.records flowId generation).getLast? = some record ∧ record.IsSettled
  unfenced : ∀ row ∈ tables.manifests,
    1 < row.generation ∧ row.generation ≤ (tables.identitiesOf row.flowId).length
  fenced : ∀ flowId generation, 1 < generation → generation ≤ (tables.identitiesOf flowId).length →
    ∃ row record, tables.manifestsOf flowId generation = [row]
      ∧ (tables.records flowId (generation - 1)).getLast? = some record
      ∧ Fences row generation record

namespace StartAttemptTables

/-! ### What the queries find -/

theorem latestBySequence_eq {rows : List StartAttemptJournalRow}
    (hascending : rows.Pairwise fun a b => a.sequence < b.sequence) :
    latestBySequence rows = rows.getLast?.map StartAttemptJournalRow.payload := by
  have hconsistent : ConsistentComparator fun a b : StartAttemptJournalRow =>
      compareNumber b.sequence a.sequence := by
    constructor
    · intro a b
      simp only [compareNumber]
      omega
    · intro a b c
      simp only [compareNumber]
      omega
  rw [latestBySequence, hconsistent.head?_sortBy_of_descending]
  apply hascending.imp
  intro a b hlt
  simp only [compareNumber]
  omega

theorem consistent_latest : ConsistentComparator fun a b : StartAttemptJournalRow =>
    thenBy (compareNumber b.generation a.generation) (compareNumber b.sequence a.sequence) where
  total a b := by
    simp only [thenBy_nonpos, compareNumber]
    omega
  trans a b c := by
    simp only [thenBy_nonpos, compareNumber]
    omega

namespace Sound

theorem sequences (hsound : tables.Sound) (flowId : String) (generation : Nat) :
    (tables.rowsIn flowId generation).Pairwise fun a b => a.sequence < b.sequence := by
  rw [rowsIn_eq_filter]
  refine ((hsound.ordered flowId).filter _).imp_of_mem ?_
  intro a b ha hb hearlier
  have hgenerationA := of_decide_eq_true (List.mem_filter.mp ha).2
  have hgenerationB := of_decide_eq_true (List.mem_filter.mp hb).2
  rcases hearlier with hlt | ⟨-, hlt⟩
  · omega
  · exact hlt

theorem latestStartAttempt (hsound : tables.Sound) (flowId : String) :
    tables.latestStartAttemptInDb flowId
      = (tables.rowsOf flowId).getLast?.map StartAttemptJournalRow.payload := by
  rw [latestStartAttemptInDb]
  refine congrArg _ (consistent_latest.head?_sortBy_of_descending ?_)
  apply (hsound.ordered flowId).imp
  intro a b hearlier
  have hdescending : ¬ thenBy (compareNumber b.generation a.generation)
      (compareNumber b.sequence a.sequence) ≤ 0 := by
    simp only [thenBy_nonpos, compareNumber]
    rcases hearlier with hlt | ⟨heq, hlt⟩ <;> omega
  exact not_le.mp hdescending

theorem generation_of_mem (hsound : tables.Sound) {row : StartAttemptJournalRow}
    (hrow : row ∈ tables.journal) :
    0 < row.generation ∧ row.generation ≤ (tables.identitiesOf row.flowId).length := by
  obtain ⟨identity, hidentity, hidentifies⟩ := hsound.identified row hrow
  have hmem : row.generation
      ∈ (tables.identitiesOf row.flowId).map StartAttemptIdentityRow.generation :=
    List.mem_map.mpr ⟨identity, mem_identitiesOf.mpr ⟨hidentity, hidentifies.flowId⟩,
      hidentifies.generation⟩
  rw [hsound.generations, List.mem_range'_1] at hmem
  omega

theorem exists_identity (hsound : tables.Sound) {flowId : String} {generation : Nat}
    (hpositive : 0 < generation) (hle : generation ≤ (tables.identitiesOf flowId).length) :
    ∃ identity ∈ tables.identities, identity.flowId = flowId ∧ identity.generation = generation := by
  have hmem : generation
      ∈ (tables.identitiesOf flowId).map StartAttemptIdentityRow.generation := by
    rw [hsound.generations, List.mem_range'_1]
    omega
  obtain ⟨identity, hidentity, hgeneration⟩ := List.mem_map.mp hmem
  obtain ⟨hidentity, hflowId⟩ := mem_identitiesOf.mp hidentity
  exact ⟨identity, hidentity, hflowId, hgeneration⟩

theorem isLife (hsound : tables.Sound) {flowId : String} {generation : Nat}
    (hpositive : 0 < generation) (hle : generation ≤ (tables.identitiesOf flowId).length) :
    IsLife (tables.records flowId generation) := by
  obtain ⟨identity, hidentity, rfl, rfl⟩ := hsound.exists_identity hpositive hle
  exact hsound.lives identity hidentity

theorem latest_eq_some (hsound : tables.Sound) {flowId : String} {record : StartAttemptRecord}
    (hlatest : tables.latestStartAttemptInDb flowId = some record) :
    0 < record.generation ∧ record.generation = (tables.identitiesOf flowId).length
      ∧ (tables.records flowId record.generation).getLast? = some record := by
  rw [hsound.latestStartAttempt] at hlatest
  obtain ⟨row, hlast, rfl⟩ := Option.map_eq_some_iff.mp hlatest
  obtain ⟨before, hrows⟩ := List.getLast?_eq_some_iff.mp hlast
  have hmem : row ∈ tables.rowsOf flowId := by simp [hrows]
  obtain ⟨hjournal, rfl⟩ := mem_rowsOf.mp hmem
  obtain ⟨-, hgeneration, -⟩ := hsound.payload row hjournal
  obtain ⟨hpositive, hle⟩ := hsound.generation_of_mem hjournal
  rw [hgeneration]
  refine ⟨hpositive, ?_, ?_⟩
  · apply Nat.le_antisymm hle
    have hlife : IsLife (tables.records row.flowId (tables.identitiesOf row.flowId).length) :=
      hsound.isLife (by omega) le_rfl
    cases hrecords : tables.records row.flowId (tables.identitiesOf row.flowId).length with
    | nil =>
        have hprepared := hlife.prepared
        simp [hrecords] at hprepared
    | cons first rest =>
        have hfirst : first ∈ tables.records row.flowId (tables.identitiesOf row.flowId).length := by
          simp [hrecords]
        obtain ⟨other, hother, -⟩ := List.mem_map.mp hfirst
        obtain ⟨hotherJournal, hotherFlow, hotherGeneration⟩ := mem_rowsIn.mp hother
        have hotherRow : other ∈ tables.rowsOf row.flowId :=
          mem_rowsOf.mpr ⟨hotherJournal, hotherFlow⟩
        have hordered := hsound.ordered row.flowId
        rw [hrows] at hotherRow hordered
        rcases List.mem_append.mp hotherRow with hbefore | hsame
        · have hearlier := (List.pairwise_append.mp hordered).2.2 other hbefore row (by simp)
          rcases hearlier with hlt | ⟨heq, -⟩ <;> omega
        · cases List.mem_singleton.mp hsame
          omega
  · rw [records, rowsIn_eq_filter, hrows, List.filter_append, List.filter_cons_of_pos (by simp)]
    simp

theorem latest_eq_none (hsound : tables.Sound) {flowId : String}
    (hlatest : tables.latestStartAttemptInDb flowId = none) :
    (tables.identitiesOf flowId).length = 0 := by
  rw [hsound.latestStartAttempt, Option.map_eq_none_iff, List.getLast?_eq_none_iff] at hlatest
  by_contra hpositive
  have hlife : IsLife (tables.records flowId (tables.identitiesOf flowId).length) :=
    hsound.isLife (Nat.pos_of_ne_zero hpositive) le_rfl
  have hempty : tables.records flowId (tables.identitiesOf flowId).length = [] := by
    rw [records, rowsIn_eq_filter, hlatest]
    rfl
  have hprepared := hlife.prepared
  simp [hempty] at hprepared

theorem identity_eq (hsound : tables.Sound) {left right : StartAttemptIdentityRow}
    (hleft : left ∈ tables.identities) (hright : right ∈ tables.identities)
    (hflowId : left.flowId = right.flowId) (hgeneration : left.generation = right.generation) :
    left = right := by
  have hnodup : ((tables.identitiesOf right.flowId).map
      StartAttemptIdentityRow.generation).Nodup := by
    rw [hsound.generations]
    exact List.nodup_range'
  exact List.inj_on_of_nodup_map hnodup (mem_identitiesOf.mpr ⟨hleft, hflowId⟩)
    (mem_identitiesOf.mpr ⟨hright, rfl⟩) hgeneration

theorem attemptId_iff (hsound : tables.Sound) {left right : StartAttemptJournalRow}
    (hleft : left ∈ tables.journal) (hright : right ∈ tables.journal) :
    left.attemptId = right.attemptId
      ↔ left.flowId = right.flowId ∧ left.generation = right.generation := by
  obtain ⟨first, hfirst, hfirstRow⟩ := hsound.identified left hleft
  obtain ⟨second, hsecond, hsecondRow⟩ := hsound.identified right hright
  rw [← hfirstRow.attemptId, ← hsecondRow.attemptId, ← hfirstRow.flowId, ← hsecondRow.flowId,
    ← hfirstRow.generation, ← hsecondRow.generation]
  constructor
  · intro hsame
    obtain rfl := List.inj_on_of_nodup_map hsound.attemptIds hfirst hsecond hsame
    exact ⟨rfl, rfl⟩
  · rintro ⟨hflowId, hgeneration⟩
    rw [hsound.identity_eq hfirst hsecond hflowId hgeneration]

theorem startAttemptById_of_mem (hsound : tables.Sound) {row : StartAttemptJournalRow}
    (hrow : row ∈ tables.journal) :
    tables.startAttemptByIdInDb row.attemptId = (tables.records row.flowId row.generation).getLast? := by
  have hrows : (tables.journal.filter fun other => other.attemptId = row.attemptId)
      = tables.rowsIn row.flowId row.generation := by
    apply List.filter_congr
    intro other hother
    rw [← Bool.decide_and, decide_eq_decide]
    exact hsound.attemptId_iff hother hrow
  rw [startAttemptByIdInDb, hrows, latestBySequence_eq (hsound.sequences _ _), records, List.getLast?_map]

theorem startAttemptById_eq_some (hsound : tables.Sound) {attemptId : String}
    {record : StartAttemptRecord} (hfound : tables.startAttemptByIdInDb attemptId = some record) :
    (∃ identity ∈ tables.identities, identity.flowId = record.flowId
        ∧ identity.generation = record.generation ∧ identity.attemptId = record.attemptId
        ∧ identity.tenantId = record.lineage.tenantId
        ∧ identity.idempotencyKey = record.lineage.idempotencyKey)
      ∧ (tables.records record.flowId record.generation).getLast? = some record := by
  obtain ⟨row, hhead, rfl⟩ := Option.map_eq_some_iff.mp hfound
  have hmem := mem_sortBy.mp (List.mem_of_head? hhead)
  obtain ⟨hjournal, hattemptId⟩ := List.mem_filter.mp hmem
  obtain rfl := of_decide_eq_true hattemptId
  obtain ⟨hflowId, hgeneration, hpayloadId⟩ := hsound.payload row hjournal
  rw [hflowId, hgeneration, hpayloadId, ← hsound.startAttemptById_of_mem hjournal]
  obtain ⟨identity, hidentity, hidentifies⟩ := hsound.identified row hjournal
  exact ⟨⟨identity, hidentity, hidentifies.flowId, hidentifies.generation, hidentifies.attemptId,
    hidentifies.tenantId, hidentifies.idempotencyKey⟩, hfound⟩

end Sound

/-! ### Appending a row -/

section Append

variable {row : StartAttemptJournalRow} (hjournal : next.journal = tables.journal ++ [row])

include hjournal

theorem rowsOf_append (flowId : String) :
    next.rowsOf flowId = tables.rowsOf flowId ++ if row.flowId = flowId then [row] else [] := by
  rw [rowsOf, hjournal, List.filter_append, List.filter_singleton]
  by_cases hflowId : row.flowId = flowId <;> simp [hflowId, rowsOf]

theorem records_append (flowId : String) (generation : Nat) :
    next.records flowId generation = tables.records flowId generation
      ++ if row.flowId = flowId ∧ row.generation = generation then [row.payload] else [] := by
  rw [records, rowsIn, hjournal, List.filter_append, List.map_append, List.filter_singleton]
  by_cases hmatches : row.flowId = flowId ∧ row.generation = generation
  · simp [hmatches.1, hmatches.2, records, rowsIn]
  · have hother : (decide (row.flowId = flowId) && decide (row.generation = generation)) = false := by
      simpa using hmatches
    rw [if_neg hmatches, hother]
    rfl

theorem records_of_ne {flowId : String} {generation : Nat}
    (hother : ¬ (row.flowId = flowId ∧ row.generation = generation)) :
    next.records flowId generation = tables.records flowId generation := by
  rw [records_append hjournal, if_neg hother, List.append_nil]

theorem ordered_append (hsound : tables.Sound)
    (hlast : ∀ other ∈ tables.rowsOf row.flowId, other.Earlier row) (flowId : String) :
    (next.rowsOf flowId).Pairwise StartAttemptJournalRow.Earlier := by
  rw [rowsOf_append hjournal]
  split
  · next hflowId =>
    subst hflowId
    exact List.pairwise_append.mpr ⟨hsound.ordered _, List.pairwise_singleton _ _,
      fun other hother _ hmem => List.mem_singleton.mp hmem ▸ hlast other hother⟩
  · rw [List.append_nil]
    exact hsound.ordered flowId

end Append

theorem sequence_le_journalHead {row : StartAttemptJournalRow} {flowId : String} {generation : Nat}
    (hrow : row ∈ tables.rowsIn flowId generation) :
    row.sequence ≤ tables.journalHead flowId generation := by
  have hmem : row.sequence ∈ (tables.rowsIn flowId generation).map StartAttemptJournalRow.sequence :=
    List.mem_map.mpr ⟨row, hrow, rfl⟩
  exact le_foldl_max (.inl hmem)

/-! ### The steps keep the invariant -/

theorem sound_empty : Sound {} where
  generations := by simp [identitiesOf]
  attemptIds := List.nodup_nil
  keys := List.nodup_nil
  ordered := by simp [rowsOf]
  payload := by simp
  identified := by simp
  lives := by simp
  settled := by simp [identitiesOf]
  unfenced := by simp
  fenced := by
    intro flowId generation hone hle
    simp [identitiesOf] at hle
    omega

/-- A record that follows the current one is added to the last generation. -/
theorem Sound.advanced (hsound : tables.Sound) {current record : StartAttemptRecord}
    (hadvances : Advances tables current record) (handles : List HandleRow) :
    Sound { tables with
      journal := tables.journal ++ [tables.rowFor record]
      handles := handles } := by
  obtain ⟨⟨identity, hidentity, hflowId, hgeneration, hattemptId, htenantId, hkey⟩, hlast⟩ :=
    hsound.startAttemptById_eq_some hadvances.byId
  obtain ⟨latest, hlatest, hlatestGeneration⟩ := hadvances.latest
  obtain ⟨hpositive, hcount, -⟩ := hsound.latest_eq_some hlatest
  rw [hlatestGeneration] at hpositive hcount
  set row := tables.rowFor record with hrow
  have hrowFlow : row.flowId = current.flowId := hadvances.flowId
  have hrowGeneration : row.generation = current.generation := hadvances.generation
  set next : StartAttemptTables := { tables with
    journal := tables.journal ++ [row]
    handles := handles } with hnext
  have hjournal : next.journal = tables.journal ++ [row] := rfl
  have hsame : ∀ flowId, next.identitiesOf flowId = tables.identitiesOf flowId := fun _ => rfl
  -- an earlier generation keeps its records
  have hbefore : ∀ flowId generation, generation < (tables.identitiesOf flowId).length →
      next.records flowId generation = tables.records flowId generation := by
    intro flowId generation hlt
    apply records_of_ne hjournal
    rintro ⟨hrowFlow', hrowGeneration'⟩
    rw [hrowFlow] at hrowFlow'
    subst hrowFlow'
    omega
  exact {
    generations := hsound.generations
    attemptIds := hsound.attemptIds
    keys := hsound.keys
    ordered := by
      apply ordered_append hjournal hsound
      intro other hother
      obtain ⟨hmem, hother⟩ := mem_rowsOf.mp hother
      obtain ⟨-, hle⟩ := hsound.generation_of_mem hmem
      rw [hother, hrowFlow, ← hcount, ← hrowGeneration] at hle
      rcases Nat.lt_or_eq_of_le hle with hlt | heq
      · exact .inl hlt
      · exact .inr ⟨heq, Nat.lt_succ_of_le
          (sequence_le_journalHead (mem_rowsIn.mpr ⟨hmem, hother, heq⟩))⟩
    payload := by
      intro other hother
      rcases List.mem_append.mp hother with hold | hnew
      · exact hsound.payload other hold
      · cases List.mem_singleton.mp hnew
        exact ⟨rfl, rfl, rfl⟩
    identified := by
      intro other hother
      rcases List.mem_append.mp hother with hold | hnew
      · exact hsound.identified other hold
      · cases List.mem_singleton.mp hnew
        refine ⟨identity, hidentity, hflowId.trans hrowFlow.symm,
          hgeneration.trans hrowGeneration.symm, hattemptId.trans hadvances.attemptId.symm, ?_, ?_⟩
        · exact htenantId.trans (congrArg _ hadvances.lineage.symm)
        · exact hkey.trans (congrArg _ hadvances.lineage.symm)
    lives := by
      intro other hother
      rw [records_append hjournal]
      split
      · next hmatches =>
        rw [← hmatches.1, ← hmatches.2, hrowFlow, hrowGeneration]
        have hlife := hsound.isLife hpositive hcount.le
        exact hlife.concat hlast hadvances.follows hadvances.settlement
      · rw [List.append_nil]
        exact hsound.lives other hother
    settled := by
      intro flowId generation hzero hlt
      rw [hbefore flowId generation hlt]
      exact hsound.settled flowId generation hzero hlt
    unfenced := hsound.unfenced
    fenced := by
      intro flowId generation hone hle
      rw [hsame] at hle
      rw [hbefore flowId (generation - 1) (by omega)]
      exact hsound.fenced flowId generation hone hle }

theorem identitiesOf_append {identity : StartAttemptIdentityRow}
    (hidentities : next.identities = tables.identities ++ [identity]) (flowId : String) :
    next.identitiesOf flowId
      = tables.identitiesOf flowId ++ if identity.flowId = flowId then [identity] else [] := by
  rw [identitiesOf, hidentities, List.filter_append, List.filter_singleton]
  by_cases hflowId : identity.flowId = flowId <;> simp [hflowId, identitiesOf]

theorem length_identitiesOf_append {identity : StartAttemptIdentityRow}
    (hidentities : next.identities = tables.identities ++ [identity]) (flowId : String) :
    (next.identitiesOf flowId).length
      = (tables.identitiesOf flowId).length + if identity.flowId = flowId then 1 else 0 := by
  rw [identitiesOf_append hidentities, List.length_append]
  split <;> rfl

theorem Sound.records_eq_nil (hsound : tables.Sound) {flowId : String} {generation : Nat}
    (habove : (tables.identitiesOf flowId).length < generation) :
    tables.records flowId generation = [] := by
  rw [records, List.map_eq_nil_iff, List.eq_nil_iff_forall_not_mem]
  intro row hrow
  obtain ⟨hjournal, rfl, rfl⟩ := mem_rowsIn.mp hrow
  have hle := (hsound.generation_of_mem hjournal).2
  omega

theorem Sound.manifestsOf_eq_nil (hsound : tables.Sound) {flowId : String} {generation : Nat}
    (habove : (tables.identitiesOf flowId).length < generation) :
    tables.manifestsOf flowId generation = [] := by
  rw [manifestsOf, List.filter_eq_nil_iff]
  intro row hrow hmatches
  obtain ⟨rfl, rfl⟩ : row.flowId = flowId ∧ row.generation = generation := by simpa using hmatches
  have hle := (hsound.unfenced row hrow).2
  omega

/-- A generation is opened after the last one, with a manifest unless it is the first. -/
theorem Sound.opened (hsound : tables.Sound) {identity : StartAttemptIdentityRow}
    {record : StartAttemptRecord} {fences : List RecoveryManifestRow}
    (hopens : Opens tables identity record)
    (hgeneration : identity.generation = (tables.identitiesOf identity.flowId).length + 1)
    (hfences : ∀ row ∈ fences, row.flowId = identity.flowId ∧ row.generation = identity.generation
      ∧ 1 < row.generation)
    (hfenced : 1 < identity.generation → ∃ row previous, fences = [row]
      ∧ (tables.records identity.flowId (identity.generation - 1)).getLast? = some previous
      ∧ previous.IsSettled ∧ Fences row identity.generation previous) :
    Sound { tables with
      identities := tables.identities ++ [identity]
      manifests := tables.manifests ++ fences
      journal := tables.journal ++ [tables.rowFor record] } := by
  set row := tables.rowFor record with hrow
  have hrowFlow : row.flowId = identity.flowId := hopens.flowId
  have hrowGeneration : row.generation = identity.generation := hopens.generation
  set next : StartAttemptTables := { tables with
    identities := tables.identities ++ [identity]
    manifests := tables.manifests ++ fences
    journal := tables.journal ++ [row] } with hnext
  have hjournal : next.journal = tables.journal ++ [row] := rfl
  have hidentities : next.identities = tables.identities ++ [identity] := rfl
  have hlength := length_identitiesOf_append hidentities
  -- the generations that were there keep their records
  have hbefore : ∀ flowId generation, generation ≤ (tables.identitiesOf flowId).length →
      next.records flowId generation = tables.records flowId generation := by
    intro flowId generation hle
    apply records_of_ne hjournal
    rintro ⟨hrowFlow', hrowGeneration'⟩
    rw [hrowFlow] at hrowFlow'
    subst hrowFlow'
    omega
  have hidentifies : Identifies identity row :=
    ⟨hrowFlow.symm, hrowGeneration.symm, hopens.attemptId.symm, hopens.tenantId.symm,
      hopens.idempotencyKey.symm⟩
  exact {
    generations := by
      intro flowId
      rw [identitiesOf_append hidentities]
      split
      · next hflowId =>
        subst hflowId
        rw [List.map_append, hsound.generations, List.length_append, List.length_singleton,
          List.range'_concat, List.map_singleton, hgeneration, Nat.one_mul, Nat.add_comm 1]
      · rw [List.append_nil]
        exact hsound.generations flowId
    attemptIds := by
      rw [hidentities, List.map_append, List.map_singleton, ← List.concat_eq_append]
      refine List.Nodup.concat ?_ hsound.attemptIds
      intro hmem
      obtain ⟨other, hother, hsame⟩ := List.mem_map.mp hmem
      exact (hopens.fresh other hother).2.1 hsame
    keys := by
      rw [hidentities, List.map_append, List.map_singleton, ← List.concat_eq_append]
      refine List.Nodup.concat ?_ hsound.keys
      intro hmem
      obtain ⟨other, hother, hsame⟩ := List.mem_map.mp hmem
      exact (hopens.fresh other hother).2.2 (Prod.mk.inj hsame).1 (Prod.mk.inj hsame).2
    ordered := by
      apply ordered_append hjournal hsound
      intro other hother
      obtain ⟨hmem, hother⟩ := mem_rowsOf.mp hother
      obtain ⟨-, hle⟩ := hsound.generation_of_mem hmem
      rw [hother, hrowFlow] at hle
      exact .inl (by omega)
    payload := by
      intro other hother
      rcases List.mem_append.mp hother with hold | hnew
      · exact hsound.payload other hold
      · cases List.mem_singleton.mp hnew
        exact ⟨rfl, rfl, rfl⟩
    identified := by
      intro other hother
      rcases List.mem_append.mp hother with hold | hnew
      · obtain ⟨found, hfound, hidentified⟩ := hsound.identified other hold
        exact ⟨found, List.mem_append_left _ hfound, hidentified⟩
      · cases List.mem_singleton.mp hnew
        exact ⟨identity, List.mem_append_right _ (List.mem_singleton_self _), hidentifies⟩
    lives := by
      intro other hother
      rcases List.mem_append.mp hother with hold | hnew
      · have hmem : other.generation ∈ (tables.identitiesOf other.flowId).map
            StartAttemptIdentityRow.generation :=
          List.mem_map.mpr ⟨other, mem_identitiesOf.mpr ⟨hold, rfl⟩, rfl⟩
        rw [hsound.generations, List.mem_range'_1] at hmem
        rw [hbefore _ _ (by omega)]
        exact hsound.lives other hold
      · cases List.mem_singleton.mp hnew
        rw [records_append hjournal, if_pos ⟨hrowFlow, hrowGeneration⟩,
          hsound.records_eq_nil (by omega)]
        exact isLife_singleton hopens.state
    settled := by
      intro flowId generation hzero hlt
      rw [hlength] at hlt
      by_cases hold : generation < (tables.identitiesOf flowId).length
      · rw [hbefore flowId generation hold.le]
        exact hsound.settled flowId generation hzero hold
      · split at hlt
        · next hflowId =>
          subst hflowId
          obtain rfl : generation = identity.generation - 1 := by omega
          obtain ⟨-, previous, -, hprevious, hsettled, -⟩ := hfenced (by omega)
          rw [hbefore _ _ (by omega)]
          exact ⟨previous, hprevious, hsettled⟩
        · omega
    unfenced := by
      intro fence hfence
      rw [hlength]
      rcases List.mem_append.mp hfence with hold | hnew
      · obtain ⟨hone, hle⟩ := hsound.unfenced fence hold
        exact ⟨hone, hle.trans (Nat.le_add_right _ _)⟩
      · obtain ⟨hflowId, hfenceGeneration, hone⟩ := hfences fence hnew
        rw [hflowId, if_pos rfl, hfenceGeneration, hgeneration]
        exact ⟨by omega, le_rfl⟩
    fenced := by
      intro flowId generation hone hle
      rw [hlength] at hle
      have hmanifests : next.manifestsOf flowId generation
          = tables.manifestsOf flowId generation
            ++ fences.filter fun row => row.flowId = flowId && row.generation = generation :=
        List.filter_append ..
      by_cases hold : generation ≤ (tables.identitiesOf flowId).length
      · rw [hbefore flowId (generation - 1) (by omega), hmanifests,
          List.filter_eq_nil_iff.mpr, List.append_nil]
        · exact hsound.fenced flowId generation hone hold
        · intro fence hfence hmatches
          obtain ⟨rfl, rfl⟩ : fence.flowId = flowId ∧ fence.generation = generation := by
            simpa using hmatches
          obtain ⟨hflowId, hfenceGeneration, -⟩ := hfences fence hfence
          rw [hflowId] at hold
          omega
      · split at hle
        · next hflowId =>
          subst hflowId
          obtain rfl : generation = identity.generation := by omega
          obtain ⟨fence, previous, rfl, hprevious, -, hfence⟩ := hfenced hone
          obtain ⟨hflowId, hfenceGeneration, -⟩ := hfences fence (List.mem_singleton_self _)
          refine ⟨fence, previous, ?_, ?_, hfence⟩
          · rw [hmanifests, hsound.manifestsOf_eq_nil (by omega)]
            simp [hflowId, hfenceGeneration]
          · rwa [hbefore _ _ (by omega)]
        · omega }

end StartAttemptTables

open StartAttemptTables

theorem sound_step (hsound : tables.Sound) (hstep : StartAttemptStep tables next) : next.Sound := by
  cases hstep with
  | replayed => exact hsound
  | first identity record hopens hgeneration hnone =>
      have hcount := hsound.latest_eq_none hnone
      have hnone : ∀ row ∈ ([] : List RecoveryManifestRow), row.flowId = identity.flowId
          ∧ row.generation = identity.generation ∧ 1 < row.generation := by
        intro row hrow
        cases hrow
      have hopened := hsound.opened hopens (by omega) hnone (fun hone => absurd hone (by omega))
      simpa using hopened
  | later identity record previous row hopens hprevious hgeneration hterminal hmanifest hrow =>
      obtain ⟨hpositive, hcount, hlast⟩ := hsound.latest_eq_some hprevious
      have hlife := hsound.isLife hpositive hcount.le
      apply hsound.opened hopens (by omega)
      · intro fence hfence
        cases List.mem_singleton.mp hfence
        exact ⟨hrow.1, hrow.2.1, by omega⟩
      · intro _
        refine ⟨row, previous, rfl, ?_, hlife.settled previous (List.mem_of_getLast? hlast) hterminal,
          hrow.2.2.2.2.1, ?_, hmanifest.2.1, hmanifest.2.2.1, hmanifest.2.2.2⟩
        · rwa [hgeneration, Nat.add_sub_cancel]
        · rw [hmanifest.1, hgeneration]
  | advanced current record handles hadvances => exact hsound.advanced hadvances handles

/-! ### Runs -/

theorem perform_cases (host : HostFunctions) (call : StartAttemptCall) (tables : StartAttemptTables) :
    (call.perform host tables).2 = tables
        ∧ (∃ error, call.transaction host tables = .error error)
      ∨ ∃ result, call.transaction host tables = .ok (result, (call.perform host tables).2) := by
  unfold StartAttemptCall.perform
  cases htransaction : call.transaction host tables with
  | error error => exact .inl ⟨rfl, error, rfl⟩
  | ok committed => exact .inr ⟨committed.1, rfl⟩

theorem sound_run (host : HostFunctions) (calls : List StartAttemptCall)
    (hsound : tables.Sound) : (runStartAttempts host calls tables).Sound := by
  induction calls generalizing tables with
  | nil => exact hsound
  | cons call rest ih =>
      apply ih
      change (call.perform host tables).2.Sound
      rcases perform_cases host call tables with ⟨hsame, -⟩ | ⟨result, hok⟩
      · rwa [hsame]
      · exact sound_step hsound (step_of_transaction hok)

/-- What the tables say of one flow. -/
structure GenerationsContract (tables : StartAttemptTables) (flowId : String) : Prop where
  identities : (tables.identitiesOf flowId).map StartAttemptIdentityRow.generation
    = List.range' 1 (tables.identitiesOf flowId).length
  journal : ∀ generation, tables.records flowId generation ≠ []
    ↔ 0 < generation ∧ generation ≤ (tables.identitiesOf flowId).length
  settled : ∀ generation, 0 < generation → generation < (tables.identitiesOf flowId).length →
    ∃ record, (tables.records flowId generation).getLast? = some record ∧ record.IsSettled
  fenced : ∀ generation, 1 < generation → generation ≤ (tables.identitiesOf flowId).length →
    ∃ row predecessor, tables.manifestsOf flowId generation = [row]
      ∧ (tables.records flowId (generation - 1)).getLast? = some predecessor
      ∧ Fences row generation predecessor
  lives : ∀ generation, tables.records flowId generation ≠ [] →
    IsLife (tables.records flowId generation)

/-- Over any calls, the generations of every flow are numbered without a gap, settled one after the
other and fenced by their manifests, and no attempt id or idempotency key stands for two of them. -/
theorem startAttempts_generations (host : HostFunctions) (calls : List StartAttemptCall) :
    (∀ flowId, GenerationsContract (runStartAttempts host calls {}) flowId)
      ∧ (∀ left ∈ (runStartAttempts host calls {}).journal,
        ∀ right ∈ (runStartAttempts host calls {}).journal,
          left.payload.attemptId = right.payload.attemptId
              ∨ left.payload.lineage.tenantId = right.payload.lineage.tenantId
                ∧ left.payload.lineage.idempotencyKey = right.payload.lineage.idempotencyKey →
            left.payload.flowId = right.payload.flowId
              ∧ left.payload.generation = right.payload.generation) := by
  have hsound := sound_run host calls sound_empty
  generalize runStartAttempts host calls {} = tables at hsound
  constructor
  · intro flowId
    have hjournal : ∀ generation, tables.records flowId generation ≠ []
        ↔ 0 < generation ∧ generation ≤ (tables.identitiesOf flowId).length := by
      intro generation
      constructor
      · intro hrecords
        obtain ⟨record, hrecord⟩ := List.exists_mem_of_ne_nil _ hrecords
        obtain ⟨row, hrow, -⟩ := List.mem_map.mp hrecord
        obtain ⟨hmem, rfl, rfl⟩ := mem_rowsIn.mp hrow
        exact hsound.generation_of_mem hmem
      · rintro ⟨hpositive, hle⟩ hempty
        have hprepared := (hsound.isLife hpositive hle).prepared
        simp [hempty] at hprepared
    exact {
      identities := hsound.generations flowId
      journal := hjournal
      settled := hsound.settled flowId
      fenced := hsound.fenced flowId
      lives := fun generation hrecords =>
        hsound.isLife ((hjournal generation).mp hrecords).1 ((hjournal generation).mp hrecords).2 }
  · intro left hleft right hright hsame
    obtain ⟨hleftFlow, hleftGeneration, hleftId⟩ := hsound.payload left hleft
    obtain ⟨hrightFlow, hrightGeneration, hrightId⟩ := hsound.payload right hright
    rw [hleftFlow, hleftGeneration, hrightFlow, hrightGeneration, ← hsound.attemptId_iff hleft hright]
    rcases hsame with hattemptId | ⟨htenantId, hkey⟩
    · rwa [← hleftId, ← hrightId]
    · obtain ⟨first, hfirst, hfirstRow⟩ := hsound.identified left hleft
      obtain ⟨second, hsecond, hsecondRow⟩ := hsound.identified right hright
      rw [← hfirstRow.tenantId, ← hsecondRow.tenantId] at htenantId
      rw [← hfirstRow.idempotencyKey, ← hsecondRow.idempotencyKey] at hkey
      obtain rfl := List.inj_on_of_nodup_map hsound.keys hfirst hsecond (Prod.ext htenantId hkey)
      rw [← hfirstRow.attemptId, ← hsecondRow.attemptId]

/-- An attempt that fails before its process is born, and the one that replaces it. -/
def retriedCalls : List StartAttemptCall :=
  let lineage : StartAttemptLineage := {
    tenantId := "local"
    projectId := "p"
    actor := { id := "operator" }
    origin := .cli
    correlationId := "c"
    idempotencyKey := "k"
    parentPlanLineageHash := "h"
    parentCorrelationId := "c"
    authorizationAuthority := "approval" }
  let first : PrepareStartAttemptInput := {
    flowId := "f"
    revision := 1
    planDigest := "d"
    attemptId := "a"
    preparedAt := "t"
    lineage := lineage
    owner := {
      process := { pid := 1, startToken := none, evidence := .unavailable }
      ownerNonce := "n"
      leaseUntil := "t" } }
  [ .prepare first,
    .settle {
      flowId := "f"
      revision := 1
      planDigest := "d"
      generation := 1
      attemptId := "a"
      ownerNonce := "n"
      settlement := { state := .failed, code := "SPAWN_FAILED", settledAt := "t" }
      authority := .effectUnknown },
    .prepare { first with
      attemptId := "b"
      lineage := { lineage with idempotencyKey := "l" }
      expectedPrevious := some { generation := 1, attemptId := "a" } } ]

example :
    let tables := runStartAttempts ⟨fun _ => some 0, fun _ => "", fun _ => ""⟩ retriedCalls {}
    (tables.records "f" 1).map StartAttemptRecord.state = [.prepared, .failed]
      ∧ (tables.records "f" 2).map StartAttemptRecord.state = [.prepared]
      ∧ tables.manifests.length = 1 := by
  decide +kernel

end Deckent.RunFlow
