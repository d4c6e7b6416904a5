import Deckent.Lib.Fallible
import Deckent.Model.ApprovalSla

/-!
# Stages that no reminder loses

A call audits the stages above its cursor that have fallen due or cannot be reached before the expiry. Where a
stage is skipped only when every stage that can be reached has fallen due, the cursor stands for all stages below
it, and every run audits each stage once and sends each event until it is acknowledged or a higher one is sent.
-/

namespace Deckent.ApprovalSla

open ApprovalLifecycle (SlaOffsets)

variable {parseDate : String → Option Int} {request : SlaRequest} {createdAtMs expiresAtMs now : Int}
  {slaMs : SlaOffsets} {instants : SlaInstants} {current : ApprovalSlaState}

/-! ### Stages by their ordinal -/

def stageOf : Nat → ApprovalSlaStage
  | 0 => .initial
  | 1 => .renotify
  | 2 => .alternateChannel
  | 3 => .parkAlert
  | _ => .expired

def SlaInstants.dueAt (instants : SlaInstants) : Nat → Int
  | 0 => instants.createdAtMs
  | 1 => instants.createdAtMs + instants.slaMs.first
  | 2 => instants.createdAtMs + instants.slaMs.second
  | 3 => instants.createdAtMs + instants.slaMs.third
  | _ => instants.expiresAtMs

/-- As what a stage is audited by a call, if its cursor is below it. -/
def SlaInstants.crosses (instants : SlaInstants) (ordinal : Nat) : Option ApprovalSlaEvidenceKind :=
  if ordinal = 0 then some .due
  else if ordinal = 4 then if instants.expiresAtMs ≤ instants.nowMs then some .expired else none
  else if instants.expiresAtMs ≤ instants.dueAt ordinal then some .skipped
  else if instants.dueAt ordinal ≤ instants.nowMs then some .due
  else none

def pieceOf (request : SlaRequest) (instants : SlaInstants) (ordinal : Nat) (kind : ApprovalSlaEvidenceKind) :
    ApprovalSlaEvidence where
  eventId := approvalSlaEventId request.requestId request.lifecycleGeneration (stageOf ordinal)
  requestId := request.requestId
  lifecycleGeneration := request.lifecycleGeneration
  stage := stageOf ordinal
  ordinal := ordinal
  kind := kind
  dueAt := instants.dueAt ordinal
  observedAt := instants.nowMs
  authoredPolicyDigest := request.policy.authoredPolicyDigest
  appliedPolicyDigest := request.policy.appliedPolicyDigest
  reasonCode := if kind = .skipped then some "effective-expiry-precedes-stage" else none

def newPieces (request : SlaRequest) (instants : SlaInstants) (lastAudit : Int) : List ApprovalSlaEvidence :=
  [0, 1, 2, 3, 4].filterMap fun (ordinal : Nat) =>
    if (ordinal : Int) ≤ lastAudit then none
    else (instants.crosses ordinal).map (pieceOf request instants ordinal)

/-! ### Requests and clocks -/

def IsDate (ms : Int) : Prop := ms.natAbs ≤ maxTimeMs

/-- `validateInput` accepts the request, whatever valid date the clock reads. -/
structure ValidRequest (parseDate : String → Option Int) (request : SlaRequest) (createdAtMs expiresAtMs : Int)
    (slaMs : SlaOffsets) : Prop where
  accepted : ∀ now, validateInput parseDate request (some now) none = .ok ⟨createdAtMs, expiresAtMs, now, slaMs⟩

/-- A stage is skipped only when every stage that can be reached has fallen due, and its time is a date. -/
def SlaInstants.Settles (instants : SlaInstants) : Prop :=
  ∀ ordinal ∈ [1, 2, 3], instants.expiresAtMs ≤ instants.dueAt ordinal →
    IsDate (instants.dueAt ordinal) ∧ ∀ other ∈ [1, 2, 3],
      instants.dueAt other < instants.expiresAtMs → instants.dueAt other ≤ instants.nowMs

theorem requireSla_eq_ok {condition : Bool} {message : String} {done : Unit} :
    requireSla condition message = .ok done ↔ condition = true := by
  unfold requireSla
  cases condition <;> simp

theorem elim_eq_ok {α : Type} {value : Option α} {message : String} {a : α} :
    value.elim (Except.error message) Except.ok = .ok a ↔ value = some a := by
  cases value <;> simp

theorem parseInstant_eq_ok {value field : String} {instant : Int} :
    parseInstant parseDate value field = .ok instant ↔ parseDate value = some instant := by
  unfold parseInstant
  cases parseDate value <;> simp

theorem validateInput_eq_ok {clock : Option Int} {state : Option ApprovalSlaState} :
    validateInput parseDate request clock state = .ok instants ↔
      request.requestId ≠ ""
        ∧ (1 ≤ (utf16 request.lifecycleGeneration).length ∧ (utf16 request.lifecycleGeneration).length ≤ 128)
        ∧ parseDate request.createdAt = some instants.createdAtMs
        ∧ parseDate request.expiresAt = some instants.expiresAtMs ∧ clock = some instants.nowMs
        ∧ instants.createdAtMs < instants.expiresAtMs ∧ parseOffsets request.policy.slaMs = some instants.slaMs
        ∧ isSha256Digest request.policy.authoredPolicyDigest = true
        ∧ isSha256Digest request.policy.appliedPolicyDigest = true ∧ state.all request.owns = true := by
  unfold validateInput assertDigest
  simp only [bind_eq_ok, requireSla_eq_ok, elim_eq_ok, parseInstant_eq_ok, pure_eq_ok, exists_and_left]
  simp only [decide_eq_true_eq, Bool.and_eq_true]
  constructor
  · rintro ⟨hid, hgeneration, -, -, created, hcreated, expires, hexpires, now, hclock, hlt, -, offsets, hoffsets,
      hauthored, happlied, howns, -, -, -, rfl⟩
    exact ⟨hid, hgeneration, hcreated, hexpires, hclock, hlt, hoffsets, hauthored, happlied, howns⟩
  · rintro ⟨hid, hgeneration, hcreated, hexpires, hclock, hlt, hoffsets, hauthored, happlied, howns⟩
    exact ⟨hid, hgeneration, (), (), _, hcreated, _, hexpires, _, hclock, hlt, (), _, hoffsets, hauthored, happlied,
      howns, (), (), (), rfl⟩

theorem parseOffsets_eq_some {offsets : JsNumber × JsNumber × JsNumber} (hparsed : parseOffsets offsets = some slaMs) :
    slaMs.first < slaMs.second ∧ slaMs.second < slaMs.third := by
  unfold parseOffsets at hparsed
  split at hparsed
  · split at hparsed
    · next hlt =>
        obtain rfl := Option.some.inj hparsed
        exact hlt
    · cases hparsed
  · cases hparsed

namespace ValidRequest

variable (hvalid : ValidRequest parseDate request createdAtMs expiresAtMs slaMs)

include hvalid

theorem validateInput_eq {state : Option ApprovalSlaState} (howns : state.all request.owns = true) (now : Int) :
    validateInput parseDate request (some now) state = .ok ⟨createdAtMs, expiresAtMs, now, slaMs⟩ := by
  obtain ⟨hid, hgeneration, hcreated, hexpires, hclock, hlt, hoffsets, hauthored, happlied, -⟩ :=
    validateInput_eq_ok.mp (hvalid.accepted now)
  exact validateInput_eq_ok.mpr
    ⟨hid, hgeneration, hcreated, hexpires, hclock, hlt, hoffsets, hauthored, happlied, howns⟩

theorem created_lt : createdAtMs < expiresAtMs := by
  obtain ⟨-, -, -, -, -, hlt, -⟩ := validateInput_eq_ok.mp (hvalid.accepted 0)
  exact hlt

theorem offsets_lt : slaMs.first < slaMs.second ∧ slaMs.second < slaMs.third := by
  obtain ⟨-, -, -, -, -, -, hoffsets, -⟩ := validateInput_eq_ok.mp (hvalid.accepted 0)
  exact parseOffsets_eq_some hoffsets

theorem parsed : parseDate request.createdAt = some createdAtMs ∧ parseDate request.expiresAt = some expiresAtMs := by
  obtain ⟨-, -, hcreated, hexpires, -⟩ := validateInput_eq_ok.mp (hvalid.accepted 0)
  exact ⟨hcreated, hexpires⟩

end ValidRequest

/-! ### One call -/

/-- The times of creation, expiry and the clock are dates, and the stages come one after the other. -/
structure SlaInstants.Ordered (instants : SlaInstants) : Prop where
  created : IsDate instants.createdAtMs
  expires : IsDate instants.expiresAtMs
  now : IsDate instants.nowMs
  lt : instants.createdAtMs < instants.expiresAtMs
  first : instants.slaMs.first < instants.slaMs.second
  second : instants.slaMs.second < instants.slaMs.third

theorem ValidRequest.ordered (hvalid : ValidRequest parseDate request createdAtMs expiresAtMs slaMs)
    (hdates : ∀ text ms, parseDate text = some ms → IsDate ms) (hdate : IsDate now) :
    SlaInstants.Ordered ⟨createdAtMs, expiresAtMs, now, slaMs⟩ where
  created := hdates _ _ hvalid.parsed.1
  expires := hdates _ _ hvalid.parsed.2
  now := hdate
  lt := hvalid.created_lt
  first := hvalid.offsets_lt.1
  second := hvalid.offsets_lt.2

theorem SlaInstants.created_le_dueAt (hordered : instants.Ordered) (ordinal : Nat) :
    instants.createdAtMs ≤ instants.dueAt ordinal := by
  have hlt := hordered.lt
  unfold dueAt
  split <;> omega

theorem IsDate.of_between {low high ms : Int} (hlow : IsDate low) (hhigh : IsDate high) (hle : low ≤ ms)
    (hge : ms ≤ high) : IsDate ms := by
  unfold IsDate at *
  omega

theorem evidence_eq {ordinal : Nat} {kind : ApprovalSlaEvidenceKind} (hdue : IsDate (instants.dueAt ordinal))
    (hnow : IsDate instants.nowMs) :
    evidence request (stageOf ordinal) ordinal kind (instants.dueAt ordinal) instants.nowMs
        (if kind = .skipped then some "effective-expiry-precedes-stage" else none)
      = .ok (pieceOf request instants ordinal kind) := by
  unfold IsDate at hdue hnow
  unfold evidence isoInstant
  rw [if_pos hdue, if_pos hnow]
  rfl

def crossingOf (request : SlaRequest) (instants : SlaInstants) (current : ApprovalSlaState) (ordinal : Nat) :
    List Crossing :=
  if (ordinal : Int) ≤ current.lastAuditOrdinal then []
  else ((instants.crosses ordinal).map fun kind =>
    ⟨pieceOf request instants ordinal kind, kind = .due && current.lastOutboundOrdinal < ordinal⟩).toList

theorem crossOne_eq (hordered : instants.Ordered) (hsettles : instants.Settles) {ordinal : Nat}
    (hordinal : ordinal ∈ [1, 2, 3]) :
    crossOne request instants current ⟨stageOf ordinal, ordinal, instants.dueAt ordinal⟩
      = .ok (crossingOf request instants current ordinal) := by
  have hne : ordinal ≠ 0 ∧ ordinal ≠ 4 := by
    simp only [List.mem_cons, List.not_mem_nil, or_false] at hordinal
    omega
  unfold crossOne crossingOf SlaInstants.crosses
  rw [if_neg hne.1, if_neg hne.2]
  dsimp only
  split
  · rfl
  · split
    · next hskipped =>
        have hpiece : evidence request _ ordinal .skipped _ _ _ = _ :=
          evidence_eq (hsettles ordinal hordinal hskipped).1 hordered.now
        simp only [reduceIte] at hpiece
        rw [hpiece]
        rfl
    · split
      · next hdue =>
          have hdate := hordered.created.of_between hordered.now (SlaInstants.created_le_dueAt hordered ordinal) hdue
          have hpiece : evidence request _ ordinal .due _ _ _ = _ := evidence_eq hdate hordered.now
          simp only [reduceCtorEq, reduceIte] at hpiece
          rw [hpiece]
          simp [Except.map]
      · rfl

theorem crossTimed_eq (hordered : instants.Ordered) (hsettles : instants.Settles) :
    crossTimed request instants current instants.timed
      = .ok ([1, 2, 3].flatMap (crossingOf request instants current)) := by
  have hone {ordinal : Nat} (hordinal : ordinal ∈ [1, 2, 3]) :
      crossOne request instants current ⟨stageOf ordinal, ordinal, instants.dueAt ordinal⟩ = _ :=
    crossOne_eq hordered hsettles hordinal
  have htimed : instants.timed
      = [1, 2, 3].map fun ordinal => ⟨stageOf ordinal, ordinal, instants.dueAt ordinal⟩ := rfl
  rw [htimed]
  simp only [List.map_cons, List.map_nil, crossTimed, hone, List.mem_cons, List.not_mem_nil, or_false, true_or,
    or_true, List.flatMap_cons, List.flatMap_nil]
  rfl

theorem crossInitial_eq (request : SlaRequest) (current : ApprovalSlaState) (hordered : instants.Ordered) :
    ∃ initial, crossInitial request instants current = .ok initial
      ∧ initial.map (·.evidence) = (crossingOf request instants current 0).map (·.evidence)
      ∧ (instants.nowMs < instants.expiresAtMs → initial = crossingOf request instants current 0) := by
  have hpiece : evidence request _ 0 .due _ _ _ = _ :=
    evidence_eq (show IsDate (instants.dueAt 0) from hordered.created) hordered.now
  unfold crossInitial crossingOf
  by_cases hnew : current.lastAuditOrdinal < 0
  · rw [if_pos hnew, if_neg (by simpa using hnew)]
    simp only [reduceCtorEq, reduceIte] at hpiece
    have hinitial : evidence request .initial 0 .due instants.createdAtMs instants.nowMs none
      = .ok (pieceOf request instants 0 .due) := hpiece
    rw [hinitial]
    refine ⟨_, rfl, rfl, fun hopen => ?_⟩
    simp [SlaInstants.crosses, hopen]
  · rw [if_neg hnew, if_pos (by simpa using hnew)]
    exact ⟨[], rfl, rfl, fun _ => rfl⟩

theorem newPieces_eq (request : SlaRequest) (instants : SlaInstants) (current : ApprovalSlaState) :
    newPieces request instants current.lastAuditOrdinal
      = ([0, 1, 2, 3, 4].flatMap (crossingOf request instants current)).map (·.evidence) := by
  unfold newPieces
  rw [List.filterMap_eq_flatMap_toList, List.map_flatMap]
  refine List.flatMap_congr fun ordinal _ => ?_
  unfold crossingOf
  split
  · rfl
  · cases instants.crosses ordinal <;> rfl

def actionable (request : SlaRequest) (instants : SlaInstants) (current : ApprovalSlaState) :
    List ApprovalSlaEvidence :=
  (newPieces request instants current.lastAuditOrdinal).filter fun item =>
    item.kind = .due && current.lastOutboundOrdinal < (item.ordinal : Int)

theorem crossingOf_isActionable {ordinal : Nat} {crossing : Crossing}
    (hcrossing : crossing ∈ crossingOf request instants current ordinal) :
    crossing.isActionable
      = (crossing.evidence.kind = .due && current.lastOutboundOrdinal < (crossing.evidence.ordinal : Int)) := by
  unfold crossingOf at hcrossing
  split at hcrossing
  · cases hcrossing
  · obtain ⟨kind, -, rfl⟩ := Option.map_eq_some_iff.mp (Option.mem_toList.mp hcrossing)
    rfl

theorem actionable_eq (request : SlaRequest) (instants : SlaInstants) (current : ApprovalSlaState) :
    actionable request instants current
      = (([0, 1, 2, 3, 4].flatMap (crossingOf request instants current)).filter (·.isActionable)).map
          (·.evidence) := by
  unfold actionable
  rw [newPieces_eq, List.filter_map]
  congr 1
  refine List.filter_congr fun crossing hcrossing => ?_
  obtain ⟨ordinal, -, hmem⟩ := List.mem_flatMap.mp hcrossing
  exact (crossingOf_isActionable hmem).symm

section Advance

variable (hvalid : ValidRequest parseDate request createdAtMs expiresAtMs slaMs)
  (hordered : SlaInstants.Ordered ⟨createdAtMs, expiresAtMs, now, slaMs⟩)
  (hsettles : SlaInstants.Settles ⟨createdAtMs, expiresAtMs, now, slaMs⟩)
  {state : Option ApprovalSlaState} (howns : state.all request.owns = true)
  (hterminal : (state.getD request.freshState).terminal = false)

include hvalid hordered hsettles howns hterminal

theorem advance_expired (hexpired : expiresAtMs ≤ now) (hlast : (state.getD request.freshState).lastAuditOrdinal < 4) :
    advanceApprovalSla parseDate request (some now) state = .ok {
      state := { state.getD request.freshState with
        lastAuditOrdinal := 4, lastOutboundOrdinal := 4, terminal := true }
      audit := newPieces request ⟨createdAtMs, expiresAtMs, now, slaMs⟩
        (state.getD request.freshState).lastAuditOrdinal
      outbound := if (state.getD request.freshState).lastOutboundOrdinal < 4
        then [pieceOf request ⟨createdAtMs, expiresAtMs, now, slaMs⟩ 4 .expired] else [] } := by
  obtain ⟨initial, hinitial, hevidence, -⟩ :=
    crossInitial_eq request (state.getD request.freshState) hordered
  have hpiece : evidence request .expired 4 .expired expiresAtMs now none
      = .ok (pieceOf request ⟨createdAtMs, expiresAtMs, now, slaMs⟩ 4 .expired) := by
    have hdue : IsDate (SlaInstants.dueAt ⟨createdAtMs, expiresAtMs, now, slaMs⟩ 4) := hordered.expires
    exact evidence_eq hdue hordered.now
  unfold advanceApprovalSla
  refine bind_eq_ok.mpr ⟨_, hvalid.validateInput_eq howns now, ?_⟩
  rw [if_neg (by simp [hterminal])]
  refine bind_eq_ok.mpr ⟨_, hinitial, bind_eq_ok.mpr ⟨_, crossTimed_eq hordered hsettles, ?_⟩⟩
  rw [if_pos ⟨hexpired, hlast⟩]
  refine bind_eq_ok.mpr ⟨_, hpiece, ?_⟩
  have hlastPiece : (crossingOf request ⟨createdAtMs, expiresAtMs, now, slaMs⟩ (state.getD request.freshState) 4).map
      (·.evidence) = [pieceOf request ⟨createdAtMs, expiresAtMs, now, slaMs⟩ 4 .expired] := by
    unfold crossingOf SlaInstants.crosses
    rw [if_neg (by simpa using hlast)]
    simp [hexpired]
  have haudit : (initial ++ [1, 2, 3].flatMap (crossingOf request ⟨createdAtMs, expiresAtMs, now, slaMs⟩
      (state.getD request.freshState))).map (·.evidence)
        ++ [pieceOf request ⟨createdAtMs, expiresAtMs, now, slaMs⟩ 4 .expired]
      = newPieces request ⟨createdAtMs, expiresAtMs, now, slaMs⟩
        (state.getD request.freshState).lastAuditOrdinal := by
    rw [newPieces_eq, ← hlastPiece, List.map_append, hevidence]
    simp
  rw [haudit]
  rfl

/-- A call before the expiry, or after the call that has seen it. -/
theorem advance_open (hopen : ¬(expiresAtMs ≤ now ∧ (state.getD request.freshState).lastAuditOrdinal < 4)) :
    advanceApprovalSla parseDate request (some now) state = .ok {
      state := { state.getD request.freshState with
        lastAuditOrdinal := (newPieces request ⟨createdAtMs, expiresAtMs, now, slaMs⟩
          (state.getD request.freshState).lastAuditOrdinal).foldl
            (fun value item => max value (item.ordinal : Int)) (state.getD request.freshState).lastAuditOrdinal
        lastOutboundOrdinal := (((actionable request ⟨createdAtMs, expiresAtMs, now, slaMs⟩
          (state.getD request.freshState)).foldl highest none).map fun item => (item.ordinal : Int)).getD
            (state.getD request.freshState).lastOutboundOrdinal }
      audit := newPieces request ⟨createdAtMs, expiresAtMs, now, slaMs⟩
        (state.getD request.freshState).lastAuditOrdinal
      outbound := ((actionable request ⟨createdAtMs, expiresAtMs, now, slaMs⟩
        (state.getD request.freshState)).foldl highest none).toList } := by
  obtain ⟨initial, hinitial, -, hsame⟩ :=
    crossInitial_eq request (state.getD request.freshState) hordered
  have hnone : crossingOf request ⟨createdAtMs, expiresAtMs, now, slaMs⟩ (state.getD request.freshState) 4 = [] := by
    unfold crossingOf SlaInstants.crosses
    split
    · rfl
    · next hlast =>
        have hbefore : ¬ expiresAtMs ≤ now := fun hle => hopen ⟨hle, by simpa using hlast⟩
        simp [hbefore]
  have hfirst : initial
      = crossingOf request ⟨createdAtMs, expiresAtMs, now, slaMs⟩ (state.getD request.freshState) 0 := by
    by_cases hbefore : now < expiresAtMs
    · exact hsame hbefore
    · have hlast : ¬(state.getD request.freshState).lastAuditOrdinal < 4 := fun hlt => hopen ⟨by omega, hlt⟩
      unfold crossInitial at hinitial
      rw [if_neg (by omega)] at hinitial
      obtain rfl := Except.ok.inj hinitial
      unfold crossingOf
      rw [if_pos (by push_cast; omega)]
  have hall : initial ++ [1, 2, 3].flatMap (crossingOf request ⟨createdAtMs, expiresAtMs, now, slaMs⟩
      (state.getD request.freshState)) = [0, 1, 2, 3, 4].flatMap
        (crossingOf request ⟨createdAtMs, expiresAtMs, now, slaMs⟩ (state.getD request.freshState)) := by
    simp [hfirst, hnone]
  unfold advanceApprovalSla
  refine bind_eq_ok.mpr ⟨_, hvalid.validateInput_eq howns now, ?_⟩
  rw [if_neg (by simp [hterminal])]
  refine bind_eq_ok.mpr ⟨_, hinitial, bind_eq_ok.mpr ⟨_, crossTimed_eq hordered hsettles, ?_⟩⟩
  rw [if_neg hopen, hall, ← newPieces_eq, ← actionable_eq]
  rfl

end Advance

/-! ### The cursor -/

def IsLast (ordinals : List Nat) (last : Int) : Prop :=
  (∀ ordinal ∈ ordinals, (ordinal : Int) ≤ last) ∧ (last = -1 ∧ ordinals = [] ∨ ∃ ordinal ∈ ordinals, last = ordinal)

theorem IsLast.neg_le {ordinals : List Nat} {last : Int} (hlast : IsLast ordinals last) : -1 ≤ last := by
  obtain ⟨rfl, -⟩ | ⟨ordinal, -, rfl⟩ := hlast.2
  · exact le_refl _
  · omega

theorem IsLast.foldl {ordinals : List Nat} {last : Int} (hlast : IsLast ordinals last) (more : List Nat) :
    IsLast (ordinals ++ more) (more.foldl (fun value (ordinal : Nat) => max value (ordinal : Int)) last) := by
  induction more generalizing ordinals last with
  | nil => simpa using hlast
  | cons ordinal rest ih =>
      have hnext : IsLast (ordinals ++ [ordinal]) (max last (ordinal : Int)) := by
        refine ⟨fun other hother => ?_, .inr ?_⟩
        · obtain hother | hother := List.mem_append.mp hother
          · exact (hlast.1 other hother).trans (le_max_left _ _)
          · obtain rfl := List.mem_singleton.mp hother
            exact le_max_right _ _
        · obtain hle | hle := le_total last (ordinal : Int)
          · exact ⟨ordinal, by simp, max_eq_right hle⟩
          · obtain ⟨rfl, -⟩ | ⟨other, hother, rfl⟩ := hlast.2
            · exact absurd hle (by omega)
            · exact ⟨other, List.mem_append_left _ hother, max_eq_left hle⟩
      rw [List.foldl_cons, List.append_cons]
      exact ih hnext

theorem isLast_lastOrdinal (ordinals : List Nat) : IsLast ordinals (lastOrdinal ordinals) := by
  have hnone : IsLast [] (-1) := ⟨by simp, .inl ⟨rfl, rfl⟩⟩
  simpa [lastOrdinal] using hnone.foldl ordinals

structure Cursor (instants : SlaInstants) (audit : List ApprovalSlaEvidence) : Prop where
  nodup : (audit.map (·.ordinal)).Nodup
  crosses : ∀ item ∈ audit, item.ordinal ≤ 4 ∧ item.stage = stageOf item.ordinal
    ∧ instants.crosses item.ordinal = some item.kind
  closed : ∀ item ∈ audit, ∀ ordinal < item.ordinal, ordinal ∈ audit.map (·.ordinal)

def Complete (instants : SlaInstants) (audit : List ApprovalSlaEvidence) : Prop :=
  ∀ ordinal ≤ 4, (instants.crosses ordinal).isSome = true → ordinal ∈ audit.map (·.ordinal)

theorem crosses_mono {later : Int} (hle : now ≤ later) {ordinal : Nat} {kind : ApprovalSlaEvidenceKind}
    (hcrosses : SlaInstants.crosses ⟨createdAtMs, expiresAtMs, now, slaMs⟩ ordinal = some kind) :
    SlaInstants.crosses ⟨createdAtMs, expiresAtMs, later, slaMs⟩ ordinal = some kind := by
  unfold SlaInstants.crosses at *
  dsimp only at *
  have hdue : SlaInstants.dueAt ⟨createdAtMs, expiresAtMs, later, slaMs⟩ ordinal
      = SlaInstants.dueAt ⟨createdAtMs, expiresAtMs, now, slaMs⟩ ordinal := by
    unfold SlaInstants.dueAt
    split <;> rfl
  rw [hdue]
  split at hcrosses
  · next hzero => rwa [if_pos hzero]
  · next hzero =>
      rw [if_neg hzero]
      split at hcrosses
      · next hfour =>
          rw [if_pos hfour]
          split at hcrosses
          · next hexpired => rwa [if_pos (hexpired.trans hle)]
          · cases hcrosses
      · next hfour =>
          rw [if_neg hfour]
          split at hcrosses
          · next hskipped => rwa [if_pos hskipped]
          · next hreached =>
              rw [if_neg hreached]
              split at hcrosses
              · next hfallen => rwa [if_pos (hfallen.trans hle)]
              · cases hcrosses

theorem isSome_crosses_iff {ordinal : Nat} (hordinal : ordinal ∈ [1, 2, 3]) :
    (instants.crosses ordinal).isSome = true
      ↔ instants.expiresAtMs ≤ instants.dueAt ordinal ∨ instants.dueAt ordinal ≤ instants.nowMs := by
  have hne : ordinal ≠ 0 ∧ ordinal ≠ 4 := by
    simp only [List.mem_cons, List.not_mem_nil, or_false] at hordinal
    omega
  unfold SlaInstants.crosses
  rw [if_neg hne.1, if_neg hne.2]
  split
  · next hskipped => simp [hskipped]
  · next hreached =>
      split
      · next hfallen => simp [hfallen]
      · next hfallen => simp [hreached, hfallen]

theorem isSome_crosses_four : (instants.crosses 4).isSome = true ↔ instants.expiresAtMs ≤ instants.nowMs := by
  simp [SlaInstants.crosses]

theorem dueAt_mono (hordered : instants.Ordered) {ordinal other : Nat} (hordinal : ordinal ∈ [1, 2, 3])
    (hother : other ∈ [1, 2, 3]) (hle : other ≤ ordinal) : instants.dueAt other ≤ instants.dueAt ordinal := by
  obtain ⟨-, -, -, -, hfirst, hsecond⟩ := hordered
  simp only [List.mem_cons, List.not_mem_nil, or_false] at hordinal hother
  obtain rfl | rfl | rfl := hordinal <;> obtain rfl | rfl | rfl := hother <;>
    simp only [SlaInstants.dueAt] <;> omega

theorem crosses_of_le (hordered : instants.Ordered) (hsettles : instants.Settles) {ordinal other : Nat}
    (hordinal : ordinal ≤ 4) (hle : other ≤ ordinal) (hcrosses : (instants.crosses ordinal).isSome = true) :
    (instants.crosses other).isSome = true := by
  obtain rfl | hother | rfl : other = 0 ∨ other ∈ [1, 2, 3] ∨ other = 4 := by
    simp only [List.mem_cons, List.not_mem_nil, or_false]
    omega
  · rfl
  · rw [isSome_crosses_iff hother]
    obtain hlt | hreached := lt_or_ge (instants.dueAt other) instants.expiresAtMs
    · right
      obtain hthree | rfl : ordinal ∈ [1, 2, 3] ∨ ordinal = 4 := by
        simp only [List.mem_cons, List.not_mem_nil, or_false] at hother ⊢
        omega
      · obtain hskipped | hfallen := (isSome_crosses_iff hthree).mp hcrosses
        · exact (hsettles ordinal hthree hskipped).2 other hother hlt
        · exact (dueAt_mono hordered hthree hother hle).trans hfallen
      · exact hlt.le.trans (isSome_crosses_four.mp hcrosses)
    · exact .inl hreached
  · obtain rfl : ordinal = 4 := by omega
    exact hcrosses

theorem mem_newPieces {last : Int} {item : ApprovalSlaEvidence} :
    item ∈ newPieces request instants last ↔ ∃ (ordinal : Nat) (kind : _), ordinal ≤ 4 ∧ last < (ordinal : Int)
      ∧ instants.crosses ordinal = some kind ∧ item = pieceOf request instants ordinal kind := by
  unfold newPieces
  rw [List.mem_filterMap]
  constructor
  · rintro ⟨ordinal, hordinal, hitem⟩
    split at hitem
    · cases hitem
    · next hlast =>
        obtain ⟨kind, hkind, rfl⟩ := Option.map_eq_some_iff.mp hitem
        refine ⟨ordinal, kind, ?_, by omega, hkind, rfl⟩
        simp only [List.mem_cons, List.not_mem_nil, or_false] at hordinal
        omega
  · rintro ⟨ordinal, kind, hordinal, hlast, hkind, rfl⟩
    refine ⟨ordinal, ?_, ?_⟩
    · simp only [List.mem_cons, List.not_mem_nil, or_false]
      omega
    · rw [if_neg (by omega), hkind]
      rfl

theorem pairwise_newPieces (request : SlaRequest) (instants : SlaInstants) (last : Int) :
    (newPieces request instants last).Pairwise fun earlier later => earlier.ordinal < later.ordinal := by
  have hordinals : [0, 1, 2, 3, 4].Pairwise fun earlier later : Nat => earlier < later := by decide
  refine List.Pairwise.filterMap _ (fun earlier later hlt item hitem other hother => ?_) hordinals
  have hof {ordinal : Nat} {item : ApprovalSlaEvidence} (hitem : (if (ordinal : Int) ≤ last then none
      else (instants.crosses ordinal).map (pieceOf request instants ordinal)) = some item) :
      item.ordinal = ordinal := by
    split at hitem
    · cases hitem
    · obtain ⟨kind, -, rfl⟩ := Option.map_eq_some_iff.mp hitem
      rfl
  rw [hof hitem, hof hother]
  exact hlt

theorem mem_take_of_lt {items : List ApprovalSlaEvidence}
    (hsorted : items.Pairwise fun earlier later => earlier.ordinal < later.ordinal) {count : Nat}
    {item other : ApprovalSlaEvidence} (hitem : item ∈ items.take count) (hother : other ∈ items)
    (hlt : other.ordinal < item.ordinal) : other ∈ items.take count := by
  rw [← List.take_append_drop count items] at hother hsorted
  obtain hother | hother := List.mem_append.mp hother
  · exact hother
  · have hafter := (List.pairwise_append.mp hsorted).2.2 item hitem other hother
    omega

theorem Cursor.mem_of_le {audit : List ApprovalSlaEvidence} (hcursor : Cursor instants audit) {last : Int}
    (hlast : IsLast (audit.map (·.ordinal)) last) {ordinal : Nat} (hle : (ordinal : Int) ≤ last) :
    ordinal ∈ audit.map (·.ordinal) := by
  obtain ⟨rfl, -⟩ | ⟨attained, hattained, rfl⟩ := hlast.2
  · omega
  · obtain ⟨reached, hreached, rfl⟩ := List.mem_map.mp hattained
    obtain heq | hlt := eq_or_lt_of_le (Int.ofNat_le.mp hle)
    · exact heq ▸ hattained
    · exact hcursor.closed reached hreached ordinal hlt

variable (request) in
theorem Cursor.extend {audit : List ApprovalSlaEvidence} (hordered : instants.Ordered)
    (hsettles : instants.Settles) (hcursor : Cursor instants audit) {last : Int}
    (hlast : IsLast (audit.map (·.ordinal)) last) (count : Nat) :
    Cursor instants (audit ++ (newPieces request instants last).take count) where
  nodup := by
    have hsorted := (pairwise_newPieces request instants last).sublist (List.take_sublist count _)
    rw [List.map_append]
    refine hcursor.nodup.append ?_ ?_
    · exact List.pairwise_map.mpr (hsorted.imp fun hlt => hlt.ne)
    · intro ordinal hold hnew
      obtain ⟨item, hitem, rfl⟩ := List.mem_map.mp hnew
      obtain ⟨ordinal, kind, -, hlt, -, rfl⟩ := mem_newPieces.mp (List.mem_of_mem_take hitem)
      exact absurd (hlast.1 _ hold) (not_le.mpr hlt)
  crosses := by
    intro item hitem
    obtain hitem | hitem := List.mem_append.mp hitem
    · exact hcursor.crosses item hitem
    · obtain ⟨ordinal, kind, hordinal, -, hkind, rfl⟩ := mem_newPieces.mp (List.mem_of_mem_take hitem)
      exact ⟨hordinal, rfl, hkind⟩
  closed := by
    intro item hitem other hother
    rw [List.map_append, List.mem_append]
    obtain hitem | hitem := List.mem_append.mp hitem
    · exact .inl (hcursor.closed item hitem other hother)
    · obtain ⟨ordinal, kind, hordinal, -, hkind, hpiece⟩ := mem_newPieces.mp (List.mem_of_mem_take hitem)
      obtain hle | hlt := le_or_gt (other : Int) last
      · exact .inl (hcursor.mem_of_le hlast hle)
      · right
        have hbelow : other < ordinal := by rwa [hpiece] at hother
        obtain ⟨found, hfound⟩ := Option.isSome_iff_exists.mp
          (crosses_of_le hordered hsettles hordinal hbelow.le (by rw [hkind]; rfl))
        have hmem : pieceOf request instants other found ∈ newPieces request instants last :=
          mem_newPieces.mpr ⟨other, found, by omega, hlt, hfound, rfl⟩
        exact List.mem_map.mpr ⟨_, mem_take_of_lt (pairwise_newPieces request instants last) hitem hmem
          (by rw [hpiece]; exact hbelow), rfl⟩

variable (request) in
theorem Cursor.complete {audit : List ApprovalSlaEvidence} (hcursor : Cursor instants audit) {last : Int}
    (hlast : IsLast (audit.map (·.ordinal)) last) :
    Complete instants (audit ++ newPieces request instants last) := by
  intro ordinal hordinal hcrosses
  rw [List.map_append, List.mem_append]
  obtain hle | hlt := le_or_gt (ordinal : Int) last
  · exact .inl (hcursor.mem_of_le hlast hle)
  · obtain ⟨kind, hkind⟩ := Option.isSome_iff_exists.mp hcrosses
    exact .inr (List.mem_map.mpr ⟨_, mem_newPieces.mpr ⟨ordinal, kind, hordinal, hlt, hkind, rfl⟩, rfl⟩)

theorem Cursor.mono {later : Int} (hle : now ≤ later) {audit : List ApprovalSlaEvidence}
    (hcursor : Cursor ⟨createdAtMs, expiresAtMs, now, slaMs⟩ audit) :
    Cursor ⟨createdAtMs, expiresAtMs, later, slaMs⟩ audit where
  nodup := hcursor.nodup
  crosses := fun item hitem =>
    have hcrosses := hcursor.crosses item hitem
    ⟨hcrosses.1, hcrosses.2.1, crosses_mono hle hcrosses.2.2⟩
  closed := hcursor.closed

structure AuditedAt (instants : SlaInstants) (audit : List ApprovalSlaEvidence) : Prop where
  once : (audit.map (·.ordinal)).Nodup
  stage : ∀ item ∈ audit, item.stage = stageOf item.ordinal
  due : ∀ ordinal ∈ [1, 2, 3], (∃ item ∈ audit, item.ordinal = ordinal ∧ item.kind = .due)
    ↔ instants.dueAt ordinal < instants.expiresAtMs ∧ instants.dueAt ordinal ≤ instants.nowMs
  skipped : ∀ ordinal ∈ [1, 2, 3], (∃ item ∈ audit, item.ordinal = ordinal ∧ item.kind = .skipped)
    ↔ instants.expiresAtMs ≤ instants.dueAt ordinal
  expired : (∃ item ∈ audit, item.ordinal = 4 ∧ item.kind = .expired) ↔ instants.expiresAtMs ≤ instants.nowMs

theorem Cursor.exists_iff {audit : List ApprovalSlaEvidence} (hcursor : Cursor instants audit)
    (hcomplete : Complete instants audit) {ordinal : Nat} (hordinal : ordinal ≤ 4) {kind : ApprovalSlaEvidenceKind} :
    (∃ item ∈ audit, item.ordinal = ordinal ∧ item.kind = kind) ↔ instants.crosses ordinal = some kind := by
  constructor
  · rintro ⟨item, hitem, rfl, rfl⟩
    exact (hcursor.crosses item hitem).2.2
  · intro hcrosses
    obtain ⟨item, hitem, rfl⟩ := List.mem_map.mp (hcomplete ordinal hordinal (by rw [hcrosses]; rfl))
    have hkind := (hcursor.crosses item hitem).2.2
    rw [hcrosses] at hkind
    exact ⟨item, hitem, rfl, (Option.some.inj hkind).symm⟩

theorem crosses_eq_due_iff {ordinal : Nat} (hordinal : ordinal ∈ [1, 2, 3]) :
    instants.crosses ordinal = some .due
      ↔ instants.dueAt ordinal < instants.expiresAtMs ∧ instants.dueAt ordinal ≤ instants.nowMs := by
  have hne : ordinal ≠ 0 ∧ ordinal ≠ 4 := by
    simp only [List.mem_cons, List.not_mem_nil, or_false] at hordinal
    omega
  unfold SlaInstants.crosses
  rw [if_neg hne.1, if_neg hne.2]
  split
  · next hskipped => simp [hskipped]
  · next hreached => simp [not_le.mp hreached]

theorem crosses_eq_skipped_iff {ordinal : Nat} (hordinal : ordinal ∈ [1, 2, 3]) :
    instants.crosses ordinal = some .skipped ↔ instants.expiresAtMs ≤ instants.dueAt ordinal := by
  have hne : ordinal ≠ 0 ∧ ordinal ≠ 4 := by
    simp only [List.mem_cons, List.not_mem_nil, or_false] at hordinal
    omega
  unfold SlaInstants.crosses
  rw [if_neg hne.1, if_neg hne.2]
  simp

theorem Cursor.auditedAt {audit : List ApprovalSlaEvidence} (hcursor : Cursor instants audit)
    (hcomplete : Complete instants audit) : AuditedAt instants audit where
  once := hcursor.nodup
  stage := fun item hitem => (hcursor.crosses item hitem).2.1
  due := by
    intro ordinal hordinal
    rw [hcursor.exists_iff hcomplete (by simp at hordinal; omega), crosses_eq_due_iff hordinal]
  skipped := by
    intro ordinal hordinal
    rw [hcursor.exists_iff hcomplete (by simp at hordinal; omega), crosses_eq_skipped_iff hordinal]
  expired := by
    rw [hcursor.exists_iff hcomplete (le_refl 4)]
    simp [SlaInstants.crosses]

/-! ### Calls that pass the state on -/

def Sends (audit sent : List ApprovalSlaEvidence) : Prop :=
  ∀ item ∈ audit, item.kind ≠ .skipped → item ∈ sent ∨ ∃ later ∈ sent, item.ordinal < later.ordinal

inductive ThreadedRun (parseDate : String → Option Int) (request : SlaRequest) (allowed : Int → Prop) :
    List (Int × AdvanceApprovalSlaResult) → Option ApprovalSlaState → Prop
  | start : ThreadedRun parseDate request allowed [] none
  | call {calls : List (Int × AdvanceApprovalSlaResult)} {state : Option ApprovalSlaState} {now : Int}
      {result : AdvanceApprovalSlaResult} (hrun : ThreadedRun parseDate request allowed calls state)
      (hclock : ∀ call ∈ calls, call.1 ≤ now) (hdate : IsDate now) (hallowed : allowed now)
      (hcall : advanceApprovalSla parseDate request (some now) state = .ok result) :
      ThreadedRun parseDate request allowed (calls ++ [(now, result)]) (some result.state)

def audited (calls : List (Int × AdvanceApprovalSlaResult)) : List ApprovalSlaEvidence :=
  calls.flatMap (·.2.audit)

def sent (calls : List (Int × AdvanceApprovalSlaResult)) : List ApprovalSlaEvidence :=
  calls.flatMap (·.2.outbound)

/-- The state that is passed on stands for the calls. -/
structure Threads (request : SlaRequest) (instants : SlaInstants) (calls : List (Int × AdvanceApprovalSlaResult))
    (state : Option ApprovalSlaState) : Prop where
  owns : state.all request.owns = true
  cursor : Cursor instants (audited calls)
  lastAudit : IsLast ((audited calls).map (·.ordinal)) (state.getD request.freshState).lastAuditOrdinal
  lastOutbound : IsLast ((sent calls).map (·.ordinal)) (state.getD request.freshState).lastOutboundOrdinal
  sent_mem : ∀ item ∈ sent calls, item ∈ audited calls ∧ item.kind ≠ .skipped
  sends : Sends (audited calls) (sent calls)
  terminal : (state.getD request.freshState).terminal = true →
    (state.getD request.freshState).lastAuditOrdinal = 4

theorem threads_start : Threads request instants [] none where
  owns := rfl
  cursor := ⟨by simp [audited], by simp [audited], by simp [audited]⟩
  lastAudit := ⟨by simp [audited], .inl ⟨rfl, rfl⟩⟩
  lastOutbound := ⟨by simp [sent], .inl ⟨rfl, rfl⟩⟩
  sent_mem := by simp [sent]
  sends := by simp [Sends, audited]
  terminal := by simp [SlaRequest.freshState]

/-- The highest of some items. -/
theorem highest_spec (items : List ApprovalSlaEvidence) (found : Option ApprovalSlaEvidence) :
    (items.foldl highest found = none → found = none ∧ items = [])
      ∧ ∀ top, items.foldl highest found = some top →
        (top ∈ items ∨ found = some top) ∧ (∀ item ∈ items, item.ordinal ≤ top.ordinal)
          ∧ ∀ item, found = some item → item.ordinal ≤ top.ordinal := by
  induction items generalizing found with
  | nil => exact ⟨fun hnone => ⟨hnone, rfl⟩, fun top htop => ⟨.inr htop, by simp, fun item hitem => by
      obtain rfl := Option.some.inj (hitem.symm.trans htop)
      exact le_refl _⟩⟩
  | cons first rest ih =>
      rw [List.foldl_cons]
      obtain ⟨hnone, hsome⟩ := ih (highest found first)
      have hhighest : ∃ next, highest found first = some next ∧ (next = first ∨ found = some next)
          ∧ first.ordinal ≤ next.ordinal ∧ ∀ item, found = some item → item.ordinal ≤ next.ordinal := by
        cases found with
        | none => exact ⟨first, rfl, .inl rfl, le_refl _, by simp⟩
        | some value =>
            unfold highest
            by_cases hlt : value.ordinal < first.ordinal
            · exact ⟨first, if_pos hlt, .inl rfl, le_refl _, fun item hitem => by
                obtain rfl := Option.some.inj hitem
                exact hlt.le⟩
            · exact ⟨value, if_neg hlt, .inr rfl, not_lt.mp hlt, fun item hitem => by
                obtain rfl := Option.some.inj hitem
                exact le_refl _⟩
      obtain ⟨next, hnext, hfrom, hfirst, hfound⟩ := hhighest
      rw [hnext] at hnone hsome ⊢
      refine ⟨fun hempty => absurd (hnone hempty).1 (by simp), fun top htop => ?_⟩
      obtain ⟨hmem, hall, habove⟩ := hsome top htop
      have hle := habove next rfl
      refine ⟨?_, ?_, fun item hitem => (hfound item hitem).trans hle⟩
      · obtain hmem | hsame := hmem
        · exact .inl (List.mem_cons_of_mem _ hmem)
        · obtain rfl := Option.some.inj hsame
          obtain rfl | hfound := hfrom
          · exact .inl List.mem_cons_self
          · exact .inr hfound
      · intro item hitem
        obtain rfl | hitem := List.mem_cons.mp hitem
        · exact hfirst.trans hle
        · exact hall item hitem

theorem newPieces_four (request : SlaRequest) (instants : SlaInstants) : newPieces request instants 4 = [] := by
  rw [List.eq_nil_iff_forall_not_mem]
  intro item hitem
  obtain ⟨ordinal, kind, hordinal, hlast, -⟩ := mem_newPieces.mp hitem
  omega

variable (request) in
theorem Cursor.extendAll {audit : List ApprovalSlaEvidence} (hordered : instants.Ordered)
    (hsettles : instants.Settles) (hcursor : Cursor instants audit) {last : Int}
    (hlast : IsLast (audit.map (·.ordinal)) last) :
    Cursor instants (audit ++ newPieces request instants last) := by
  have hextend := hcursor.extend request hordered hsettles hlast
    (newPieces request instants last).length
  rwa [List.take_length] at hextend

theorem crosses_eq_expired {ordinal : Nat} (hexpired : instants.crosses ordinal = some .expired) :
    ordinal = 4 ∧ instants.expiresAtMs ≤ instants.nowMs := by
  unfold SlaInstants.crosses at hexpired
  split at hexpired
  · cases hexpired
  · split at hexpired
    · next hfour =>
        split at hexpired
        · next hle => exact ⟨hfour, hle⟩
        · cases hexpired
    · split at hexpired
      · cases hexpired
      · split at hexpired <;> cases hexpired

theorem mem_actionable (hopen : ¬(instants.expiresAtMs ≤ instants.nowMs ∧ current.lastAuditOrdinal < 4))
    (hle : current.lastOutboundOrdinal ≤ current.lastAuditOrdinal) {item : ApprovalSlaEvidence}
    (hitem : item ∈ newPieces request instants current.lastAuditOrdinal) (hkind : item.kind ≠ .skipped) :
    item ∈ actionable request instants current := by
  obtain ⟨ordinal, kind, -, hlast, hcrosses, rfl⟩ := mem_newPieces.mp hitem
  have hdue : kind = .due := by
    cases kind with
    | due => rfl
    | skipped => exact absurd rfl hkind
    | expired =>
        obtain ⟨rfl, hexpired⟩ := crosses_eq_expired hcrosses
        exact absurd ⟨hexpired, hlast⟩ hopen
  refine List.mem_filter.mpr ⟨hitem, ?_⟩
  have houtbound : current.lastOutboundOrdinal < (ordinal : Int) := hle.trans_lt hlast
  simpa [pieceOf, hdue] using houtbound

theorem newPieces_inj {last : Int} {item other : ApprovalSlaEvidence}
    (hitem : item ∈ newPieces request instants last) (hother : other ∈ newPieces request instants last)
    (hsame : item.ordinal = other.ordinal) : item = other := by
  obtain ⟨ordinal, kind, -, -, hcrosses, rfl⟩ := mem_newPieces.mp hitem
  obtain ⟨ordinal', kind', -, -, hcrosses', rfl⟩ := mem_newPieces.mp hother
  obtain rfl : ordinal = ordinal' := hsame
  obtain rfl := Option.some.inj (hcrosses.symm.trans hcrosses')
  rfl

theorem audited_append (calls : List (Int × AdvanceApprovalSlaResult)) (now : Int)
    (result : AdvanceApprovalSlaResult) : audited (calls ++ [(now, result)]) = audited calls ++ result.audit := by
  simp [audited]

theorem sent_append (calls : List (Int × AdvanceApprovalSlaResult)) (now : Int)
    (result : AdvanceApprovalSlaResult) : sent (calls ++ [(now, result)]) = sent calls ++ result.outbound := by
  simp [sent]

section Threads

variable {calls : List (Int × AdvanceApprovalSlaResult)} {state : Option ApprovalSlaState}

theorem Threads.outbound_le (hthreads : Threads request instants calls state) :
    (state.getD request.freshState).lastOutboundOrdinal ≤ (state.getD request.freshState).lastAuditOrdinal := by
  obtain ⟨hnone, -⟩ | ⟨ordinal, hordinal, hlast⟩ := hthreads.lastOutbound.2
  · exact hnone ▸ hthreads.lastAudit.neg_le
  · obtain ⟨item, hitem, rfl⟩ := List.mem_map.mp hordinal
    exact hlast ▸ hthreads.lastAudit.1 _ (List.mem_map_of_mem (hthreads.sent_mem item hitem).1)

theorem Threads.mono {later : Int} (hle : now ≤ later)
    (hthreads : Threads request ⟨createdAtMs, expiresAtMs, now, slaMs⟩ calls state) :
    Threads request ⟨createdAtMs, expiresAtMs, later, slaMs⟩ calls state :=
  { hthreads with cursor := hthreads.cursor.mono hle }

variable (hvalid : ValidRequest parseDate request createdAtMs expiresAtMs slaMs)
  (hordered : SlaInstants.Ordered ⟨createdAtMs, expiresAtMs, now, slaMs⟩)
  (hsettles : SlaInstants.Settles ⟨createdAtMs, expiresAtMs, now, slaMs⟩)

include hordered hsettles in
/-- The call that sees the expiry sends it. -/
theorem Threads.expired (hthreads : Threads request ⟨createdAtMs, expiresAtMs, now, slaMs⟩ calls state)
    (hexpired : expiresAtMs ≤ now) (hlast : (state.getD request.freshState).lastAuditOrdinal < 4)
    {result : AdvanceApprovalSlaResult}
    (hstate : result.state = { state.getD request.freshState with
      lastAuditOrdinal := 4, lastOutboundOrdinal := 4, terminal := true })
    (haudit : result.audit = newPieces request ⟨createdAtMs, expiresAtMs, now, slaMs⟩
      (state.getD request.freshState).lastAuditOrdinal)
    (houtbound : result.outbound = [pieceOf request ⟨createdAtMs, expiresAtMs, now, slaMs⟩ 4 .expired])
    (howns : request.owns (state.getD request.freshState) = true) :
    Threads request ⟨createdAtMs, expiresAtMs, now, slaMs⟩ (calls ++ [(now, result)]) (some result.state) := by
  have hpiece : pieceOf request ⟨createdAtMs, expiresAtMs, now, slaMs⟩ 4 .expired
      ∈ newPieces request ⟨createdAtMs, expiresAtMs, now, slaMs⟩ (state.getD request.freshState).lastAuditOrdinal :=
    mem_newPieces.mpr ⟨4, .expired, le_refl 4, hlast, by simp [SlaInstants.crosses, hexpired], rfl⟩
  have hcursor := hthreads.cursor.extendAll request hordered hsettles hthreads.lastAudit
  have hmem : ∀ item ∈ sent calls ++ [pieceOf request ⟨createdAtMs, expiresAtMs, now, slaMs⟩ 4 .expired],
      item ∈ audited calls ++ newPieces request ⟨createdAtMs, expiresAtMs, now, slaMs⟩
        (state.getD request.freshState).lastAuditOrdinal ∧ item.kind ≠ .skipped := by
    intro item hitem
    obtain hitem | hitem := List.mem_append.mp hitem
    · obtain ⟨hold, hkind⟩ := hthreads.sent_mem item hitem
      exact ⟨List.mem_append_left _ hold, hkind⟩
    · obtain rfl := List.mem_singleton.mp hitem
      exact ⟨List.mem_append_right _ hpiece, by simp [pieceOf]⟩
  refine ⟨?_, ?_, ?_, ?_, ?_, ?_, ?_⟩
  · simpa [hstate, SlaRequest.owns] using howns
  · rwa [audited_append, haudit]
  · rw [audited_append, haudit, hstate]
    refine ⟨fun ordinal hordinal => ?_, .inr ⟨4, ?_, rfl⟩⟩
    · obtain ⟨item, hitem, rfl⟩ := List.mem_map.mp hordinal
      exact Int.ofNat_le.mpr (hcursor.crosses item hitem).1
    · exact List.mem_map.mpr ⟨_, List.mem_append_right _ hpiece, rfl⟩
  · rw [sent_append, houtbound, hstate]
    refine ⟨fun ordinal hordinal => ?_, .inr ⟨4, ?_, rfl⟩⟩
    · obtain ⟨item, hitem, rfl⟩ := List.mem_map.mp hordinal
      exact Int.ofNat_le.mpr (hcursor.crosses item (hmem item hitem).1).1
    · exact List.mem_map.mpr ⟨_, List.mem_append_right _ (List.mem_singleton_self _), rfl⟩
  · rwa [sent_append, houtbound, audited_append, haudit]
  · rw [sent_append, houtbound, audited_append, haudit]
    intro item hitem hkind
    obtain heq | hlt := eq_or_lt_of_le (hcursor.crosses item hitem).1
    · obtain hold | hnew := List.mem_append.mp hitem
      · have hle := hthreads.lastAudit.1 _ (List.mem_map_of_mem hold)
        omega
      · rw [newPieces_inj hnew hpiece heq]
        exact .inl (by simp)
    · exact .inr ⟨_, List.mem_append_right _ (List.mem_singleton_self _), hlt⟩
  · intro _
    rw [hstate]
    rfl

include hordered hsettles in
/-- A call before the expiry, or after the call that has seen it, sends the highest new piece. -/
theorem Threads.open (hthreads : Threads request ⟨createdAtMs, expiresAtMs, now, slaMs⟩ calls state)
    (hopen : ¬(expiresAtMs ≤ now ∧ (state.getD request.freshState).lastAuditOrdinal < 4))
    (hterminal : (state.getD request.freshState).terminal = false) {result : AdvanceApprovalSlaResult}
    (hstate : result.state = { state.getD request.freshState with
      lastAuditOrdinal := (newPieces request ⟨createdAtMs, expiresAtMs, now, slaMs⟩
        (state.getD request.freshState).lastAuditOrdinal).foldl
          (fun value item => max value (item.ordinal : Int)) (state.getD request.freshState).lastAuditOrdinal
      lastOutboundOrdinal := (((actionable request ⟨createdAtMs, expiresAtMs, now, slaMs⟩
        (state.getD request.freshState)).foldl highest none).map fun item => (item.ordinal : Int)).getD
          (state.getD request.freshState).lastOutboundOrdinal })
    (haudit : result.audit = newPieces request ⟨createdAtMs, expiresAtMs, now, slaMs⟩
      (state.getD request.freshState).lastAuditOrdinal)
    (houtbound : result.outbound = ((actionable request ⟨createdAtMs, expiresAtMs, now, slaMs⟩
      (state.getD request.freshState)).foldl highest none).toList)
    (howns : request.owns (state.getD request.freshState) = true) :
    Threads request ⟨createdAtMs, expiresAtMs, now, slaMs⟩ (calls ++ [(now, result)]) (some result.state) := by
  have hcursor := hthreads.cursor.extendAll request hordered hsettles hthreads.lastAudit
  have hactionable {item : ApprovalSlaEvidence} (hitem : item ∈ actionable request
      ⟨createdAtMs, expiresAtMs, now, slaMs⟩ (state.getD request.freshState)) :
      item ∈ newPieces request ⟨createdAtMs, expiresAtMs, now, slaMs⟩
        (state.getD request.freshState).lastAuditOrdinal ∧ item.kind = .due
        ∧ (state.getD request.freshState).lastOutboundOrdinal < (item.ordinal : Int) := by
    obtain ⟨hnew, hkind⟩ := List.mem_filter.mp hitem
    simpa using ⟨hnew, by simpa using hkind⟩
  have hspec := highest_spec (actionable request ⟨createdAtMs, expiresAtMs, now, slaMs⟩
    (state.getD request.freshState)) none
  have hlast : IsLast ((audited (calls ++ [(now, result)])).map (·.ordinal)) result.state.lastAuditOrdinal := by
    rw [audited_append, haudit, hstate, List.map_append]
    have hfold := hthreads.lastAudit.foldl ((newPieces request ⟨createdAtMs, expiresAtMs, now, slaMs⟩
      (state.getD request.freshState).lastAuditOrdinal).map (·.ordinal))
    rwa [List.foldl_map] at hfold
  have howned : (some result.state).all request.owns = true := by
    simpa [hstate, SlaRequest.owns] using howns
  have hstill : result.state.terminal = false := by rw [hstate]; exact hterminal
  cases htop : (actionable request ⟨createdAtMs, expiresAtMs, now, slaMs⟩
      (state.getD request.freshState)).foldl highest none with
  | none =>
      have hnone := (hspec.1 htop).2
      have hsent : sent (calls ++ [(now, result)]) = sent calls := by
        rw [sent_append, houtbound, htop]
        simp
      refine ⟨howned, ?_, hlast, ?_, ?_, ?_, fun hended => absurd hended (by simp [hstill])⟩
      · rwa [audited_append, haudit]
      · rw [hsent, hstate, htop]
        exact hthreads.lastOutbound
      · rw [hsent, audited_append]
        intro item hitem
        exact ⟨List.mem_append_left _ (hthreads.sent_mem item hitem).1, (hthreads.sent_mem item hitem).2⟩
      · rw [hsent, audited_append, haudit]
        intro item hitem hkind
        obtain hold | hnew := List.mem_append.mp hitem
        · exact hthreads.sends item hold hkind
        · have hmem := mem_actionable hopen hthreads.outbound_le hnew hkind
          rw [hnone] at hmem
          cases hmem
  | some top =>
      obtain ⟨hmem, hhighest, -⟩ := hspec.2 top htop
      obtain ⟨hnew, hdue, habove⟩ := hactionable (hmem.resolve_right (by simp))
      have hsent : sent (calls ++ [(now, result)]) = sent calls ++ [top] := by
        rw [sent_append, houtbound, htop]
        rfl
      refine ⟨howned, ?_, hlast, ?_, ?_, ?_, fun hended => absurd hended (by simp [hstill])⟩
      · rwa [audited_append, haudit]
      · rw [hsent, hstate, htop]
        refine ⟨fun ordinal hordinal => ?_, .inr ⟨top.ordinal, by simp, rfl⟩⟩
        rw [List.map_append] at hordinal
        obtain hold | hnew := List.mem_append.mp hordinal
        · exact (hthreads.lastOutbound.1 ordinal hold).trans habove.le
        · obtain rfl : ordinal = top.ordinal := by simpa using hnew
          exact le_refl _
      · rw [hsent, audited_append, haudit]
        intro item hitem
        obtain hitem | hitem := List.mem_append.mp hitem
        · exact ⟨List.mem_append_left _ (hthreads.sent_mem item hitem).1, (hthreads.sent_mem item hitem).2⟩
        · obtain rfl := List.mem_singleton.mp hitem
          exact ⟨List.mem_append_right _ hnew, by simp [hdue]⟩
      · rw [hsent, audited_append, haudit]
        intro item hitem hkind
        obtain hold | hother := List.mem_append.mp hitem
        · obtain hsame | ⟨later, hlater, hlt⟩ := hthreads.sends item hold hkind
          · exact .inl (List.mem_append_left _ hsame)
          · exact .inr ⟨later, List.mem_append_left _ hlater, hlt⟩
        · have hle := hhighest item (mem_actionable hopen hthreads.outbound_le hother hkind)
          obtain heq | hlt := eq_or_lt_of_le hle
          · rw [newPieces_inj hother hnew heq]
            exact .inl (by simp)
          · exact .inr ⟨top, by simp, hlt⟩

include hvalid hordered hsettles in
/-- A call keeps what the state stands for, and audits every stage that is crossed. -/
theorem Threads.step (hthreads : Threads request ⟨createdAtMs, expiresAtMs, now, slaMs⟩ calls state) :
    ∃ result, advanceApprovalSla parseDate request (some now) state = .ok result
      ∧ Threads request ⟨createdAtMs, expiresAtMs, now, slaMs⟩ (calls ++ [(now, result)]) (some result.state)
      ∧ Complete ⟨createdAtMs, expiresAtMs, now, slaMs⟩ (audited (calls ++ [(now, result)]))
      ∧ result.outbound.length ≤ 1 := by
  have howns : request.owns (state.getD request.freshState) = true := by
    have hstate := hthreads.owns
    cases state with
    | none => simp [SlaRequest.owns, SlaRequest.freshState]
    | some value => exact hstate
  have hcomplete := hthreads.cursor.complete request hthreads.lastAudit
  by_cases hterminal : (state.getD request.freshState).terminal = true
  · have hfour := hthreads.terminal hterminal
    rw [hfour, newPieces_four, List.append_nil] at hcomplete
    refine ⟨⟨state.getD request.freshState, [], []⟩, ?_, ?_, ?_, Nat.zero_le 1⟩
    · unfold advanceApprovalSla
      refine bind_eq_ok.mpr ⟨_, hvalid.validateInput_eq hthreads.owns now, ?_⟩
      rw [if_pos hterminal]
      rfl
    · refine ⟨howns, ?_, ?_, ?_, ?_, ?_, fun _ => hfour⟩
      · rw [audited_append, List.append_nil]
        exact hthreads.cursor
      · rw [audited_append, List.append_nil]
        exact hthreads.lastAudit
      · rw [sent_append, List.append_nil]
        exact hthreads.lastOutbound
      · rw [audited_append, sent_append, List.append_nil, List.append_nil]
        exact hthreads.sent_mem
      · rw [audited_append, sent_append, List.append_nil, List.append_nil]
        exact hthreads.sends
    · rwa [audited_append, List.append_nil]
  · rw [Bool.not_eq_true] at hterminal
    by_cases hexpired : expiresAtMs ≤ now ∧ (state.getD request.freshState).lastAuditOrdinal < 4
    · have houtbound := hthreads.outbound_le.trans_lt hexpired.2
      refine ⟨_, advance_expired hvalid hordered hsettles hthreads.owns hterminal hexpired.1 hexpired.2, ?_, ?_, ?_⟩
      · exact hthreads.expired hordered hsettles hexpired.1 hexpired.2 rfl rfl (if_pos houtbound) howns
      · rwa [audited_append]
      · dsimp only
        rw [if_pos houtbound]
        exact le_refl 1
    · refine ⟨_, advance_open hvalid hordered hsettles hthreads.owns hterminal hexpired, ?_, ?_, ?_⟩
      · exact hthreads.open hordered hsettles hexpired hterminal rfl rfl rfl howns
      · rwa [audited_append]
      · exact Option.length_toList_le

include hvalid in
theorem ThreadedRun.threads (hdates : ∀ text ms, parseDate text = some ms → IsDate ms)
    (hrun : ThreadedRun parseDate request (fun now => SlaInstants.Settles ⟨createdAtMs, expiresAtMs, now, slaMs⟩)
      calls state) :
    ∀ now, (∀ call ∈ calls, call.1 ≤ now) →
      Threads request ⟨createdAtMs, expiresAtMs, now, slaMs⟩ calls state := by
  induction hrun with
  | start => exact fun now _ => threads_start
  | @call calls state reading result hrun hclock hdate hallowed hcall ih =>
      intro now hnow
      obtain ⟨result', hcall', hthreads, -⟩ :=
        (ih reading hclock).step hvalid (hvalid.ordered hdates hdate) hallowed
      obtain rfl := Except.ok.inj (hcall.symm.trans hcall')
      exact hthreads.mono (hnow _ (List.mem_append_right _ (List.mem_singleton_self _)))

end Threads

/-! ### The journal, and processes that stop at any write -/

def journaled (files : JournalFiles) : List ApprovalSlaEvidence :=
  files.events.map Prod.snd

/-- Calls of `ApprovalSlaJournal.advance` at readings of a clock that does not go back, each of which returns or
stops after some of its writes, and acknowledgements of events that were returned. -/
inductive JournalRun (parseDate : String → Option Int) (request : SlaRequest) (allowed : Int → Prop) :
    List Int → List ApprovalSlaEvidence → JournalFiles → Prop
  | start : JournalRun parseDate request allowed [] [] ⟨[], []⟩
  | returned {readings : List Int} {exposed : List ApprovalSlaEvidence} {files : JournalFiles} {now : Int}
      {result : AdvanceApprovalSlaResult} (hrun : JournalRun parseDate request allowed readings exposed files)
      (hclock : ∀ reading ∈ readings, reading ≤ now) (hdate : IsDate now) (hallowed : allowed now)
      (hcall : files.advance parseDate request (some now) = .ok result) :
      JournalRun parseDate request allowed (readings ++ [now]) (exposed ++ result.outbound)
        (result.audit.foldl JournalFiles.writeEvent files)
  | stopped {readings : List Int} {exposed : List ApprovalSlaEvidence} {files : JournalFiles} {now : Int}
      {result : AdvanceApprovalSlaResult} (hrun : JournalRun parseDate request allowed readings exposed files)
      (hclock : ∀ reading ∈ readings, reading ≤ now) (hdate : IsDate now) (hallowed : allowed now)
      (hcall : files.advance parseDate request (some now) = .ok result) (written : Nat) :
      JournalRun parseDate request allowed (readings ++ [now]) exposed
        ((result.audit.take written).foldl JournalFiles.writeEvent files)
  | acknowledged {readings : List Int} {exposed : List ApprovalSlaEvidence} {files next : JournalFiles}
      {item : ApprovalSlaEvidence} (hrun : JournalRun parseDate request allowed readings exposed files)
      (hitem : item ∈ exposed) (hack : files.acknowledge item = .ok next) :
      JournalRun parseDate request allowed readings exposed next

structure Journals (instants : SlaInstants) (exposed : List ApprovalSlaEvidence) (files : JournalFiles) :
    Prop where
  keyed : ∀ entry ∈ files.events, entry.1 = entry.2.ordinal
  cursor : Cursor instants (journaled files)
  shown : ∀ item ∈ exposed, item ∈ journaled files ∧ item.kind ≠ .skipped
  acks : ∀ ordinal ∈ files.acks, ∃ item ∈ exposed, item.ordinal = ordinal

theorem journals_start : Journals instants [] ⟨[], []⟩ where
  keyed := by simp
  cursor := ⟨by simp [journaled], by simp [journaled], by simp [journaled]⟩
  shown := by simp
  acks := by simp

section Journals

variable {exposed : List ApprovalSlaEvidence} {files : JournalFiles}

theorem Journals.mono {later : Int} (hle : now ≤ later)
    (hjournals : Journals ⟨createdAtMs, expiresAtMs, now, slaMs⟩ exposed files) :
    Journals ⟨createdAtMs, expiresAtMs, later, slaMs⟩ exposed files :=
  { hjournals with cursor := hjournals.cursor.mono hle }

theorem Journals.ordinals (hjournals : Journals instants exposed files) :
    files.events.map Prod.fst = (journaled files).map (·.ordinal) := by
  unfold journaled
  rw [List.map_map]
  exact List.map_congr_left hjournals.keyed

theorem Journals.lastAudit (hjournals : Journals instants exposed files) :
    IsLast ((journaled files).map (·.ordinal)) (files.state request).lastAuditOrdinal := by
  rw [← hjournals.ordinals]
  exact isLast_lastOrdinal _

def JournalFiles.adding (files : JournalFiles) (items : List ApprovalSlaEvidence) : JournalFiles :=
  { files with events := files.events ++ items.map fun item => (item.ordinal, item) }

theorem foldl_writeEvent {items : List ApprovalSlaEvidence} (hnodup : (items.map (·.ordinal)).Nodup)
    (hnew : ∀ item ∈ items, item.ordinal ∉ files.events.map Prod.fst) :
    items.foldl JournalFiles.writeEvent files = files.adding items := by
  induction items generalizing files with
  | nil => simp [JournalFiles.adding]
  | cons item rest ih =>
      rw [List.map_cons, List.nodup_cons] at hnodup
      have hwrite : files.writeEvent item = files.adding [item] := by
        have habsent : files.readEvent item.ordinal = none := by
          refine List.lookup_eq_none_iff.mpr fun entry hentry => ?_
          have hne : item.ordinal ≠ entry.1 := fun heq =>
            hnew item List.mem_cons_self (List.mem_map.mpr ⟨entry, hentry, heq.symm⟩)
          simpa using hne
        unfold JournalFiles.writeEvent
        rw [habsent]
        rfl
      rw [List.foldl_cons, hwrite, ih hnodup.2]
      · simp [JournalFiles.adding]
      · intro other hother
        unfold JournalFiles.adding
        rw [List.map_append, List.mem_append]
        rintro (hold | hsame)
        · exact hnew other (List.mem_cons_of_mem _ hother) hold
        · exact hnodup.1 (List.mem_map.mpr ⟨other, hother, by simpa using hsame⟩)

variable (request) in
theorem Journals.foldl_newPieces (hjournals : Journals instants exposed files) (count : Nat) :
    ((newPieces request instants (files.state request).lastAuditOrdinal).take count).foldl
        JournalFiles.writeEvent files
      = files.adding ((newPieces request instants (files.state request).lastAuditOrdinal).take count) := by
  have hsorted := (pairwise_newPieces request instants (files.state request).lastAuditOrdinal).sublist
    (List.take_sublist count _)
  refine foldl_writeEvent (List.pairwise_map.mpr (hsorted.imp fun hlt => hlt.ne)) fun item hitem => ?_
  obtain ⟨ordinal, kind, -, hlast, -, rfl⟩ := mem_newPieces.mp (List.mem_of_mem_take hitem)
  rw [hjournals.ordinals]
  exact fun hold => absurd (hjournals.lastAudit.1 _ hold) (not_le.mpr hlast)

theorem journaled_adding (items : List ApprovalSlaEvidence) :
    journaled (files.adding items) = journaled files ++ items := by
  simp [journaled, JournalFiles.adding, Function.comp_def]

variable (request) in
theorem Journals.write (hordered : instants.Ordered) (hsettles : instants.Settles)
    (hjournals : Journals instants exposed files) (count : Nat) :
    Journals instants exposed
      (((newPieces request instants (files.state request).lastAuditOrdinal).take count).foldl
        JournalFiles.writeEvent files) := by
  rw [hjournals.foldl_newPieces request count]
  refine ⟨fun entry hentry => ?_, ?_, fun item hitem => ?_, hjournals.acks⟩
  · obtain hold | hnew := List.mem_append.mp hentry
    · exact hjournals.keyed entry hold
    · obtain ⟨item, -, rfl⟩ := List.mem_map.mp hnew
      rfl
  · rw [journaled_adding]
    exact hjournals.cursor.extend request hordered hsettles hjournals.lastAudit count
  · rw [journaled_adding]
    exact ⟨List.mem_append_left _ (hjournals.shown item hitem).1, (hjournals.shown item hitem).2⟩

theorem Journals.acknowledge {next : JournalFiles} (hjournals : Journals instants exposed files)
    {item : ApprovalSlaEvidence} (hitem : item ∈ exposed) (hack : files.acknowledge item = .ok next) :
    Journals instants exposed next := by
  unfold JournalFiles.acknowledge at hack
  split at hack
  · cases hack
  · split at hack
    · obtain rfl := Except.ok.inj hack
      exact hjournals
    · obtain rfl := Except.ok.inj hack
      refine ⟨hjournals.keyed, hjournals.cursor, hjournals.shown, fun ordinal hordinal => ?_⟩
      obtain hold | hnew := List.mem_append.mp hordinal
      · exact hjournals.acks ordinal hold
      · exact ⟨item, hitem, (List.mem_singleton.mp hnew).symm⟩

theorem Journals.find_eq_some (hjournals : Journals instants exposed files) {items : List ApprovalSlaEvidence}
    (hitems : ∀ item ∈ items, item ∈ journaled files) {ordinal : Nat} {item : ApprovalSlaEvidence} :
    (items.find? (·.ordinal = ordinal)).or (files.readEvent ordinal) = some item
      ↔ item ∈ journaled files ∧ item.ordinal = ordinal := by
  have hsound {item : ApprovalSlaEvidence}
      (hitem : (items.find? (·.ordinal = ordinal)).or (files.readEvent ordinal) = some item) :
      item ∈ journaled files ∧ item.ordinal = ordinal := by
    obtain hnew | ⟨-, hread⟩ := Option.or_eq_some_iff.mp hitem
    · exact ⟨hitems item (List.mem_of_find?_eq_some hnew), by simpa using List.find?_some hnew⟩
    · obtain ⟨before, after, hsplit, -⟩ := List.lookup_eq_some_iff.mp hread
      have hmem : (ordinal, item) ∈ files.events := by rw [hsplit]; simp
      exact ⟨List.mem_map_of_mem hmem, (hjournals.keyed _ hmem).symm⟩
  refine ⟨hsound, ?_⟩
  rintro ⟨hmem, rfl⟩
  have hsome : (files.readEvent item.ordinal).isSome = true := by
    obtain ⟨entry, hentry, rfl⟩ := List.mem_map.mp hmem
    exact List.lookup_isSome_iff.mpr ⟨entry, hentry, by simpa using (hjournals.keyed entry hentry).symm⟩
  have hor : ((items.find? (·.ordinal = item.ordinal)).or (files.readEvent item.ordinal)).isSome = true := by
    rw [Option.isSome_or, hsome, Bool.or_true]
  obtain ⟨found, hfound⟩ := Option.isSome_iff_exists.mp hor
  rw [hfound, List.inj_on_of_nodup_map hjournals.cursor.nodup (hsound hfound).1 hmem (hsound hfound).2]

theorem consistent_ordinal :
    ConsistentComparator fun left right : ApprovalSlaEvidence => (right.ordinal : Int) - left.ordinal where
  total := fun a b => by omega
  trans := fun a b c hab hbc => by omega

/-- What is sent is the highest event above the last acknowledgement. -/
theorem Journals.retryable_spec {items : List ApprovalSlaEvidence}
    (hwritten : items.foldl JournalFiles.writeEvent files = files.adding items)
    (hjournals : Journals instants exposed (files.adding items)) (hkeyed : ∀ entry ∈ files.events,
      entry.1 = entry.2.ordinal) :
    (∀ item ∈ files.retryable items, item ∈ journaled files ++ items ∧ item.kind ≠ .skipped
        ∧ lastOrdinal files.acks < item.ordinal)
      ∧ ∀ item ∈ journaled files ++ items, item.kind ≠ .skipped → lastOrdinal files.acks < item.ordinal →
        item ∈ files.retryable items ∨ ∃ later ∈ files.retryable items, item.ordinal < later.ordinal := by
  have hfind (ordinal : Nat) (item : ApprovalSlaEvidence) :
      (items.find? (·.ordinal = ordinal)).or ((files.adding items).readEvent ordinal) = some item
        ↔ item ∈ journaled files ++ items ∧ item.ordinal = ordinal := by
    rw [← journaled_adding]
    refine hjournals.find_eq_some fun item hitem => ?_
    rw [journaled_adding]
    exact List.mem_append_right _ hitem
  have hordinals : files.events.map Prod.fst ++ items.map (·.ordinal)
      = (journaled files ++ items).map (·.ordinal) := by
    rw [List.map_append, journaled, List.map_map]
    congr 1
    exact List.map_congr_left hkeyed
  have hmem (item : ApprovalSlaEvidence) :
      item ∈ (((files.events.map Prod.fst ++ items.map (·.ordinal)).filter fun (ordinal : Nat) =>
          lastOrdinal files.acks < ordinal).filterMap fun ordinal =>
            (items.find? (·.ordinal = ordinal)).or ((files.adding items).readEvent ordinal)).filter
              (·.kind ≠ .skipped)
        ↔ item ∈ journaled files ++ items ∧ item.kind ≠ .skipped ∧ lastOrdinal files.acks < item.ordinal := by
    rw [List.mem_filter, List.mem_filterMap, hordinals]
    constructor
    · rintro ⟨⟨ordinal, hordinal, hitem⟩, hkind⟩
      obtain ⟨hwrote, rfl⟩ := (hfind ordinal item).mp hitem
      exact ⟨hwrote, by simpa using hkind, by simpa using (List.mem_filter.mp hordinal).2⟩
    · rintro ⟨hitem, hkind, hlt⟩
      refine ⟨⟨item.ordinal, List.mem_filter.mpr ⟨List.mem_map_of_mem hitem, by simpa using hlt⟩, ?_⟩,
        by simpa using hkind⟩
      exact (hfind item.ordinal item).mpr ⟨hitem, rfl⟩
  unfold JournalFiles.retryable
  rw [hwritten]
  dsimp only
  constructor
  · intro item hitem
    exact (hmem item).mp (mem_sortBy.mp (List.mem_of_head? hitem))
  · intro item hitem hkind hlt
    obtain ⟨top, htop, hfound, hle⟩ := consistent_ordinal.exists_head?_le ((hmem item).mpr ⟨hitem, hkind, hlt⟩)
    obtain heq | hlater := eq_or_lt_of_le (show item.ordinal ≤ top.ordinal by omega)
    · have hnodup := hjournals.cursor.nodup
      rw [journaled_adding] at hnodup
      rw [List.inj_on_of_nodup_map hnodup hitem ((hmem top).mp hfound).1 heq]
      exact .inl htop
    · exact .inr ⟨top, htop, hlater⟩

section Calls

variable (hvalid : ValidRequest parseDate request createdAtMs expiresAtMs slaMs)
  (hordered : SlaInstants.Ordered ⟨createdAtMs, expiresAtMs, now, slaMs⟩)
  (hsettles : SlaInstants.Settles ⟨createdAtMs, expiresAtMs, now, slaMs⟩)
  (hjournals : Journals ⟨createdAtMs, expiresAtMs, now, slaMs⟩ exposed files)

include hvalid hordered hsettles hjournals

theorem Journals.advance_eq : ∃ result, files.advance parseDate request (some now) = .ok result
    ∧ result.audit = newPieces request ⟨createdAtMs, expiresAtMs, now, slaMs⟩ (files.state request).lastAuditOrdinal
    ∧ result.outbound = (files.retryable result.audit).toList := by
  have howns : (some (files.state request)).all request.owns = true := by
    simp [SlaRequest.owns, JournalFiles.state, SlaRequest.freshState]
  obtain ⟨result, hresult, haudit⟩ : ∃ result,
      advanceApprovalSla parseDate request (some now) (some (files.state request)) = .ok result
        ∧ result.audit = newPieces request ⟨createdAtMs, expiresAtMs, now, slaMs⟩
          (files.state request).lastAuditOrdinal := by
    by_cases hterminal : (files.state request).terminal = true
    · have hfour : (files.state request).lastAuditOrdinal = 4 := by
        have hreached : 4 ≤ (files.state request).lastAuditOrdinal := by
          have hboth : (decide (4 ≤ (files.state request).lastAuditOrdinal)
              && decide (4 ≤ lastOrdinal files.acks)) = true := hterminal
          simpa using (Bool.and_eq_true_iff.mp hboth).1
        have hlastAudit : IsLast ((journaled files).map (·.ordinal)) (files.state request).lastAuditOrdinal :=
          hjournals.lastAudit
        obtain ⟨hnone, -⟩ | ⟨ordinal, hordinal, hlast⟩ := hlastAudit.2
        · omega
        · obtain ⟨item, hitem, rfl⟩ := List.mem_map.mp hordinal
          have hle := (hjournals.cursor.crosses item hitem).1
          omega
      refine ⟨⟨files.state request, [], []⟩, ?_, ?_⟩
      · unfold advanceApprovalSla
        refine bind_eq_ok.mpr ⟨_, hvalid.validateInput_eq howns now, ?_⟩
        rw [Option.getD_some, if_pos hterminal]
        rfl
      · rw [hfour, newPieces_four]
    · rw [Bool.not_eq_true] at hterminal
      by_cases hexpired : expiresAtMs ≤ now ∧ (files.state request).lastAuditOrdinal < 4
      · exact ⟨_, advance_expired hvalid hordered hsettles howns hterminal hexpired.1 hexpired.2, rfl⟩
      · exact ⟨_, advance_open hvalid hordered hsettles howns hterminal hexpired, rfl⟩
  refine ⟨{ result with outbound := (files.retryable result.audit).toList }, ?_, haudit, rfl⟩
  unfold JournalFiles.advance
  exact bind_eq_ok.mpr ⟨result, hresult, rfl⟩

structure JournaledCall (instants : SlaInstants) (exposed : List ApprovalSlaEvidence) (files : JournalFiles)
    (result : AdvanceApprovalSlaResult) : Prop where
  audited : AuditedAt instants (journaled (result.audit.foldl JournalFiles.writeEvent files))
  one : result.outbound.length ≤ 1
  unacknowledged : ∀ item ∈ result.outbound, item.kind ≠ .skipped ∧ item.ordinal ∉ files.acks
  sends : ∀ item ∈ journaled (result.audit.foldl JournalFiles.writeEvent files), item.kind ≠ .skipped →
    item.ordinal ∈ files.acks ∨ item ∈ result.outbound
      ∨ ∃ later ∈ exposed ++ result.outbound, item.ordinal < later.ordinal

/-- A call of the journal that returns. -/
theorem Journals.step : ∃ result, files.advance parseDate request (some now) = .ok result
    ∧ Journals ⟨createdAtMs, expiresAtMs, now, slaMs⟩ (exposed ++ result.outbound)
        (result.audit.foldl JournalFiles.writeEvent files)
    ∧ JournaledCall ⟨createdAtMs, expiresAtMs, now, slaMs⟩ exposed files result := by
  obtain ⟨result, hresult, haudit, houtbound⟩ := hjournals.advance_eq hvalid hordered hsettles
  have hwritten : result.audit.foldl JournalFiles.writeEvent files = files.adding result.audit := by
    have htake := hjournals.foldl_newPieces request
      (newPieces request ⟨createdAtMs, expiresAtMs, now, slaMs⟩ (files.state request).lastAuditOrdinal).length
    rwa [List.take_length, ← haudit] at htake
  have hwrite : Journals ⟨createdAtMs, expiresAtMs, now, slaMs⟩ exposed (files.adding result.audit) := by
    have htake := hjournals.write request hordered hsettles
      (newPieces request ⟨createdAtMs, expiresAtMs, now, slaMs⟩ (files.state request).lastAuditOrdinal).length
    rwa [List.take_length, ← haudit, hwritten] at htake
  have hspec := hwrite.retryable_spec hwritten hjournals.keyed
  have hlastAck := isLast_lastOrdinal files.acks
  have hsent {item : ApprovalSlaEvidence} (hitem : item ∈ result.outbound) :
      item ∈ journaled files ++ result.audit ∧ item.kind ≠ .skipped ∧ lastOrdinal files.acks < item.ordinal := by
    rw [houtbound] at hitem
    exact hspec.1 item (Option.mem_toList.mp hitem)
  refine ⟨result, hresult, ?_, ⟨?_, ?_, ?_, ?_⟩⟩
  · rw [hwritten]
    refine ⟨hwrite.keyed, hwrite.cursor, fun item hitem => ?_, fun ordinal hordinal => ?_⟩
    · rw [journaled_adding]
      obtain hold | hnew := List.mem_append.mp hitem
      · exact ⟨List.mem_append_left _ (hjournals.shown item hold).1, (hjournals.shown item hold).2⟩
      · exact ⟨(hsent hnew).1, (hsent hnew).2.1⟩
    · obtain ⟨item, hitem, hsame⟩ := hjournals.acks ordinal hordinal
      exact ⟨item, List.mem_append_left _ hitem, hsame⟩
  · rw [hwritten]
    refine hwrite.cursor.auditedAt ?_
    rw [journaled_adding, haudit]
    exact hjournals.cursor.complete _ hjournals.lastAudit
  · rw [houtbound]
    exact Option.length_toList_le
  · intro item hitem
    obtain ⟨-, hkind, hlt⟩ := hsent hitem
    exact ⟨hkind, fun hack => absurd (hlastAck.1 _ hack) (not_le.mpr hlt)⟩
  · rw [hwritten, journaled_adding]
    intro item hitem hkind
    obtain hlt | hle := lt_or_ge (lastOrdinal files.acks) (item.ordinal : Int)
    · obtain hsame | ⟨later, hlater, habove⟩ := hspec.2 item hitem hkind hlt
      · exact .inr (.inl (by rw [houtbound]; exact Option.mem_toList.mpr hsame))
      · refine .inr (.inr ⟨later, List.mem_append_right _ ?_, habove⟩)
        rw [houtbound]
        exact Option.mem_toList.mpr hlater
    · obtain ⟨hnone, -⟩ | ⟨ordinal, hordinal, hlast⟩ := hlastAck.2
      · omega
      · obtain heq | habove := eq_or_lt_of_le (show item.ordinal ≤ ordinal by omega)
        · exact .inl (heq ▸ hordinal)
        · obtain ⟨later, hlater, rfl⟩ := hjournals.acks ordinal hordinal
          exact .inr (.inr ⟨later, List.mem_append_left _ hlater, habove⟩)

end Calls

theorem JournalRun.journals (hvalid : ValidRequest parseDate request createdAtMs expiresAtMs slaMs)
    (hdates : ∀ text ms, parseDate text = some ms → IsDate ms) {readings : List Int}
    (hrun : JournalRun parseDate request (fun now => SlaInstants.Settles ⟨createdAtMs, expiresAtMs, now, slaMs⟩)
      readings exposed files) :
    ∀ now, (∀ reading ∈ readings, reading ≤ now) →
      Journals ⟨createdAtMs, expiresAtMs, now, slaMs⟩ exposed files := by
  induction hrun with
  | start => exact fun now _ => journals_start
  | @returned readings exposed files reading result hrun hclock hdate hallowed hcall ih =>
      intro now hnow
      obtain ⟨result', hcall', hjournals, -⟩ :=
        (ih reading hclock).step hvalid (hvalid.ordered hdates hdate) hallowed
      obtain rfl := Except.ok.inj (hcall.symm.trans hcall')
      exact hjournals.mono (hnow _ (List.mem_append_right _ (List.mem_singleton_self _)))
  | @stopped readings exposed files reading result hrun hclock hdate hallowed hcall written ih =>
      intro now hnow
      have hordered := hvalid.ordered hdates hdate
      obtain ⟨result', hcall', haudit, -⟩ := (ih reading hclock).advance_eq hvalid hordered hallowed
      obtain rfl := Except.ok.inj (hcall.symm.trans hcall')
      rw [haudit]
      exact ((ih reading hclock).write _ hordered hallowed written).mono
        (hnow _ (List.mem_append_right _ (List.mem_singleton_self _)))
  | acknowledged hrun hitem hack ih => exact fun now hnow => (ih now hnow).acknowledge hitem hack

end Journals

/-! ### Every run -/

structure ThreadedCall (instants : SlaInstants) (calls : List (Int × AdvanceApprovalSlaResult))
    (result : AdvanceApprovalSlaResult) : Prop where
  audited : AuditedAt instants (audited (calls ++ [(instants.nowMs, result)]))
  one : result.outbound.length ≤ 1
  unskipped : ∀ item ∈ result.outbound, item.kind ≠ .skipped
  sends : Sends (ApprovalSla.audited (calls ++ [(instants.nowMs, result)])) (sent (calls ++ [(instants.nowMs, result)]))

/-- Every allowed call returns and loses no stage, with the state passed on and with the journal. -/
def LosesNoStage (parseDate : String → Option Int) (request : SlaRequest) (createdAtMs expiresAtMs : Int)
    (slaMs : SlaOffsets) (allowed : Int → Prop) : Prop :=
  (∀ calls state now, ThreadedRun parseDate request allowed calls state → (∀ call ∈ calls, call.1 ≤ now) →
    IsDate now → allowed now → ∃ result, advanceApprovalSla parseDate request (some now) state = .ok result
      ∧ ThreadedCall ⟨createdAtMs, expiresAtMs, now, slaMs⟩ calls result)
  ∧ ∀ readings exposed files now, JournalRun parseDate request allowed readings exposed files →
    (∀ reading ∈ readings, reading ≤ now) → IsDate now → allowed now →
    ∃ result, files.advance parseDate request (some now) = .ok result
      ∧ JournaledCall ⟨createdAtMs, expiresAtMs, now, slaMs⟩ exposed files result

/-- Where a stage is skipped only once all stages before the expiry have fallen due, no stage is lost. -/
theorem losesNoStage_of_settles (hdates : ∀ text ms, parseDate text = some ms → IsDate ms)
    (hvalid : ValidRequest parseDate request createdAtMs expiresAtMs slaMs) :
    LosesNoStage parseDate request createdAtMs expiresAtMs slaMs
      fun now => SlaInstants.Settles ⟨createdAtMs, expiresAtMs, now, slaMs⟩ := by
  constructor
  · intro calls state now hrun hclock hdate hsettles
    obtain ⟨result, hresult, hthreads, hcomplete, hone⟩ :=
      (hrun.threads hvalid hdates now hclock).step hvalid (hvalid.ordered hdates hdate) hsettles
    refine ⟨result, hresult, hthreads.cursor.auditedAt hcomplete, hone, fun item hitem => ?_, hthreads.sends⟩
    refine (hthreads.sent_mem item ?_).2
    rw [sent_append]
    exact List.mem_append_right _ hitem
  · intro readings exposed files now hrun hclock hdate hsettles
    obtain ⟨result, hresult, -, hcall⟩ :=
      (hrun.journals hvalid hdates now hclock).step hvalid (hvalid.ordered hdates hdate) hsettles
    exact ⟨result, hresult, hcall⟩

/-- A request that expires between its second and its third reminder. -/
def shortRequest : SlaRequest where
  requestId := "approval-1"
  lifecycleGeneration := "1"
  createdAt := "1970-01-01T00:00:00.000Z"
  expiresAt := "1970-01-01T00:00:02.500Z"
  policy := {
    slaMs := (.finite 1000, .finite 2000, .finite 3000)
    authoredPolicyDigest := String.ofList (List.replicate 64 'a')
    appliedPolicyDigest := String.ofList (List.replicate 64 'b') }

def shortDates (text : String) : Option Int :=
  if text = "1970-01-01T00:00:00.000Z" then some 0
  else if text = "1970-01-01T00:00:02.500Z" then some 2500
  else none

theorem shortDates_isDate (text : String) (ms : Int) (hparsed : shortDates text = some ms) : IsDate ms := by
  unfold shortDates at hparsed
  split at hparsed
  · obtain rfl := Option.some.inj hparsed
    unfold IsDate
    decide
  · split at hparsed
    · obtain rfl := Option.some.inj hparsed
      unfold IsDate
      decide
    · cases hparsed

theorem shortRequest_valid : ValidRequest shortDates shortRequest 0 2500 ⟨1000, 2000, 3000⟩ where
  accepted := by
    intro now
    have hcreated : shortDates shortRequest.createdAt = some 0 := by decide
    have hexpires : shortDates shortRequest.expiresAt = some 2500 := by decide
    have hoffsets : parseOffsets shortRequest.policy.slaMs = some ⟨1000, 2000, 3000⟩ := by decide +kernel
    have hlt : (0 : Int) < 2500 := by decide
    exact validateInput_eq_ok.mpr ⟨by decide, by decide, hcreated, hexpires, rfl, hlt, hoffsets, by decide +kernel,
      by decide +kernel, rfl⟩

theorem losesNoStage_shortRequest : LosesNoStage shortDates shortRequest 0 2500 ⟨1000, 2000, 3000⟩
    fun now => SlaInstants.Settles ⟨0, 2500, now, ⟨1000, 2000, 3000⟩⟩ :=
  losesNoStage_of_settles shortDates_isDate shortRequest_valid

/-- The call at the creation skips the third reminder, and the call at the time of the first one audits nothing. -/
theorem not_losesNoStage : ¬ ∀ (parseDate : String → Option Int) (request : SlaRequest)
    (createdAtMs expiresAtMs : Int) (slaMs : SlaOffsets), (∀ text ms, parseDate text = some ms → IsDate ms) →
    ValidRequest parseDate request createdAtMs expiresAtMs slaMs →
    LosesNoStage parseDate request createdAtMs expiresAtMs slaMs fun _ => True := by
  intro hall
  have hloses := (hall shortDates shortRequest 0 2500 ⟨1000, 2000, 3000⟩ shortDates_isDate shortRequest_valid).1
  obtain ⟨first, hfirst, haudit, hstate⟩ : ∃ first,
      advanceApprovalSla shortDates shortRequest (some 0) none = .ok first
        ∧ first.audit.map (·.ordinal) = [0, 3]
        ∧ first.state = { shortRequest.freshState with lastAuditOrdinal := 3, lastOutboundOrdinal := 0 } :=
    ⟨_, rfl, rfl, rfl⟩
  have hsecond : advanceApprovalSla shortDates shortRequest (some 1000) (some first.state)
      = .ok ⟨first.state, [], []⟩ := by
    rw [hstate]
    rfl
  have hzero : IsDate 0 := by unfold IsDate; decide
  have hthousand : IsDate 1000 := by unfold IsDate; decide
  have hrun : ThreadedRun shortDates shortRequest (fun _ => True) [(0, first)] (some first.state) :=
    ThreadedRun.call .start (by simp) hzero trivial hfirst
  obtain ⟨result, hresult, hcall⟩ := hloses _ _ 1000 hrun (by simp) hthousand trivial
  obtain rfl := Except.ok.inj (hsecond.symm.trans hresult)
  have hdue : SlaInstants.dueAt ⟨0, 2500, 1000, ⟨1000, 2000, 3000⟩⟩ 1 < 2500
      ∧ SlaInstants.dueAt ⟨0, 2500, 1000, ⟨1000, 2000, 3000⟩⟩ 1 ≤ 1000 := by decide
  obtain ⟨item, hitem, hordinal, -⟩ := (hcall.audited.due 1 (by decide)).mpr hdue
  have hmem : item ∈ first.audit := by simpa [audited] using hitem
  have hone := List.mem_map_of_mem (f := (·.ordinal)) hmem
  rw [haudit, hordinal] at hone
  exact absurd hone (by decide)

end Deckent.ApprovalSla
