import Deckent.Lib.HashChain
import Deckent.Model.AuditWriter
import Deckent.Proof.AuditTexts

/-!
# Audit streams as chains

A stream verifies when its events with a code are a chain from the genesis code. A line that is appended
makes the chain longer when its write took the code of the last event of the file and the code was computed
from what is stored. So a stream verifies as long as no write took another code, as a write of a process
does that has not seen the event of another one.
-/

namespace Deckent.Audit

open JsValue

/-! ### Records -/

theorem lookup_eq_none {record : Record} {key : String} (hkey : ∀ entry ∈ record, entry.1 ≠ key) :
    record.lookup key = none := by
  rw [List.lookup_eq_none_iff]
  intro entry hentry
  simpa using (hkey entry hentry).symm

theorem member_append_of_notMem {left : Record} {key : String} (hkey : ∀ entry ∈ left, entry.1 ≠ key)
    (right : Record) : member (left ++ right) key = member right key := by
  rw [member, List.lookup_append, lookup_eq_none hkey, Option.none_or, member]

theorem key_of_mem_persisted {record : Record} {entry : String × JsValue}
    (hentry : entry ∈ persistedMembers record) : ∃ own ∈ record, own.1 = entry.1 := by
  rw [persistedMembers_eq] at hentry
  obtain ⟨own, hown, hkept⟩ := List.mem_filterMap.mp hentry
  obtain ⟨kept, -, rfl⟩ := Option.map_eq_some_iff.mp hkept
  exact ⟨own, hown, rfl⟩

theorem mem_optionalMember {key : String} {value : JsValue} {entry : String × JsValue} :
    entry ∈ optionalMember key value ↔ value ≠ .undefined ∧ entry = (key, value) := by
  cases value <;> simp [optionalMember, isUndefined]

/-! ### Events -/

def AuditEvent.JsonSafe (event : AuditEvent) : Prop :=
  event.metadata = .undefined ∨ event.metadata.isJsonSafe = true

def describedPayload (event : AuditEvent) : Record :=
  [("tenantId", .string event.tenantId), ("actor", .string event.actor), ("action", .string event.action)]
    ++ optionalMember "target" (optionalText event.target)
    ++ optionalMember "metadata" event.metadata
    ++ optionalMember "correlationId" (optionalText event.correlationId)
    ++ optionalMember "causationId" (optionalText event.causationId)

theorem basePayload_eq (event : AuditEvent) (timestamp : String) :
    basePayload event timestamp =
      describedPayload event ++ [("chainVersion", .number chainAlgoVersion), ("timestamp", .string timestamp)] :=
  rfl

def describedKeys : List String :=
  ["tenantId", "actor", "action", "target", "metadata", "correlationId", "causationId"]

theorem mem_describedPayload {event : AuditEvent} {entry : String × JsValue}
    (hentry : entry ∈ describedPayload event) :
    entry.1 ∈ describedKeys ∧
      (entry.1 = "metadata" → entry.2 = event.metadata ∧ event.metadata ≠ .undefined) ∧
      (entry.1 ≠ "metadata" → ∃ text, entry.2 = .string text) := by
  have hoptional {value : Option String} (hvalue : optionalText value ≠ .undefined) :
      ∃ text, optionalText value = .string text := by
    cases value with
    | none => exact absurd rfl hvalue
    | some text => exact ⟨text, rfl⟩
  have htext (key : String) {value : JsValue} (hkey : key ∈ describedKeys) (hother : key ≠ "metadata")
      (hvalue : ∃ text, value = .string text) :
      key ∈ describedKeys ∧ (key = "metadata" → value = event.metadata ∧ event.metadata ≠ .undefined) ∧
        (key ≠ "metadata" → ∃ text, value = .string text) :=
    ⟨hkey, fun hmetadata => absurd hmetadata hother, fun _ => hvalue⟩
  simp only [describedPayload, List.mem_append, List.mem_cons, List.not_mem_nil, or_false,
    mem_optionalMember] at hentry
  obtain ((((rfl | rfl | rfl) | ⟨h, rfl⟩) | ⟨h, rfl⟩) | ⟨h, rfl⟩) | ⟨h, rfl⟩ := hentry
  · exact htext "tenantId" (by decide) (by decide) ⟨_, rfl⟩
  · exact htext "actor" (by decide) (by decide) ⟨_, rfl⟩
  · exact htext "action" (by decide) (by decide) ⟨_, rfl⟩
  · exact htext "target" (by decide) (by decide) (hoptional h)
  · exact ⟨show "metadata" ∈ describedKeys by decide, fun _ => ⟨rfl, h⟩, fun hkey => absurd rfl hkey⟩
  · exact htext "correlationId" (by decide) (by decide) (hoptional h)
  · exact htext "causationId" (by decide) (by decide) (hoptional h)

theorem key_ne_of_mem_described {event : AuditEvent} {entry : String × JsValue}
    (hentry : entry ∈ describedPayload event) :
    entry.1 ≠ "chainVersion" ∧ entry.1 ≠ "prevHmac" ∧ entry.1 ≠ "hmac" ∧ entry.1 ≠ "__proto__" := by
  have hkey := (mem_describedPayload hentry).1
  refine ⟨?_, ?_, ?_, ?_⟩ <;> (intro hsame; rw [hsame] at hkey; revert hkey; decide)

theorem key_ne_of_mem_base {event : AuditEvent} {timestamp : String} {entry : String × JsValue}
    (hentry : entry ∈ basePayload event timestamp) :
    entry.1 ≠ "prevHmac" ∧ entry.1 ≠ "hmac" ∧ entry.1 ≠ "__proto__" := by
  rw [basePayload_eq, List.mem_append] at hentry
  obtain hentry | hentry := hentry
  · exact (key_ne_of_mem_described hentry).2
  · simp only [List.mem_cons, List.not_mem_nil, or_false] at hentry
    obtain rfl | rfl := hentry <;> simp

theorem membersSafe_basePayload {event : AuditEvent} {timestamp : String} :
    membersSafe (basePayload event timestamp) = true ↔ event.JsonSafe := by
  rw [membersSafe_iff]
  constructor
  · intro hsafe
    by_cases hmetadata : event.metadata = .undefined
    · exact .inl hmetadata
    · refine .inr (hsafe ("metadata", event.metadata) ?_)
      simp [basePayload, mem_optionalMember, hmetadata]
  · intro hsafe entry hentry
    rw [basePayload_eq, List.mem_append] at hentry
    obtain hentry | hentry := hentry
    · obtain ⟨-, hmetadata, htext⟩ := mem_describedPayload hentry
      by_cases hkey : entry.1 = "metadata"
      · obtain ⟨hvalue, hdefined⟩ := hmetadata hkey
        rw [hvalue]
        exact hsafe.resolve_left hdefined
      · obtain ⟨text, hvalue⟩ := htext hkey
        rw [hvalue]
        rfl
    · simp only [List.mem_cons, List.not_mem_nil, or_false] at hentry
      obtain rfl | rfl := hentry <;> rfl

section Chain

variable {host : AuditHost}

/-! ### Links -/

variable (host) in
def EventLink (prev : String) (event : Record) (code : String) : Prop :=
  member event "prevHmac" = .string prev ∧ member event "hmac" = .string code ∧
    code = computeEventHmac host prev (authenticatedPart event) (versionOf event)

def bearsHmac (event : Record) : Bool := !(member event "hmac").isUndefined

theorem isText_iff {value : JsValue} {text : String} : value.isText text = true ↔ value = .string text := by
  cases value <;> simp [isText]

theorem EventLink.bears {prev code : String} {event : Record} (hlink : EventLink host prev event code) :
    bearsHmac event = true := by
  rw [bearsHmac, hlink.2.1]
  rfl

theorem verifyFrom_intact {prev : String} {index : Nat} {events : List Record} :
    (verifyFrom host prev index events).intact = true ↔
      ∃ last, CodeChain (EventLink host) prev (events.filter bearsHmac) last := by
  induction events generalizing prev index with
  | nil => exact ⟨fun _ => ⟨prev, .nil prev⟩, fun _ => rfl⟩
  | cons event rest ih =>
      cases hbears : bearsHmac event with
      | false =>
          have hundefined : (member event "hmac").isUndefined = true := by simpa [bearsHmac] using hbears
          rw [verifyFrom, if_pos hundefined, ih, List.filter_cons_of_neg (by simp [hbears])]
      | true =>
          have hdefined : ¬(member event "hmac").isUndefined = true := by simpa [bearsHmac] using hbears
          rw [verifyFrom, if_neg hdefined, List.filter_cons_of_pos hbears]
          constructor
          · intro hintact
            dsimp only at hintact
            split_ifs at hintact with hprev hcode
            rw [Bool.not_eq_true', Bool.not_eq_false, isText_iff] at hprev hcode
            obtain ⟨last, hrest⟩ := ih.mp hintact
            exact ⟨last, .cons ⟨hprev, hcode, rfl⟩ hrest⟩
          · rintro ⟨last, hchain⟩
            cases hchain with
            | cons hlink hrest =>
                obtain ⟨hprev, hcode, rfl⟩ := hlink
                rw [if_neg (by rw [isText_iff.mpr hprev]; decide), if_neg (by rw [isText_iff.mpr hcode]; decide)]
                exact ih.mpr ⟨last, hrest⟩

variable (host) in
def WrittenLink (prev : String) (record : Record) (code : String) : Prop :=
  ∃ event timestamp, event.JsonSafe ∧
    record = persistedMembers (linkedPayload (basePayload event timestamp) prev code) ∧
    code = computeEventHmac host prev (basePayload event timestamp) chainAlgoVersion

theorem persisted_linkedPayload (base : Record) (prev code : String) :
    persistedMembers (linkedPayload base prev code) =
      persistedMembers base ++ [("prevHmac", .string prev), ("hmac", .string code)] := by
  rw [linkedPayload, persistedMembers_append]
  rfl

theorem versionOf_written (event : AuditEvent) (timestamp prev code : String) :
    versionOf (persistedMembers (linkedPayload (basePayload event timestamp) prev code)) =
      chainAlgoVersion := by
  have hkey : ∀ entry ∈ persistedMembers (describedPayload event), entry.1 ≠ "chainVersion" := by
    intro entry hentry
    obtain ⟨own, hown, hsame⟩ := key_of_mem_persisted hentry
    rw [← hsame]
    exact (key_ne_of_mem_described hown).1
  rw [versionOf, persisted_linkedPayload, basePayload_eq, persistedMembers_append, List.append_assoc,
    member_append_of_notMem hkey]
  rfl

theorem authenticatedPart_written (event : AuditEvent) (timestamp prev code : String) :
    authenticatedPart (persistedMembers (linkedPayload (basePayload event timestamp) prev code)) =
      persistedMembers (basePayload event timestamp) := by
  rw [authenticatedPart, persisted_linkedPayload, List.filter_append, List.filter_eq_self.mpr]
  · exact List.append_nil _
  · intro entry hentry
    obtain ⟨own, hown, hsame⟩ := key_of_mem_persisted hentry
    obtain ⟨hprev, hcode, hproto⟩ := key_ne_of_mem_base hown
    rw [hsame] at hprev hcode hproto
    simp [hprev, hcode, hproto]

theorem computeEventHmac_persisted {base : Record} (hsafe : membersSafe base = true) (prev : String)
    (version : JsNumber) :
    computeEventHmac host prev (persistedMembers base) version = computeEventHmac host prev base version := by
  have htext : canonicalJson host.numberText (.object (persistedMembers base)) =
      canonicalJson host.numberText (.object base) := canonicalJson_of_safe hsafe rfl
  rw [computeEventHmac, computeEventHmac, htext]

theorem WrittenLink.eventLink {prev code : String} {record : Record}
    (hlink : WrittenLink host prev record code) : EventLink host prev record code := by
  obtain ⟨event, timestamp, hsafe, rfl, hcode⟩ := hlink
  have hkey (key : String) (hkey : key = "prevHmac" ∨ key = "hmac") :
      ∀ entry ∈ persistedMembers (basePayload event timestamp), entry.1 ≠ key := by
    intro entry hentry
    obtain ⟨own, hown, hsame⟩ := key_of_mem_persisted hentry
    rw [← hsame]
    obtain ⟨hprev, hhmac, -⟩ := key_ne_of_mem_base hown
    obtain rfl | rfl := hkey
    · exact hprev
    · exact hhmac
  refine ⟨?_, ?_, ?_⟩
  · rw [persisted_linkedPayload, member_append_of_notMem (hkey "prevHmac" (.inl rfl))]
    rfl
  · rw [persisted_linkedPayload, member_append_of_notMem (hkey "hmac" (.inr rfl))]
    rfl
  · rw [authenticatedPart_written, versionOf_written,
      computeEventHmac_persisted (membersSafe_basePayload.mpr hsafe), ← hcode]

/-! ### Runs -/

def endOf (events : List Record) : JsValue :=
  (events.getLast?.map (member · "hmac")).getD (.string genesisHmac)

def AuditState.Continues (state : AuditState) (stream : Stream) : AuditMove → Prop
  | .append process rotates true => ∀ write, state.pending process = some write → write.stream = stream →
      endOf (if rotates then [] else state.files stream) = .string write.prevHmac
  | _ => True

def AuditMove.JsonSafe (stream : Stream) : AuditMove → Prop
  | .begin _ own event _ _ => own = stream → event.JsonSafe
  | _ => True

variable (host) in
def PendingWrite.WellFormed (write : PendingWrite) : Prop :=
  ∃ event timestamp, event.JsonSafe ∧
    write.payload = linkedPayload (basePayload event timestamp) write.prevHmac write.hmac ∧
    write.hmac = computeEventHmac host write.prevHmac (basePayload event timestamp) chainAlgoVersion

variable (host) in
structure AuditState.Chained (state : AuditState) (stream : Stream) : Prop where
  file : ∃ last, CodeChain (WrittenLink host) genesisHmac (state.files stream) last
  pending : ∀ process write, state.pending process = some write → write.stream = stream →
    write.WellFormed host

theorem endOf_concat (events : List Record) (event : Record) :
    endOf (events ++ [event]) = member event "hmac" := by
  rw [endOf, List.getLast?_concat]
  rfl

theorem endOf_of_chain {events : List Record} {last : String}
    (hchain : CodeChain (WrittenLink host) genesisHmac events last) : endOf events = .string last := by
  cases events using List.reverseRecOn with
  | nil =>
      cases hchain
      rfl
  | append_singleton events event _ =>
      obtain ⟨middle, -, hevent⟩ := hchain.of_append
      cases hevent with
      | cons hlink hnil =>
          cases hnil
          rw [endOf_concat, hlink.eventLink.2.1]

theorem PendingWrite.WellFormed.link {write : PendingWrite} (hwrite : write.WellFormed host) :
    WrittenLink host write.prevHmac (persistedMembers write.payload) write.hmac := by
  obtain ⟨event, timestamp, hsafe, hpayload, hcode⟩ := hwrite
  exact ⟨event, timestamp, hsafe, by rw [hpayload], hcode⟩

theorem PendingWrite.WellFormed.extends_chain {write : PendingWrite} (hwrite : write.WellFormed host)
    {events : List Record} (hfile : ∃ last, CodeChain (WrittenLink host) genesisHmac events last)
    (hend : endOf events = .string write.prevHmac) :
    CodeChain (WrittenLink host) genesisHmac (events ++ [persistedMembers write.payload]) write.hmac := by
  obtain ⟨last, hchain⟩ := hfile
  rw [endOf_of_chain hchain, JsValue.string.injEq] at hend
  subst hend
  exact hchain.concat hwrite.link

namespace AuditState.Chained

variable {state : AuditState} {stream : Stream}

theorem initial : AuditState.initial.Chained host stream where
  file := ⟨genesisHmac, .nil genesisHmac⟩
  pending := by
    intro process write hwrite
    cases hwrite

theorem begin (hchained : state.Chained host stream) (process : Nat) {own : Stream} {event : AuditEvent}
    (hsafe : own = stream → event.JsonSafe) (timestamp : String) (readable : Bool) :
    (state.begin host process own event timestamp readable).Chained host stream := by
  rw [AuditState.begin]
  split_ifs
  · exact hchained
  · refine ⟨hchained.file, fun other write hwrite hstream => ?_⟩
    simp only [AuditState.withHead, Function.update_apply] at hwrite
    split_ifs at hwrite with hother
    · obtain rfl := Option.some.inj hwrite
      exact ⟨event, timestamp, hsafe hstream, rfl, rfl⟩
    · exact hchained.pending other write hwrite hstream

theorem rotated (hchained : state.Chained host stream) (own : Stream) :
    ({ state with files := Function.update state.files own [] } : AuditState).Chained host stream := by
  refine ⟨?_, hchained.pending⟩
  simp only [Function.update_apply]
  split_ifs
  · exact ⟨genesisHmac, .nil genesisHmac⟩
  · exact hchained.file

theorem forgotten (hchained : state.Chained host stream) (process : Nat) (heads : Nat → Stream → Option String) :
    ({ state with
        chainHeads := heads
        pending := Function.update state.pending process none } : AuditState).Chained host stream := by
  refine ⟨hchained.file, fun other write hwrite => ?_⟩
  simp only [Function.update_apply] at hwrite
  split_ifs at hwrite
  exact hchained.pending other write hwrite

theorem append (hchained : state.Chained host stream) {process : Nat} {write : PendingWrite}
    (hwrite : state.pending process = some write) {rotates written : Bool}
    (hcontinues : state.Continues stream (.append process rotates written)) :
    (state.append process write rotates written).Chained host stream := by
  have hkept : ∃ last, CodeChain (WrittenLink host) genesisHmac
      (if rotates then [] else state.files stream) last := by
    cases rotates with
    | true => exact ⟨genesisHmac, .nil genesisHmac⟩
    | false => exact hchained.file
  have hpending := (hchained.forgotten process state.chainHeads).pending
  cases written with
  | false =>
      refine ⟨?_, hpending⟩
      simp only [AuditState.append, Bool.false_eq_true, if_false, Function.update_apply]
      by_cases hstream : stream = write.stream
      · rw [if_pos hstream, ← hstream]
        exact hkept
      · rw [if_neg hstream]
        exact hchained.file
  | true =>
      refine ⟨?_, hpending⟩
      simp only [AuditState.append, AuditState.withHead, if_true, Function.update_apply]
      by_cases hstream : stream = write.stream
      · rw [if_pos hstream, ← hstream]
        have hwellFormed := hchained.pending process write hwrite hstream.symm
        exact ⟨write.hmac, hwellFormed.extends_chain hkept (hcontinues write hwrite hstream.symm)⟩
      · rw [if_neg hstream]
        exact hchained.file

theorem after (hchained : state.Chained host stream) {move : AuditMove} (hsafe : move.JsonSafe stream)
    (hcontinues : state.Continues stream move) : (state.after host move).Chained host stream := by
  cases move with
  | begin process own event timestamp readable =>
      rw [AuditState.after]
      cases state.pending process with
      | none => exact hchained.begin process hsafe timestamp readable
      | some write => exact hchained
  | append process rotates written =>
      rw [AuditState.after]
      cases hwrite : state.pending process with
      | none => exact hchained
      | some write => exact hchained.append hwrite hcontinues
  | rotate own => exact hchained.rotated own
  | restart process => exact hchained.forgotten process _

end AuditState.Chained

variable (host) in
theorem auditAfter_concat (moves : List AuditMove) (move : AuditMove) :
    auditAfter host (moves ++ [move]) = (auditAfter host moves).after host move :=
  List.foldl_concat ..

variable (host) in
/-- Each line of the stream continues it. -/
def ContinuedRun (stream : Stream) (moves : List AuditMove) : Prop :=
  ∀ before move, before ++ [move] <+: moves → (auditAfter host before).Continues stream move

theorem ContinuedRun.of_initial {stream : Stream} {before moves : List AuditMove}
    (hrun : ContinuedRun host stream moves) (hinitially : before <+: moves) :
    ContinuedRun host stream before :=
  fun _ _ hmove => hrun _ _ (hmove.trans hinitially)

theorem chained_auditAfter {stream : Stream} {moves : List AuditMove}
    (hsafe : ∀ move ∈ moves, move.JsonSafe stream) (hrun : ContinuedRun host stream moves) :
    (auditAfter host moves).Chained host stream := by
  induction moves using List.reverseRecOn with
  | nil => exact .initial
  | append_singleton moves move ih =>
      obtain ⟨hmoves, hmove⟩ := List.forall_mem_append.mp hsafe
      rw [auditAfter_concat]
      exact (ih hmoves (hrun.of_initial (List.prefix_append ..))).after (hmove move (List.mem_singleton_self _))
        (hrun moves move (List.prefix_refl _))

theorem AuditState.Chained.intact {state : AuditState} {stream : Stream}
    (hchained : state.Chained host stream) : (verifyAuditChain host (state.files stream)).intact = true := by
  obtain ⟨last, hchain⟩ := hchained.file
  have hlinks : CodeChain (EventLink host) genesisHmac (state.files stream) last :=
    hchain.imp fun _ _ _ _ hlink => hlink.eventLink
  have hbears : (state.files stream).filter bearsHmac = state.files stream := by
    refine List.filter_eq_self.mpr fun event hevent => ?_
    obtain ⟨prev, code, hlink⟩ := hlinks.exists_link event hevent
    exact hlink.bears
  rw [verifyAuditChain, verifyFrom_intact, hbears]
  exact ⟨last, hlinks⟩

/-- Every stream verifies in every run in which each line continues its stream, whichever processes write
and however often they restart. -/
theorem auditStreams_intact {moves : List AuditMove} (hsafe : ∀ stream, ∀ move ∈ moves, move.JsonSafe stream)
    (hrun : ∀ stream, ContinuedRun host stream moves) (stream : Stream) :
    (verifyAuditChain host ((auditAfter host moves).files stream)).intact = true :=
  (chained_auditAfter (hsafe stream) (hrun stream)).intact


/-! ### Calls that nothing interrupts -/

variable (host) in
/-- The code of an event behind a code. -/
def eventHmac (prev : String) (event : AuditEvent) (timestamp : String) : String :=
  computeEventHmac host prev (basePayload event timestamp) chainAlgoVersion

variable (host) in
def eventRecord (prev : String) (event : AuditEvent) (timestamp : String) : Record :=
  persistedMembers (linkedPayload (basePayload event timestamp) prev (eventHmac host prev event timestamp))

/-- A call of `writeAuditEvent` whose line is written at once. -/
def wholeCall (process : Nat) (stream : Stream) (event : AuditEvent) (timestamp : String) : List AuditMove :=
  [.begin process stream event timestamp true, .append process false true]

theorem eventRecord_link {event : AuditEvent} (hsafe : event.JsonSafe) (prev timestamp : String) :
    EventLink host prev (eventRecord host prev event timestamp) (eventHmac host prev event timestamp) :=
  WrittenLink.eventLink ⟨event, timestamp, hsafe, rfl, rfl⟩

theorem after_begin {state : AuditState} {process : Nat} {stream : Stream} {event : AuditEvent}
    {timestamp prev : String} (hvalid : validateAuditEvent event = true) (hidle : state.pending = fun _ => none)
    (hprev : state.currentChainHead process stream true = prev) :
    state.after host (.begin process stream event timestamp true) =
      { state.withHead process stream prev with
        pending := Function.update state.pending process (some ⟨stream,
          linkedPayload (basePayload event timestamp) prev (eventHmac host prev event timestamp), prev,
          eventHmac host prev event timestamp⟩) } := by
  simp only [AuditState.after, hidle, AuditState.begin, hvalid, Bool.not_true, Bool.false_eq_true, if_false,
    hprev, eventHmac]

theorem foldl_wholeCall {state : AuditState} {process : Nat} {stream : Stream} {event : AuditEvent}
    {timestamp prev : String} (hvalid : validateAuditEvent event = true) (hidle : state.pending = fun _ => none)
    (hprev : state.currentChainHead process stream true = prev) :
    (wholeCall process stream event timestamp).foldl (AuditState.after host) state =
      { files := Function.update state.files stream (state.files stream ++ [eventRecord host prev event timestamp])
        chainHeads := Function.update state.chainHeads process
          (Function.update (state.chainHeads process) stream (some (eventHmac host prev event timestamp)))
        pending := fun _ => none } := by
  rw [wholeCall, List.foldl_cons, List.foldl_cons, List.foldl_nil, after_begin hvalid hidle hprev]
  simp [AuditState.after, AuditState.append, AuditState.withHead, hidle, eventRecord]

theorem ContinuedRun.concat {stream : Stream} {moves : List AuditMove} (hrun : ContinuedRun host stream moves)
    {move : AuditMove} (hmove : (auditAfter host moves).Continues stream move) :
    ContinuedRun host stream (moves ++ [move]) := by
  intro before next hinitially
  obtain hsame | hinitially := List.prefix_concat_iff.mp hinitially
  · obtain ⟨rfl, hnext⟩ := List.append_inj' hsame rfl
    obtain rfl := List.singleton_inj.mp hnext
    exact hmove
  · exact hrun before next hinitially

theorem ContinuedRun.wholeCall {stream own : Stream} {moves : List AuditMove}
    (hrun : ContinuedRun host stream moves) {process : Nat} {event : AuditEvent} {timestamp prev : String}
    (hvalid : validateAuditEvent event = true) (hidle : (auditAfter host moves).pending = fun _ => none)
    (hprev : (auditAfter host moves).currentChainHead process own true = prev)
    (hend : endOf ((auditAfter host moves).files own) = .string prev) :
    ContinuedRun host stream (moves ++ Audit.wholeCall process own event timestamp) := by
  have hbegun : ContinuedRun host stream (moves ++ [.begin process own event timestamp true]) :=
    hrun.concat trivial
  have hcontinues : (auditAfter host (moves ++ [.begin process own event timestamp true])).Continues stream
      (.append process false true) := by
    intro write hwrite hstream
    rw [auditAfter_concat, after_begin hvalid hidle hprev] at hwrite ⊢
    simp only [Function.update_self] at hwrite
    obtain rfl := Option.some.inj hwrite
    subst hstream
    exact hend
  have happended := hbegun.concat hcontinues
  rwa [List.append_assoc] at happended

/-! ### A stream of two processes -/

def annEvent : AuditEvent := { tenantId := "acme", actor := "ann", action := "close" }

def bobEvent : AuditEvent := { tenantId := "acme", actor := "bob", action := "close" }

def cyEvent : AuditEvent := { tenantId := "acme", actor := "cy", action := "close" }

def sharedStream : Stream := ("/repo", "sprint-1")

def sharedTime : String := "2026-01-01T00:00:00.000Z"

def sharedMoves : List AuditMove :=
  wholeCall 1 sharedStream annEvent sharedTime ++ wholeCall 2 sharedStream bobEvent sharedTime ++
    wholeCall 1 sharedStream cyEvent sharedTime

theorem validateAuditEvent_shared : validateAuditEvent annEvent = true ∧
    validateAuditEvent bobEvent = true ∧ validateAuditEvent cyEvent = true := by decide +kernel

theorem lastHmac_ann (hdigest : ∀ data, host.hmacSha256 data ≠ "") :
    (lastHmac [eventRecord host genesisHmac annEvent sharedTime]).getD genesisHmac =
      eventHmac host genesisHmac annEvent sharedTime := by
  have hmember := (@eventRecord_link host annEvent (.inl rfl) genesisHmac sharedTime).2.1
  have hcode : eventHmac host genesisHmac annEvent sharedTime ≠ "" := hdigest _
  rw [lastHmac, List.getLast?_singleton, Option.map_some, hmember]
  simp [hcode]

variable (host) in
theorem auditAfter_ann : auditAfter host (wholeCall 1 sharedStream annEvent sharedTime) =
    { files := Function.update (fun _ => []) sharedStream [eventRecord host genesisHmac annEvent sharedTime]
      chainHeads := Function.update (fun _ _ => none) 1 (Function.update (fun _ => none) sharedStream
        (some (eventHmac host genesisHmac annEvent sharedTime)))
      pending := fun _ => none } :=
  foldl_wholeCall validateAuditEvent_shared.1 rfl rfl

theorem files_sharedMoves (hdigest : ∀ data, host.hmacSha256 data ≠ "") :
    (auditAfter host sharedMoves).files sharedStream =
      [eventRecord host genesisHmac annEvent sharedTime,
        eventRecord host (eventHmac host genesisHmac annEvent sharedTime) bobEvent sharedTime,
        eventRecord host (eventHmac host genesisHmac annEvent sharedTime) cyEvent sharedTime] := by
  obtain ⟨-, hbob, hcy⟩ := validateAuditEvent_shared
  have hcall {state : AuditState} {process : Nat} {event : AuditEvent} {prev : String}
      (hvalid : validateAuditEvent event = true) (hidle : state.pending = fun _ => none)
      (hprev : state.currentChainHead process sharedStream true = prev) :=
    @foldl_wholeCall host state process sharedStream event sharedTime prev hvalid hidle hprev
  rw [auditAfter, sharedMoves, List.foldl_append, List.foldl_append, ← auditAfter, auditAfter_ann,
    @hcall _ _ _ (eventHmac host genesisHmac annEvent sharedTime) hbob rfl ?_,
    @hcall _ _ _ (eventHmac host genesisHmac annEvent sharedTime) hcy rfl ?_]
  · simp
  · simp [AuditState.currentChainHead]
  · simpa [AuditState.currentChainHead] using lastHmac_ann hdigest

theorem verifyFrom_of_link {prev code : String} {event : Record} (hlink : EventLink host prev event code)
    (index : Nat) (rest : List Record) :
    verifyFrom host prev index (event :: rest) = verifyFrom host code (index + 1) rest := by
  have hbears : (member event "hmac").isUndefined = false := by rw [hlink.2.1]; rfl
  obtain ⟨hprev, hcode, rfl⟩ := hlink
  rw [verifyFrom, if_neg (by rw [hbears]; decide), if_neg (by rw [isText_iff.mpr hprev]; decide),
    if_neg (by rw [isText_iff.mpr hcode]; decide)]

theorem verifyFrom_of_prev_ne {prev other code : String} {event : Record}
    (hlink : EventLink host other event code) (hother : other ≠ prev) (index : Nat) (rest : List Record) :
    verifyFrom host prev index (event :: rest) = { intact := false, brokenAt := some index } := by
  have hbears : (member event "hmac").isUndefined = false := by rw [hlink.2.1]; rfl
  rw [verifyFrom, if_neg (by rw [hbears]; decide), hlink.1, if_pos (by simp [isText, hother])]

theorem verifyAuditChain_sharedMoves (hdigest : ∀ data, host.hmacSha256 data ≠ "")
    (hfresh : eventHmac host genesisHmac annEvent sharedTime ≠
      eventHmac host (eventHmac host genesisHmac annEvent sharedTime) bobEvent sharedTime) :
    verifyAuditChain host ((auditAfter host sharedMoves).files sharedStream) =
      { intact := false, brokenAt := some 2 } := by
  rw [files_sharedMoves hdigest, verifyAuditChain, verifyFrom_of_link (eventRecord_link (.inl rfl) ..),
    verifyFrom_of_link (eventRecord_link (.inl rfl) ..),
    verifyFrom_of_prev_ne (eventRecord_link (.inl rfl) ..) hfresh]

def sampleNumberText (value : ℚ) : String := if value = 2 then "2" else String.ofList (unaryText value)

/-- The digests of the audit trail, and numbers of which only the version is written as it is. -/
def sampleHost : AuditHost where
  numberText := sampleNumberText
  sha256 := sha256Hex
  hmacSha256 := hmacSha256Hex "deckent-audit"

theorem sampleHost_digest (data : String) : sampleHost.hmacSha256 data ≠ "" := by
  intro hempty
  have hdigest : isSha256Text (sampleHost.hmacSha256 data) = true := isSha256Text_hmacSha256Hex _ _
  rw [hempty] at hdigest
  cases hdigest

/-- The third line breaks the chain: its process has not seen the second. -/
theorem auditStreams_shared : verifyAuditChain sampleHost ((auditAfter sampleHost sharedMoves).files sharedStream) =
    { intact := false, brokenAt := some 2 } :=
  verifyAuditChain_sharedMoves sampleHost_digest (by decide +kernel)

/-- Where the second process goes on from the first, the stream verifies. -/
theorem auditStreams_relayed : (verifyAuditChain sampleHost ((auditAfter sampleHost
    (wholeCall 1 sharedStream annEvent sharedTime ++ wholeCall 2 sharedStream bobEvent sharedTime)).files
      sharedStream)).intact = true := by
  obtain ⟨hann, hbob, -⟩ := validateAuditEvent_shared
  refine auditStreams_intact (fun stream move hmove => ?_) (fun stream => ?_) sharedStream
  · simp only [wholeCall, List.cons_append, List.nil_append, List.mem_cons, List.not_mem_nil, or_false] at hmove
    obtain rfl | rfl | rfl | rfl := hmove
    · exact fun _ => .inl rfl
    · trivial
    · exact fun _ => .inl rfl
    · trivial
  · have hnil : ContinuedRun sampleHost stream [] := fun before move hinitially => by simp at hinitially
    have hfirst : ContinuedRun sampleHost stream (wholeCall 1 sharedStream annEvent sharedTime) :=
      hnil.wholeCall hann rfl rfl rfl
    have hprev : (auditAfter sampleHost (wholeCall 1 sharedStream annEvent sharedTime)).currentChainHead 2
        sharedStream true = eventHmac sampleHost genesisHmac annEvent sharedTime := by
      rw [auditAfter_ann]
      simpa [AuditState.currentChainHead] using lastHmac_ann sampleHost_digest
    refine hfirst.wholeCall hbob (by rw [auditAfter_ann]) hprev ?_
    rw [auditAfter_ann]
    simp only [Function.update_self]
    exact (endOf_concat [] _).trans (eventRecord_link (.inl rfl) ..).2.1

end Chain

end Deckent.Audit
