import Deckent.Proof.AuditChain

/-!
# What an intact chain shows
When no two data have one code, a code shows the code before it and, up to the order of members, what is
authenticated by it: the code before it ends where the text of an object begins. So events that verify and
bear codes of one chain only are a beginning of that chain.
-/

/-! ### A stream of one process

The head that a process keeps is the code at the end of its file: it looks the code up before its first
write there and keeps the code of each line that it has written. So every line continues the stream, however
often the process restarts, when no one else writes and the file stays where it is. -/

namespace Deckent.Audit

open JsValue

variable {host : AuditHost}

/-- A move of a process that writes safe events, reads the files and does not move them aside. -/
def AuditMove.OfSoleWriter (process : Nat) : AuditMove → Prop
  | .begin own _ event _ readable => own = process ∧ event.JsonSafe ∧ readable = true
  | .append own rotates _ => own = process ∧ rotates = false
  | .rotate _ => False
  | .restart own => own = process

theorem AuditMove.OfSoleWriter.jsonSafe {process : Nat} {move : AuditMove}
    (hmove : move.OfSoleWriter process) (stream : Stream) : move.JsonSafe stream := by
  cases move with
  | begin own target event timestamp readable => exact fun _ => hmove.2.1
  | _ => trivial

structure AuditState.KnownBy (state : AuditState) (process : Nat) : Prop where
  heads : ∀ stream head, state.chainHeads process stream = some head →
    endOf (state.files stream) = .string head
  pending : ∀ own write, state.pending own = some write →
    own = process ∧ endOf (state.files write.stream) = .string write.prevHmac

theorem endOf_of_lastHmac (hdigest : ∀ data, host.hmacSha256 data ≠ "") {state : AuditState}
    {stream : Stream} (hchained : state.Chained host stream) :
    endOf (state.files stream) = .string ((lastHmac (state.files stream)).getD genesisHmac) := by
  obtain ⟨last, hchain⟩ := hchained.file
  have hend := endOf_of_chain hchain
  cases hfile : state.files stream using List.reverseRecOn with
  | nil => rfl
  | append_singleton events event _ =>
      rw [hfile] at hchain hend
      obtain ⟨middle, -, hevent⟩ := hchain.of_append
      cases hevent with
      | cons hlink hnil =>
          cases hnil
          obtain ⟨own, timestamp, -, -, hcode⟩ := hlink
          have hlast : last ≠ "" := by
            rw [hcode]
            exact hdigest _
          rw [hend, lastHmac, List.getLast?_concat, Option.map_some]
          rw [endOf_concat] at hend
          rw [hend]
          simp [hlast]

namespace AuditState.KnownBy

variable {state : AuditState} {process : Nat}

theorem initial : AuditState.initial.KnownBy process where
  heads := by
    intro stream head hhead
    cases hhead
  pending := by
    intro own write hwrite
    cases hwrite

theorem begin (hknown : state.KnownBy process) (hdigest : ∀ data, host.hmacSha256 data ≠ "")
    {stream : Stream} (hchained : state.Chained host stream) (event : AuditEvent) (timestamp : String) :
    (state.begin host process stream event timestamp true).KnownBy process := by
  have hend : endOf (state.files stream) = .string (state.currentChainHead process stream true) := by
    rw [AuditState.currentChainHead]
    cases hhead : state.chainHeads process stream with
    | none => exact endOf_of_lastHmac hdigest hchained
    | some head => exact hknown.heads stream head hhead
  rw [AuditState.begin]
  split_ifs
  · exact hknown
  · refine ⟨fun other head hhead => ?_, fun own write hwrite => ?_⟩
    · simp only [AuditState.withHead, Function.update_self, Function.update_apply] at hhead
      split_ifs at hhead with hother
      · obtain rfl := Option.some.inj hhead
        rw [hother]
        exact hend
      · exact hknown.heads other head hhead
    · simp only [Function.update_apply] at hwrite
      split_ifs at hwrite with hown
      · obtain rfl := Option.some.inj hwrite
        exact ⟨hown, hend⟩
      · exact hknown.pending own write hwrite

theorem restart (hknown : state.KnownBy process) : (state.after host (.restart process)).KnownBy process := by
  refine ⟨fun stream head hhead => ?_, fun own write hwrite => ?_⟩
  · simp [AuditState.after] at hhead
  · simp only [AuditState.after, Function.update_apply] at hwrite
    split_ifs at hwrite
    exact hknown.pending own write hwrite

theorem append (hknown : state.KnownBy process) {write : PendingWrite}
    (hchained : state.Chained host write.stream)
    (hwrite : state.pending process = some write) (written : Bool) :
    (state.append process write false written).KnownBy process := by
  have hpending {own : Nat} {other : PendingWrite}
      (hother : Function.update state.pending process none own = some other) : False := by
    rw [Function.update_apply] at hother
    split_ifs at hother with hown
    exact hown (hknown.pending own other hother).1
  cases written with
  | false =>
      refine ⟨fun stream head hhead => ?_, fun own other hother => (hpending hother).elim⟩
      simp only [AuditState.append, Bool.false_eq_true, if_false, Function.update_eq_self] at hhead ⊢
      exact hknown.heads stream head hhead
  | true =>
      refine ⟨fun stream head hhead => ?_, fun own other hother => (hpending hother).elim⟩
      simp only [AuditState.append, AuditState.withHead, if_true, Bool.false_eq_true, if_false,
        Function.update_self, Function.update_apply] at hhead ⊢
      split_ifs at hhead ⊢ with hstream
      · obtain rfl := Option.some.inj hhead
        have hlink := (hchained.pending process write hwrite rfl).link.eventLink
        rw [endOf_concat, hlink.2.1]
      · exact hknown.heads stream head hhead

end AuditState.KnownBy

theorem AuditMove.OfSoleWriter.continues {state : AuditState} {process : Nat} {move : AuditMove}
    (hmove : move.OfSoleWriter process) (hknown : state.KnownBy process) (stream : Stream) :
    state.Continues stream move := by
  cases move with
  | append own rotates written =>
      obtain ⟨-, rfl⟩ := hmove
      cases written with
      | false => trivial
      | true =>
          rintro write hwrite rfl
          exact (hknown.pending own write hwrite).2
  | _ => trivial

theorem AuditState.KnownBy.after {state : AuditState} {process : Nat} {move : AuditMove}
    (hknown : state.KnownBy process) (hdigest : ∀ data, host.hmacSha256 data ≠ "")
    (hchained : ∀ stream, state.Chained host stream) (hmove : move.OfSoleWriter process) :
    (state.after host move).KnownBy process := by
  cases move with
  | begin own stream event timestamp readable =>
      obtain ⟨rfl, -, rfl⟩ := hmove
      rw [AuditState.after]
      cases state.pending own with
      | none => exact hknown.begin hdigest (hchained stream) event timestamp
      | some write => exact hknown
  | append own rotates written =>
      obtain ⟨rfl, rfl⟩ := hmove
      rw [AuditState.after]
      cases hwrite : state.pending own with
      | none => exact hknown
      | some write => exact hknown.append (hchained write.stream) hwrite written
  | rotate stream => exact hmove.elim
  | restart own =>
      obtain rfl : own = process := hmove
      exact hknown.restart

theorem soleWriter_auditAfter (hdigest : ∀ data, host.hmacSha256 data ≠ "") {process : Nat}
    {moves : List AuditMove} (hmoves : ∀ move ∈ moves, move.OfSoleWriter process) :
    (auditAfter host moves).KnownBy process ∧ ∀ stream, (auditAfter host moves).Chained host stream := by
  induction moves using List.reverseRecOn with
  | nil => exact ⟨.initial, fun _ => .initial⟩
  | append_singleton moves move ih =>
      obtain ⟨hmoves, hmove⟩ := List.forall_mem_append.mp hmoves
      obtain ⟨hknown, hchained⟩ := ih hmoves
      have hsole := hmove move (List.mem_singleton_self _)
      rw [auditAfter_concat]
      exact ⟨hknown.after hdigest hchained hsole, fun stream =>
        (hchained stream).after (hsole.jsonSafe stream) (hsole.continues hknown stream)⟩

theorem sampleHost_writesNumbers : WritesNumbers sampleHost.numberText :=
  writesNumbers_unary rfl rfl

end Deckent.Audit

namespace Deckent.Audit

open JsValue

/-- No two data have one digest. -/
structure AuditHost.CollisionFree (host : AuditHost) : Prop where
  hmac : Function.Injective host.hmacSha256
  sha : Function.Injective host.sha256
  apart : ∀ left right, host.hmacSha256 left ≠ host.sha256 right

/-- Digests are written in hexadecimal digits. -/
structure AuditHost.HexDigests (host : AuditHost) : Prop where
  hmac : ∀ data, (host.hmacSha256 data).toList.all isLowerHexDigit = true
  sha : ∀ data, (host.sha256 data).toList.all isLowerHexDigit = true

def SameAuthenticated (left right : Record) : Prop :=
  (JsValue.object (authenticatedPart left)).ordered = (JsValue.object (authenticatedPart right)).ordered ∧
    member left "prevHmac" = member right "prevHmac" ∧ member left "hmac" = member right "hmac"

variable {host : AuditHost}

theorem authenticatedPart_stored {event : Record} (hstored : (JsValue.object event).IsStored) :
    (JsValue.object (authenticatedPart event)).IsStored := by
  rw [isStored_object] at hstored ⊢
  exact fun entry hentry => hstored entry (List.mem_of_mem_filter hentry)

theorem WrittenLink.stored {prev code : String} {record : Record}
    (hlink : WrittenLink host prev record code) : (JsValue.object record).IsStored := by
  obtain ⟨event, timestamp, -, rfl, -⟩ := hlink
  exact isStored_persisted (persisted_object _)

/-! ### Codes -/

theorem notMem_brace_of_hex {text : String} (htext : text.toList.all isLowerHexDigit = true) :
    '\x7b' ∉ text.toList := by
  intro hbrace
  exact absurd (List.all_eq_true.mp htext _ hbrace) (by decide)

theorem computeEventHmac_hex (hdigits : host.HexDigests) (prev : String) (base : Record)
    (version : JsNumber) : (computeEventHmac host prev base version).toList.all isLowerHexDigit = true := by
  rw [computeEventHmac]
  split_ifs
  · exact hdigits.hmac _
  · exact hdigits.sha _

theorem computeEventHmac_data (hfree : host.CollisionFree) {prev prev' : String} {base base' : Record}
    {version version' : JsNumber}
    (hsame : computeEventHmac host prev base version = computeEventHmac host prev' base' version') :
    prev ++ canonicalObject (canonicalMembers host.numberText base) =
      prev' ++ canonicalObject (canonicalMembers host.numberText base') := by
  simp only [computeEventHmac, canonicalJson, Option.getD_some] at hsame
  split_ifs at hsame
  · exact hfree.hmac hsame
  · exact absurd hsame (hfree.apart _ _)
  · exact absurd hsame.symm (hfree.apart _ _)
  · exact hfree.sha hsame

theorem append_cons_inj {left right leftRest rightRest : List Char} {c : Char} (hleft : c ∉ left)
    (hright : c ∉ right) (hsame : left ++ c :: leftRest = right ++ c :: rightRest) :
    left = right ∧ leftRest = rightRest := by
  have hlength := congrArg (List.idxOf c) hsame
  rw [List.idxOf_append_of_notMem hleft, List.idxOf_append_of_notMem hright, List.idxOf_cons_self,
    List.idxOf_cons_self] at hlength
  obtain ⟨hbefore, hafter⟩ := List.append_inj hsame hlength
  exact ⟨hbefore, (List.cons.inj hafter).2⟩

theorem data_inj (hwrites : WritesNumbers host.numberText) {prev prev' : String} {base base' : Record}
    (hprev : '\x7b' ∉ prev.toList) (hprev' : '\x7b' ∉ prev'.toList)
    (hbase : (JsValue.object base).IsStored) (hbase' : (JsValue.object base').IsStored)
    (hsame : prev ++ canonicalObject (canonicalMembers host.numberText base) =
      prev' ++ canonicalObject (canonicalMembers host.numberText base')) :
    prev = prev' ∧ (JsValue.object base).ordered = (JsValue.object base').ordered := by
  have hlists := congrArg String.toList hsame
  rw [String.toList_append, String.toList_append, toList_canonicalObject, toList_canonicalObject] at hlists
  obtain ⟨hcode, htext⟩ := append_cons_inj hprev hprev' hlists
  refine ⟨String.toList_inj.mp hcode, ordered_eq_of_canonicalJson hwrites hbase hbase' ?_⟩
  rw [canonicalJson, canonicalJson, Option.some.injEq, ← String.toList_inj, toList_canonicalObject,
    toList_canonicalObject, htext]

/-! ### Chains -/

variable (host) in
def StoredLink (prev : String) (event : Record) (code : String) : Prop :=
  (EventLink host prev event code ∧ (JsValue.object event).IsStored) ∧ '\x7b' ∉ prev.toList

theorem storedLink_binding (hwrites : WritesNumbers host.numberText) (hfree : host.CollisionFree)
    (hdigits : host.HexDigests) : BindingLink (StoredLink host) genesisHmac SameAuthenticated where
  back := by
    rintro prev prev' event event' code ⟨⟨hlink, hstored⟩, hbrace⟩ ⟨⟨hlink', hstored'⟩, hbrace'⟩
    have hdata := computeEventHmac_data hfree (hlink.2.2.symm.trans hlink'.2.2)
    obtain ⟨rfl, hordered⟩ := data_inj hwrites hbrace hbrace' (authenticatedPart_stored hstored)
      (authenticatedPart_stored hstored') hdata
    exact ⟨rfl, hordered, hlink.1.trans hlink'.1.symm, hlink.2.1.trans hlink'.2.1.symm⟩
  own := by
    rintro prev prev' event code code' ⟨⟨hlink, -⟩, -⟩ ⟨⟨hlink', -⟩, -⟩
    exact JsValue.string.inj (hlink.2.1.symm.trans hlink'.2.1)
  start := by
    rintro prev event ⟨⟨hlink, -⟩, -⟩
    have hhex := computeEventHmac_hex hdigits prev (authenticatedPart event) (versionOf event)
    rw [← hlink.2.2] at hhex
    exact absurd hhex (by decide)

theorem storedChain (hdigits : host.HexDigests) {events : List Record} {last : String}
    (hchain : CodeChain (EventLink host) genesisHmac events last)
    (hstored : ∀ event ∈ events, (JsValue.object event).IsStored) :
    CodeChain (StoredLink host) genesisHmac events last := by
  have hlinks : CodeChain (fun prev event code => EventLink host prev event code ∧
      (JsValue.object event).IsStored) genesisHmac events last :=
    hchain.imp fun event hevent _ _ hlink => ⟨hlink, hstored event hevent⟩
  refine hlinks.with_invariant (P := fun code => '\x7b' ∉ code.toList) ?_ (by decide)
  rintro prev event code ⟨hlink, -⟩
  rw [hlink.2.2]
  exact notMem_brace_of_hex (computeEventHmac_hex hdigits ..)

/-- Of a stream whose lines each continue it, stored events that verify and bear codes of the stream only
are a beginning: none is changed, moved, repeated or left out. -/
theorem verifyAuditChain_tamperEvident (hwrites : WritesNumbers host.numberText) (hfree : host.CollisionFree)
    (hdigits : host.HexDigests) {moves : List AuditMove} {stream : Stream}
    (hsafe : ∀ move ∈ moves, move.JsonSafe stream) (hrun : ContinuedRun host stream moves)
    {events : List Record} (hstored : ∀ event ∈ events, (JsValue.object event).IsStored)
    (hcodes : ∀ event ∈ events, bearsHmac event = true →
      ∃ other ∈ (auditAfter host moves).files stream, member other "hmac" = member event "hmac")
    (hintact : (verifyAuditChain host events).intact = true) :
    ∃ initial, initial <+: (auditAfter host moves).files stream ∧
      List.Forall₂ SameAuthenticated (events.filter bearsHmac) initial := by
  obtain ⟨last, hwritten⟩ := (chained_auditAfter hsafe hrun).file
  have hfile : CodeChain (StoredLink host) genesisHmac ((auditAfter host moves).files stream) last := by
    refine storedChain hdigits (hwritten.imp fun _ _ _ _ hlink => hlink.eventLink) fun event hevent => ?_
    obtain ⟨prev, code, hlink⟩ := hwritten.exists_link event hevent
    exact hlink.stored
  obtain ⟨code, hevents⟩ := verifyFrom_intact.mp hintact
  have hchain := storedChain hdigits hevents fun event hevent => hstored event (List.mem_of_mem_filter hevent)
  obtain ⟨initial, hinitially, -, hsame⟩ :=
    (storedLink_binding hwrites hfree hdigits).forall₂_initial hfile hchain fun event hevent prev next hlink => by
      obtain ⟨hmem, hbears⟩ := List.mem_filter.mp hevent
      obtain ⟨other, hother, hcode⟩ := hcodes event hmem hbears
      obtain ⟨before, own, hlink'⟩ := hfile.exists_link other hother
      have hown : own = next :=
        JsValue.string.inj (hlink'.1.1.2.1.symm.trans (hcode.trans hlink.1.1.2.1))
      exact ⟨other, hother, before, hown ▸ hlink'⟩
  exact ⟨initial, hinitially, hsame⟩

/-! ### A stream of two processes -/

theorem ordered_object (members : List (String × JsValue)) :
    (JsValue.object members).ordered = .object (byKey (members.map fun entry => (entry.1, entry.2.ordered))) := by
  rw [ordered, orderedMembers_eq]

theorem not_sameAuthenticated_shared {prev prev' : String} :
    ¬SameAuthenticated (eventRecord sampleHost prev cyEvent sharedTime)
      (eventRecord sampleHost prev' bobEvent sharedTime) := by
  rintro ⟨hordered, -⟩
  rw [eventRecord, eventRecord, authenticatedPart_written, authenticatedPart_written, ordered_object,
    ordered_object] at hordered
  have hactor : ("actor", JsValue.string "cy") ∈ byKey ((persistedMembers (basePayload cyEvent sharedTime)).map
      fun entry => (entry.1, entry.2.ordered)) := mem_byKey.mpr (.tail _ (.head _))
  rw [JsValue.object.inj hordered, mem_byKey] at hactor
  change _ ∈ [("tenantId", JsValue.string "acme"), ("actor", .string "bob"), ("action", .string "close"),
    ("chainVersion", .number chainAlgoVersion), ("timestamp", .string sharedTime)] at hactor
  simp at hactor

/-- Of the stream of two processes the event in the middle can be left out. -/
theorem verifyAuditChain_leftOut :
    (verifyAuditChain sampleHost [eventRecord sampleHost genesisHmac annEvent sharedTime, eventRecord sampleHost
      (eventHmac sampleHost genesisHmac annEvent sharedTime) cyEvent sharedTime]).intact = true ∧
    (∀ event ∈ [eventRecord sampleHost genesisHmac annEvent sharedTime, eventRecord sampleHost
      (eventHmac sampleHost genesisHmac annEvent sharedTime) cyEvent sharedTime],
      ∃ other ∈ (auditAfter sampleHost sharedMoves).files sharedStream,
        member other "hmac" = member event "hmac") ∧
    ¬∃ initial, initial <+: (auditAfter sampleHost sharedMoves).files sharedStream ∧
      List.Forall₂ SameAuthenticated [eventRecord sampleHost genesisHmac annEvent sharedTime,
        eventRecord sampleHost (eventHmac sampleHost genesisHmac annEvent sharedTime) cyEvent sharedTime]
        initial := by
  rw [files_sharedMoves sampleHost_digest]
  refine ⟨?_, fun event hevent => ⟨event, ?_, rfl⟩, ?_⟩
  · rw [verifyAuditChain, verifyFrom_of_link (eventRecord_link (.inl rfl) ..),
      verifyFrom_of_link (eventRecord_link (.inl rfl) ..)]
    rfl
  · obtain rfl | hevent := List.mem_cons.mp hevent
    · exact .head _
    · rw [List.mem_singleton.mp hevent]
      exact .tail _ (.tail _ (.head _))
  · rintro ⟨initial, hinitially, hsame⟩
    cases hsame with
    | cons _ hrest =>
        cases hrest with
        | cons hsecond hnil =>
            cases hnil
            obtain ⟨-, hinitially⟩ := List.cons_prefix_cons.mp hinitially
            obtain ⟨rfl, -⟩ := List.cons_prefix_cons.mp hinitially
            exact not_sameAuthenticated_shared hsecond

/-! ### A stream of one event -/

def spelling (text : List Char) : List Char := text.flatMap fun c => List.replicate c.toNat '0' ++ ['1']

theorem spelling_injective : Function.Injective spelling := by
  intro left right hsame
  induction left generalizing right with
  | nil =>
      cases right with
      | nil => rfl
      | cons d right => simp [spelling] at hsame
  | cons c left ih =>
      cases right with
      | nil => simp [spelling] at hsame
      | cons d right =>
          simp only [spelling, List.flatMap_cons, List.append_assoc, List.cons_append, List.nil_append] at hsame
          obtain ⟨hc, hrest⟩ := replicate_mark_inj (by decide) hsame
          rw [Char.toNat_inj.mp hc, ih hrest]

theorem spelling_hex (text : List Char) : (spelling text).all isLowerHexDigit = true := by
  rw [spelling, List.all_flatMap, List.all_eq_true]
  intro c _
  rw [List.all_append, List.all_replicate]
  split_ifs <;> decide

def longDigest (mark : Char) (data : String) : String :=
  String.ofList (List.replicate 65 mark ++ spelling data.toList)

theorem longDigest_inj {left right : Char} {data other : String}
    (hsame : longDigest left data = longDigest right other) : left = right ∧ data = other := by
  obtain ⟨hmark, hdata⟩ := List.append_inj (String.ofList_injective hsame) rfl
  exact ⟨(List.cons.inj hmark).1, String.toList_inj.mp (spelling_injective hdata)⟩

theorem longDigest_hex {mark : Char} (hmark : isLowerHexDigit mark = true) (data : String) :
    (longDigest mark data).toList.all isLowerHexDigit = true := by
  rw [longDigest, String.toList_ofList, List.all_append, spelling_hex, List.all_replicate]
  simp [hmark]

theorem longDigest_ne {mark : Char} {data digest : String} (hdigest : isSha256Text digest = true) :
    digest ≠ longDigest mark data := by
  rintro rfl
  rw [isSha256Text, Bool.and_eq_true, decide_eq_true_eq, longDigest, String.length_ofList, List.length_append,
    List.length_replicate] at hdigest
  omega

def annData : String :=
  genesisHmac ++ (canonicalJson sampleNumberText (.object (basePayload annEvent sharedTime))).getD "undefined"

/-- Digests without collisions. The first event has the code that it has in use. -/
def spelledHost : AuditHost where
  numberText := sampleNumberText
  sha256 := longDigest 'b'
  hmacSha256 data := if data = annData then hmacSha256Hex "deckent-audit" data else longDigest 'a' data

theorem spelledHost_collisionFree : spelledHost.CollisionFree where
  hmac := by
    intro left right hsame
    simp only [spelledHost] at hsame
    split_ifs at hsame with hleft hright hright
    · rw [hleft, hright]
    · exact absurd hsame (longDigest_ne (isSha256Text_hmacSha256Hex ..))
    · exact absurd hsame.symm (longDigest_ne (isSha256Text_hmacSha256Hex ..))
    · exact (longDigest_inj hsame).2
  sha := fun _ _ hsame => (longDigest_inj hsame).2
  apart := by
    intro left right hsame
    simp only [spelledHost] at hsame
    split_ifs at hsame
    · exact longDigest_ne (isSha256Text_hmacSha256Hex ..) hsame
    · exact absurd (longDigest_inj hsame).1 (by decide)

theorem spelledHost_hexDigits : spelledHost.HexDigests where
  hmac := by
    intro data
    simp only [spelledHost]
    split_ifs
    · have hdigest := isSha256Text_hmacSha256Hex "deckent-audit" data
      rw [isSha256Text, Bool.and_eq_true] at hdigest
      exact hdigest.2
    · exact longDigest_hex (by decide) data
  sha := fun data => longDigest_hex (by decide) data

/-- An event without a code does not count, and the rest is the stream. -/
theorem verifyAuditChain_legacy : ∃ initial, initial <+:
    (auditAfter spelledHost (wholeCall 1 sharedStream annEvent sharedTime)).files sharedStream ∧
    List.Forall₂ SameAuthenticated (([("actor", .string "bob")] ::
      (auditAfter spelledHost (wholeCall 1 sharedStream annEvent sharedTime)).files sharedStream).filter
        bearsHmac) initial := by
  have hrun : ContinuedRun spelledHost sharedStream (wholeCall 1 sharedStream annEvent sharedTime) := by
    have hnil : ContinuedRun spelledHost sharedStream [] := fun before move hinitially => by simp at hinitially
    exact hnil.wholeCall validateAuditEvent_shared.1 rfl rfl rfl
  have hsafe : ∀ move ∈ wholeCall 1 sharedStream annEvent sharedTime, move.JsonSafe sharedStream := by
    intro move hmove
    simp only [wholeCall, List.mem_cons, List.not_mem_nil, or_false] at hmove
    obtain rfl | rfl := hmove
    · exact fun _ => .inl rfl
    · trivial
  have hchained := chained_auditAfter hsafe hrun
  obtain ⟨last, hchain⟩ := hchained.file
  have hmetadata : bearsHmac [("actor", .string "bob")] = false := rfl
  have hwrites : WritesNumbers spelledHost.numberText := sampleHost_writesNumbers
  refine verifyAuditChain_tamperEvident hwrites spelledHost_collisionFree
    spelledHost_hexDigits hsafe hrun (List.forall_mem_cons.mpr ⟨rfl, fun event hevent => ?_⟩)
    (List.forall_mem_cons.mpr ⟨fun hbears => ?_, fun event hevent _ => ⟨event, hevent, rfl⟩⟩) ?_
  · obtain ⟨prev, code, hlink⟩ := hchain.exists_link event hevent
    exact hlink.stored
  · rw [hmetadata] at hbears
    cases hbears
  · rw [verifyAuditChain, verifyFrom_intact, List.filter_cons_of_neg (by rw [hmetadata]; decide)]
    exact verifyFrom_intact.mp hchained.intact

end Deckent.Audit
