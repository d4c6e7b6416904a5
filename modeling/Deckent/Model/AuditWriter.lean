import Mathlib.Logic.Function.Basic
import Deckent.Model.JsValue

/-!
# The audit trail

An audit event carries a code over its payload and the code of the event before it, so that a stream of
events is a chain. A process keeps the head of the chain of each stream that it has written, and looks it up
in the file of the stream only before its first write there.

A write is two moves of its process: the head is taken and the code computed, and then the line is appended.
Of a file only the audit events count, as they are read back, and a file that has grown too large is moved
aside before a line is appended. The digests are parameters.
-/

namespace Deckent.Audit

open JsValue (Record member)

abbrev Stream := String × String

structure AuditHost where
  /-- `JSON.stringify` on a finite number. -/
  numberText : ℚ → String
  /-- `createHash('sha256').update(data).digest('hex')`. -/
  sha256 : String → String
  /-- `createHmac('sha256', AUDIT_HMAC_SECRET).update(data).digest('hex')`. -/
  hmacSha256 : String → String

def genesisHmac : String := "deckent-audit-genesis-0000000000000000000000000000000000000000"

def chainAlgoVersion : JsNumber := 2

/-! ### Events -/

structure AuditEvent where
  tenantId : String
  actor : String
  action : String
  target : Option String := none
  metadata : JsValue := .undefined
  correlationId : Option String := none
  causationId : Option String := none

def validateAuditEvent (event : AuditEvent) : Bool :=
  trim event.tenantId ≠ "" && trim event.actor ≠ "" && trim event.action ≠ ""

def optionalMember (key : String) (value : JsValue) : Record :=
  if value.isUndefined then [] else [(key, value)]

def optionalText (value : Option String) : JsValue := (value.map JsValue.string).getD .undefined

def basePayload (event : AuditEvent) (timestamp : String) : Record :=
  [("tenantId", .string event.tenantId), ("actor", .string event.actor), ("action", .string event.action)]
    ++ optionalMember "target" (optionalText event.target)
    ++ optionalMember "metadata" event.metadata
    ++ optionalMember "correlationId" (optionalText event.correlationId)
    ++ optionalMember "causationId" (optionalText event.causationId)
    ++ [("chainVersion", .number chainAlgoVersion), ("timestamp", .string timestamp)]

section Chain

variable (host : AuditHost)

def computeEventHmac (prevHmac : String) (basePayload : Record) (version : JsNumber) : String :=
  let data := prevHmac ++ (canonicalJson host.numberText (.object basePayload)).getD "undefined"
  if JsNumber.le 2 version then host.hmacSha256 data else host.sha256 data

def linkedPayload (base : Record) (prevHmac hmac : String) : Record :=
  base ++ [("prevHmac", .string prevHmac), ("hmac", .string hmac)]

/-! ### Verification -/

structure ChainVerdict where
  intact : Bool
  brokenAt : Option Nat := none
  deriving DecidableEq

def authenticatedPart (event : Record) : Record :=
  event.filter fun entry => entry.1 ≠ "hmac" && entry.1 ≠ "prevHmac" && entry.1 ≠ "__proto__"

def versionOf (event : Record) : JsNumber :=
  match member event "chainVersion" with
  | .number version => version
  | _ => 1

/-- The loop of `verifyAuditChain` from an index on. -/
def verifyFrom (expectedPrev : String) (index : Nat) : List Record → ChainVerdict
  | [] => { intact := true }
  | event :: rest =>
      if (member event "hmac").isUndefined then verifyFrom expectedPrev (index + 1) rest
      else if !(member event "prevHmac").isText expectedPrev then { intact := false, brokenAt := index }
      else
        let expected := computeEventHmac host expectedPrev (authenticatedPart event) (versionOf event)
        if !(member event "hmac").isText expected then { intact := false, brokenAt := index }
        else verifyFrom expected (index + 1) rest

def verifyAuditChain (events : List Record) : ChainVerdict := verifyFrom host genesisHmac 0 events

/-! ### Writes -/

structure PendingWrite where
  stream : Stream
  payload : Record
  prevHmac : String
  hmac : String

structure AuditState where
  /-- The audit events of each file, as they are read back. -/
  files : Stream → List Record
  /-- The heads that each process keeps. -/
  chainHeads : Nat → Stream → Option String
  pending : Nat → Option PendingWrite

def AuditState.initial : AuditState := ⟨fun _ => [], fun _ _ => none, fun _ => none⟩

def lastHmac (events : List Record) : Option String :=
  match events.getLast?.map (member · "hmac") with
  | some (.string hmac) => if hmac = "" then none else some hmac
  | _ => none

/-- `currentChainHead`, where a file that cannot be read counts as empty. -/
def AuditState.currentChainHead (state : AuditState) (process : Nat) (stream : Stream) (readable : Bool) :
    String :=
  match state.chainHeads process stream with
  | some cached => cached
  | none => (lastHmac (if readable then state.files stream else [])).getD genesisHmac

def AuditState.withHead (state : AuditState) (process : Nat) (stream : Stream) (head : String) : AuditState :=
  { state with
    chainHeads := Function.update state.chainHeads process
      (Function.update (state.chainHeads process) stream (some head)) }

inductive AuditMove where
  /-- `writeAuditEvent` up to the call of `writeEvent`. -/
  | begin (process : Nat) (stream : Stream) (event : AuditEvent) (timestamp : String) (readable : Bool)
  /-- The rest of it: the file may be moved aside first, and the line may fail to be written. -/
  | append (process : Nat) (rotates written : Bool)
  /-- The file is moved aside by another writer of the stream. -/
  | rotate (stream : Stream)
  | restart (process : Nat)

def AuditState.begin (state : AuditState) (process : Nat) (stream : Stream) (event : AuditEvent)
    (timestamp : String) (readable : Bool) : AuditState :=
  if !validateAuditEvent event then state
  else
    let prevHmac := state.currentChainHead process stream readable
    let base := basePayload event timestamp
    let hmac := computeEventHmac host prevHmac base chainAlgoVersion
    let seeded := state.withHead process stream prevHmac
    { seeded with
      pending := Function.update state.pending process
        (some ⟨stream, linkedPayload base prevHmac hmac, prevHmac, hmac⟩) }

def AuditState.append (state : AuditState) (process : Nat) (write : PendingWrite) (rotates written : Bool) :
    AuditState :=
  let kept := if rotates then [] else state.files write.stream
  let finished := { state with pending := Function.update state.pending process none }
  if written then
    { finished with
      files := Function.update state.files write.stream (kept ++ [JsValue.persistedMembers write.payload])
    }.withHead process write.stream write.hmac
  else { finished with files := Function.update state.files write.stream kept }

/-- A process begins no write before it has appended the line of the one before. -/
def AuditState.after (state : AuditState) : AuditMove → AuditState
  | .begin process stream event timestamp readable =>
      match state.pending process with
      | none => state.begin host process stream event timestamp readable
      | some _ => state
  | .append process rotates written =>
      match state.pending process with
      | none => state
      | some write => state.append process write rotates written
  | .rotate stream => { state with files := Function.update state.files stream [] }
  | .restart process =>
      { state with
        chainHeads := Function.update state.chainHeads process fun _ => none
        pending := Function.update state.pending process none }

def auditAfter (moves : List AuditMove) : AuditState := moves.foldl (AuditState.after host) .initial

end Chain

end Deckent.Audit
