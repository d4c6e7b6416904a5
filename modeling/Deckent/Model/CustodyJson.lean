import Deckent.Lib.JsonText

/-!
# Canonical JSON of task attempt custody

A value is copied with its nodes, its depth and the sizes of its parts counted against bounds, written with the
keys of every object sorted, and hashed under a domain. The members of an object are visited in the order of
their keys, so the copy of a value is the value with its keys sorted.
-/

namespace Deckent.Custody

structure CanonicalJsonBounds where
  maxDepth : Nat
  maxNodes : Nat
  maxStringBytes : Nat
  maxArrayLength : Nat
  maxObjectKeys : Nat
  maxCanonicalBytes : Nat

inductive HoldCode where
  | INVALID_POLICY
  | INVALID_CANONICAL_JSON
  | JSON_BOUNDS_EXCEEDED
  deriving DecidableEq

def TASK_ATTEMPT_CUSTODY_HARD_MAX_BYTES : Nat := 1024 * 1024 * 1024

def TASK_ATTEMPT_CUSTODY_JSON_HARD_BOUNDS : CanonicalJsonBounds where
  maxDepth := 128
  maxNodes := 1000000
  maxStringBytes := TASK_ATTEMPT_CUSTODY_HARD_MAX_BYTES
  maxArrayLength := 1000000
  maxObjectKeys := 1000000
  maxCanonicalBytes := TASK_ATTEMPT_CUSTODY_HARD_MAX_BYTES

def inHardBounds (field : CanonicalJsonBounds → Nat) (bounds : CanonicalJsonBounds) : Bool :=
  0 < field bounds && field bounds ≤ field TASK_ATTEMPT_CUSTODY_JSON_HARD_BOUNDS

def validatedJsonBounds (bounds : CanonicalJsonBounds) : Except HoldCode CanonicalJsonBounds :=
  if inHardBounds (·.maxDepth) bounds && inHardBounds (·.maxNodes) bounds && inHardBounds (·.maxStringBytes) bounds
      && inHardBounds (·.maxArrayLength) bounds && inHardBounds (·.maxObjectKeys) bounds
      && inHardBounds (·.maxCanonicalBytes) bounds then .ok bounds
  else .error .INVALID_POLICY

/-! ### The bounded copy -/

section Normalize

variable (bounds : CanonicalJsonBounds)

def countNode (depth nodes : Nat) : Except HoldCode Nat :=
  if bounds.maxNodes < nodes + 1 ∨ bounds.maxDepth < depth then .error .JSON_BOUNDS_EXCEEDED else .ok (nodes + 1)

def boundString (text : UnitText) (nodes : Nat) : Except HoldCode Nat :=
  if bounds.maxStringBytes < text.utf8.length then .error .JSON_BOUNDS_EXCEEDED else .ok nodes

mutual

/-- `normalizeJson` of a value with sorted keys, with the counter before and after. What is no JSON value (an
undefined part, a hole, an accessor, a key that is a symbol, a number that is not finite, `-0`) is refused. -/
def normalizeJson : JsonTree → Nat → Nat → Except HoldCode Nat
  | .foreign, depth, nodes => do
      let _ ← countNode bounds depth nodes
      .error .INVALID_CANONICAL_JSON
  | .null, depth, nodes => countNode bounds depth nodes
  | .bool _, depth, nodes => countNode bounds depth nodes
  | .number _, depth, nodes => countNode bounds depth nodes
  | .text value, depth, nodes => do
      let counted ← countNode bounds depth nodes
      boundString bounds value counted
  | .array items, depth, nodes => do
      let counted ← countNode bounds depth nodes
      if bounds.maxArrayLength < items.length then .error .JSON_BOUNDS_EXCEEDED
      else normalizeItems items (depth + 1) counted
  | .object members, depth, nodes => do
      let counted ← countNode bounds depth nodes
      if bounds.maxObjectKeys < members.length then .error .JSON_BOUNDS_EXCEEDED
      else normalizeMembers members (depth + 1) counted

def normalizeItems : List JsonTree → Nat → Nat → Except HoldCode Nat
  | [], _, nodes => .ok nodes
  | item :: rest, depth, nodes => do
      let counted ← normalizeJson item depth nodes
      normalizeItems rest depth counted

def normalizeMembers : List (UnitText × JsonTree) → Nat → Nat → Except HoldCode Nat
  | [], _, nodes => .ok nodes
  | (key, value) :: rest, depth, nodes => do
      let bounded ← boundString bounds key nodes
      let counted ← normalizeJson value depth bounded
      normalizeMembers rest depth counted

end

end Normalize

/-! ### Bytes and digests -/

section Encode

variable (numbers : NumberText)

def serializeCanonicalJson (value : JsonTree) : UnitText :=
  value.sorted.print numbers

def canonicalTaskAttemptCustodyJson (value : JsonTree) (bounds : CanonicalJsonBounds) : Except HoldCode (List Nat) := do
  let safeBounds ← validatedJsonBounds bounds
  let _ ← normalizeJson safeBounds value.sorted 0 0
  let bytes := (serializeCanonicalJson numbers value.sorted).utf8
  if safeBounds.maxCanonicalBytes < bytes.length then .error .JSON_BOUNDS_EXCEEDED else .ok bytes

/-- `JSON.parse` of bytes. -/
def parseBytes (bytes : List Nat) : Option JsonTree :=
  (UnitText.decodeUtf8 bytes).bind (JsonTree.parse numbers)

def isDomainStart (unit : CodeUnit) : Bool :=
  (0x61 ≤ unit.val && unit.val ≤ 0x7A) || (0x30 ≤ unit.val && unit.val ≤ 0x39)

/-- `/^[a-z0-9][a-z0-9.-]{0,127}$/u`. -/
def isDomain (domain : UnitText) : Bool :=
  match domain with
  | [] => false
  | first :: rest => isDomainStart first
      && rest.all (fun unit => isDomainStart unit || unit.val = 0x2E || unit.val = 0x2D) && rest.length ≤ 127

def digestBytes (sha256 : List Nat → String) (domain : UnitText) (bytes : List Nat) : String :=
  "sha256:" ++ sha256 (domain.utf8 ++ 0 :: bytes)

def taskAttemptCustodyDigest (sha256 : List Nat → String) (domain : UnitText) (value : JsonTree)
    (bounds : CanonicalJsonBounds) : Except HoldCode String :=
  if isDomain domain then
    (canonicalTaskAttemptCustodyJson numbers value bounds).map
      (digestBytes sha256 (UnitText.ofAscii "deckent.task-attempt-custody." ++ domain ++ UnitText.ofAscii ".v2"))
  else .error .INVALID_CANONICAL_JSON

end Encode

end Deckent.Custody
