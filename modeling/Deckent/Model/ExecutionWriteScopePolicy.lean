import Deckent.Lib.BinarySearch
import Deckent.Model.ExecutionTopology
import Deckent.Model.JsValue

/-!
# The exact write policy of an execution

The policy of one attempt names every project file it may write, and nothing else. A path has to be spelled
portably, or it is no path; two paths that a file system may take for one are told apart by a portable key; the
trees of the project's own state are protected. A durable policy is read by compiling it again.

The normalisations and upper-casing depend on the Unicode tables, SHA-256 and the text of a number on the
runtime, so they are parameters.
-/

namespace Deckent.ExecutionWriteScope

open JsValue ExecutionTopology

structure EffectRuntime where
  nfc : String → String
  nfkc : String → String
  toUpperCase : String → String
  sha256Hex : String → String
  numberText : ℚ → String

/-! ### Limits -/

def maxEntries : Nat := 100000
def maxPathBytes : Nat := 16 * 1024
def maxNameBytes : Nat := 255
def maxTotalPathBytes : Nat := 16 * 1024 * 1024

def executionEffectProtectedTrees : List String :=
  [".brain", ".deck", ".deckent", ".git", ".locks", ".tasks"]

/-! ### Portable paths -/

def containsWildcard (value : String) : Bool := value.toList.any ("*?[]\x7b\x7d!".toList.contains ·)

inductive PortableEffectPathFailure where
  | invalid
  | pathBytesLimit
  | nameBytesLimit
  deriving DecidableEq

section Runtime

variable (runtime : EffectRuntime)

def isDeviceName : List Char → Bool
  | ['C', 'O', 'M', digit] | ['L', 'P', 'T', digit] => "123456789¹²³".toList.contains digit
  | _ => false

def isWindowsReservedName (segment : List Char) : Bool :=
  let base := runtime.toUpperCase (String.ofList (segment.takeWhile (· ≠ '.')))
  ["CON", "PRN", "AUX", "NUL", "CLOCK$", "CONIN$", "CONOUT$"].contains base || isDeviceName base.toList

def segmentFailure (segment : List Char) : Option PortableEffectPathFailure :=
  if (String.ofList segment).utf8ByteSize > maxNameBytes then some .nameBytesLimit
  else if segment = [] ∨ segment = ['.'] ∨ segment = ['.', '.'] ∨ segment ≠ trimChars segment
      ∨ (segment.getLast?.any fun c => c = '.' ∨ c = ' ')
      ∨ (segment.any fun c => c.toNat ≤ 0x1F ∨ "<>:\"|".toList.contains c)
      ∨ isWindowsReservedName runtime segment then
    some .invalid
  else none

def portableEffectPathFailure (value : String) : Option PortableEffectPathFailure :=
  if value.utf8ByteSize > maxPathBytes then some .pathBytesLimit
  else if value = "" ∨ value ≠ runtime.nfc value ∨ value ≠ trim value ∨ value.toList.head? = some '/'
      ∨ hasDrivePrefix value.toList ∨ '\\' ∈ value.toList ∨ containsWildcard value then
    some .invalid
  else (value.toList.splitOn '/').findSome? (segmentFailure runtime)

def portableKey (value : String) : String := runtime.toUpperCase (runtime.nfkc value)

structure PortableEffectPath where
  path : String
  key : String
  deriving DecidableEq

def parseExecutionEffectPortablePath (value : String) : Option PortableEffectPath :=
  if (portableEffectPathFailure runtime value).isSome then none
  else some ⟨value, portableKey runtime value⟩

def normalizeExactEffectPath (value : String) : Option PortableEffectPath :=
  if (portableEffectPathFailure runtime value).isSome then none
  else parseExecutionEffectPortablePath runtime value

def startsWith (text start : String) : Bool := start.toList.isPrefixOf text.toList

def isExecutionEffectProtectedPath (path : String) : Bool :=
  match normalizeExactEffectPath runtime path with
  | none => true
  | some normalized =>
      executionEffectProtectedTrees.any fun protectedTree =>
        let protectedKey := portableKey runtime protectedTree
        normalized.key = protectedKey || startsWith normalized.key (protectedKey ++ "/")

/-! ### Policies -/

inductive ExecutionEffectWritePolicyHoldCode where
  | invalidExactWritePath
  | writePolicyEntryLimit
  | writePolicyPathBytesLimit
  | writePolicyNameBytesLimit
  | writePolicyTotalPathBytesLimit
  | protectedWritePath
  | portableWritePathCollision
  deriving DecidableEq

def ExecutionEffectWritePolicyHoldCode.text : ExecutionEffectWritePolicyHoldCode → String
  | invalidExactWritePath => "INVALID_EXACT_WRITE_PATH"
  | writePolicyEntryLimit => "WRITE_POLICY_ENTRY_LIMIT"
  | writePolicyPathBytesLimit => "WRITE_POLICY_PATH_BYTES_LIMIT"
  | writePolicyNameBytesLimit => "WRITE_POLICY_NAME_BYTES_LIMIT"
  | writePolicyTotalPathBytesLimit => "WRITE_POLICY_TOTAL_PATH_BYTES_LIMIT"
  | protectedWritePath => "PROTECTED_WRITE_PATH"
  | portableWritePathCollision => "PORTABLE_WRITE_PATH_COLLISION"

structure ExecutionEffectWritePolicyHold where
  code : ExecutionEffectWritePolicyHoldCode
  path : String
  deriving DecidableEq

def ExecutionEffectWritePolicyHold.toValue (hold : ExecutionEffectWritePolicyHold) : JsValue :=
  .object [("code", .string hold.code.text), ("path", .string hold.path)]

structure ExecutionEffectWritePolicy where
  readOnly : Bool
  filesWrite : List String
  digest : String
  deriving DecidableEq

def policyBody (readOnly : Bool) (filesWrite : List String) : Record :=
  [("version", .number (.finite 1)), ("mode", .string "exact-files-write"), ("readOnly", .bool readOnly),
    ("filesWrite", .array (filesWrite.map .string)),
    ("protectedTrees", .array (executionEffectProtectedTrees.map .string))]

def ExecutionEffectWritePolicy.toValue (policy : ExecutionEffectWritePolicy) : JsValue :=
  .object (policyBody policy.readOnly policy.filesWrite ++ [("digest", .string policy.digest)])

def sha256 (value : JsValue) : String :=
  "sha256:" ++ runtime.sha256Hex ((Audit.canonicalJson runtime.numberText value).getD "")

def totalPathBytesOver (totalPathBytes : Nat) : List String → Option Nat
  | [] => none
  | rawPath :: rest =>
      let totalPathBytes := totalPathBytes + rawPath.utf8ByteSize
      if totalPathBytes > maxTotalPathBytes then some totalPathBytes
      else totalPathBytesOver totalPathBytes rest

structure PolicyCompilation where
  holds : List ExecutionEffectWritePolicyHold
  byPortableKey : OrderedMap String String
  normalizedPaths : List String

def PolicyCompilation.hold (compilation : PolicyCompilation) (code : ExecutionEffectWritePolicyHoldCode)
    (path : String) : PolicyCompilation :=
  { compilation with holds := compilation.holds ++ [⟨code, path⟩] }

def compilePath (compilation : PolicyCompilation) (rawPath : String) : PolicyCompilation :=
  match normalizeExactEffectPath runtime rawPath with
  | none =>
      let code := match portableEffectPathFailure runtime rawPath with
        | some .pathBytesLimit => .writePolicyPathBytesLimit
        | some .nameBytesLimit => .writePolicyNameBytesLimit
        | some .invalid | none => .invalidExactWritePath
      compilation.hold code rawPath
  | some normalized =>
      if isExecutionEffectProtectedPath runtime normalized.path then
        compilation.hold .protectedWritePath normalized.path
      else
        match (compilation.byPortableKey.get? normalized.key).filter (· ≠ normalized.path) with
        | some previous =>
            compilation.hold .portableWritePathCollision
              ("|".intercalate (sortBy compareCodePoint [previous, normalized.path]))
        | none =>
            { compilation with
              byPortableKey := compilation.byPortableKey.set normalized.key normalized.path
              normalizedPaths := compilation.normalizedPaths ++ [normalized.path] }

def holdText (hold : ExecutionEffectWritePolicyHold) : String :=
  (Audit.canonicalJson runtime.numberText hold.toValue).getD ""

def policyOf (normalizedPaths : List String) : ExecutionEffectWritePolicy :=
  let canonicalPaths := sortBy compareCodePoint (OrderedSet.ofList normalizedPaths).members
  { readOnly := canonicalPaths.isEmpty
    filesWrite := canonicalPaths
    digest := sha256 runtime (.object (policyBody canonicalPaths.isEmpty canonicalPaths)) }

def compileExecutionEffectWritePolicy (filesWrite : List String) :
    Except (List ExecutionEffectWritePolicyHold) ExecutionEffectWritePolicy :=
  if filesWrite.length > maxEntries then
    .error [⟨.writePolicyEntryLimit, toString filesWrite.length⟩]
  else
    match totalPathBytesOver 0 filesWrite with
    | some totalPathBytes => .error [⟨.writePolicyTotalPathBytesLimit, toString totalPathBytes⟩]
    | none =>
        let compilation := filesWrite.foldl (compilePath runtime) ⟨[], .empty, []⟩
        if compilation.holds ≠ [] then
          .error (sortBy (fun left right => compareCodePoint (holdText runtime left) (holdText runtime right))
            compilation.holds)
        else .ok (policyOf runtime compilation.normalizedPaths)

/-! ### Reading a durable policy -/

def exactPolicyRecord (value : JsValue) (keys : List String) : Option Record :=
  match value with
  | .object members =>
      if sortBy compareCodePoint (members.map Prod.fst) = sortBy compareCodePoint keys then some members
      else none
  | _ => none

def exactStringArray (value : JsValue) : Option (List String) :=
  match value with
  | .array items =>
      if items.length > maxEntries then none
      else
        match items.mapM text? with
        | none => none
        | some entries => if (totalPathBytesOver 0 entries).isSome then none else some entries
  | _ => none

def policyKeys : List String := ["version", "mode", "readOnly", "filesWrite", "protectedTrees", "digest"]

def isNumber : JsValue → ℚ → Bool
  | .number (.finite own), expected => own = expected
  | _, _ => false

def isBoolean : JsValue → Bool
  | .bool _ => true
  | _ => false

def parseExecutionEffectWritePolicy (value : JsValue) : Option ExecutionEffectWritePolicy :=
  match exactPolicyRecord value policyKeys with
  | none => none
  | some record =>
      match exactStringArray (member record "filesWrite"), exactStringArray (member record "protectedTrees") with
      | some filesWrite, some protectedTrees =>
          let text := Audit.canonicalJson runtime.numberText
          if isNumber (member record "version") 1 && (member record "mode").isText "exact-files-write"
              && isBoolean (member record "readOnly")
              && text (.array (protectedTrees.map .string))
                = text (.array (executionEffectProtectedTrees.map .string))
              && (member record "digest").text?.isSome then
            match compileExecutionEffectWritePolicy runtime filesWrite with
            | .error _ => none
            | .ok policy => if text policy.toValue = text (.object record) then some policy else none
          else none
      | _, _ => none

/-! ### Authorisation -/

def executionEffectPolicyAllowsPath (policy : ExecutionEffectWritePolicy) (path : String) : Bool :=
  match normalizeExactEffectPath runtime path with
  | none => false
  | some normalized =>
      if isExecutionEffectProtectedPath runtime normalized.path then false
      else
        binarySearch compareCodePoint policy.filesWrite normalized.path policy.filesWrite.length 0
          (policy.filesWrite.length - 1)

end Runtime

end Deckent.ExecutionWriteScope
