import Deckent.Lib.Sha256
import Deckent.Model.Js

/-!
# Canonical JSON texts

The text of an object that is hashed has its keys in order and no white space. A number in such an
object is always an integer.

Where an object can hold anything, it is a value of `Json`. How the language writes a number and which
order its locale has are parameters there.
-/

namespace Deckent

/-- `JSON.stringify` on one character of a string. -/
def quoteJsonChar (c : Char) : List Char :=
  if c = '"' then ['\\', '"']
  else if c = '\\' then ['\\', '\\']
  else if c.toNat = 0x08 then ['\\', 'b']
  else if c.toNat = 0x0C then ['\\', 'f']
  else if c = '\n' then ['\\', 'n']
  else if c = '\r' then ['\\', 'r']
  else if c = '\t' then ['\\', 't']
  else if c.toNat < 0x20 then ['\\', 'u'] ++ Sha256.hexDigits 4 c.toNat
  else [c]

def quoteJson (text : String) : String :=
  String.ofList (['"'] ++ text.toList.flatMap quoteJsonChar ++ ['"'])

def canonicalObject (members : List (String × String)) : String :=
  let ordered := sortBy (fun left right => compareCodePoint left.1 right.1) members
  "\x7b" ++ ",".intercalate (ordered.map fun member => quoteJson member.1 ++ ":" ++ member.2) ++ "\x7d"

/-! ### Values -/

inductive Json where
  | null
  | bool (value : Bool)
  | number (value : JsNumber)
  | string (text : String)
  | array (items : List Json)
  | object (members : List (String × Json))

/-- `value[key]` where the value is a record. -/
def Json.get? : Json → String → Option Json
  | .object members, key => members.lookup key
  | _, _ => none

/-- `typeof value === 'string'`. -/
def Json.text? : Json → Option String
  | .string text => some text
  | _ => none

def Json.isRecord : Json → Bool
  | .object _ => true
  | _ => false

structure JsonRuntime where
  stringify : Json → String
  localeCompare : String → String → Int

section Canonical

variable (runtime : JsonRuntime)

mutual

def Json.normalize : Json → Json
  | .array items => .array (normalizeItems items)
  | .object members =>
      .object (sortBy (fun left right => runtime.localeCompare left.1 right.1) (normalizeMembers members))
  | .null => .null
  | .bool value => .bool value
  | .number value => .number value
  | .string text => .string text

def normalizeItems : List Json → List Json
  | [] => []
  | item :: rest => item.normalize :: normalizeItems rest

def normalizeMembers : List (String × Json) → List (String × Json)
  | [] => []
  | (key, value) :: rest => (key, value.normalize) :: normalizeMembers rest

end

/-- `canonicalJson`. -/
def canonicalJson (value : Json) : String := runtime.stringify (value.normalize runtime)

end Canonical

/-! ### A runtime to evaluate with -/

mutual

/-- `JSON.stringify` on values whose numbers are whole. -/
def plainText : Json → String
  | .null => "null"
  | .bool true => "true"
  | .bool false => "false"
  | .number (.finite value) => toString value.num
  | .number _ => "null"
  | .string text => quoteJson text
  | .array items => "[" ++ ",".intercalate (plainTexts items) ++ "]"
  | .object members => "\x7b" ++ ",".intercalate (plainMembers members) ++ "\x7d"

def plainTexts : List Json → List String
  | [] => []
  | item :: rest => plainText item :: plainTexts rest

def plainMembers : List (String × Json) → List String
  | [] => []
  | (key, value) :: rest => (quoteJson key ++ ":" ++ plainText value) :: plainMembers rest

end

def plainRuntime : JsonRuntime := ⟨plainText, compareCodePoint⟩

end Deckent
