import Deckent.Model.CanonicalJson

/-!
# Values at run time

A value that a caller hands over can hold more than JSON can: members that are undefined, dates, numbers
that are not finite. What becomes of it once it is written as JSON and parsed again is another value.

Functions and symbols count as undefined, as both encoders treat them so. Numbers are written by the
language, which is a parameter.
-/

namespace Deckent

inductive JsValue where
  | undefined
  | null
  | bool (value : Bool)
  | number (value : JsNumber)
  | string (text : String)
  /-- A date, with its ISO text where it is valid. -/
  | date (iso : Option String)
  | array (items : List JsValue)
  | object (members : List (String × JsValue))

namespace JsValue

def isUndefined : JsValue → Bool
  | undefined => true
  | _ => false

def isText : JsValue → String → Bool
  | string own, text => own = text
  | _, _ => false

/-- An object, by its members. -/
abbrev Record := List (String × JsValue)

/-- `record[key]`. -/
def member (record : Record) (key : String) : JsValue := (record.lookup key).getD .undefined

/-- `typeof value === 'string'`. -/
def text? : JsValue → Option String
  | string text => some text
  | _ => none

def asRecord : JsValue → Option Record
  | object members => some members
  | date _ => some []
  | _ => none

/-! ### Through JSON -/

mutual

/-- `JSON.parse(JSON.stringify(value))`, where there is a text to parse. -/
def persisted : JsValue → Option JsValue
  | undefined => none
  | null => some null
  | bool value => some (bool value)
  | number (.finite value) => some (number (.finite value))
  | number _ => some null
  | string text => some (string text)
  | date (some iso) => some (string iso)
  | date none => some null
  | array items => some (array (persistedItems items))
  | object members => some (object (persistedMembers members))

def persistedItems : List JsValue → List JsValue
  | [] => []
  | item :: rest => item.persisted.getD null :: persistedItems rest

def persistedMembers : List (String × JsValue) → List (String × JsValue)
  | [] => []
  | (key, value) :: rest => (value.persisted.map (key, ·)).toList ++ persistedMembers rest

end

end JsValue

namespace Audit

section CanonicalJson

variable (numberText : ℚ → String)

def numberJson : JsNumber → String
  | .finite value => numberText value
  | _ => "null"

mutual

/-- `canonicalJson`, which leaves out neither an undefined member nor an undefined item, and knows no
dates. -/
def canonicalJson : JsValue → Option String
  | .undefined => none
  | .null => some "null"
  | .bool value => some (if value then "true" else "false")
  | .number value => some (numberJson numberText value)
  | .string text => some (quoteJson text)
  | .date _ => some (canonicalObject [])
  | .array items => some ("[" ++ ",".intercalate (canonicalItems items) ++ "]")
  | .object members => some (canonicalObject (canonicalMembers members))

def canonicalItems : List JsValue → List String
  | [] => []
  | item :: rest => (canonicalJson item).getD "" :: canonicalItems rest

def canonicalMembers : List (String × JsValue) → List (String × String)
  | [] => []
  | (key, value) :: rest => (key, (canonicalJson value).getD "undefined") :: canonicalMembers rest

end

end CanonicalJson

end Audit

end Deckent
