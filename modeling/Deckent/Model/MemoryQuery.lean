import Deckent.Model.Js

/-!
# Search expressions of the memory

The text of a search is split at white space and each token is quoted, with the operators and a star at the end of
a token left as they are. The same is done with the normalized text, for the normalized columns.

Lower-casing and the canonical decomposition depend on the Unicode tables and are parameters.
-/

namespace Deckent.MemoryQuery

abbrev Text := List Char

/-! ### Normalized text -/

section Normalize

variable (toLowerCase nfd : Text → Text)

def turkishLower (c : Char) : Char :=
  if c = 'I' then 'ı'
  else if c = 'İ' then 'i'
  else if c = 'Ş' then 'ş'
  else if c = 'Ğ' then 'ğ'
  else if c = 'Ü' then 'ü'
  else if c = 'Ö' then 'ö'
  else if c = 'Ç' then 'ç'
  else c

def isCombining (c : Char) : Bool := 0x300 ≤ c.toNat && c.toNat ≤ 0x36F

def turkishPlain (c : Char) : Char :=
  if c = 'ı' then 'i'
  else if c = 'ş' then 's'
  else if c = 'ğ' then 'g'
  else if c = 'ü' then 'u'
  else if c = 'ö' then 'o'
  else if c = 'ç' then 'c'
  else c

def turkishNormalize (text : Text) : Text :=
  if text = [] then []
  else ((nfd (toLowerCase (text.map turkishLower))).filter fun c => !isCombining c).map turkishPlain

end Normalize

/-! ### Expressions -/

inductive QueryMode where
  | and
  | or
  deriving DecidableEq

def operators : List Text := [['O', 'R'], ['A', 'N', 'D'], ['N', 'O', 'T']]

def quoteLiteral (value : Text) : Text :=
  '"' :: value.flatMap (fun c => if c = '"' then ['"', '"'] else [c]) ++ ['"']

/-- `input.split(/\s+/).filter(t => t.length > 0)`. -/
def tokensOf (input : Text) : List Text := (input.splitOnP isJsSpace).filter (· ≠ [])

def escapeToken (token : Text) : Text :=
  if operators.contains token then token
  else if token.getLast? = some '*' then quoteLiteral token.dropLast ++ ['*']
  else quoteLiteral token

/-- The parts of the expression, with `OR` between two tokens neither of which is an operator. -/
def partsFrom (previous : Option Text) : List Text → List Text
  | [] => []
  | tok :: rest =>
      (if previous.any (fun before => !operators.contains tok && !operators.contains before) then [['O', 'R'], tok]
        else [tok]) ++ partsFrom (some tok) rest

def escapeFts5Query (mode : QueryMode) (input : Text) : Text :=
  let tokens := (tokensOf input).map escapeToken
  [' '].intercalate (if mode = .and then tokens else partsFrom none tokens)

end Deckent.MemoryQuery
