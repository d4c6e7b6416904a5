import Deckent.Model.Js

/-!
# Formulas over measures

A formula of a key figure is tokenized and then evaluated while it is parsed. It may name the measures that
it is given and nothing else, and a division by zero leaves it without a value.

Numbers are rationals. Only ASCII characters get past the tokenizer, so a position counts characters.
-/

namespace Deckent.Kpi

/-- A `FormulaError`, whose code is always `FORMULA_ERROR`. -/
structure FormulaError where
  message : String
  deriving DecidableEq

/-! ### Tokenizer -/

inductive TokenKind where
  | number
  | ident
  | op
  deriving DecidableEq

structure Lexeme where
  kind : TokenKind
  value : String
  deriving DecidableEq

structure Token extends Lexeme where
  pos : Nat
  deriving DecidableEq

def isOperatorChar (ch : Char) : Bool :=
  ch = '+' || ch = '-' || ch = '*' || ch = '/' || ch = '(' || ch = ')'

def isWhitespace (ch : Char) : Bool :=
  ch = ' ' || ch = '\t' || ch = '\n' || ch = '\r' || ch.toNat = 0x0C || ch.toNat = 0x0B

def isDigit (ch : Char) : Bool := '0' ≤ ch && ch ≤ '9'

def isIdentStart (ch : Char) : Bool := ('a' ≤ ch && ch ≤ 'z') || ('A' ≤ ch && ch ≤ 'Z') || ch = '_'

def isIdentPart (ch : Char) : Bool := isIdentStart ch || isDigit ch

def takeNumber : List Char → Bool → List Char × List Char
  | [], _ => ([], [])
  | c :: rest, seenDot =>
      if isDigit c then (c :: (takeNumber rest seenDot).1, (takeNumber rest seenDot).2)
      else if c = '.' && !seenDot then (c :: (takeNumber rest true).1, (takeNumber rest true).2)
      else ([], c :: rest)

theorem takeNumber_append (chars : List Char) (seenDot : Bool) :
    (takeNumber chars seenDot).1 ++ (takeNumber chars seenDot).2 = chars := by
  induction chars generalizing seenDot with
  | nil => rfl
  | cons c rest ih =>
      unfold takeNumber
      split
      · exact congrArg (c :: ·) (ih seenDot)
      · split
        · exact congrArg (c :: ·) (ih true)
        · rfl

/-- `tokenize` from a position on. -/
def tokenizeFrom (chars : List Char) (pos : Nat) : Except FormulaError (List Token) :=
  match chars with
  | [] => .ok []
  | ch :: rest =>
      if isWhitespace ch then tokenizeFrom rest (pos + 1)
      else if isOperatorChar ch then
        (tokenizeFrom rest (pos + 1)).map (⟨⟨.op, String.ofList [ch]⟩, pos⟩ :: ·)
      else if isDigit ch then
        (tokenizeFrom (takeNumber rest false).2 (pos + 1 + (takeNumber rest false).1.length)).map
          (⟨⟨.number, String.ofList (ch :: (takeNumber rest false).1)⟩, pos⟩ :: ·)
      else if isIdentStart ch then
        (tokenizeFrom (rest.dropWhile isIdentPart) (pos + 1 + (rest.takeWhile isIdentPart).length)).map
          (⟨⟨.ident, String.ofList (ch :: rest.takeWhile isIdentPart)⟩, pos⟩ :: ·)
      else .error ⟨s!"Unexpected character '{ch}' at position {pos}"⟩
termination_by chars.length
decreasing_by
  · simp
  · simp
  · have hlength := congrArg List.length (takeNumber_append rest false)
    rw [List.length_append] at hlength
    rw [List.length_cons]
    omega
  · exact Nat.lt_succ_of_le (List.dropWhile_sublist isIdentPart).length_le

def tokenize (formula : String) : Except FormulaError (List Token) := tokenizeFrom formula.toList 0

/-! ### Evaluator -/

/-- The own properties of the measures. -/
abbrev Measures := String → Option JsNumber

def digitsValue (digits : List Char) : Nat :=
  digits.foldl (fun value digit => 10 * value + (digit.toNat - '0'.toNat)) 0

def numberValue (text : List Char) : ℚ :=
  let fraction := (text.dropWhile (· ≠ '.')).drop 1
  digitsValue (text.takeWhile (· ≠ '.')) + digitsValue fraction / 10 ^ fraction.length

def resolveIdentifier (measures : Measures) (token : Token) : Except FormulaError ℚ :=
  match measures token.value with
  | none => .error ⟨s!"Unknown identifier '{token.value}'"⟩
  | some (.finite value) => .ok value
  | some _ => .error ⟨s!"Identifier '{token.value}' is not a finite number"⟩

def Token.isOp (token : Token) (value : String) : Bool := token.kind = .op && token.value = value

/-- What has been evaluated, and fewer tokens than `bound` that are left. -/
structure Parsed (bound : Nat) where
  value : Option ℚ
  rest : List Token
  fewer : rest.length < bound

def Parsed.within {bound larger : Nat} (hle : bound ≤ larger) (parsed : Parsed bound) : Parsed larger :=
  ⟨parsed.value, parsed.rest, parsed.fewer.trans_le hle⟩

def addOrSubtract (token : Token) (left right : Option ℚ) : Option ℚ :=
  match left, right with
  | some left, some right => some (if token.value = "+" then left + right else left - right)
  | _, _ => none

/-- `left * right` or `left / right`, where both are there and it is no division by zero. -/
def multiplyOrDivide (token : Token) (left right : Option ℚ) : Option ℚ :=
  match left, right with
  | some left, some right =>
      if token.value = "*" then some (left * right)
      else if right = 0 then none else some (left / right)
  | _, _ => none

section Evaluator

variable (measures : Measures)

mutual

def parseExpr (tokens : List Token) : Except FormulaError (Parsed tokens.length) :=
  match parseTerm tokens with
  | .error error => .error error
  | .ok left => (parseExprLoop left.value left.rest).map (·.within left.fewer)
termination_by (tokens.length, 2)
decreasing_by
  · exact Prod.Lex.right _ Nat.one_lt_two
  · exact Prod.Lex.left _ _ left.fewer

/-- The loop of `parseExpr`. -/
def parseExprLoop (left : Option ℚ) (tokens : List Token) :
    Except FormulaError (Parsed (tokens.length + 1)) :=
  match tokens with
  | [] => .ok ⟨left, [], Nat.lt_succ_self _⟩
  | t :: after =>
      if t.isOp "+" || t.isOp "-" then
        match parseTerm after with
        | .error error => .error error
        | .ok right =>
            (parseExprLoop (addOrSubtract t left right.value) right.rest).map
              (·.within (right.fewer.trans_le (Nat.le_add_right after.length 2)))
      else .ok ⟨left, t :: after, Nat.lt_succ_self _⟩
termination_by (tokens.length, 0)
decreasing_by
  · exact Prod.Lex.left _ _ (Nat.lt_succ_self _)
  · exact Prod.Lex.left _ _ (right.fewer.trans (Nat.lt_succ_self _))

def parseTerm (tokens : List Token) : Except FormulaError (Parsed tokens.length) :=
  match parseFactor tokens with
  | .error error => .error error
  | .ok left => (parseTermLoop left.value left.rest).map (·.within left.fewer)
termination_by (tokens.length, 1)
decreasing_by
  · exact Prod.Lex.right _ Nat.one_pos
  · exact Prod.Lex.left _ _ left.fewer

/-- The loop of `parseTerm`. -/
def parseTermLoop (left : Option ℚ) (tokens : List Token) :
    Except FormulaError (Parsed (tokens.length + 1)) :=
  match tokens with
  | [] => .ok ⟨left, [], Nat.lt_succ_self _⟩
  | t :: after =>
      if t.isOp "*" || t.isOp "/" then
        match parseFactor after with
        | .error error => .error error
        | .ok right =>
            (parseTermLoop (multiplyOrDivide t left right.value) right.rest).map
              (·.within (right.fewer.trans_le (Nat.le_add_right after.length 2)))
      else .ok ⟨left, t :: after, Nat.lt_succ_self _⟩
termination_by (tokens.length, 0)
decreasing_by
  · exact Prod.Lex.left _ _ (Nat.lt_succ_self _)
  · exact Prod.Lex.left _ _ (right.fewer.trans (Nat.lt_succ_self _))

def parseFactor (tokens : List Token) : Except FormulaError (Parsed tokens.length) :=
  match tokens with
  | [] => .error ⟨"Unexpected end of formula"⟩
  | t :: after =>
      if t.isOp "-" then
        match parseFactor after with
        | .error error => .error error
        | .ok operand => .ok ⟨operand.value.map Neg.neg, operand.rest, operand.fewer.trans (by simp)⟩
      else if t.isOp "(" then
        match parseExpr after with
        | .error error => .error error
        | .ok inner =>
            match hrest : inner.rest with
            | [] => .error ⟨s!"Expected ')' at position {t.pos}"⟩
            | close :: remaining =>
                if close.isOp ")" then
                  .ok ⟨inner.value, remaining, by
                    have hfewer := inner.fewer
                    rw [hrest, List.length_cons] at hfewer
                    rw [List.length_cons]
                    omega⟩
                else .error ⟨s!"Expected ')' at position {close.pos}"⟩
      else match t.kind with
        | .number => .ok ⟨some (numberValue t.value.toList), after, by simp⟩
        | .ident => (resolveIdentifier measures t).map fun value => ⟨some value, after, by simp⟩
        | .op => .error ⟨s!"Unexpected token '{t.value}' at position {t.pos}"⟩
termination_by (tokens.length, 0)
decreasing_by
  · exact Prod.Lex.left _ _ (Nat.lt_succ_self _)
  · exact Prod.Lex.left _ _ (Nat.lt_succ_self _)

end

/-- `Evaluator.evaluate`. -/
def evaluate (tokens : List Token) : Except FormulaError (Option ℚ) :=
  if tokens = [] then .error ⟨"Empty formula"⟩
  else
    match parseExpr measures tokens with
    | .error error => .error error
    | .ok parsed =>
        match parsed.rest with
        | [] => .ok parsed.value
        | leftover :: _ =>
            .error ⟨s!"Unexpected trailing token '{leftover.value}' at position {leftover.pos}"⟩

def evaluateFormula (formula : String) : Except FormulaError (Option ℚ) := do
  let tokens ← tokenize formula
  evaluate measures tokens

end Evaluator

end Deckent.Kpi
