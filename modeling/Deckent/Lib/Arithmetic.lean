import Mathlib.Algebra.Field.Basic
import Mathlib.Data.List.Chain

/-!
# Arithmetic expressions

An expression has leaves, a unary minus and the four operators. It is written in one line of tokens: the
operators associate to the left, multiplication binds tighter than addition, and any part of it may stand
in parentheses, needed or not.
-/

namespace Deckent

universe u v w

inductive Operator where
  | add
  | sub
  | mul
  | div
  deriving DecidableEq

namespace Operator

def isAdditive : Operator → Bool
  | add | sub => true
  | mul | div => false

/-- The result of an operator, where there is one. -/
def apply {K : Type w} [Field K] [DecidableEq K] : Operator → K → K → Option K
  | add, left, right => some (left + right)
  | sub, left, right => some (left - right)
  | mul, left, right => some (left * right)
  | div, left, right => if right = 0 then none else some (left / right)

end Operator

inductive Expression (α : Type u) where
  | leaf (atom : α)
  | negate (operand : Expression α)
  | binary (operator : Operator) (left right : Expression α)
  deriving DecidableEq

namespace Expression

variable {α : Type u} {K : Type w} [Field K] [DecidableEq K]

/-- The value, which a division by zero anywhere takes away. -/
def value (assign : α → K) : Expression α → Option K
  | leaf a => some (assign a)
  | negate operand => (operand.value assign).map Neg.neg
  | binary operator left right =>
      (left.value assign).bind fun left => (right.value assign).bind fun right => operator.apply left right

def leaves : Expression α → List α
  | leaf a => [a]
  | negate operand => operand.leaves
  | binary _ left right => left.leaves ++ right.leaves

end Expression

/-! ### The grammar -/

structure Lexicon (α : Type u) (τ : Type v) where
  operator : Operator → τ
  opening : τ
  closing : τ
  writes : α → τ → Prop

inductive Precedence where
  | expr
  | term
  | factor

/-- An expression written as a line of tokens. -/
inductive Derives {α : Type u} {τ : Type v} (lexicon : Lexicon α τ) :
    Precedence → Expression α → List τ → Prop where
  | leaf {a : α} {t : τ} (hwrites : lexicon.writes a t) : Derives lexicon .factor (.leaf a) [t]
  | negate {operand : Expression α} {line : List τ} (hoperand : Derives lexicon .factor operand line) :
      Derives lexicon .factor (.negate operand) (lexicon.operator .sub :: line)
  | parenthesise {inner : Expression α} {line : List τ} (hinner : Derives lexicon .expr inner line) :
      Derives lexicon .factor inner (lexicon.opening :: line ++ [lexicon.closing])
  | factor {expression : Expression α} {line : List τ}
      (hfactor : Derives lexicon .factor expression line) : Derives lexicon .term expression line
  | term {expression : Expression α} {line : List τ}
      (hterm : Derives lexicon .term expression line) : Derives lexicon .expr expression line
  | multiplicative {operator : Operator} {left right : Expression α} {leftLine rightLine : List τ}
      (hoperator : operator.isAdditive = false) (hleft : Derives lexicon .term left leftLine)
      (hright : Derives lexicon .factor right rightLine) :
      Derives lexicon .term (.binary operator left right)
        (leftLine ++ lexicon.operator operator :: rightLine)
  | additive {operator : Operator} {left right : Expression α} {leftLine rightLine : List τ}
      (hoperator : operator.isAdditive = true) (hleft : Derives lexicon .expr left leftLine)
      (hright : Derives lexicon .term right rightLine) :
      Derives lexicon .expr (.binary operator left right)
        (leftLine ++ lexicon.operator operator :: rightLine)

namespace Derives

variable {α : Type u} {τ : Type v} {lexicon : Lexicon α τ} {precedence : Precedence}
  {expression : Expression α} {line : List τ}

theorem ne_nil (hderives : Derives lexicon precedence expression line) : line ≠ [] := by
  induction hderives with
  | leaf hwrites => simp
  | negate hoperand ih => simp
  | parenthesise hinner ih => simp
  | factor hfactor ih => exact ih
  | term hterm ih => exact ih
  | multiplicative hmul hleft hright ihleft ihright => simp
  | additive hadd hleft hright ihleft ihright => simp

/-- Two leaves are never written side by side. -/
theorem isChain {word : τ → Prop} (hoperator : ∀ operator, ¬word (lexicon.operator operator))
    (hopening : ¬word lexicon.opening) (hclosing : ¬word lexicon.closing)
    (hderives : Derives lexicon precedence expression line) :
    line.IsChain fun left right => ¬(word left ∧ word right) := by
  have hwithin {left right : List τ} {t : τ} (ht : ¬word t)
      (hleft : left.IsChain fun left right => ¬(word left ∧ word right))
      (hright : right.IsChain fun left right => ¬(word left ∧ word right)) :
      (left ++ t :: right).IsChain fun left right => ¬(word left ∧ word right) := by
    refine List.isChain_append.mpr ⟨hleft, List.isChain_cons.mpr ⟨fun _ _ hboth => ht hboth.1, hright⟩, ?_⟩
    intro last _ first hfirst hboth
    rw [List.head?_cons, Option.mem_some_iff] at hfirst
    exact ht (hfirst ▸ hboth.2)
  induction hderives with
  | leaf hwrites => exact List.isChain_singleton _
  | negate hoperand ih => exact List.isChain_cons.mpr ⟨fun _ _ hboth => hoperator _ hboth.1, ih⟩
  | parenthesise hinner ih =>
      refine List.isChain_cons.mpr ⟨fun _ _ hboth => hopening hboth.1, ?_⟩
      exact hwithin hclosing ih .nil
  | factor hfactor ih => exact ih
  | term hterm ih => exact ih
  | multiplicative hmul hleft hright ihleft ihright => exact hwithin (hoperator _) ihleft ihright
  | additive hadd hleft hright ihleft ihright => exact hwithin (hoperator _) ihleft ihright

end Derives

end Deckent
