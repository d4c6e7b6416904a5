import Deckent.Proof.FormulaTokens

/-!
# What a formula evaluates to

The evaluator parses and computes in one pass. On a line that the grammar derives it computes the value of
the expression, and a line that it gets through is derived by the grammar.
-/

namespace Deckent.Kpi

/-! ### The grammar of formulas -/

inductive Atom where
  | number (value : ℚ)
  | identifier (name : String)

inductive Writes : Atom → Lexeme → Prop where
  | number {text : String} (hnumber : IsNumber text.toList) :
      Writes (.number (numberValue text.toList)) ⟨.number, text⟩
  | identifier {name : String} (hidentifier : IsIdentifier name.toList) :
      Writes (.identifier name) ⟨.ident, name⟩

def operatorText : Operator → String
  | .add => "+"
  | .sub => "-"
  | .mul => "*"
  | .div => "/"

def formulaLexicon : Lexicon Atom Lexeme where
  operator := fun operator => ⟨.op, operatorText operator⟩
  opening := ⟨.op, "("⟩
  closing := ⟨.op, ")"⟩
  writes := Writes

abbrev Formula := Expression Atom

abbrev DerivesFormula := Derives formulaLexicon

theorem isWellFormed_of_derives {precedence : Precedence} {formula : Formula} {line : List Lexeme}
    (hderives : DerivesFormula precedence formula line) : ∀ lexeme ∈ line, lexeme.IsWellFormed := by
  have hop {value : String} {c : Char} (hvalue : value.toList = [c]) (hc : isOperatorChar c = true) :
      Lexeme.IsWellFormed ⟨.op, value⟩ := ⟨c, hc, hvalue⟩
  have hoperator (operator : Operator) : (formulaLexicon.operator operator).IsWellFormed := by
    cases operator with
    | add => exact hop (c := '+') rfl rfl
    | sub => exact hop (c := '-') rfl rfl
    | mul => exact hop (c := '*') rfl rfl
    | div => exact hop (c := '/') rfl rfl
  have hopening : formulaLexicon.opening.IsWellFormed := hop (c := '(') rfl rfl
  have hclosing : formulaLexicon.closing.IsWellFormed := hop (c := ')') rfl rfl
  induction hderives with
  | leaf hwrites =>
      cases hwrites with
      | number hnumber => simpa [Lexeme.IsWellFormed] using hnumber
      | identifier hidentifier => simpa [Lexeme.IsWellFormed] using hidentifier
  | negate _ ih => exact List.forall_mem_cons.mpr ⟨hoperator _, ih⟩
  | parenthesise _ ih =>
      refine List.forall_mem_cons.mpr ⟨hopening, List.forall_mem_append.mpr ⟨ih, ?_⟩⟩
      simpa using hclosing
  | factor _ ih => exact ih
  | term _ ih => exact ih
  | multiplicative _ _ _ ihleft ihright =>
      exact List.forall_mem_append.mpr ⟨ihleft, List.forall_mem_cons.mpr ⟨hoperator _, ihright⟩⟩
  | additive _ _ _ ihleft ihright =>
      exact List.forall_mem_append.mpr ⟨ihleft, List.forall_mem_cons.mpr ⟨hoperator _, ihright⟩⟩

theorem isChain_of_derives {precedence : Precedence} {formula : Formula} {line : List Lexeme}
    (hderives : DerivesFormula precedence formula line) :
    line.IsChain fun left right => ¬(left.IsWord ∧ right.IsWord) :=
  hderives.isChain (fun _ hword => hword rfl) (fun hword => hword rfl) fun hword => hword rfl

/-! ### Results without their bounds -/

section Evaluator

variable {measures : Measures}

/-- The value and the tokens that are left. -/
def outcome {bound : Nat} (result : Except FormulaError (Parsed bound)) :
    Except FormulaError (Option ℚ × List Token) :=
  result.map fun parsed => (parsed.value, parsed.rest)

@[simp]
theorem outcome_within {bound larger : Nat} (hle : bound ≤ larger)
    (result : Except FormulaError (Parsed bound)) :
    outcome (result.map (·.within hle)) = outcome result := by
  cases result <;> rfl

theorem fewer_of_outcome {bound : Nat} {result : Except FormulaError (Parsed bound)} {value : Option ℚ}
    {rest : List Token} (houtcome : outcome result = .ok (value, rest)) : rest.length < bound := by
  obtain ⟨parsed, -, hparsed⟩ := exceptMap_eq_ok.mp houtcome
  obtain ⟨-, rfl⟩ := Prod.mk.inj hparsed
  exact parsed.fewer

theorem outcome_parseExpr (tokens : List Token) :
    outcome (parseExpr measures tokens)
      = (outcome (parseTerm measures tokens)).bind fun left =>
        outcome (parseExprLoop measures left.1 left.2) := by
  rw [parseExpr]
  cases parseTerm measures tokens with
  | error error => rfl
  | ok left => exact outcome_within _ _

theorem outcome_parseExprLoop (left : Option ℚ) (t : Token) (after : List Token) :
    outcome (parseExprLoop measures left (t :: after))
      = if t.isOp "+" || t.isOp "-" then
          (outcome (parseTerm measures after)).bind fun right =>
            outcome (parseExprLoop measures (addOrSubtract t left right.1) right.2)
        else .ok (left, t :: after) := by
  rw [parseExprLoop]
  split
  · cases parseTerm measures after with
    | error error => rfl
    | ok right => exact outcome_within _ _
  · rfl

theorem outcome_parseTerm (tokens : List Token) :
    outcome (parseTerm measures tokens)
      = (outcome (parseFactor measures tokens)).bind fun left =>
        outcome (parseTermLoop measures left.1 left.2) := by
  rw [parseTerm]
  cases parseFactor measures tokens with
  | error error => rfl
  | ok left => exact outcome_within _ _

theorem outcome_parseTermLoop (left : Option ℚ) (t : Token) (after : List Token) :
    outcome (parseTermLoop measures left (t :: after))
      = if t.isOp "*" || t.isOp "/" then
          (outcome (parseFactor measures after)).bind fun right =>
            outcome (parseTermLoop measures (multiplyOrDivide t left right.1) right.2)
        else .ok (left, t :: after) := by
  rw [parseTermLoop]
  split
  · cases parseFactor measures after with
    | error error => rfl
    | ok right => exact outcome_within _ _
  · rfl

theorem outcome_parseExprLoop_nil (left : Option ℚ) :
    outcome (parseExprLoop measures left []) = .ok (left, []) := by
  rw [parseExprLoop]
  rfl

theorem outcome_parseTermLoop_nil (left : Option ℚ) :
    outcome (parseTermLoop measures left []) = .ok (left, []) := by
  rw [parseTermLoop]
  rfl

def closeParenthesis (opening : Token) : Option ℚ × List Token → Except FormulaError (Option ℚ × List Token)
  | (_, []) => .error ⟨s!"Expected ')' at position {opening.pos}"⟩
  | (value, close :: remaining) =>
      if close.isOp ")" then .ok (value, remaining)
      else .error ⟨s!"Expected ')' at position {close.pos}"⟩

theorem outcome_parseFactor (t : Token) (after : List Token) :
    outcome (parseFactor measures (t :: after))
      = if t.isOp "-" then
          (outcome (parseFactor measures after)).map fun operand => (operand.1.map Neg.neg, operand.2)
        else if t.isOp "(" then (outcome (parseExpr measures after)).bind (closeParenthesis t)
        else match t.kind with
          | .number => .ok (some (numberValue t.value.toList), after)
          | .ident => (resolveIdentifier measures t).map fun value => (some value, after)
          | .op => .error ⟨s!"Unexpected token '{t.value}' at position {t.pos}"⟩ := by
  rw [parseFactor]
  split
  · cases parseFactor measures after with
    | error error => rfl
    | ok operand => rfl
  · split
    · cases parseExpr measures after with
      | error error => rfl
      | ok inner =>
          obtain ⟨value, rest, hfewer⟩ := inner
          cases rest with
          | nil => rfl
          | cons close remaining =>
              by_cases hclose : close.isOp ")" = true
              · simp [outcome, closeParenthesis, Except.map, Except.bind, hclose]
              · simp [outcome, closeParenthesis, Except.map, Except.bind, hclose]
    · cases t.kind with
      | number => rfl
      | ident => cases resolveIdentifier measures t <;> rfl
      | op => rfl

/-! ### A derived line is computed -/

/-- What a formula means, with the error of its first identifier that is no measure. -/
def meaning (measures : Measures) : Formula → Except FormulaError (Option ℚ)
  | .leaf (.number value) => .ok (some value)
  | .leaf (.identifier name) => (resolveIdentifier measures ⟨⟨.ident, name⟩, 0⟩).map some
  | .negate operand => (meaning measures operand).map (Option.map Neg.neg)
  | .binary operator left right =>
      (meaning measures left).bind fun left =>
        (meaning measures right).map fun right =>
          left.bind fun left => right.bind fun right => operator.apply left right

theorem isOp_iff {t : Token} {value : String} : t.isOp value = true ↔ t.toLexeme = ⟨.op, value⟩ := by
  obtain ⟨⟨kind, text⟩, pos⟩ := t
  simp [Token.isOp]

def ContinuesTerm (tokens : List Token) : Prop :=
  ∃ t ∈ tokens.head?, (t.isOp "*" || t.isOp "/") = true

def ContinuesExpr (tokens : List Token) : Prop :=
  ∃ t ∈ tokens.head?, (t.isOp "+" || t.isOp "-") = true

theorem outcome_parseTermLoop_of_ends {tokens : List Token} (hends : ¬ContinuesTerm tokens)
    (left : Option ℚ) : outcome (parseTermLoop measures left tokens) = .ok (left, tokens) := by
  cases tokens with
  | nil => exact outcome_parseTermLoop_nil left
  | cons t after =>
      rw [outcome_parseTermLoop, if_neg fun hoperator => hends ⟨t, rfl, hoperator⟩]

theorem outcome_parseExprLoop_of_ends {tokens : List Token} (hends : ¬ContinuesExpr tokens)
    (left : Option ℚ) : outcome (parseExprLoop measures left tokens) = .ok (left, tokens) := by
  cases tokens with
  | nil => exact outcome_parseExprLoop_nil left
  | cons t after =>
      rw [outcome_parseExprLoop, if_neg fun hoperator => hends ⟨t, rfl, hoperator⟩]

def Computes (measures : Measures) (formula : Formula) (tokens : List Token) : Precedence → Prop
  | .factor => ∀ rest, outcome (parseFactor measures (tokens ++ rest))
      = (meaning measures formula).map fun value => (value, rest)
  | .term => ∀ rest, outcome (parseTerm measures (tokens ++ rest))
      = (meaning measures formula).bind fun value => outcome (parseTermLoop measures value rest)
  | .expr => ∀ rest, ¬ContinuesTerm rest → outcome (parseExpr measures (tokens ++ rest))
      = (meaning measures formula).bind fun value => outcome (parseExprLoop measures value rest)

theorem computes_leaf {atom : Atom} {t : Token} (hwrites : Writes atom t.toLexeme) :
    Computes measures (.leaf atom) [t] .factor := by
  intro rest
  obtain ⟨⟨kind, text⟩, pos⟩ := t
  rw [List.singleton_append, outcome_parseFactor]
  cases hwrites with
  | number hnumber => rfl
  | identifier hidentifier =>
      simp only [Token.isOp, meaning, resolveIdentifier]
      cases measures text with
      | none => rfl
      | some value => cases value <;> rfl

theorem computes_negate {operand : Formula} {tokens : List Token} {t : Token} (hminus : t.isOp "-" = true)
    (hoperand : Computes measures operand tokens .factor) :
    Computes measures (.negate operand) (t :: tokens) .factor := by
  intro rest
  rw [List.cons_append, outcome_parseFactor, if_pos hminus, hoperand rest, meaning]
  cases meaning measures operand <;> rfl

theorem computes_parenthesise {inner : Formula} {tokens : List Token} {opening closing : Token}
    (hopening : opening.toLexeme = ⟨.op, "("⟩) (hclosing : closing.toLexeme = ⟨.op, ")"⟩)
    (hinner : Computes measures inner tokens .expr) :
    Computes measures inner (opening :: tokens ++ [closing]) .factor := by
  intro rest
  have hother {value : String} (hne : value ≠ ")") : closing.isOp value = false := by
    simp [Token.isOp, hclosing, hne.symm]
  have hterm : ¬ContinuesTerm (closing :: rest) := by
    rintro ⟨t, ht, hoperator⟩
    obtain rfl := Option.some.inj ht
    simp [hother] at hoperator
  have hexpr : ¬ContinuesExpr (closing :: rest) := by
    rintro ⟨t, ht, hoperator⟩
    obtain rfl := Option.some.inj ht
    simp [hother] at hoperator
  have hminus : ¬opening.isOp "-" = true := by
    rw [isOp_iff, hopening]
    decide
  rw [List.cons_append, List.cons_append, List.append_assoc, List.singleton_append, outcome_parseFactor,
    if_neg hminus, if_pos (isOp_iff.mpr hopening), hinner _ hterm]
  cases meaning measures inner with
  | error error => rfl
  | ok value =>
      simp only [Except.bind, outcome_parseExprLoop_of_ends hexpr, closeParenthesis,
        if_pos (isOp_iff.mpr hclosing), Except.map]

theorem computes_term_of_factor {formula : Formula} {tokens : List Token}
    (hfactor : Computes measures formula tokens .factor) : Computes measures formula tokens .term := by
  intro rest
  rw [outcome_parseTerm, hfactor rest]
  cases meaning measures formula <;> rfl

theorem computes_expr_of_term {formula : Formula} {tokens : List Token}
    (hterm : Computes measures formula tokens .term) : Computes measures formula tokens .expr := by
  intro rest hends
  rw [outcome_parseExpr, hterm rest]
  cases meaning measures formula with
  | error error => rfl
  | ok value =>
      simp only [Except.bind]
      rw [outcome_parseTermLoop_of_ends hends]

theorem computes_multiplicative {operator : Operator} {left right : Formula}
    {leftTokens rightTokens : List Token} {t : Token} (hoperator : operator.isAdditive = false)
    (ht : t.toLexeme = ⟨.op, operatorText operator⟩) (hleft : Computes measures left leftTokens .term)
    (hright : Computes measures right rightTokens .factor) :
    Computes measures (.binary operator left right) (leftTokens ++ t :: rightTokens) .term := by
  intro rest
  have hcontinues : (t.isOp "*" || t.isOp "/") = true := by
    rw [Bool.or_eq_true, isOp_iff, isOp_iff, ht]
    cases operator with
    | add => cases hoperator
    | sub => cases hoperator
    | mul => exact .inl rfl
    | div => exact .inr rfl
  have hresult (left right : Option ℚ) : multiplyOrDivide t left right
      = left.bind fun left => right.bind fun right => operator.apply left right := by
    cases left with
    | none => rfl
    | some left =>
        cases right with
        | none => rfl
        | some right =>
            simp only [multiplyOrDivide, ht]
            cases operator with
            | add => cases hoperator
            | sub => cases hoperator
            | mul => rfl
            | div => rfl
  rw [List.append_assoc, List.cons_append, hleft, meaning]
  cases meaning measures left with
  | error error => rfl
  | ok value =>
      simp only [Except.bind]
      rw [outcome_parseTermLoop, if_pos hcontinues, hright rest]
      cases meaning measures right with
      | error error => rfl
      | ok other => simp only [Except.map, Except.bind, hresult]

theorem computes_additive {operator : Operator} {left right : Formula}
    {leftTokens rightTokens : List Token} {t : Token} (hoperator : operator.isAdditive = true)
    (ht : t.toLexeme = ⟨.op, operatorText operator⟩) (hleft : Computes measures left leftTokens .expr)
    (hright : Computes measures right rightTokens .term) :
    Computes measures (.binary operator left right) (leftTokens ++ t :: rightTokens) .expr := by
  intro rest hends
  have hcontinues : (t.isOp "+" || t.isOp "-") = true := by
    rw [Bool.or_eq_true, isOp_iff, isOp_iff, ht]
    cases operator with
    | add => exact .inl rfl
    | sub => exact .inr rfl
    | mul => cases hoperator
    | div => cases hoperator
  have hterm : ¬ContinuesTerm (t :: (rightTokens ++ rest)) := by
    rintro ⟨first, hfirst, hfactor⟩
    obtain rfl := Option.some.inj hfirst
    rw [Bool.or_eq_true, isOp_iff, isOp_iff, ht] at hfactor
    cases operator with
    | add => simp [operatorText] at hfactor
    | sub => simp [operatorText] at hfactor
    | mul => cases hoperator
    | div => cases hoperator
  have hresult (left right : Option ℚ) : addOrSubtract t left right
      = left.bind fun left => right.bind fun right => operator.apply left right := by
    cases left with
    | none => rfl
    | some left =>
        cases right with
        | none => rfl
        | some right =>
            simp only [addOrSubtract, ht]
            cases operator with
            | add => rfl
            | sub => rfl
            | mul => cases hoperator
            | div => cases hoperator
  rw [List.append_assoc, List.cons_append, hleft _ hterm, meaning]
  cases meaning measures left with
  | error error => rfl
  | ok value =>
      simp only [Except.bind]
      rw [outcome_parseExprLoop, if_pos hcontinues, hright rest]
      cases meaning measures right with
      | error error => rfl
      | ok other =>
          simp only [Except.map, Except.bind]
          rw [outcome_parseTermLoop_of_ends hends]
          simp only [hresult]

theorem computes_of_derives {precedence : Precedence} {formula : Formula} {line : List Lexeme}
    (hderives : DerivesFormula precedence formula line) {tokens : List Token}
    (htokens : tokens.map (·.toLexeme) = line) : Computes measures formula tokens precedence := by
  induction hderives generalizing tokens with
  | leaf hwrites =>
      obtain ⟨t, rfl, ht⟩ := List.map_eq_singleton_iff.mp htokens
      rw [← ht] at hwrites
      exact computes_leaf hwrites
  | negate hoperand ih =>
      obtain ⟨t, others, rfl, ht, hothers⟩ := List.map_eq_cons_iff.mp htokens
      exact computes_negate (isOp_iff.mpr ht) (ih hothers)
  | parenthesise hinner ih =>
      obtain ⟨opening, others, rfl, hopening, hothers⟩ := List.map_eq_cons_iff.mp htokens
      obtain ⟨middle, last, rfl, hmiddle, hlast⟩ := List.map_eq_append_iff.mp hothers
      obtain ⟨closing, rfl, hclosing⟩ := List.map_eq_singleton_iff.mp hlast
      exact computes_parenthesise hopening hclosing (ih hmiddle)
  | factor hfactor ih => exact computes_term_of_factor (ih htokens)
  | term hterm ih => exact computes_expr_of_term (ih htokens)
  | multiplicative hoperator hleft hright ihleft ihright =>
      obtain ⟨leftTokens, others, rfl, hleftTokens, hothers⟩ := List.map_eq_append_iff.mp htokens
      obtain ⟨t, rightTokens, rfl, ht, hrightTokens⟩ := List.map_eq_cons_iff.mp hothers
      exact computes_multiplicative hoperator ht (ihleft hleftTokens) (ihright hrightTokens)
  | additive hoperator hleft hright ihleft ihright =>
      obtain ⟨leftTokens, others, rfl, hleftTokens, hothers⟩ := List.map_eq_append_iff.mp htokens
      obtain ⟨t, rightTokens, rfl, ht, hrightTokens⟩ := List.map_eq_cons_iff.mp hothers
      exact computes_additive hoperator ht (ihleft hleftTokens) (ihright hrightTokens)

/-! ### A line that is computed is derived -/

def Derived (precedence : Precedence) (tokens rest : List Token) : Prop :=
  ∃ formula used, tokens = used ++ rest ∧ DerivesFormula precedence formula (used.map (·.toLexeme))

def AllWellFormed (tokens : List Token) : Prop := ∀ t ∈ tokens, t.toLexeme.IsWellFormed

theorem AllWellFormed.rest {used rest : List Token} (hformed : AllWellFormed (used ++ rest)) :
    AllWellFormed rest :=
  fun t ht => hformed t (List.mem_append_right _ ht)

theorem AllWellFormed.tail {t : Token} {after : List Token} (hformed : AllWellFormed (t :: after)) :
    AllWellFormed after :=
  fun other hother => hformed other (List.mem_cons_of_mem _ hother)

def DerivesBelow (bound : Nat) (precedence : Precedence)
    (parser : List Token → Except FormulaError (Option ℚ × List Token)) : Prop :=
  ∀ tokens value rest, tokens.length < bound → AllWellFormed tokens → parser tokens = .ok (value, rest) →
    Derived precedence tokens rest

theorem derived_word {t : Token} (hformed : t.toLexeme.IsWellFormed) (hword : t.kind ≠ .op)
    (after : List Token) : Derived .factor (t :: after) after := by
  obtain ⟨⟨kind, text⟩, pos⟩ := t
  cases kind with
  | op => exact absurd rfl hword
  | number => exact ⟨_, [_], rfl, .leaf (Writes.number hformed)⟩
  | ident => exact ⟨_, [_], rfl, .leaf (Writes.identifier hformed)⟩

theorem derived_parseFactor {tokens : List Token} {value : Option ℚ} {rest : List Token}
    (hfactor : DerivesBelow tokens.length .factor fun tokens => outcome (parseFactor measures tokens))
    (hexpr : DerivesBelow tokens.length .expr fun tokens => outcome (parseExpr measures tokens))
    (hformed : AllWellFormed tokens) (hok : outcome (parseFactor measures tokens) = .ok (value, rest)) :
    Derived .factor tokens rest := by
  cases tokens with
  | nil =>
      rw [parseFactor] at hok
      cases hok
  | cons t after =>
      have hlength : after.length < (t :: after).length := Nat.lt_succ_self _
      rw [outcome_parseFactor] at hok
      split at hok
      · next hminus =>
          obtain ⟨⟨operand, remaining⟩, hoperand, hresult⟩ := exceptMap_eq_ok.mp hok
          obtain ⟨-, rfl⟩ := Prod.mk.inj hresult
          obtain ⟨formula, used, rfl, hderives⟩ := hfactor _ _ _ hlength hformed.tail hoperand
          refine ⟨.negate formula, t :: used, rfl, ?_⟩
          rw [List.map_cons, isOp_iff.mp hminus]
          exact .negate hderives
      · split at hok
        · next hopening =>
            obtain ⟨⟨inner, remaining⟩, hinner, hclose⟩ := bind_eq_ok.mp hok
            obtain ⟨formula, used, rfl, hderives⟩ := hexpr _ _ _ hlength hformed.tail hinner
            cases remaining with
            | nil => cases hclose
            | cons close remaining =>
                dsimp only [closeParenthesis] at hclose
                split at hclose
                · next hclosing =>
                    obtain ⟨-, rfl⟩ := Prod.mk.inj (Except.ok.inj hclose)
                    refine ⟨formula, t :: used ++ [close], by simp, ?_⟩
                    rw [List.map_append, List.map_cons, List.map_singleton, isOp_iff.mp hopening,
                      isOp_iff.mp hclosing]
                    exact .parenthesise hderives
                · cases hclose
        · split at hok
          · next hkind =>
              obtain ⟨-, rfl⟩ := Prod.mk.inj (Except.ok.inj hok)
              exact derived_word (hformed t (List.mem_cons_self ..)) (by simp [hkind]) _
          · next hkind =>
              obtain ⟨_, -, hresult⟩ := exceptMap_eq_ok.mp hok
              obtain ⟨-, rfl⟩ := Prod.mk.inj hresult
              exact derived_word (hformed t (List.mem_cons_self ..)) (by simp [hkind]) _
          · cases hok

theorem additive_of_isOp {t : Token} (hcontinues : (t.isOp "+" || t.isOp "-") = true) :
    ∃ operator : Operator, operator.isAdditive = true ∧ t.toLexeme = ⟨.op, operatorText operator⟩ := by
  rw [Bool.or_eq_true, isOp_iff, isOp_iff] at hcontinues
  obtain hadd | hsub := hcontinues
  · exact ⟨.add, rfl, hadd⟩
  · exact ⟨.sub, rfl, hsub⟩

theorem multiplicative_of_isOp {t : Token} (hcontinues : (t.isOp "*" || t.isOp "/") = true) :
    ∃ operator : Operator, operator.isAdditive = false ∧ t.toLexeme = ⟨.op, operatorText operator⟩ := by
  rw [Bool.or_eq_true, isOp_iff, isOp_iff] at hcontinues
  obtain hmul | hdiv := hcontinues
  · exact ⟨.mul, rfl, hmul⟩
  · exact ⟨.div, rfl, hdiv⟩

theorem derived_parseTermLoop {bound : Nat}
    (hfactor : DerivesBelow bound .factor fun tokens => outcome (parseFactor measures tokens))
    {tokens : List Token} (hbound : tokens.length ≤ bound) (hformed : AllWellFormed tokens)
    {left value : Option ℚ} {rest used : List Token} {formula : Formula}
    (hused : DerivesFormula .term formula (used.map (·.toLexeme)))
    (hok : outcome (parseTermLoop measures left tokens) = .ok (value, rest)) :
    Derived .term (used ++ tokens) rest := by
  induction hlength : tokens.length using Nat.strong_induction_on generalizing tokens left used formula with
  | _ length ih =>
      cases tokens with
      | nil =>
          rw [outcome_parseTermLoop_nil] at hok
          obtain ⟨-, rfl⟩ := Prod.mk.inj (Except.ok.inj hok)
          exact ⟨formula, used, rfl, hused⟩
      | cons t after =>
          rw [outcome_parseTermLoop] at hok
          split at hok
          · next hcontinues =>
              obtain ⟨operator, hoperator, ht⟩ := multiplicative_of_isOp hcontinues
              obtain ⟨⟨right, remaining⟩, hright, hloop⟩ := bind_eq_ok.mp hok
              have hfewer := fewer_of_outcome hright
              rw [List.length_cons] at hbound hlength
              obtain ⟨factor, more, rfl, hderives⟩ :=
                hfactor after _ _ (by omega) hformed.tail hright
              have hline : DerivesFormula .term (.binary operator formula factor)
                  ((used ++ t :: more).map (·.toLexeme)) := by
                rw [List.map_append, List.map_cons, ht]
                exact .multiplicative hoperator hused hderives
              have hresult := ih remaining.length (by omega) (by omega) hformed.tail.rest hline hloop rfl
              simpa using hresult
          · obtain ⟨-, rfl⟩ := Prod.mk.inj (Except.ok.inj hok)
            exact ⟨formula, used, rfl, hused⟩

theorem derived_parseTerm {bound : Nat} {tokens : List Token} {value : Option ℚ} {rest : List Token}
    (hfactor : DerivesBelow bound .factor fun tokens => outcome (parseFactor measures tokens))
    (hbound : tokens.length < bound) (hformed : AllWellFormed tokens)
    (hok : outcome (parseTerm measures tokens) = .ok (value, rest)) : Derived .term tokens rest := by
  rw [outcome_parseTerm] at hok
  obtain ⟨⟨left, remaining⟩, hleft, hloop⟩ := bind_eq_ok.mp hok
  have hfewer := fewer_of_outcome hleft
  obtain ⟨formula, used, rfl, hderives⟩ := hfactor _ _ _ hbound hformed hleft
  exact derived_parseTermLoop hfactor (by omega) hformed.rest (.factor hderives) hloop

theorem derived_parseExprLoop {bound : Nat}
    (hterm : DerivesBelow bound .term fun tokens => outcome (parseTerm measures tokens))
    {tokens : List Token} (hbound : tokens.length ≤ bound) (hformed : AllWellFormed tokens)
    {left value : Option ℚ} {rest used : List Token} {formula : Formula}
    (hused : DerivesFormula .expr formula (used.map (·.toLexeme)))
    (hok : outcome (parseExprLoop measures left tokens) = .ok (value, rest)) :
    Derived .expr (used ++ tokens) rest := by
  induction hlength : tokens.length using Nat.strong_induction_on generalizing tokens left used formula with
  | _ length ih =>
      cases tokens with
      | nil =>
          rw [outcome_parseExprLoop_nil] at hok
          obtain ⟨-, rfl⟩ := Prod.mk.inj (Except.ok.inj hok)
          exact ⟨formula, used, rfl, hused⟩
      | cons t after =>
          rw [outcome_parseExprLoop] at hok
          split at hok
          · next hcontinues =>
              obtain ⟨operator, hoperator, ht⟩ := additive_of_isOp hcontinues
              obtain ⟨⟨right, remaining⟩, hright, hloop⟩ := bind_eq_ok.mp hok
              have hfewer := fewer_of_outcome hright
              rw [List.length_cons] at hbound hlength
              obtain ⟨term, more, rfl, hderives⟩ := hterm after _ _ (by omega) hformed.tail hright
              have hline : DerivesFormula .expr (.binary operator formula term)
                  ((used ++ t :: more).map (·.toLexeme)) := by
                rw [List.map_append, List.map_cons, ht]
                exact .additive hoperator hused hderives
              have hresult := ih remaining.length (by omega) (by omega) hformed.tail.rest hline hloop rfl
              simpa using hresult
          · obtain ⟨-, rfl⟩ := Prod.mk.inj (Except.ok.inj hok)
            exact ⟨formula, used, rfl, hused⟩

theorem derived_parseExpr {bound : Nat} {tokens : List Token} {value : Option ℚ} {rest : List Token}
    (hterm : DerivesBelow bound .term fun tokens => outcome (parseTerm measures tokens))
    (hbound : tokens.length < bound) (hformed : AllWellFormed tokens)
    (hok : outcome (parseExpr measures tokens) = .ok (value, rest)) : Derived .expr tokens rest := by
  rw [outcome_parseExpr] at hok
  obtain ⟨⟨left, remaining⟩, hleft, hloop⟩ := bind_eq_ok.mp hok
  have hfewer := fewer_of_outcome hleft
  obtain ⟨formula, used, rfl, hderives⟩ := hterm _ _ _ hbound hformed hleft
  exact derived_parseExprLoop hterm (by omega) hformed.rest (.term hderives) hloop

theorem derivesBelow (bound : Nat) :
    DerivesBelow bound .factor (fun tokens => outcome (parseFactor measures tokens))
      ∧ DerivesBelow bound .expr (fun tokens => outcome (parseExpr measures tokens)) := by
  induction bound with
  | zero => exact ⟨fun _ _ _ hbound => absurd hbound (by simp), fun _ _ _ hbound => absurd hbound (by simp)⟩
  | succ bound ih =>
      obtain ⟨hfactor, hexpr⟩ := ih
      have hnext : DerivesBelow (bound + 1) .factor
          (fun tokens => outcome (parseFactor measures tokens)) := by
        intro tokens value rest hbound hformed hok
        refine derived_parseFactor ?_ ?_ hformed hok
        · exact fun shorter value rest hshorter => hfactor shorter value rest (by omega)
        · exact fun shorter value rest hshorter => hexpr shorter value rest (by omega)
      have hterm : DerivesBelow (bound + 1) .term (fun tokens => outcome (parseTerm measures tokens)) :=
        fun tokens value rest hbound hformed hok => derived_parseTerm hnext hbound hformed hok
      exact ⟨hnext, fun tokens value rest hbound hformed hok =>
        derived_parseExpr hterm hbound hformed hok⟩

/-! ### What formulas evaluate to -/

/-- The number of an atom, where it has one: an identifier has to be an own property that is finite. -/
def Measures.number? (measures : Measures) : Atom → Option ℚ
  | .number value => some value
  | .identifier name =>
      match measures name with
      | some (.finite value) => some value
      | _ => none

def Measures.number (measures : Measures) (atom : Atom) : ℚ := (measures.number? atom).getD 0

theorem meaning_of_known {formula : Formula} (hknown : ∀ atom ∈ formula.leaves, measures.number? atom ≠ none) :
    meaning measures formula = .ok (formula.value measures.number) := by
  induction formula with
  | leaf atom =>
      have hatom := hknown atom (List.mem_singleton_self atom)
      cases atom with
      | number value => rfl
      | identifier name =>
          simp only [Measures.number?] at hatom
          simp only [meaning, resolveIdentifier, Expression.value, Measures.number, Measures.number?]
          cases hmeasure : measures name with
          | none => simp [hmeasure] at hatom
          | some value =>
              cases value with
              | finite value => rfl
              | posInf => simp [hmeasure] at hatom
              | negInf => simp [hmeasure] at hatom
              | nan => simp [hmeasure] at hatom
  | negate operand ih =>
      rw [meaning, ih hknown]
      rfl
  | binary operator left right ihleft ihright =>
      obtain ⟨hleft, hright⟩ := List.forall_mem_append.mp hknown
      rw [meaning, ihleft hleft, ihright hright]
      rfl

theorem meaning_of_unknown {formula : Formula} (hunknown : ∃ atom ∈ formula.leaves, measures.number? atom = none) :
    ∃ error, meaning measures formula = .error error := by
  induction formula with
  | leaf atom =>
      obtain ⟨found, hfound, hnumber⟩ := hunknown
      obtain rfl := List.mem_singleton.mp hfound
      cases found with
      | number value => cases hnumber
      | identifier name =>
          simp only [Measures.number?] at hnumber
          simp only [meaning, resolveIdentifier]
          cases hmeasure : measures name with
          | none => exact ⟨_, rfl⟩
          | some value =>
              cases value with
              | finite value => simp [hmeasure] at hnumber
              | posInf => exact ⟨_, rfl⟩
              | negInf => exact ⟨_, rfl⟩
              | nan => exact ⟨_, rfl⟩
  | negate operand ih =>
      obtain ⟨error, herror⟩ := ih hunknown
      exact ⟨error, by rw [meaning, herror]; rfl⟩
  | binary operator left right ihleft ihright =>
      obtain ⟨atom, hatom, hnumber⟩ := hunknown
      rw [meaning]
      cases hleft : meaning measures left with
      | error error => exact ⟨error, rfl⟩
      | ok value =>
          obtain hatom | hatom := List.mem_append.mp hatom
          · obtain ⟨error, herror⟩ := ihleft ⟨atom, hatom, hnumber⟩
            rw [hleft] at herror
            cases herror
          · obtain ⟨error, herror⟩ := ihright ⟨atom, hatom, hnumber⟩
            exact ⟨error, by rw [herror]; rfl⟩

def Renders (text : String) (formula : Formula) : Prop :=
  ∃ line, DerivesFormula .expr formula line ∧ Spells line text.toList

def finish : Option ℚ × List Token → Except FormulaError (Option ℚ)
  | (value, []) => .ok value
  | (_, leftover :: _) =>
      .error ⟨s!"Unexpected trailing token '{leftover.value}' at position {leftover.pos}"⟩

theorem evaluate_eq {tokens : List Token} (hne : tokens ≠ []) :
    evaluate measures tokens = (outcome (parseExpr measures tokens)).bind finish := by
  rw [evaluate, if_neg hne]
  cases parseExpr measures tokens with
  | error error => rfl
  | ok parsed =>
      obtain ⟨value, rest, hfewer⟩ := parsed
      cases rest <;> rfl

theorem evaluateFormula_of_renders {text : String} {formula : Formula} (hrenders : Renders text formula) :
    evaluateFormula measures text = meaning measures formula := by
  obtain ⟨line, hderives, hspells⟩ := hrenders
  obtain ⟨tokens, htokens, hline⟩ := tokenizeFrom_of_spells hspells (isWellFormed_of_derives hderives)
    (isChain_of_derives hderives) 0
  have hcomputes := (computes_of_derives hderives hline : Computes measures formula tokens .expr) [] (by simp [ContinuesTerm])
  rw [List.append_nil] at hcomputes
  have hne : tokens ≠ [] := by
    rintro rfl
    exact hderives.ne_nil hline.symm
  have hevaluate : evaluateFormula measures text = evaluate measures tokens := by
    rw [evaluateFormula, tokenize, htokens]
    rfl
  rw [hevaluate, evaluate_eq hne, hcomputes]
  cases meaning measures formula with
  | error error => rfl
  | ok value =>
      simp only [Except.bind]
      rw [outcome_parseExprLoop_nil]
      rfl

theorem renders_of_evaluateFormula {text : String} {value : Option ℚ}
    (hok : evaluateFormula measures text = .ok value) : ∃ formula, Renders text formula := by
  obtain ⟨tokens, htokens, hevaluate⟩ := bind_eq_ok.mp hok
  obtain ⟨hspells, hformed⟩ := spells_of_tokenizeFrom htokens
  have hne : tokens ≠ [] := by
    rintro rfl
    cases hevaluate
  rw [evaluate_eq hne] at hevaluate
  obtain ⟨⟨result, rest⟩, hparse, hfinish⟩ := bind_eq_ok.mp hevaluate
  cases rest with
  | cons leftover rest => cases hfinish
  | nil =>
      obtain ⟨formula, used, rfl, hderives⟩ :=
        (derivesBelow (tokens.length + 1)).2 tokens result [] (Nat.lt_succ_self _) hformed hparse
      rw [List.append_nil] at hspells
      exact ⟨formula, _, hderives, hspells⟩

end Evaluator

/-- A formula evaluates to its value where all of its identifiers are measures, and everything else is an
error: a formula with another identifier, and a text that writes no formula. -/
theorem evaluateFormula_correct (measures : Measures) (text : String) :
    (∀ formula, Renders text formula →
      ((∀ atom ∈ formula.leaves, measures.number? atom ≠ none) →
        evaluateFormula measures text = .ok (formula.value measures.number))
      ∧ ((∃ atom ∈ formula.leaves, measures.number? atom = none) →
        ∃ error, evaluateFormula measures text = .error error))
    ∧ ((¬∃ formula, Renders text formula) → ∃ error, evaluateFormula measures text = .error error) := by
  refine ⟨fun formula hrenders => ⟨fun hknown => ?_, fun hunknown => ?_⟩, fun hnone => ?_⟩
  · rw [evaluateFormula_of_renders hrenders, meaning_of_known hknown]
  · rw [evaluateFormula_of_renders hrenders]
    exact meaning_of_unknown hunknown
  · cases hresult : evaluateFormula measures text with
    | error error => exact ⟨error, rfl⟩
    | ok value => exact absurd (renders_of_evaluateFormula hresult) hnone

end Deckent.Kpi
