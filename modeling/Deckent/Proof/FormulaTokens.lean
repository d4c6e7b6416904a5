import Deckent.Lib.Arithmetic
import Deckent.Lib.Fallible
import Deckent.Model.FormulaEvaluator

/-!
# Lines of tokens

A formula spells a line of lexemes, with any white space around them. The tokenizer finds that line again,
and accepts nothing else, as long as no two words of it stand side by side.
-/

namespace Deckent.Kpi

/-! ### Characters -/

def IsNumber (text : List Char) : Prop :=
  ∃ whole, whole ≠ [] ∧ (∀ c ∈ whole, isDigit c = true)
    ∧ (text = whole ∨ ∃ fraction, (∀ c ∈ fraction, isDigit c = true) ∧ text = whole ++ '.' :: fraction)

def IsIdentifier (text : List Char) : Prop :=
  ∃ first rest, text = first :: rest ∧ isIdentStart first = true ∧ ∀ c ∈ rest, isIdentPart c = true

def Lexeme.IsWellFormed (lexeme : Lexeme) : Prop :=
  match lexeme.kind with
  | .op => ∃ c, isOperatorChar c = true ∧ lexeme.value.toList = [c]
  | .number => IsNumber lexeme.value.toList
  | .ident => IsIdentifier lexeme.value.toList

def Lexeme.IsWord (lexeme : Lexeme) : Prop := lexeme.kind ≠ .op

def IsBoundary (c : Char) : Prop := isWhitespace c = true ∨ isOperatorChar c = true

theorem IsBoundary.cases {c : Char} (hboundary : IsBoundary c) :
    isIdentPart c = false ∧ c ≠ '.' := by
  have hmem : c ∈ [' ', '\t', '\n', '\r', Char.ofNat 0x0C, Char.ofNat 0x0B, '+', '-', '*', '/', '(', ')'] := by
    obtain hblank | hoperator := hboundary
    · simp only [isWhitespace, Bool.or_eq_true, decide_eq_true_eq] at hblank
      have hfeed : c.toNat = 0x0C → c = Char.ofNat 0x0C := fun hfeed => by rw [← hfeed, Char.ofNat_toNat]
      have htab : c.toNat = 0x0B → c = Char.ofNat 0x0B := fun htab => by rw [← htab, Char.ofNat_toNat]
      simp only [List.mem_cons]
      tauto
    · simp only [isOperatorChar, Bool.or_eq_true, decide_eq_true_eq] at hoperator
      simp only [List.mem_cons]
      tauto
  have hall : [' ', '\t', '\n', '\r', Char.ofNat 0x0C, Char.ofNat 0x0B, '+', '-', '*', '/', '(', ')'].all
      (fun c => !isIdentPart c && c ≠ '.') = true := by decide
  simpa using List.all_eq_true.mp hall c hmem

theorem not_isBoundary {c : Char} (hpart : isIdentPart c = true) :
    isWhitespace c = false ∧ isOperatorChar c = false := by
  refine ⟨?_, ?_⟩
  · by_contra hblank
    rw [(IsBoundary.cases (.inl (by simpa using hblank))).1] at hpart
    cases hpart
  · by_contra hoperator
    rw [(IsBoundary.cases (.inr (by simpa using hoperator))).1] at hpart
    cases hpart

theorem isWhitespace_of_isOperatorChar {c : Char} (hoperator : isOperatorChar c = true) :
    isWhitespace c = false := by
  have hmem : c ∈ ['+', '-', '*', '/', '(', ')'] := by
    simp only [isOperatorChar, Bool.or_eq_true, decide_eq_true_eq] at hoperator
    simp only [List.mem_cons]
    tauto
  have hall : ['+', '-', '*', '/', '(', ')'].all (!isWhitespace ·) = true := by decide
  simpa using List.all_eq_true.mp hall c hmem

theorem isIdentPart_of_isDigit {c : Char} (hdigit : isDigit c = true) : isIdentPart c = true := by
  rw [isIdentPart, hdigit, Bool.or_true]

theorem isIdentPart_of_isIdentStart {c : Char} (hstart : isIdentStart c = true) : isIdentPart c = true := by
  rw [isIdentPart, hstart, Bool.true_or]

theorem isDigit_of_isIdentStart {c : Char} (hstart : isIdentStart c = true) : isDigit c = false := by
  by_contra hdigit
  simp only [isDigit, isIdentStart, Bool.not_eq_false, Bool.and_eq_true, Bool.or_eq_true, decide_eq_true_eq,
    Char.le_def, UInt32.le_iff_toNat_le] at hdigit hstart
  obtain (⟨hlow, -⟩ | ⟨hlow, -⟩) | rfl := hstart
  · exact absurd (hlow.trans hdigit.2) (by decide)
  · exact absurd (hlow.trans hdigit.2) (by decide)
  · exact absurd hdigit.2 (by decide)

/-! ### Words -/

def Ends (text : List Char) : Prop := ∀ c ∈ text.head?, IsBoundary c

theorem takeNumber_digits {digits text : List Char} (hdigits : ∀ c ∈ digits, isDigit c = true)
    (hends : Ends text) (seenDot : Bool) : takeNumber (digits ++ text) seenDot = (digits, text) := by
  induction digits with
  | nil =>
      cases text with
      | nil => rfl
      | cons c rest =>
          obtain ⟨hpart, hdot⟩ := (hends c rfl).cases
          have hdigit : isDigit c = false := by
            by_contra hdigit
            rw [isIdentPart_of_isDigit (by simpa using hdigit)] at hpart
            cases hpart
          simp [takeNumber, hdigit, hdot]
  | cons c rest ih =>
      obtain ⟨hc, hrest⟩ := List.forall_mem_cons.mp hdigits
      rw [List.cons_append, takeNumber, if_pos hc, ih hrest]

theorem IsNumber.take {text rest : List Char} (hnumber : IsNumber text) (hends : Ends rest) :
    ∃ first others, text = first :: others ∧ isDigit first = true
      ∧ takeNumber (others ++ rest) false = (others, rest) := by
  have hdot : isDigit '.' = false := by decide
  obtain ⟨whole, hne, hwhole, hform⟩ := hnumber
  obtain ⟨first, digits, rfl⟩ := List.exists_cons_of_ne_nil hne
  obtain ⟨hfirst, hdigits⟩ := List.forall_mem_cons.mp hwhole
  obtain rfl | ⟨fraction, hfraction, rfl⟩ := hform
  · exact ⟨first, digits, rfl, hfirst, takeNumber_digits hdigits hends false⟩
  · refine ⟨first, digits ++ '.' :: fraction, rfl, hfirst, ?_⟩
    clear hwhole hne
    induction digits with
    | nil => simp [takeNumber, hdot, takeNumber_digits hfraction hends]
    | cons c others ih =>
        obtain ⟨hc, hothers⟩ := List.forall_mem_cons.mp hdigits
        rw [List.cons_append, List.cons_append, takeNumber, if_pos hc, ih hothers]

theorem isNumber_take {first : Char} (hfirst : isDigit first = true) (rest : List Char) :
    IsNumber (first :: (takeNumber rest false).1) := by
  have hdigits (rest : List Char) : ∀ c ∈ (takeNumber rest true).1, isDigit c = true := by
    induction rest with
    | nil => simp [takeNumber]
    | cons c rest ih =>
        unfold takeNumber
        split
        · next hc => exact List.forall_mem_cons.mpr ⟨hc, ih⟩
        · simp
  induction rest generalizing first with
  | nil => exact ⟨[first], by simp, by simpa using hfirst, .inl rfl⟩
  | cons c rest ih =>
      unfold takeNumber
      split
      · next hc =>
          obtain ⟨whole, hne, hwhole, hform⟩ := ih hc
          refine ⟨first :: whole, by simp, List.forall_mem_cons.mpr ⟨hfirst, hwhole⟩, ?_⟩
          obtain hform | ⟨fraction, hfraction, hform⟩ := hform
          · exact .inl (congrArg (first :: ·) hform)
          · exact .inr ⟨fraction, hfraction, congrArg (first :: ·) hform⟩
      · split
        · next hdot =>
            obtain rfl : c = '.' := by simpa using hdot
            exact ⟨[first], by simp, by simpa using hfirst, .inr ⟨_, hdigits rest, rfl⟩⟩
        · exact ⟨[first], by simp, by simpa using hfirst, .inl rfl⟩

theorem takeWhile_isIdentPart {others rest : List Char} (hothers : ∀ c ∈ others, isIdentPart c = true)
    (hends : Ends rest) :
    (others ++ rest).takeWhile isIdentPart = others ∧ (others ++ rest).dropWhile isIdentPart = rest := by
  rw [List.takeWhile_append_of_pos hothers, List.dropWhile_append_of_pos hothers]
  cases rest with
  | nil => simp
  | cons c rest => simp [(hends c rfl).cases.1]

/-! ### Lines -/

inductive Spells : List Lexeme → List Char → Prop where
  | nil {blank : List Char} (hblank : ∀ c ∈ blank, isWhitespace c = true) : Spells [] blank
  | cons {blank text : List Char} {lexeme : Lexeme} {line : List Lexeme}
      (hblank : ∀ c ∈ blank, isWhitespace c = true) (hline : Spells line text) :
      Spells (lexeme :: line) (blank ++ (lexeme.value.toList ++ text))

theorem Spells.blank {line : List Lexeme} {text : List Char} (hspells : Spells line text) {c : Char}
    (hc : isWhitespace c = true) : Spells line (c :: text) := by
  cases hspells with
  | nil hblank => exact .nil (List.forall_mem_cons.mpr ⟨hc, hblank⟩)
  | cons hblank hline =>
      rw [← List.cons_append]
      exact .cons (List.forall_mem_cons.mpr ⟨hc, hblank⟩) hline

theorem Spells.lexeme {line : List Lexeme} {text : List Char} (hspells : Spells line text)
    (lexeme : Lexeme) : Spells (lexeme :: line) (lexeme.value.toList ++ text) := by
  have hcons : Spells (lexeme :: line) ([] ++ (lexeme.value.toList ++ text)) := .cons (by simp) hspells
  exact hcons

theorem Spells.ends {lexeme : Lexeme} {line : List Lexeme} {text : List Char}
    (hspells : Spells line text) (hformed : ∀ other ∈ line, other.IsWellFormed)
    (hchain : (lexeme :: line).IsChain fun left right => ¬(left.IsWord ∧ right.IsWord))
    (hword : lexeme.IsWord) : Ends text := by
  intro c hc
  cases hspells with
  | nil hblank => exact .inl (hblank c (List.mem_of_head? hc))
  | @cons blank text next line hblank hline =>
      cases blank with
      | cons first rest =>
          rw [List.cons_append, List.head?_cons, Option.mem_some_iff] at hc
          exact .inl (hc ▸ hblank first (List.mem_cons_self ..))
      | nil =>
          have hnext : ¬next.IsWord := fun hnext =>
            (List.isChain_cons.mp hchain).1 next (List.head?_cons ..) ⟨hword, hnext⟩
          have hkind : next.kind = .op := not_not.mp hnext
          have hform := hformed next (List.mem_cons_self ..)
          rw [Lexeme.IsWellFormed, hkind] at hform
          obtain ⟨operator, hoperator, hvalue⟩ := hform
          rw [List.nil_append, hvalue, List.singleton_append, List.head?_cons, Option.mem_some_iff] at hc
          exact .inr (hc ▸ hoperator)

/-! ### The tokenizer -/

theorem spells_of_tokenizeFrom {chars : List Char} {pos : Nat} {tokens : List Token}
    (htokens : tokenizeFrom chars pos = .ok tokens) :
    Spells (tokens.map (·.toLexeme)) chars ∧ ∀ token ∈ tokens, token.toLexeme.IsWellFormed := by
  fun_induction tokenizeFrom chars pos generalizing tokens with
  | case1 =>
      obtain rfl := Except.ok.inj htokens
      exact ⟨.nil (by simp), by simp⟩
  | case2 pos ch rest hblank ih =>
      obtain ⟨hspells, hformed⟩ := ih htokens
      exact ⟨hspells.blank hblank, hformed⟩
  | case3 pos ch rest hblank hoperator ih =>
      obtain ⟨others, hothers, rfl⟩ := exceptMap_eq_ok.mp htokens
      obtain ⟨hspells, hformed⟩ := ih hothers
      refine ⟨?_, List.forall_mem_cons.mpr ⟨⟨ch, hoperator, String.toList_ofList⟩, hformed⟩⟩
      simpa using hspells.lexeme ⟨.op, String.ofList [ch]⟩
  | case4 pos ch rest hblank hoperator hdigit ih =>
      obtain ⟨others, hothers, rfl⟩ := exceptMap_eq_ok.mp htokens
      obtain ⟨hspells, hformed⟩ := ih hothers
      have hnumber : IsNumber (String.ofList (ch :: (takeNumber rest false).1)).toList := by
        rw [String.toList_ofList]
        exact isNumber_take hdigit rest
      refine ⟨?_, List.forall_mem_cons.mpr ⟨hnumber, hformed⟩⟩
      have hline := hspells.lexeme ⟨.number, String.ofList (ch :: (takeNumber rest false).1)⟩
      rw [String.toList_ofList, List.cons_append, takeNumber_append] at hline
      exact hline
  | case5 pos ch rest hblank hoperator hdigit hstart ih =>
      obtain ⟨others, hothers, rfl⟩ := exceptMap_eq_ok.mp htokens
      obtain ⟨hspells, hformed⟩ := ih hothers
      have hidentifier : IsIdentifier (String.ofList (ch :: rest.takeWhile isIdentPart)).toList := by
        rw [String.toList_ofList]
        exact ⟨ch, _, rfl, hstart, List.all_eq_true.mp List.all_takeWhile⟩
      refine ⟨?_, List.forall_mem_cons.mpr ⟨hidentifier, hformed⟩⟩
      have hline := hspells.lexeme ⟨.ident, String.ofList (ch :: rest.takeWhile isIdentPart)⟩
      rw [String.toList_ofList, List.cons_append, List.takeWhile_append_dropWhile] at hline
      exact hline
  | case6 pos ch rest hblank hoperator hdigit hstart => cases htokens

theorem tokenizeFrom_blank {blank : List Char} (hblank : ∀ c ∈ blank, isWhitespace c = true)
    (text : List Char) (pos : Nat) :
    tokenizeFrom (blank ++ text) pos = tokenizeFrom text (pos + blank.length) := by
  induction blank generalizing pos with
  | nil => rfl
  | cons c rest ih =>
      obtain ⟨hc, hrest⟩ := List.forall_mem_cons.mp hblank
      rw [List.cons_append, tokenizeFrom, if_pos hc, ih hrest, List.length_cons]
      congr 1
      omega

theorem tokenizeFrom_lexeme {lexeme : Lexeme} (hformed : lexeme.IsWellFormed) {text : List Char}
    (hends : lexeme.IsWord → Ends text) (pos : Nat) :
    ∃ after, tokenizeFrom (lexeme.value.toList ++ text) pos
      = (tokenizeFrom text after).map (⟨lexeme, pos⟩ :: ·) := by
  obtain ⟨kind, value⟩ := lexeme
  cases kind with
  | op =>
      obtain ⟨c, hoperator, hvalue⟩ := hformed
      have hvalue : value = String.ofList [c] := by rw [← hvalue, String.ofList_toList]
      subst hvalue
      refine ⟨pos + 1, ?_⟩
      rw [String.toList_ofList, List.singleton_append, tokenizeFrom,
        if_neg (by simp [isWhitespace_of_isOperatorChar hoperator]), if_pos hoperator]
  | number =>
      have hnumber : IsNumber value.toList := hformed
      obtain ⟨first, others, hvalue, hdigit, htake⟩ := hnumber.take (hends (by simp [Lexeme.IsWord]))
      have hvalue : value = String.ofList (first :: others) := by rw [← hvalue, String.ofList_toList]
      subst hvalue
      obtain ⟨hblank, hoperator⟩ := not_isBoundary (isIdentPart_of_isDigit hdigit)
      refine ⟨pos + 1 + others.length, ?_⟩
      rw [String.toList_ofList, List.cons_append, tokenizeFrom, if_neg (by simp [hblank]),
        if_neg (by simp [hoperator]), if_pos hdigit, htake]
  | ident =>
      obtain ⟨first, others, hvalue, hstart, hothers⟩ := hformed
      have hvalue : value = String.ofList (first :: others) := by
        rw [← hvalue, String.ofList_toList]
      subst hvalue
      obtain ⟨htake, hdrop⟩ := takeWhile_isIdentPart hothers (hends (by simp [Lexeme.IsWord]))
      obtain ⟨hblank, hoperator⟩ := not_isBoundary (isIdentPart_of_isIdentStart hstart)
      refine ⟨pos + 1 + others.length, ?_⟩
      rw [String.toList_ofList, List.cons_append, tokenizeFrom, if_neg (by simp [hblank]),
        if_neg (by simp [hoperator]), if_neg (by simp [isDigit_of_isIdentStart hstart]), if_pos hstart,
        htake, hdrop]

theorem tokenizeFrom_of_spells {line : List Lexeme} {text : List Char} (hspells : Spells line text)
    (hformed : ∀ lexeme ∈ line, lexeme.IsWellFormed)
    (hchain : line.IsChain fun left right => ¬(left.IsWord ∧ right.IsWord)) (pos : Nat) :
    ∃ tokens, tokenizeFrom text pos = .ok tokens ∧ tokens.map (·.toLexeme) = line := by
  induction hspells generalizing pos with
  | @nil blank hblank =>
      refine ⟨[], ?_, rfl⟩
      have hskip := tokenizeFrom_blank hblank [] pos
      rw [List.append_nil] at hskip
      rw [hskip, tokenizeFrom]
  | @cons blank text lexeme line hblank hline ih =>
      obtain ⟨hlexeme, hrest⟩ := List.forall_mem_cons.mp hformed
      obtain ⟨after, hfirst⟩ := tokenizeFrom_lexeme hlexeme (hline.ends hrest hchain) (pos + blank.length)
      obtain ⟨tokens, htokens, hmap⟩ := ih hrest (List.isChain_cons.mp hchain).2 after
      refine ⟨⟨lexeme, pos + blank.length⟩ :: tokens, ?_, by rw [List.map_cons, hmap]⟩
      rw [tokenizeFrom_blank hblank, hfirst, htokens]
      rfl

end Deckent.Kpi
