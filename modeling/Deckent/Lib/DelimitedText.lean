import Mathlib.Data.List.Basic

/-!
# Texts that delimit themselves

A reader of nested texts goes on until a comma or a closing bracket that belongs to no bracket or quotation
which it has seen open. A closed text is one that it always gets past, whatever follows. So two closed texts
before such an end are equal when all of it is, and a list of closed texts can be told from their line.
-/

namespace Deckent

def isOpeningBracket (c : Char) : Bool := c = '[' || c = '\x7b'

def isClosingBracket (c : Char) : Bool := c = ']' || c = '\x7d'

def isStructural (c : Char) : Bool := c = '"' || c = ',' || isOpeningBracket c || isClosingBracket c

inductive ReadMode where
  | outside
  | quoted
  | escaped

/-- What a reader leaves that has `depth` brackets open. -/
def unread : Nat → ReadMode → List Char → List Char
  | _, _, [] => []
  | depth, .escaped, _ :: rest => unread depth .quoted rest
  | depth, .quoted, c :: rest =>
      if c = '"' then unread depth .outside rest
      else if c = '\\' then unread depth .escaped rest
      else unread depth .quoted rest
  | depth, .outside, c :: rest =>
      if c = '"' then unread depth .quoted rest
      else if isOpeningBracket c then unread (depth + 1) .outside rest
      else if isClosingBracket c then
        match depth with
        | 0 => c :: rest
        | depth + 1 => unread depth .outside rest
      else if c = ',' && depth = 0 then c :: rest
      else unread depth .outside rest

theorem unread_quoted (depth : Nat) (c : Char) (rest : List Char) :
    unread depth .quoted (c :: rest) =
      if c = '"' then unread depth .outside rest
      else if c = '\\' then unread depth .escaped rest
      else unread depth .quoted rest := rfl

theorem unread_outside (depth : Nat) (c : Char) (rest : List Char) :
    unread depth .outside (c :: rest) =
      if c = '"' then unread depth .quoted rest
      else if isOpeningBracket c then unread (depth + 1) .outside rest
      else if isClosingBracket c then
        if depth = 0 then c :: rest else unread (depth - 1) .outside rest
      else if c = ',' && depth = 0 then c :: rest
      else unread depth .outside rest := by
  cases depth with
  | zero => rfl
  | succ depth => rfl

/-- The reader gets past the text, whatever follows. -/
def ClosedText (text : List Char) : Prop :=
  ∀ depth rest, unread depth .outside (text ++ rest) = unread depth .outside rest

def ClosedWithin (text : List Char) : Prop :=
  ∀ depth rest, unread (depth + 1) .outside (text ++ rest) = unread (depth + 1) .outside rest

def IsEnd (rest : List Char) : Prop := unread 0 .outside rest = rest

theorem isEnd_closing {c : Char} (hclosing : isClosingBracket c = true) (rest : List Char) :
    IsEnd (c :: rest) := by
  have hquote : c ≠ '"' := by rintro rfl; cases hclosing
  have hopening : isOpeningBracket c = false := by
    by_contra hopening
    simp only [isOpeningBracket, isClosingBracket, Bool.or_eq_true, decide_eq_true_eq,
      Bool.not_eq_false] at hopening hclosing
    obtain rfl | rfl := hclosing
    · simp at hopening
    · simp at hopening
  simp [IsEnd, unread, hquote, hopening, hclosing]

theorem isEnd_comma (rest : List Char) : IsEnd (',' :: rest) := by
  simp [IsEnd, unread, isOpeningBracket, isClosingBracket]

theorem isEnd_nil : IsEnd [] := rfl

namespace ClosedText

theorem nil : ClosedText [] := fun _ _ => rfl

theorem append {left right : List Char} (hleft : ClosedText left) (hright : ClosedText right) :
    ClosedText (left ++ right) := by
  intro depth rest
  rw [List.append_assoc, hleft, hright]

theorem within {text : List Char} (hclosed : ClosedText text) : ClosedWithin text :=
  fun depth => hclosed (depth + 1)

/-- A text without structure. -/
theorem plain {text : List Char} (hplain : ∀ c ∈ text, isStructural c = false) : ClosedText text := by
  intro depth rest
  induction text with
  | nil => rfl
  | cons c text ih =>
      obtain ⟨hc, htext⟩ := List.forall_mem_cons.mp hplain
      simp only [isStructural, Bool.or_eq_false_iff, decide_eq_false_iff_not] at hc
      obtain ⟨⟨⟨hquote, hcomma⟩, hopening⟩, hclosing⟩ := hc
      rw [List.cons_append, unread_outside, if_neg hquote, if_neg (by simp [hopening]),
        if_neg (by simp [hclosing]), if_neg (by simp [hcomma]), ih htext]

theorem quoted {inner : List Char}
    (hinner : ∀ depth rest, unread depth .quoted (inner ++ rest) = unread depth .quoted rest) :
    ClosedText ('"' :: inner ++ ['"']) := by
  intro depth rest
  rw [List.cons_append, List.cons_append, List.append_assoc, unread_outside, if_pos rfl, hinner,
    List.singleton_append, unread_quoted, if_pos rfl]

theorem bracketed {opening closing : Char} {inner : List Char} (hopening : isOpeningBracket opening = true)
    (hclosing : isClosingBracket closing = true) (hinner : ClosedWithin inner) :
    ClosedText (opening :: inner ++ [closing]) := by
  intro depth rest
  have hquote : opening ≠ '"' := by rintro rfl; cases hopening
  have hquote' : closing ≠ '"' := by rintro rfl; cases hclosing
  have hother : isOpeningBracket closing = false := by
    by_contra hboth
    simp only [isOpeningBracket, isClosingBracket, Bool.or_eq_true, decide_eq_true_eq,
      Bool.not_eq_false] at hboth hclosing
    obtain rfl | rfl := hclosing
    · simp at hboth
    · simp at hboth
  rw [List.cons_append, List.cons_append, List.append_assoc, unread_outside, if_neg hquote, if_pos hopening,
    hinner, List.singleton_append, unread_outside, if_neg hquote', if_neg (by simp [hother]),
    if_pos hclosing, if_neg (Nat.succ_ne_zero depth), Nat.add_sub_cancel]

theorem append_inj {left right leftRest rightRest : List Char} (hleft : ClosedText left)
    (hright : ClosedText right) (hleftEnd : IsEnd leftRest) (hrightEnd : IsEnd rightRest)
    (hsame : left ++ leftRest = right ++ rightRest) : left = right ∧ leftRest = rightRest := by
  have hrest : leftRest = rightRest := by
    rw [← hleftEnd, ← hrightEnd, ← hleft 0 leftRest, ← hright 0 rightRest, hsame]
  subst hrest
  exact ⟨List.append_cancel_right hsame, rfl⟩

end ClosedText

/-! ### Lists of texts -/

def commaLine (rest : List Char) : List (List Char) → List Char
  | [] => rest
  | [text] => text ++ rest
  | text :: next :: texts => text ++ ',' :: commaLine rest (next :: texts)

theorem commaLine_eq (texts : List (List Char)) (rest : List Char) :
    commaLine rest texts = [','].intercalate texts ++ rest := by
  induction texts with
  | nil => rfl
  | cons text texts ih =>
      cases texts with
      | nil => simp [commaLine, List.intercalate]
      | cons next texts =>
          rw [commaLine, ih]
          simp [List.intercalate, List.intersperse]

theorem closedWithin_commaLine {texts : List (List Char)} (hclosed : ∀ text ∈ texts, ClosedText text) :
    ClosedWithin ([','].intercalate texts) := by
  intro depth rest
  rw [← commaLine_eq]
  induction texts with
  | nil => rfl
  | cons text texts ih =>
      obtain ⟨htext, htexts⟩ := List.forall_mem_cons.mp hclosed
      cases texts with
      | nil => rw [commaLine, htext]
      | cons next texts =>
          rw [commaLine, htext, unread_outside, if_neg (by decide), if_neg (by decide), if_neg (by decide),
            if_neg (by simp), ih htexts]

/-- As many closed texts can be told from their line. -/
theorem commaLine_inj {left right : List (List Char)} {leftRest rightRest : List Char}
    (hleft : ∀ text ∈ left, ClosedText text) (hright : ∀ text ∈ right, ClosedText text)
    (hleftEnd : IsEnd leftRest) (hrightEnd : IsEnd rightRest) (hlength : left.length = right.length)
    (hsame : commaLine leftRest left = commaLine rightRest right) : left = right := by
  induction left generalizing right with
  | nil => exact (List.length_eq_zero_iff.mp hlength.symm).symm
  | cons text texts ih =>
      obtain ⟨other, others, rfl⟩ := List.exists_cons_of_length_eq_add_one hlength.symm
      obtain ⟨htext, htexts⟩ := List.forall_mem_cons.mp hleft
      obtain ⟨hother, hothers⟩ := List.forall_mem_cons.mp hright
      rw [List.length_cons, List.length_cons, Nat.add_right_cancel_iff] at hlength
      cases texts with
      | nil =>
          obtain rfl := List.length_eq_zero_iff.mp hlength.symm
          rw [(htext.append_inj hother hleftEnd hrightEnd hsame).1]
      | cons next texts =>
          obtain ⟨second, others, rfl⟩ := List.exists_cons_of_length_eq_add_one hlength.symm
          obtain ⟨rfl, hline⟩ := htext.append_inj hother (isEnd_comma _) (isEnd_comma _) hsame
          rw [ih htexts hothers hlength (List.cons.inj hline).2]

def Starts (text : List Char) : Prop := ∃ c ∈ text.head?, c ≠ ',' ∧ isClosingBracket c = false

/-- Closed texts that all start can be told from their line, however many they are. -/
theorem commaLine_inj_of_starts {left right : List (List Char)} {leftRest rightRest : List Char}
    (hleft : ∀ text ∈ left, ClosedText text ∧ Starts text)
    (hright : ∀ text ∈ right, ClosedText text ∧ Starts text)
    {closing : Char} (hclosing : isClosingBracket closing = true)
    (hsame : commaLine (closing :: leftRest) left = commaLine (closing :: rightRest) right) :
    left = right := by
  have hlonger {text rest others : List Char} (hstarts : Starts text) :
      closing :: rest ≠ text ++ others := by
    obtain ⟨c, hc, -, hopen⟩ := hstarts
    cases text with
    | nil => cases hc
    | cons first text =>
        obtain rfl := Option.some.inj hc
        intro hline
        obtain ⟨rfl, -⟩ := List.cons.inj hline
        rw [hclosing] at hopen
        cases hopen
  induction left generalizing right with
  | nil =>
      cases right with
      | nil => rfl
      | cons other others =>
          cases others with
          | nil => exact absurd hsame (hlonger (hright other (List.mem_cons_self ..)).2)
          | cons second others => exact absurd hsame (hlonger (hright other (List.mem_cons_self ..)).2)
  | cons text texts ih =>
      obtain ⟨htext, htexts⟩ := List.forall_mem_cons.mp hleft
      cases right with
      | nil =>
          cases texts with
          | nil => exact absurd hsame.symm (hlonger htext.2)
          | cons next texts => exact absurd hsame.symm (hlonger htext.2)
      | cons other others =>
          obtain ⟨hother, hothers⟩ := List.forall_mem_cons.mp hright
          have hend {rest : List Char} : IsEnd (closing :: rest) := isEnd_closing hclosing rest
          cases texts with
          | nil =>
              cases others with
              | nil => rw [(htext.1.append_inj hother.1 hend hend hsame).1]
              | cons second others =>
                  obtain ⟨-, hline⟩ := htext.1.append_inj hother.1 hend (isEnd_comma _) hsame
                  obtain ⟨rfl, -⟩ := List.cons.inj hline
                  cases hclosing
          | cons next texts =>
              cases others with
              | nil =>
                  obtain ⟨-, hline⟩ := htext.1.append_inj hother.1 (isEnd_comma _) hend hsame
                  obtain ⟨rfl, -⟩ := List.cons.inj hline
                  cases hclosing
              | cons second others =>
                  obtain ⟨rfl, hline⟩ := htext.1.append_inj hother.1 (isEnd_comma _) (isEnd_comma _) hsame
                  rw [ih htexts hothers (List.cons.inj hline).2]

end Deckent
