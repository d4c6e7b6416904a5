import Deckent.Lib.CodeUnits
import Mathlib.Data.List.Lex
import Mathlib.Data.List.Sort
import Mathlib.Order.Fin.Basic

/-!
# JSON texts that say one value

A value is written without blanks and with the members of its objects in the order they have. What is written is
read back as the same value, whatever strings it has, so two values of one text are the same.
-/

namespace Deckent

/-! ### Strings -/

namespace UnitText

def hexDigit (digit : Nat) : CodeUnit :=
  codeUnit (if digit < 10 then 0x30 + digit else 0x61 + (digit - 10))

def hexValue (unit : CodeUnit) : Option Nat :=
  if 0x30 ≤ unit.val ∧ unit.val ≤ 0x39 then some (unit.val - 0x30)
  else if 0x61 ≤ unit.val ∧ unit.val ≤ 0x66 then some (unit.val - 0x61 + 10)
  else if 0x41 ≤ unit.val ∧ unit.val ≤ 0x46 then some (unit.val - 0x41 + 10)
  else none

theorem hexValue_hexDigit {digit : Nat} (hdigit : digit < 16) : hexValue (hexDigit digit) = some digit := by
  revert digit
  decide

def shortEscape (point : Nat) : Option Nat :=
  if point = 0x22 then some 0x22 else if point = 0x5C then some 0x5C else if point = 0x08 then some 0x62
  else if point = 0x0C then some 0x66 else if point = 0x0A then some 0x6E else if point = 0x0D then some 0x72
  else if point = 0x09 then some 0x74 else none

def unescape (letter : Nat) : Option Nat :=
  if letter = 0x22 then some 0x22 else if letter = 0x5C then some 0x5C else if letter = 0x2F then some 0x2F
  else if letter = 0x62 then some 0x08 else if letter = 0x66 then some 0x0C else if letter = 0x6E then some 0x0A
  else if letter = 0x72 then some 0x0D else if letter = 0x74 then some 0x09 else none

def quotePoint (point : Nat) : UnitText :=
  match shortEscape point with
  | some letter => [codeUnit 0x5C, codeUnit letter]
  | none =>
      if point < 0x20 ∨ IsSurrogate point then
        [codeUnit 0x5C, codeUnit 0x75, hexDigit (point / 0x1000), hexDigit (point / 0x100 % 0x10),
          hexDigit (point / 0x10 % 0x10), hexDigit (point % 0x10)]
      else unitsOf point

def quote (text : UnitText) : UnitText :=
  codeUnit 0x22 :: (text.points.flatMap quotePoint ++ [codeUnit 0x22])

def readString : UnitText → Option (UnitText × UnitText)
  | [] => none
  | unit :: rest =>
      if unit.val = 0x22 then some ([], rest)
      else if unit.val < 0x20 then none
      else if unit.val = 0x5C then
        match rest with
        | [] => none
        | letter :: rest =>
            if letter.val = 0x75 then
              match rest with
              | a :: b :: c :: d :: rest =>
                  match hexValue a, hexValue b, hexValue c, hexValue d with
                  | some a, some b, some c, some d => (readString rest).map fun read =>
                      (codeUnit (a * 0x1000 + b * 0x100 + c * 0x10 + d) :: read.1, read.2)
                  | _, _, _, _ => none
              | _ => none
            else
              match unescape letter.val with
              | some point => (readString rest).map fun read => (codeUnit point :: read.1, read.2)
              | none => none
      else (readString rest).map fun read => (unit :: read.1, read.2)

theorem points_lt (text : UnitText) : ∀ point ∈ text.points, point < 0x110000 := by
  induction text using points.induct with
  | case1 => simp [points]
  | case2 unit => simp [points, Nat.lt_trans unit.isLt]
  | case3 high low rest hpair ih =>
      obtain ⟨⟨hhigh, hhigh'⟩, hlow, hlow'⟩ := id hpair
      rw [points, if_pos hpair]
      exact List.forall_mem_cons.mpr ⟨by omega, ih⟩
  | case4 high low rest hpair ih =>
      rw [points, if_neg hpair]
      exact List.forall_mem_cons.mpr ⟨high.isLt.trans (by decide), ih⟩

theorem unescape_shortEscape {point letter : Nat} (hletter : shortEscape point = some letter) :
    letter < 65536 ∧ letter ≠ 0x75 ∧ unescape letter = some point := by
  unfold shortEscape at hletter
  split_ifs at hletter with h h h h h h h <;> cases hletter <;> subst h <;> decide

theorem readString_plain {unit : CodeUnit} (hquote : unit.val ≠ 0x22) (hcontrol : 0x20 ≤ unit.val)
    (hbackslash : unit.val ≠ 0x5C) (rest : UnitText) :
    readString (unit :: rest) = (readString rest).map fun read => (unit :: read.1, read.2) := by
  rw [readString.eq_def]
  dsimp only
  rw [if_neg hquote, if_neg (by omega), if_neg hbackslash]

theorem readString_quotePoint {point : Nat} (hlt : point < 0x110000) (rest : UnitText) :
    readString (quotePoint point ++ rest)
      = (readString rest).map fun read => (unitsOf point ++ read.1, read.2) := by
  unfold quotePoint
  split
  · next letter hletter =>
      obtain ⟨hbound, hne, hpoint⟩ := unescape_shortEscape hletter
      have hsmall : point < 0x10000 := by
        unfold shortEscape at hletter
        split_ifs at hletter <;> omega
      simp only [List.cons_append, List.nil_append]
      rw [readString.eq_def]
      dsimp only
      rw [val_codeUnit (by decide), if_neg (by decide), if_neg (by decide), if_pos rfl, val_codeUnit hbound,
        if_neg hne, hpoint]
      dsimp only
      rw [unitsOf, if_pos hsmall]
      rfl
  · next hnone =>
      split
      · next hescaped =>
          have hsmall : point < 0x10000 := by
            unfold IsSurrogate at hescaped
            omega
          simp only [List.cons_append, List.nil_append]
          rw [readString.eq_def]
          dsimp only
          rw [val_codeUnit (by decide), if_neg (by decide), if_neg (by decide), if_pos rfl, val_codeUnit (by decide),
            if_pos rfl, hexValue_hexDigit (by omega), hexValue_hexDigit (by omega), hexValue_hexDigit (by omega),
            hexValue_hexDigit (by omega)]
          dsimp only
          rw [unitsOf, if_pos hsmall, show point / 0x1000 * 0x1000 + point / 0x100 % 0x10 * 0x100
            + point / 0x10 % 0x10 * 0x10 + point % 0x10 = point by omega]
          rfl
      · next hplain =>
          have hneither : point ≠ 0x22 ∧ point ≠ 0x5C := by
            refine ⟨?_, ?_⟩ <;> rintro rfl <;> cases hnone
          rw [not_or] at hplain
          unfold unitsOf
          split
          · next hsmall =>
              rw [List.cons_append, readString_plain] <;>
                first | (rw [val_codeUnit hsmall]; omega) | rfl
          · next hlarge =>
              have hhigh := val_codeUnit (show 0xD800 + (point - 0x10000) / 0x400 < 65536 by omega)
              have hlow := val_codeUnit (show 0xDC00 + (point - 0x10000) % 0x400 < 65536 by omega)
              rw [List.cons_append, readString_plain (by omega) (by omega) (by omega), List.cons_append,
                readString_plain (by omega) (by omega) (by omega), Option.map_map]
              rfl

theorem readString_quoted (text rest : UnitText) :
    readString (text.points.flatMap quotePoint ++ codeUnit 0x22 :: rest) = some (text, rest) := by
  have hpoints (points : List Nat) (hall : ∀ point ∈ points, point < 0x110000) :
      readString (points.flatMap quotePoint ++ codeUnit 0x22 :: rest) = some (points.flatMap unitsOf, rest) := by
    induction points with
    | nil =>
        rw [List.flatMap_nil, List.nil_append, readString.eq_def]
        dsimp only
        rw [if_pos (val_codeUnit (by decide))]
        rfl
    | cons point tail ih =>
        obtain ⟨hpoint, htail⟩ := List.forall_mem_cons.mp hall
        rw [List.flatMap_cons, List.append_assoc, readString_quotePoint hpoint, ih htail]
        rfl
  rw [hpoints _ text.points_lt, flatMap_unitsOf_points]

theorem wellFormed_of_forall {text : UnitText} (hall : ∀ unit ∈ text, ¬ IsSurrogate unit.val) : text.WellFormed := by
  induction text using points.induct with
  | case1 => simp [WellFormed, points]
  | case2 unit => simpa [WellFormed, points] using hall
  | case3 high low rest hpair ih =>
      refine absurd ?_ (hall high List.mem_cons_self)
      exact ⟨hpair.1.1, by have := hpair.1.2; omega⟩
  | case4 high low rest hpair ih =>
      obtain ⟨hhigh, hrest⟩ := List.forall_mem_cons.mp hall
      intro point hpoint
      rw [points, if_neg hpair] at hpoint
      obtain rfl | hpoint := List.mem_cons.mp hpoint
      · exact hhigh
      · exact ih hrest point hpoint

theorem wellFormed_unitsOf {point : Nat} (hlt : point < 0x110000) (hpoint : ¬ IsSurrogate point) :
    (unitsOf point).WellFormed := by
  unfold unitsOf
  split
  · next hsmall =>
      refine wellFormed_of_forall fun unit hunit => ?_
      rwa [List.mem_singleton.mp hunit, val_codeUnit hsmall]
  · next hlarge =>
      have hhigh := val_codeUnit (show 0xD800 + (point - 0x10000) / 0x400 < 65536 by omega)
      have hlow := val_codeUnit (show 0xDC00 + (point - 0x10000) % 0x400 < 65536 by omega)
      have hpair : IsPair (codeUnit (0xD800 + (point - 0x10000) / 0x400))
          (codeUnit (0xDC00 + (point - 0x10000) % 0x400)) := ⟨by omega, by omega⟩
      intro found hfound
      rw [points, if_pos hpair, hhigh, hlow, points, List.mem_singleton] at hfound
      unfold IsSurrogate
      omega

theorem wellFormed_quotePoint {point : Nat} (hlt : point < 0x110000) : (quotePoint point).WellFormed := by
  have hdigit (digit : Nat) (hdigit : digit < 16) : ¬ IsSurrogate (hexDigit digit).val := by
    revert digit
    decide
  unfold quotePoint
  split
  · next letter hletter =>
      obtain ⟨hbound, -, hunescape⟩ := unescape_shortEscape hletter
      have hsmall : letter < 0x80 := by
        unfold unescape at hunescape
        split_ifs at hunescape <;> omega
      refine wellFormed_of_forall fun unit hunit => ?_
      simp only [List.mem_cons, List.not_mem_nil, or_false] at hunit
      obtain rfl | rfl := hunit
      · decide
      · rw [val_codeUnit hbound]
        unfold IsSurrogate
        omega
  · split
    · next hescaped =>
      have hsmall : point < 0x10000 := by
        unfold IsSurrogate at hescaped
        omega
      refine wellFormed_of_forall fun unit hunit => ?_
      simp only [List.mem_cons, List.not_mem_nil, or_false] at hunit
      obtain rfl | rfl | rfl | rfl | rfl | rfl := hunit
      · decide
      · decide
      · exact hdigit _ (by omega)
      · exact hdigit _ (by omega)
      · exact hdigit _ (by omega)
      · exact hdigit _ (by omega)
    · next hplain => exact wellFormed_unitsOf hlt (not_or.mp hplain).2

theorem wellFormed_quote (text : UnitText) : (quote text).WellFormed := by
  have hpoints (points : List Nat) (hall : ∀ point ∈ points, point < 0x110000) :
      WellFormed (points.flatMap quotePoint) := by
    induction points with
    | nil => simp [WellFormed, UnitText.points]
    | cons point tail ih =>
        obtain ⟨hpoint, htail⟩ := List.forall_mem_cons.mp hall
        exact (wellFormed_quotePoint hpoint).append (ih htail)
  have hmark : WellFormed [codeUnit 0x22] := wellFormed_of_forall (by simp [IsSurrogate, codeUnit])
  exact hmark.append ((hpoints _ text.points_lt).append hmark)

end UnitText

/-! ### Values -/

structure NumberText where
  write : Int → UnitText
  read : UnitText → Option Int
  isPart : CodeUnit → Bool
  starts : ∀ n, ∃ first rest, write n = first :: rest
    ∧ (first.val = 0x2D ∨ 0x30 ≤ first.val ∧ first.val ≤ 0x39)
  parts : ∀ n, ∀ unit ∈ write n, isPart unit = true
  narrow : ∀ unit, isPart unit = true → unit.val < 0x80 ∧ unit.val ≠ 0x2C ∧ unit.val ≠ 0x5D ∧ unit.val ≠ 0x7D
  read_write : ∀ n, read (write n) = some n

namespace NumberText

def decimalText (n : Int) : UnitText :=
  if 0 ≤ n then (Nat.toDigits 10 n.toNat).map fun c => codeUnit c.toNat
  else codeUnit 0x2D :: (Nat.toDigits 10 (-n).toNat).map fun c => codeUnit c.toNat

def ofDigitUnits (digits : UnitText) : Nat :=
  Nat.ofDigitChars 10 (digits.map fun unit => Char.ofNat unit.val) 0

def readDecimal : UnitText → Option Int
  | [] => none
  | first :: rest =>
      if first.val = 0x2D then some (-(ofDigitUnits rest : Int)) else some (ofDigitUnits (first :: rest) : Int)

def isDecimalPart (unit : CodeUnit) : Bool := unit.val = 0x2D || (0x30 ≤ unit.val && unit.val ≤ 0x39)

theorem val_digit {c : Char} {n : Nat} (hc : c ∈ Nat.toDigits 10 n) :
    0x30 ≤ c.toNat ∧ c.toNat ≤ 0x39 ∧ (codeUnit c.toNat).val = c.toNat := by
  have hdigit := Nat.isDigit_of_mem_toDigits (by decide) (by decide) hc
  simp only [Char.isDigit, ge_iff_le, Bool.and_eq_true, decide_eq_true_eq, UInt32.le_iff_toNat_le] at hdigit
  obtain ⟨hlow, hhigh⟩ : 0x30 ≤ c.toNat ∧ c.toNat ≤ 0x39 := hdigit
  exact ⟨hlow, hhigh, val_codeUnit (by omega)⟩

theorem ofDigitUnits_toDigits (n : Nat) :
    ofDigitUnits ((Nat.toDigits 10 n).map fun c => codeUnit c.toNat) = n := by
  unfold ofDigitUnits
  rw [List.map_map, List.map_congr_left (g := id), List.map_id]
  · exact Nat.ofDigitChars_toDigits (by decide) (by decide)
  · intro c hc
    rw [Function.comp_apply, (val_digit hc).2.2]
    exact Char.ofNat_toNat c

def decimal : NumberText where
  write := decimalText
  read := readDecimal
  isPart := isDecimalPart
  starts n := by
    unfold decimalText
    split
    · cases hdigits : Nat.toDigits 10 n.toNat with
      | nil => exact absurd hdigits Nat.toDigits_ne_nil
      | cons first rest =>
          have hfirst := val_digit (hdigits ▸ List.mem_cons_self)
          exact ⟨codeUnit first.toNat, _, rfl, .inr (by omega)⟩
    · exact ⟨_, _, rfl, .inl rfl⟩
  parts n := by
    have hdigits (m : Nat) : ∀ unit ∈ (Nat.toDigits 10 m).map (fun c => codeUnit c.toNat), isDecimalPart unit = true := by
      intro unit hunit
      obtain ⟨c, hc, rfl⟩ := List.mem_map.mp hunit
      have hval := val_digit hc
      simp only [isDecimalPart, Bool.or_eq_true, Bool.and_eq_true, decide_eq_true_eq]
      omega
    unfold decimalText
    split
    · exact hdigits _
    · exact List.forall_mem_cons.mpr ⟨rfl, hdigits _⟩
  narrow unit hunit := by
    simp only [isDecimalPart, Bool.or_eq_true, Bool.and_eq_true, decide_eq_true_eq] at hunit
    omega
  read_write n := by
    unfold decimalText
    split
    next hsign =>
      have hread := ofDigitUnits_toDigits n.toNat
      cases hdigits : Nat.toDigits 10 n.toNat with
      | nil => exact absurd hdigits Nat.toDigits_ne_nil
      | cons first rest =>
          have hfirst := val_digit (hdigits ▸ List.mem_cons_self)
          rw [hdigits] at hread
          rw [List.map_cons] at hread ⊢
          rw [readDecimal, if_neg (by omega), hread, Int.toNat_of_nonneg hsign]
    next hsign =>
      rw [readDecimal, if_pos (by decide), ofDigitUnits_toDigits]
      exact congrArg some (by omega)

end NumberText

/-- A value of JSON whose numbers are integers, or what is none. -/
inductive JsonTree where
  | foreign
  | null
  | bool (value : Bool)
  | number (value : Int)
  | text (value : UnitText)
  | array (items : List JsonTree)
  | object (members : List (UnitText × JsonTree))

namespace JsonTree

variable (numbers : NumberText)

def nullText : UnitText := [0x6E, 0x75, 0x6C, 0x6C].map codeUnit

def boolText : Bool → UnitText
  | true => [0x74, 0x72, 0x75, 0x65].map codeUnit
  | false => [0x66, 0x61, 0x6C, 0x73, 0x65].map codeUnit

mutual

def print : JsonTree → UnitText
  | .foreign => []
  | .null => nullText
  | .bool value => boolText value
  | .number value => numbers.write value
  | .text value => UnitText.quote value
  | .array items => codeUnit 0x5B :: printItems items
  | .object members => codeUnit 0x7B :: printMembers members

def printItems : List JsonTree → UnitText
  | [] => [codeUnit 0x5D]
  | [item] => item.print ++ [codeUnit 0x5D]
  | item :: next :: rest => item.print ++ codeUnit 0x2C :: printItems (next :: rest)

def printMembers : List (UnitText × JsonTree) → UnitText
  | [] => [codeUnit 0x7D]
  | [(key, value)] => UnitText.quote key ++ codeUnit 0x3A :: (value.print ++ [codeUnit 0x7D])
  | (key, value) :: next :: rest =>
      UnitText.quote key ++ codeUnit 0x3A :: (value.print ++ codeUnit 0x2C :: printMembers (next :: rest))

end

/-! ### Reading -/

def skipSpace (text : UnitText) : UnitText :=
  text.dropWhile fun unit => unit.val = 0x20 ∨ unit.val = 0x09 ∨ unit.val = 0x0A ∨ unit.val = 0x0D

def setMember (members : List (UnitText × JsonTree)) (entry : UnitText × JsonTree) : List (UnitText × JsonTree) :=
  if members.any (·.1 = entry.1) then members.map fun member => if member.1 = entry.1 then entry else member
  else members ++ [entry]

def readLiteral (text : UnitText) : Option (JsonTree × UnitText) :=
  if nullText.isPrefixOf text then some (.null, text.drop 4)
  else if (boolText true).isPrefixOf text then some (.bool true, text.drop 4)
  else if (boolText false).isPrefixOf text then some (.bool false, text.drop 5)
  else (numbers.read (text.takeWhile numbers.isPart)).map fun n => (.number n, text.dropWhile numbers.isPart)

mutual

def readValue : Nat → UnitText → Option (JsonTree × UnitText)
  | 0, _ => none
  | fuel + 1, input =>
      match skipSpace input with
      | [] => none
      | mark :: rest =>
          if mark.val = 0x22 then (UnitText.readString rest).map fun read => (.text read.1, read.2)
          else if mark.val = 0x5B then
            match skipSpace rest with
            | [] => none
            | next :: after =>
                if next.val = 0x5D then some (.array [], after)
                else (readItems fuel rest).map fun read => (.array read.1, read.2)
          else if mark.val = 0x7B then
            match skipSpace rest with
            | [] => none
            | next :: after =>
                if next.val = 0x7D then some (.object [], after)
                else (readMembers fuel rest).map fun read => (.object (read.1.foldl setMember []), read.2)
          else readLiteral numbers (mark :: rest)

def readItems : Nat → UnitText → Option (List JsonTree × UnitText)
  | 0, _ => none
  | fuel + 1, input =>
      match readValue fuel input with
      | none => none
      | some (item, rest) =>
          match skipSpace rest with
          | [] => none
          | mark :: rest =>
              if mark.val = 0x2C then (readItems fuel rest).map fun read => (item :: read.1, read.2)
              else if mark.val = 0x5D then some ([item], rest)
              else none

def readMembers : Nat → UnitText → Option (List (UnitText × JsonTree) × UnitText)
  | 0, _ => none
  | fuel + 1, input =>
      match skipSpace input with
      | [] => none
      | quote :: rest =>
          if quote.val ≠ 0x22 then none
          else
            match UnitText.readString rest with
            | none => none
            | some (key, rest) =>
                match skipSpace rest with
                | [] => none
                | colon :: rest =>
                    if colon.val ≠ 0x3A then none
                    else
                      match readValue fuel rest with
                      | none => none
                      | some (value, rest) =>
                          match skipSpace rest with
                          | [] => none
                          | mark :: rest =>
                              if mark.val = 0x2C then
                                (readMembers fuel rest).map fun read => ((key, value) :: read.1, read.2)
                              else if mark.val = 0x7D then some ([(key, value)], rest)
                              else none

end

def parse (input : UnitText) : Option JsonTree :=
  match readValue numbers (2 * input.length + 2) input with
  | some (value, rest) => if skipSpace rest = [] then some value else none
  | none => none

/-! ### What is written is read back -/

mutual

def Proper (foreign : Prop) : JsonTree → Prop
  | .foreign => foreign
  | .null => True
  | .bool _ => True
  | .number _ => True
  | .text _ => True
  | .array items => ProperItems foreign items
  | .object members => (members.map Prod.fst).Nodup ∧ ProperMembers foreign members

def ProperItems (foreign : Prop) : List JsonTree → Prop
  | [] => True
  | item :: rest => item.Proper foreign ∧ ProperItems foreign rest

def ProperMembers (foreign : Prop) : List (UnitText × JsonTree) → Prop
  | [] => True
  | (_, value) :: rest => value.Proper foreign ∧ ProperMembers foreign rest

end

abbrev Plain (value : JsonTree) : Prop := value.Proper False

theorem foldl_setMember {members : List (UnitText × JsonTree)} (hnodup : (members.map Prod.fst).Nodup)
    (before : List (UnitText × JsonTree)) (hnew : ∀ entry ∈ before, entry.1 ∉ members.map Prod.fst) :
    members.foldl setMember before = before ++ members := by
  induction members generalizing before with
  | nil => simp
  | cons entry rest ih =>
      obtain ⟨hentry, hrest⟩ := List.nodup_cons.mp hnodup
      have hset : setMember before entry = before ++ [entry] := by
        refine if_neg fun hany => ?_
        obtain ⟨other, hother, heq⟩ := List.any_eq_true.mp hany
        exact hnew other hother (by simp [of_decide_eq_true heq])
      rw [List.foldl_cons, hset, ih hrest, List.append_assoc]
      · rfl
      · intro other hother
        obtain hold | hlast := List.mem_append.mp hother
        · exact fun hmem => hnew other hold (List.mem_cons_of_mem _ hmem)
        · rwa [List.mem_singleton.mp hlast]

def Stops (input : UnitText) : Prop :=
  ∀ unit rest, input = unit :: rest → numbers.isPart unit = false

theorem skipSpace_cons {mark : CodeUnit} (hmark : mark.val ≠ 0x20 ∧ mark.val ≠ 0x09 ∧ mark.val ≠ 0x0A ∧ mark.val ≠ 0x0D)
    (rest : UnitText) : skipSpace (mark :: rest) = mark :: rest :=
  List.dropWhile_cons_of_neg (by simpa using hmark)

theorem takeWhile_parts {run rest : UnitText} (hrun : ∀ unit ∈ run, numbers.isPart unit = true)
    (hrest : Stops numbers rest) :
    (run ++ rest).takeWhile numbers.isPart = run ∧ (run ++ rest).dropWhile numbers.isPart = rest := by
  have hnone : rest.takeWhile numbers.isPart = [] ∧ rest.dropWhile numbers.isPart = rest := by
    cases rest with
    | nil => exact ⟨rfl, rfl⟩
    | cons unit tail =>
        have hunit := hrest unit tail rfl
        exact ⟨List.takeWhile_cons_of_neg (by simp [hunit]), List.dropWhile_cons_of_neg (by simp [hunit])⟩
  rw [List.takeWhile_append_of_pos hrun, List.dropWhile_append_of_pos hrun, hnone.1, hnone.2, List.append_nil]
  exact ⟨rfl, rfl⟩

theorem readLiteral_number (n : Int) {rest : UnitText} (hrest : Stops numbers rest) :
    readLiteral numbers (numbers.write n ++ rest) = some (.number n, rest) := by
  obtain ⟨first, tail, hwrite, hfirst⟩ := numbers.starts n
  have hhead (letter : Nat) (hletter : 0x61 ≤ letter ∧ letter < 0x80) : codeUnit letter ≠ first := by
    intro heq
    have hval := val_codeUnit (show letter < 65536 by omega)
    rw [heq] at hval
    omega
  obtain ⟨htake, hdrop⟩ := takeWhile_parts numbers (numbers.parts n) hrest
  unfold readLiteral
  rw [htake, hdrop, numbers.read_write, hwrite]
  simp [nullText, boolText, hhead]

structure Starts (input : UnitText) (mark : CodeUnit) (tail : UnitText) : Prop where
  eq : input = mark :: tail
  blank : mark.val ≠ 0x20 ∧ mark.val ≠ 0x09 ∧ mark.val ≠ 0x0A ∧ mark.val ≠ 0x0D
  close : mark.val ≠ 0x5D ∧ mark.val ≠ 0x7D

theorem exists_starts {value : JsonTree} (hplain : value.Plain) :
    ∃ mark tail, Starts (value.print numbers) mark tail := by
  cases value with
  | foreign => exact hplain.elim
  | null => exact ⟨_, _, by rw [print]; rfl, by decide, by decide⟩
  | bool value => cases value <;> exact ⟨_, _, by rw [print]; rfl, by decide, by decide⟩
  | number n =>
      obtain ⟨first, tail, hwrite, hfirst⟩ := numbers.starts n
      exact ⟨first, tail, by rw [print, hwrite], by omega, by omega⟩
  | text value => exact ⟨_, _, by rw [print]; rfl, by decide, by decide⟩
  | array items => exact ⟨_, _, by rw [print], by decide, by decide⟩
  | object members => exact ⟨_, _, by rw [print], by decide, by decide⟩

theorem readValue_literal {value : JsonTree} {input rest : UnitText} {mark : CodeUnit} {tail : UnitText}
    (hstarts : Starts input mark tail) (hmark : mark.val ≠ 0x22 ∧ mark.val ≠ 0x5B ∧ mark.val ≠ 0x7B)
    (hread : readLiteral numbers (input ++ rest) = some (value, rest)) {fuel : Nat} (hfuel : 0 < fuel) :
    readValue numbers fuel (input ++ rest) = some (value, rest) := by
  obtain ⟨fuel, rfl⟩ := Nat.exists_eq_succ_of_ne_zero hfuel.ne'
  obtain ⟨rfl, hblank, -⟩ := hstarts
  rw [readValue, List.cons_append, skipSpace_cons hblank]
  dsimp only
  rw [if_neg hmark.1, if_neg hmark.2.1, if_neg hmark.2.2]
  exact hread

theorem stops_mark (mark : CodeUnit) (hmark : mark.val = 0x2C ∨ mark.val = 0x5D ∨ mark.val = 0x7D) (rest : UnitText) :
    Stops numbers (mark :: rest) := by
  rintro unit tail heq
  obtain ⟨rfl, rfl⟩ := List.cons.inj heq
  refine Bool.eq_false_iff.mpr fun hpart => ?_
  have := numbers.narrow mark hpart
  omega

theorem readLiteral_atom {value : JsonTree} (hatom : value = .null ∨ ∃ truth, value = .bool truth)
    (rest : UnitText) : readLiteral numbers (value.print numbers ++ rest) = some (value, rest) := by
  obtain rfl | ⟨truth, rfl⟩ := hatom
  · rfl
  · cases truth <;> rfl

theorem length_quote (key : UnitText) : 2 ≤ (UnitText.quote key).length := by
  simp [UnitText.quote]

mutual

/-- A written value is read back, whatever follows it. -/
theorem readValue_print (value : JsonTree) (hplain : value.Plain) {rest : UnitText} (hrest : Stops numbers rest)
    {fuel : Nat} (hfuel : 2 * (value.print numbers).length ≤ fuel) :
    readValue numbers fuel (value.print numbers ++ rest) = some (value, rest) := by
  obtain ⟨mark, tail, hstarts⟩ := exists_starts numbers hplain
  have hlength : 0 < (value.print numbers).length := by rw [hstarts.eq]; exact Nat.succ_pos _
  match value with
  | .foreign => exact hplain.elim
  | .null =>
      refine readValue_literal numbers ⟨rfl, by decide, by decide⟩ (by decide) ?_ (by omega)
      exact readLiteral_atom numbers (.inl rfl) rest
  | .bool truth =>
      have hread := readLiteral_atom numbers (.inr ⟨truth, rfl⟩) rest
      cases truth <;> exact readValue_literal numbers ⟨rfl, by decide, by decide⟩ (by decide) hread (by omega)
  | .number n =>
      obtain ⟨first, digits, hwrite, hfirst⟩ := numbers.starts n
      refine readValue_literal numbers ⟨by rw [print, hwrite], by omega, by omega⟩ (by omega) ?_ (by omega)
      rw [print]
      exact readLiteral_number numbers n hrest
  | .text quoted =>
      obtain ⟨fuel, rfl⟩ := Nat.exists_eq_succ_of_ne_zero (show fuel ≠ 0 by omega)
      rw [print, UnitText.quote, List.cons_append, readValue, skipSpace_cons (by decide)]
      dsimp only
      rw [if_pos (by decide), List.append_assoc, List.cons_append, List.nil_append, UnitText.readString_quoted]
      rfl
  | .array items =>
      obtain ⟨fuel, rfl⟩ := Nat.exists_eq_succ_of_ne_zero (show fuel ≠ 0 by omega)
      rw [print, List.cons_append, readValue, skipSpace_cons (by decide)]
      dsimp only
      rw [if_neg (by decide), if_pos (by decide)]
      rw [print, List.length_cons] at hfuel
      match items with
      | [] =>
          rw [printItems, List.cons_append, skipSpace_cons (by decide)]
          dsimp only
          rw [if_pos (by decide)]
          rfl
      | item :: items =>
          obtain ⟨first, others, hfirst⟩ := exists_starts numbers hplain.1
          have hbegins : ∃ tail, printItems numbers (item :: items) ++ rest = first :: tail := by
            cases items <;> rw [printItems, hfirst.eq] <;> exact ⟨_, rfl⟩
          obtain ⟨tail, htail⟩ := hbegins
          rw [readItems_print (item :: items) hplain (List.cons_ne_nil _ _) rest (by omega), htail,
            skipSpace_cons hfirst.blank]
          dsimp only
          rw [if_neg hfirst.close.1]
          rfl
  | .object members =>
      obtain ⟨fuel, rfl⟩ := Nat.exists_eq_succ_of_ne_zero (show fuel ≠ 0 by omega)
      rw [print, List.cons_append, readValue, skipSpace_cons (by decide)]
      dsimp only
      rw [if_neg (by decide), if_neg (by decide), if_pos (by decide)]
      rw [print, List.length_cons] at hfuel
      match members with
      | [] =>
          rw [printMembers, List.cons_append, skipSpace_cons (by decide)]
          dsimp only
          rw [if_pos (by decide)]
          rfl
      | (key, value) :: members =>
          have hbegins : ∃ tail, printMembers numbers ((key, value) :: members) ++ rest = codeUnit 0x22 :: tail := by
            cases members <;> rw [printMembers, UnitText.quote] <;> exact ⟨_, rfl⟩
          obtain ⟨tail, htail⟩ := hbegins
          rw [readMembers_print ((key, value) :: members) hplain.2 (List.cons_ne_nil _ _) rest (by omega), htail,
            skipSpace_cons (by decide)]
          dsimp only
          rw [if_neg (by decide), Option.map_some, foldl_setMember hplain.1 [] (by simp), List.nil_append]

theorem readItems_print (items : List JsonTree) (hplain : ProperItems False items) (hne : items ≠ []) (rest : UnitText)
    {fuel : Nat} (hfuel : 2 * (printItems numbers items).length ≤ fuel) :
    readItems numbers fuel (printItems numbers items ++ rest) = some (items, rest) := by
  match items with
  | [] => exact absurd rfl hne
  | [item] =>
      rw [printItems, List.length_append, List.length_singleton] at hfuel
      obtain ⟨fuel, rfl⟩ := Nat.exists_eq_succ_of_ne_zero (show fuel ≠ 0 by omega)
      have hread := readValue_print item hplain.1 (stops_mark numbers (codeUnit 0x5D) (by decide) rest)
        (show _ ≤ fuel by omega)
      rw [readItems, printItems, List.append_assoc, List.cons_append, List.nil_append, hread]
      dsimp only
      rw [skipSpace_cons (by decide)]
      dsimp only
      rw [if_neg (by decide), if_pos (by decide)]
  | item :: next :: more =>
      rw [printItems, List.length_append, List.length_cons] at hfuel
      obtain ⟨fuel, rfl⟩ := Nat.exists_eq_succ_of_ne_zero (show fuel ≠ 0 by omega)
      have hread := readValue_print item hplain.1 (stops_mark numbers (codeUnit 0x2C) (by decide)
        (printItems numbers (next :: more) ++ rest)) (show _ ≤ fuel by omega)
      rw [readItems, printItems, List.append_assoc, List.cons_append, hread]
      dsimp only
      rw [skipSpace_cons (by decide)]
      dsimp only
      rw [if_pos (by decide),
        readItems_print (next :: more) hplain.2 (List.cons_ne_nil _ _) rest (by omega)]
      rfl

theorem readMembers_print (members : List (UnitText × JsonTree)) (hplain : ProperMembers False members) (hne : members ≠ [])
    (rest : UnitText) {fuel : Nat} (hfuel : 2 * (printMembers numbers members).length ≤ fuel) :
    readMembers numbers fuel (printMembers numbers members ++ rest) = some (members, rest) := by
  have hkey (key tail : UnitText) (hfuel : 0 < fuel) :
      readMembers numbers fuel (UnitText.quote key ++ codeUnit 0x3A :: tail) = match readValue numbers (fuel - 1) tail with
        | none => none
        | some (value, rest) =>
            match skipSpace rest with
            | [] => none
            | mark :: rest =>
                if mark.val = 0x2C then
                  (readMembers numbers (fuel - 1) rest).map fun read => ((key, value) :: read.1, read.2)
                else if mark.val = 0x7D then some ([(key, value)], rest)
                else none := by
    obtain ⟨fuel, rfl⟩ := Nat.exists_eq_succ_of_ne_zero hfuel.ne'
    rw [UnitText.quote, List.cons_append, readMembers, skipSpace_cons (by decide)]
    dsimp only
    rw [if_neg (by decide), List.append_assoc, List.cons_append, List.nil_append, UnitText.readString_quoted]
    dsimp only
    rw [skipSpace_cons (by decide)]
    dsimp only
    rw [if_neg (by decide)]
    rfl
  match members with
  | [] => exact absurd rfl hne
  | [(key, value)] =>
      rw [printMembers, List.length_append, List.length_cons, List.length_append, List.length_singleton] at hfuel
      have hread := readValue_print value hplain.1 (stops_mark numbers (codeUnit 0x7D) (by decide) rest)
        (show _ ≤ fuel - 1 by omega)
      rw [printMembers, List.append_assoc, List.cons_append, List.append_assoc, List.cons_append, List.nil_append,
        hkey _ _ (by omega), hread]
      dsimp only
      rw [skipSpace_cons (by decide)]
      dsimp only
      rw [if_neg (by decide), if_pos (by decide)]
  | (key, value) :: next :: more =>
      have hquote := length_quote key
      rw [printMembers, List.length_append, List.length_cons, List.length_append, List.length_cons] at hfuel
      have hread := readValue_print value hplain.1 (stops_mark numbers (codeUnit 0x2C) (by decide)
        (printMembers numbers (next :: more) ++ rest)) (show _ ≤ fuel - 1 by omega)
      rw [printMembers, List.append_assoc, List.cons_append, List.append_assoc, List.cons_append,
        hkey _ _ (by omega), hread]
      dsimp only
      rw [skipSpace_cons (by decide)]
      dsimp only
      rw [if_pos (by decide),
        readMembers_print (next :: more) hplain.2 (List.cons_ne_nil _ _) rest (by omega)]
      rfl

end

theorem parse_print {value : JsonTree} (hplain : value.Plain) :
    parse numbers (value.print numbers) = some value := by
  have hread := readValue_print numbers value hplain (show Stops numbers [] by rintro unit rest ⟨⟩)
    (show _ ≤ 2 * (value.print numbers).length + 2 by omega)
  rw [List.append_nil] at hread
  unfold parse
  rw [hread]
  rfl

theorem wellFormed_ascii {text : UnitText} (hall : ∀ unit ∈ text, unit.val < 0x80) : text.WellFormed := by
  refine UnitText.wellFormed_of_forall fun unit hunit => ?_
  have := hall unit hunit
  unfold UnitText.IsSurrogate
  omega

theorem wellFormed_units {values : List Nat} (hall : ∀ value ∈ values, value < 0x80) :
    UnitText.WellFormed (values.map codeUnit) := by
  refine wellFormed_ascii fun unit hunit => ?_
  obtain ⟨value, hvalue, rfl⟩ := List.mem_map.mp hunit
  rw [val_codeUnit ((hall value hvalue).trans (by decide))]
  exact hall value hvalue

theorem wellFormed_codeUnit {value : Nat} (hlt : value < 0x80) : UnitText.WellFormed [codeUnit value] :=
  wellFormed_units (List.forall_mem_singleton.mpr hlt)

mutual

theorem wellFormed_print (value : JsonTree) : (value.print numbers).WellFormed := by
  match value with
  | .foreign => exact wellFormed_ascii (by simp [print])
  | .null => exact wellFormed_units (by decide)
  | .bool true => exact wellFormed_units (by decide)
  | .bool false => exact wellFormed_units (by decide)
  | .number n =>
      exact wellFormed_ascii fun unit hunit => (numbers.narrow unit (numbers.parts n unit hunit)).1
  | .text quoted => exact UnitText.wellFormed_quote quoted
  | .array items => exact (wellFormed_codeUnit (by decide)).append (wellFormed_printItems items)
  | .object members => exact (wellFormed_codeUnit (by decide)).append (wellFormed_printMembers members)

theorem wellFormed_printItems (items : List JsonTree) : (printItems numbers items).WellFormed := by
  match items with
  | [] => exact wellFormed_codeUnit (by decide)
  | [item] => exact (wellFormed_print item).append (wellFormed_codeUnit (by decide))
  | item :: next :: rest =>
      exact (wellFormed_print item).append
        ((wellFormed_codeUnit (by decide)).append (wellFormed_printItems (next :: rest)))

theorem wellFormed_printMembers (members : List (UnitText × JsonTree)) :
    (printMembers numbers members).WellFormed := by
  match members with
  | [] => exact wellFormed_codeUnit (by decide)
  | [(key, value)] =>
      exact (UnitText.wellFormed_quote key).append ((wellFormed_codeUnit (by decide)).append
        ((wellFormed_print value).append (wellFormed_codeUnit (by decide))))
  | (key, value) :: next :: rest =>
      exact (UnitText.wellFormed_quote key).append ((wellFormed_codeUnit (by decide)).append
        ((wellFormed_print value).append ((wellFormed_codeUnit (by decide)).append
          (wellFormed_printMembers (next :: rest)))))

end

/-! ### The order of keys -/

def byKey (members : List (UnitText × JsonTree)) : List (UnitText × JsonTree) :=
  members.insertionSort fun left right => left.1 ≤ right.1

theorem perm_byKey (members : List (UnitText × JsonTree)) : (byKey members).Perm members :=
  List.perm_insertionSort _ members

theorem pairwise_byKey (members : List (UnitText × JsonTree)) :
    (byKey members).Pairwise fun left right => left.1 ≤ right.1 := by
  have htotal : Std.Total fun left right : UnitText × JsonTree => left.1 ≤ right.1 := ⟨fun _ _ => le_total _ _⟩
  have htrans : IsTrans (UnitText × JsonTree) fun left right => left.1 ≤ right.1 := ⟨fun _ _ _ => le_trans⟩
  exact List.pairwise_insertionSort _ members

theorem byKey_eq_self {members : List (UnitText × JsonTree)}
    (hsorted : members.Pairwise fun left right => left.1 ≤ right.1) : byKey members = members :=
  hsorted.insertionSort_eq

mutual

/-- The value with the members of all its objects in the order of their keys. -/
def sorted : JsonTree → JsonTree
  | .foreign => .foreign
  | .null => .null
  | .bool value => .bool value
  | .number value => .number value
  | .text value => .text value
  | .array items => .array (sortedItems items)
  | .object members => .object (byKey (sortedMembers members))

def sortedItems : List JsonTree → List JsonTree
  | [] => []
  | item :: rest => item.sorted :: sortedItems rest

def sortedMembers : List (UnitText × JsonTree) → List (UnitText × JsonTree)
  | [] => []
  | (key, value) :: rest => (key, value.sorted) :: sortedMembers rest

end

def SameUpToKeyOrder (left right : JsonTree) : Prop := left.sorted = right.sorted

theorem sortedMembers_eq (members : List (UnitText × JsonTree)) :
    sortedMembers members = members.map fun entry => (entry.1, entry.2.sorted) := by
  induction members with
  | nil => rfl
  | cons entry rest ih => rw [sortedMembers, ih, List.map_cons]

theorem map_fst_sortedMembers (members : List (UnitText × JsonTree)) :
    (sortedMembers members).map Prod.fst = members.map Prod.fst := by
  rw [sortedMembers_eq, List.map_map]
  rfl

theorem sameUpToKeyOrder_of_perm {left right : List (UnitText × JsonTree)} (hperm : left.Perm right)
    (hnodup : (left.map Prod.fst).Nodup) : SameUpToKeyOrder (.object left) (.object right) := by
  have hsame : (sortedMembers left).Perm (sortedMembers right) := by
    rw [sortedMembers_eq, sortedMembers_eq]
    exact hperm.map _
  unfold SameUpToKeyOrder
  rw [sorted, sorted]
  refine congrArg JsonTree.object (List.Perm.eq_of_pairwise (fun a b ha hb hab hba => ?_) (pairwise_byKey _)
    (pairwise_byKey _) ((perm_byKey _).trans (hsame.trans (perm_byKey _).symm)))
  have hkeys : ((sortedMembers left).map Prod.fst).Nodup := by rwa [map_fst_sortedMembers]
  refine List.inj_on_of_nodup_map hkeys ((perm_byKey _).mem_iff.mp ha) ?_ (le_antisymm hab hba)
  exact hsame.symm.mem_iff.mp ((perm_byKey _).mem_iff.mp hb)

variable {foreign : Prop}

theorem properMembers_iff {members : List (UnitText × JsonTree)} :
    ProperMembers foreign members ↔ ∀ entry ∈ members, entry.2.Proper foreign := by
  induction members with
  | nil => simp [ProperMembers]
  | cons entry rest ih => rw [ProperMembers, ih, List.forall_mem_cons]

theorem proper_object_byKey {members : List (UnitText × JsonTree)} :
    Proper foreign (.object (byKey members)) ↔ Proper foreign (.object members) := by
  rw [Proper, Proper, properMembers_iff, properMembers_iff, ((perm_byKey members).map _).nodup_iff]
  exact and_congr_right fun _ => forall_congr' fun entry => by rw [(perm_byKey members).mem_iff]

mutual

theorem proper_sorted (value : JsonTree) : value.sorted.Proper foreign ↔ value.Proper foreign := by
  match value with
  | .foreign => rfl
  | .null => rfl
  | .bool _ => rfl
  | .number _ => rfl
  | .text _ => rfl
  | .array items => exact properItems_sorted items
  | .object members =>
      rw [sorted, proper_object_byKey, Proper, Proper, map_fst_sortedMembers, properMembers_sorted members]

theorem properItems_sorted (items : List JsonTree) :
    ProperItems foreign (sortedItems items) ↔ ProperItems foreign items := by
  match items with
  | [] => rfl
  | item :: rest => exact and_congr (proper_sorted item) (properItems_sorted rest)

theorem properMembers_sorted (members : List (UnitText × JsonTree)) :
    ProperMembers foreign (sortedMembers members) ↔ ProperMembers foreign members := by
  match members with
  | [] => rfl
  | (_, value) :: rest => exact and_congr (proper_sorted value) (properMembers_sorted rest)

end

mutual

theorem sorted_sorted (value : JsonTree) : value.sorted.sorted = value.sorted := by
  match value with
  | .foreign => rfl
  | .null => rfl
  | .bool _ => rfl
  | .number _ => rfl
  | .text _ => rfl
  | .array items => exact congrArg JsonTree.array (sortedItems_sorted items)
  | .object members =>
      have hmembers : sortedMembers (byKey (sortedMembers members)) = byKey (sortedMembers members) := by
        have hself : ∀ entry ∈ byKey (sortedMembers members), (entry.1, entry.2.sorted) = entry :=
          fun entry hentry => Prod.ext rfl (sortedMembers_sorted members entry ((perm_byKey _).mem_iff.mp hentry))
        rw [sortedMembers_eq (byKey _)]
        exact (List.map_congr_left hself).trans (List.map_id _)
      rw [sorted, sorted, hmembers, byKey_eq_self (pairwise_byKey _)]

theorem sortedItems_sorted (items : List JsonTree) : sortedItems (sortedItems items) = sortedItems items := by
  match items with
  | [] => rfl
  | item :: rest => exact congrArg₂ List.cons (sorted_sorted item) (sortedItems_sorted rest)

theorem sortedMembers_sorted (members : List (UnitText × JsonTree)) :
    ∀ entry ∈ sortedMembers members, entry.2.sorted = entry.2 := by
  match members with
  | [] => simp [sortedMembers]
  | (_, value) :: rest => exact List.forall_mem_cons.mpr ⟨sorted_sorted value, sortedMembers_sorted rest⟩

end

end JsonTree

end Deckent
