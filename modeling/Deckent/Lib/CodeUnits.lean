import Mathlib.Data.Fin.Basic
import Mathlib.Data.List.Basic

/-!
# Texts of code units and their UTF-8

A text is a list of UTF-16 code units, in which surrogates may stand alone. Its UTF-8 writes a lone surrogate as
the replacement character, so only texts without one can be read back.
-/

namespace Deckent

abbrev CodeUnit := Fin 65536

abbrev UnitText := List CodeUnit

def codeUnit (value : Nat) : CodeUnit := ⟨value % 65536, Nat.mod_lt _ (by decide)⟩

theorem val_codeUnit {value : Nat} (hlt : value < 65536) : (codeUnit value).val = value :=
  Nat.mod_eq_of_lt hlt

namespace UnitText

/-- The units of a text in ASCII. -/
def ofAscii (text : String) : UnitText :=
  (text.toList.map Char.toNat).map codeUnit

def IsSurrogate (point : Nat) : Prop := 0xD800 ≤ point ∧ point < 0xE000

instance (point : Nat) : Decidable (IsSurrogate point) := inferInstanceAs (Decidable (_ ∧ _))

def IsPair (high low : CodeUnit) : Prop :=
  (0xD800 ≤ high.val ∧ high.val < 0xDC00) ∧ 0xDC00 ≤ low.val ∧ low.val < 0xE000

instance (high low : CodeUnit) : Decidable (IsPair high low) := inferInstanceAs (Decidable (_ ∧ _))

/-- The code points, where a lone surrogate is one of its own. -/
def points : UnitText → List Nat
  | [] => []
  | [unit] => [unit.val]
  | high :: low :: rest =>
      if IsPair high low then (0x10000 + (high.val - 0xD800) * 0x400 + (low.val - 0xDC00)) :: points rest
      else high.val :: points (low :: rest)

def unitsOf (point : Nat) : UnitText :=
  if point < 0x10000 then [codeUnit point]
  else [codeUnit (0xD800 + (point - 0x10000) / 0x400), codeUnit (0xDC00 + (point - 0x10000) % 0x400)]

theorem unitsOf_unit (unit : CodeUnit) : unitsOf unit.val = [unit] := by
  unfold unitsOf
  rw [if_pos unit.isLt]
  exact congrArg (fun unit => [unit]) (Fin.ext (val_codeUnit unit.isLt))

theorem unitsOf_pair {high low : CodeUnit} (hpair : IsPair high low) :
    unitsOf (0x10000 + (high.val - 0xD800) * 0x400 + (low.val - 0xDC00)) = [high, low] := by
  obtain ⟨⟨hhigh, hhigh'⟩, hlow, hlow'⟩ := hpair
  unfold unitsOf
  rw [if_neg (by omega)]
  refine congrArg₂ (fun high low => [high, low]) (Fin.ext ?_) (Fin.ext ?_)
  · rw [val_codeUnit (by omega)]
    omega
  · rw [val_codeUnit (by omega)]
    omega

theorem flatMap_unitsOf_points (text : UnitText) : text.points.flatMap unitsOf = text := by
  induction text using points.induct with
  | case1 => rfl
  | case2 unit => simp [points, unitsOf_unit]
  | case3 high low rest hpair ih => simp [points, hpair, unitsOf_pair hpair, ih]
  | case4 high low rest hpair ih => simp [points, hpair, unitsOf_unit, ih]

/-- No surrogate stands alone. -/
def WellFormed (text : UnitText) : Prop := ∀ point ∈ text.points, ¬ IsSurrogate point

theorem WellFormed.points_append {left : UnitText} (hleft : left.WellFormed) (right : UnitText) :
    (left ++ right).points = left.points ++ right.points := by
  induction left using points.induct with
  | case1 => rfl
  | case2 unit =>
      have hunit : ¬ IsSurrogate unit.val := hleft unit.val (by simp [points])
      cases right with
      | nil => rfl
      | cons next rest =>
          have hpair : ¬ IsPair unit next := fun hpair => hunit ⟨hpair.1.1, by have := hpair.1.2; omega⟩
          simp [points, hpair]
  | case3 high low rest hpair ih =>
      have hrest : WellFormed rest := fun point hpoint => hleft point (by simp [points, hpair, hpoint])
      simp [points, hpair, ih hrest]
  | case4 high low rest hpair ih =>
      have hrest : WellFormed (low :: rest) := fun point hpoint => hleft point (by simp [points, hpair, hpoint])
      simpa [points, hpair] using ih hrest

theorem WellFormed.append {left right : UnitText} (hleft : left.WellFormed) (hright : right.WellFormed) :
    (left ++ right).WellFormed := by
  intro point hpoint
  rw [hleft.points_append] at hpoint
  exact (List.mem_append.mp hpoint).elim (hleft point) (hright point)

/-! ### UTF-8 -/

def encodePoint (point : Nat) : List Nat :=
  if IsSurrogate point then [0xEF, 0xBF, 0xBD]
  else if point < 0x80 then [point]
  else if point < 0x800 then [0xC0 + point / 0x40, 0x80 + point % 0x40]
  else if point < 0x10000 then [0xE0 + point / 0x1000, 0x80 + point / 0x40 % 0x40, 0x80 + point % 0x40]
  else [0xF0 + point / 0x40000, 0x80 + point / 0x1000 % 0x40, 0x80 + point / 0x40 % 0x40, 0x80 + point % 0x40]

/-- `Buffer.from(text, 'utf8')`. -/
def utf8 (text : UnitText) : List Nat := text.points.flatMap encodePoint

theorem length_encodePoint_le (point : Nat) : (encodePoint point).length ≤ if point < 0x10000 then 3 else 4 := by
  unfold encodePoint
  split_ifs <;> simp <;> omega

theorem length_utf8_le (text : UnitText) : text.utf8.length ≤ 3 * text.length := by
  unfold utf8
  induction text using points.induct with
  | case1 => exact Nat.zero_le _
  | case2 unit =>
      have hunit := length_encodePoint_le unit.val
      rw [if_pos unit.isLt] at hunit
      simpa [points] using hunit
  | case3 high low rest hpair ih =>
      have hpoint := length_encodePoint_le (0x10000 + (high.val - 0xD800) * 0x400 + (low.val - 0xDC00))
      rw [if_neg (by omega)] at hpoint
      simp only [points, if_pos hpair, List.flatMap_cons, List.length_append, List.length_cons]
      omega
  | case4 high low rest hpair ih =>
      have hhigh := length_encodePoint_le high.val
      rw [if_pos high.isLt] at hhigh
      simp only [points, if_neg hpair, List.flatMap_cons, List.length_append]
      simp only [List.length_cons] at ih ⊢
      omega

theorem points_ascii {text : UnitText} (hall : ∀ unit ∈ text, unit.val < 0x80) :
    text.points = text.map Fin.val := by
  induction text using points.induct with
  | case1 => rfl
  | case2 unit => rfl
  | case3 high low rest hpair ih =>
      have := hall high List.mem_cons_self
      have := hpair.1.1
      omega
  | case4 high low rest hpair ih =>
      rw [points, if_neg hpair, ih (List.forall_mem_cons.mp hall).2]
      rfl

theorem utf8_ascii {text : UnitText} (hall : ∀ unit ∈ text, unit.val < 0x80) : text.utf8 = text.map Fin.val := by
  have hone : ∀ unit ∈ text, encodePoint unit.val = [unit.val] := by
    intro unit hunit
    have hlt := hall unit hunit
    have hpoint : ¬ IsSurrogate unit.val := by
      unfold IsSurrogate
      omega
    unfold encodePoint
    rw [if_neg hpoint, if_pos hlt]
  unfold utf8
  rw [points_ascii hall, List.flatMap_map, List.flatMap_congr hone]
  exact List.flatMap_pure_eq_map Fin.val text

def decodePoints : List Nat → Option (List Nat)
  | [] => some []
  | a :: rest =>
      if a < 0x80 then (decodePoints rest).map (a :: ·)
      else if a < 0xE0 then
        match rest with
        | b :: rest => (decodePoints rest).map (((a - 0xC0) * 0x40 + (b - 0x80)) :: ·)
        | _ => none
      else if a < 0xF0 then
        match rest with
        | b :: c :: rest =>
            (decodePoints rest).map (((a - 0xE0) * 0x1000 + (b - 0x80) * 0x40 + (c - 0x80)) :: ·)
        | _ => none
      else
        match rest with
        | b :: c :: d :: rest => (decodePoints rest).map
            (((a - 0xF0) * 0x40000 + (b - 0x80) * 0x1000 + (c - 0x80) * 0x40 + (d - 0x80)) :: ·)
        | _ => none

def decodeUtf8 (bytes : List Nat) : Option UnitText :=
  (decodePoints bytes).map (·.flatMap unitsOf)

theorem decodePoints_encodePoint {point : Nat} (hpoint : ¬ IsSurrogate point) (bytes : List Nat) :
    decodePoints (encodePoint point ++ bytes) = (decodePoints bytes).map (point :: ·) := by
  unfold encodePoint
  rw [if_neg hpoint]
  split_ifs with hone htwo hthree
  · rw [List.cons_append, List.nil_append, decodePoints.eq_def]
    dsimp only
    rw [if_pos hone]
  · simp only [List.cons_append, List.nil_append]
    rw [decodePoints.eq_def]
    dsimp only
    rw [if_neg (by omega), if_pos (by omega),
      show (0xC0 + point / 0x40 - 0xC0) * 0x40 + (0x80 + point % 0x40 - 0x80) = point by omega]
  · simp only [List.cons_append, List.nil_append]
    rw [decodePoints.eq_def]
    dsimp only
    rw [if_neg (by omega), if_neg (by omega), if_pos (by omega),
      show (0xE0 + point / 0x1000 - 0xE0) * 0x1000 + (0x80 + point / 0x40 % 0x40 - 0x80) * 0x40
        + (0x80 + point % 0x40 - 0x80) = point by omega]
  · simp only [List.cons_append, List.nil_append]
    rw [decodePoints.eq_def]
    dsimp only
    rw [if_neg (by omega), if_neg (by omega), if_neg (by omega),
      show (0xF0 + point / 0x40000 - 0xF0) * 0x40000 + (0x80 + point / 0x1000 % 0x40 - 0x80) * 0x1000
        + (0x80 + point / 0x40 % 0x40 - 0x80) * 0x40 + (0x80 + point % 0x40 - 0x80) = point by omega]

theorem decodeUtf8_utf8 {text : UnitText} (htext : text.WellFormed) : decodeUtf8 text.utf8 = some text := by
  have hpoints (points : List Nat) (hall : ∀ point ∈ points, ¬ IsSurrogate point) :
      decodePoints (points.flatMap encodePoint) = some points := by
    induction points with
    | nil => rfl
    | cons point rest ih =>
        obtain ⟨hpoint, hrest⟩ := List.forall_mem_cons.mp hall
        rw [List.flatMap_cons, decodePoints_encodePoint hpoint, ih hrest]
        rfl
  unfold decodeUtf8 utf8
  rw [hpoints _ htext, Option.map_some, flatMap_unitsOf_points]

end UnitText

end Deckent
