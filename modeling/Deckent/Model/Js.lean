import Mathlib.Data.Rat.Floor
import Deckent.Lib.StableSort

/-!
# JavaScript numbers and strings

The source is TypeScript, and some of its branches turn on what its runtime does with numbers that are
not integers and with empty strings. A number is a rational (every finite double is one) or one of the
three values that are not finite; a comparison with `NaN` is false. An object member that may be absent
is an `Option`, and the tests `if (id)` and `id ?? fallback` on it are `truthy` and `Option.getD`.

Strings are compared as the language compares them, by UTF-16 code units. Normalisation to NFC and
lower-casing depend on the Unicode tables, so they are parameters wherever they occur.
-/

namespace Deckent

inductive JsNumber where
  | finite (value : ℚ)
  | posInf
  | negInf
  | nan
  deriving DecidableEq

namespace JsNumber

instance (n : Nat) : OfNat JsNumber n := ⟨finite n⟩

/-- `left < right`. -/
def lt : JsNumber → JsNumber → Bool
  | nan, _ => false
  | _, nan => false
  | finite left, finite right => decide (left < right)
  | negInf, negInf => false
  | negInf, _ => true
  | _, negInf => false
  | posInf, _ => false
  | finite _, posInf => true

/-- `left <= right`. -/
def le : JsNumber → JsNumber → Bool
  | nan, _ => false
  | _, nan => false
  | left, right => !lt right left

/-- `value - 1`. -/
def pred : JsNumber → JsNumber
  | finite value => finite (value - 1)
  | other => other

/-- `Number.isSafeInteger(value)`. -/
def isSafeInteger : JsNumber → Bool
  | finite value => value.den = 1 ∧ value.num.natAbs < 2 ^ 53
  | _ => false

def toSafeInteger? : JsNumber → Option Int
  | finite value => if (finite value).isSafeInteger then some value.num else none
  | _ => none

def isPositiveSafeInteger (value : JsNumber) : Bool := value.isSafeInteger && lt 0 value

def toPositive? : JsNumber → Option Nat
  | finite value => if (finite value).isPositiveSafeInteger then some value.num.toNat else none
  | _ => none

theorem toSafeInteger?_eq_some {value : JsNumber} {n : Int} :
    value.toSafeInteger? = some n ↔ value = finite n ∧ n.natAbs < 2 ^ 53 := by
  cases value with
  | finite value =>
      simp only [toSafeInteger?, isSafeInteger, Option.ite_none_right_eq_some, decide_eq_true_eq,
        Option.some.injEq, finite.injEq]
      constructor
      · rintro ⟨⟨hden, hnum⟩, rfl⟩
        exact ⟨(Rat.den_eq_one_iff value).mp hden |>.symm, hnum⟩
      · rintro ⟨rfl, hnum⟩
        exact ⟨⟨Rat.den_intCast n, by simpa using hnum⟩, Rat.num_intCast n⟩
  | posInf => simp [toSafeInteger?]
  | negInf => simp [toSafeInteger?]
  | nan => simp [toSafeInteger?]

theorem lt_iterate_pred (count : Nat) (value : JsNumber) :
    lt 0 (pred^[count] value) = lt (finite count) value := by
  have hzero : (0 : JsNumber) = finite 0 := congrArg finite Nat.cast_zero
  rw [hzero]
  induction count generalizing value with
  | zero => simp
  | succ count ih =>
      rw [Function.iterate_succ_apply, ih]
      cases value with
      | finite value =>
          simp only [pred, lt, Nat.cast_add, Nat.cast_one, lt_sub_iff_add_lt]
      | posInf => rfl
      | negInf => rfl
      | nan => rfl

theorem lt_of_natCast_le {low high : Nat} (hle : low ≤ high) {value : JsNumber}
    (hhigh : lt (finite high) value = true) : lt (finite low) value = true := by
  cases value with
  | finite value =>
      simp only [lt, decide_eq_true_eq] at hhigh ⊢
      exact lt_of_le_of_lt (Nat.cast_le.mpr hle) hhigh
  | posInf => rfl
  | negInf => exact hhigh
  | nan => exact hhigh

theorem le_zero_iff {value : JsNumber} (hvalue : value ≠ nan) : le value 0 = !lt 0 value := by
  cases value with
  | nan => exact absurd rfl hvalue
  | finite value => rfl
  | posInf => rfl
  | negInf => rfl

end JsNumber

def truthy (value : Option String) : Option String :=
  value.filter fun text => text ≠ ""

@[simp]
theorem truthy_none : truthy none = none := rfl

theorem truthy_eq_some_iff {value : Option String} {text : String} :
    truthy value = some text ↔ value = some text ∧ text ≠ "" := by
  simp [truthy, Option.filter_eq_some_iff]

def utf16Units (c : Char) : List Nat :=
  if c.toNat < 0x10000 then [c.toNat]
  else [0xD800 + (c.toNat - 0x10000) / 0x400, 0xDC00 + (c.toNat - 0x10000) % 0x400]

def utf16 (text : String) : List Nat := text.toList.flatMap utf16Units

def compareCodePoint (a b : String) : Int :=
  if utf16 a < utf16 b then -1 else if utf16 b < utf16 a then 1 else 0

theorem compareCodePoint_nonpos {a b : String} :
    compareCodePoint a b ≤ 0 ↔ ¬ utf16 b < utf16 a := by
  unfold compareCodePoint
  by_cases hlt : utf16 a < utf16 b
  · simp [hlt, List.lt_asymm hlt]
  · by_cases hgt : utf16 b < utf16 a <;> simp [hlt, hgt]

theorem signed_compareCodePoint : SignedComparator compareCodePoint where
  swap a b := by
    unfold compareCodePoint
    by_cases hlt : utf16 a < utf16 b
    · simp [hlt, List.lt_asymm hlt]
    · by_cases hgt : utf16 b < utf16 a <;> simp [hlt, hgt]
  trans a b c hab hbc := by
    rw [compareCodePoint_nonpos] at hab hbc ⊢
    exact List.le_trans hab hbc

theorem utf16Units_append_inj {a b : Char} {left right : List Nat}
    (happend : utf16Units a ++ left = utf16Units b ++ right) : a = b ∧ left = right := by
  have ha : a.toNat < 0xD800 ∨ 0xDFFF < a.toNat ∧ a.toNat < 0x110000 := a.valid
  have hb : b.toNat < 0xD800 ∨ 0xDFFF < b.toNat ∧ b.toNat < 0x110000 := b.valid
  have heq (hnat : a.toNat = b.toNat) : a = b := Char.toNat_inj.mp hnat
  unfold utf16Units at happend
  split at happend <;> split at happend <;>
    simp only [List.cons_append, List.nil_append, List.cons.injEq] at happend
  · exact ⟨heq happend.1, happend.2⟩
  · omega
  · omega
  · exact ⟨heq (by omega), happend.2.2⟩

theorem utf16Units_ne_nil (c : Char) : utf16Units c ≠ [] := by
  unfold utf16Units
  split <;> simp

theorem flatMap_utf16Units_inj {left right : List Char}
    (hunits : left.flatMap utf16Units = right.flatMap utf16Units) : left = right := by
  induction left generalizing right with
  | nil =>
      cases right with
      | nil => rfl
      | cons c rest => exact absurd (List.append_eq_nil_iff.mp hunits.symm).1 (utf16Units_ne_nil c)
  | cons c rest ih =>
      cases right with
      | nil => exact absurd (List.append_eq_nil_iff.mp hunits).1 (utf16Units_ne_nil c)
      | cons d others =>
          obtain ⟨rfl, hrest⟩ := utf16Units_append_inj hunits
          rw [ih hrest]

theorem utf16_injective : Function.Injective utf16 := fun _ _ hunits =>
  String.toList_inj.mp (flatMap_utf16Units_inj hunits)

theorem eq_of_compareCodePoint {a b : String} (hab : compareCodePoint a b ≤ 0)
    (hba : compareCodePoint b a ≤ 0) : a = b := by
  rw [compareCodePoint_nonpos] at hab hba
  exact utf16_injective (List.le_antisymm hab hba)

theorem sortBy_compareCodePoint_of_perm {left right : List String} (hperm : left.Perm right) :
    sortBy compareCodePoint left = sortBy compareCodePoint right :=
  signed_compareCodePoint.consistent.sortBy_eq_of_perm hperm fun _ _ _ _ => eq_of_compareCodePoint

def compareNumber (a b : Nat) : Int := (a : Int) - b

theorem signed_compareNumber : SignedComparator compareNumber where
  swap a b := by simp only [compareNumber]; omega
  trans a b c := by simp only [compareNumber]; omega

/-- The characters `String.prototype.trim` strips: white space and line terminators. -/
def isJsSpace (c : Char) : Bool :=
  (0x09 ≤ c.toNat && c.toNat ≤ 0x0D) || (0x2000 ≤ c.toNat && c.toNat ≤ 0x200A)
    || [0x20, 0xA0, 0x1680, 0x2028, 0x2029, 0x202F, 0x205F, 0x3000, 0xFEFF].contains c.toNat

def trimChars (text : List Char) : List Char :=
  ((text.dropWhile isJsSpace).reverse.dropWhile isJsSpace).reverse

def trim (text : String) : String := String.ofList (trimChars text.toList)

/-- The two string functions that read the Unicode tables. -/
structure UnicodeTables where
  nfc : String → String
  toLowerCase : String → String

end Deckent
