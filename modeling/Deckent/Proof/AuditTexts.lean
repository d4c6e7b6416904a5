import Deckent.Lib.DelimitedText
import Deckent.Model.JsValue

/-!
# What an audit text says
The text that an audit code is computed from and the line that is stored are two encodings of one value.
They agree on it when it has no undefined part and no date. Of stored values the text says everything but
the order of members.
-/

/-! ### Quoted texts

A quoted text closes itself, and what it quotes can be read back from any line that goes on after it. -/

namespace Deckent

def hexValue (digits : List Char) : Nat :=
  digits.foldl (fun value c => 16 * value + if c.isDigit then c.toNat - 48 else c.toNat - 87) 0

def unescapeChar : List Char → Option (Char × List Char)
  | [] => none
  | escaped :: rest =>
      if escaped = 'b' then some (Char.ofNat 0x08, rest)
      else if escaped = 'f' then some (Char.ofNat 0x0C, rest)
      else if escaped = 'n' then some ('\n', rest)
      else if escaped = 'r' then some ('\r', rest)
      else if escaped = 't' then some ('\t', rest)
      else if escaped = 'u' then some (Char.ofNat (hexValue (rest.take 4)), rest.drop 4)
      else some (escaped, rest)

def unquoteChar : List Char → Option (Char × List Char)
  | [] => none
  | c :: rest => if c = '"' then none else if c = '\\' then unescapeChar rest else some (c, rest)

theorem hexValue_hexDigits : ∀ value < 0x20, hexValue (Sha256.hexDigits 4 value) = value := by decide

theorem unquoteChar_quoteJsonChar (c : Char) (rest : List Char) :
    unquoteChar (quoteJsonChar c ++ rest) = some (c, rest) := by
  have hchar {value : Nat} (hvalue : c.toNat = value) : Char.ofNat value = c := by
    rw [← hvalue, Char.ofNat_toNat]
  unfold quoteJsonChar
  split_ifs with hquote hbackslash hbackspace hfeed hnewline hreturn htab hcontrol
  · rw [hquote]; rfl
  · rw [hbackslash]; rfl
  · rw [← hchar hbackspace]; rfl
  · rw [← hchar hfeed]; rfl
  · rw [hnewline]; rfl
  · rw [hreturn]; rfl
  · rw [htab]; rfl
  · have hlength := length_hexDigits 4 c.toNat
    have hvalue := hexValue_hexDigits _ hcontrol
    rw [List.append_assoc]
    change some (Char.ofNat (hexValue ((Sha256.hexDigits 4 c.toNat ++ rest).take 4)),
      (Sha256.hexDigits 4 c.toNat ++ rest).drop 4) = some (c, rest)
    rw [List.take_left' hlength, List.drop_left' hlength, hvalue, Char.ofNat_toNat]
  · rw [List.cons_append, List.nil_append, unquoteChar, if_neg hquote, if_neg hbackslash]

theorem quoteJsonChar_append_inj {left right : Char} {leftRest rightRest : List Char}
    (hsame : quoteJsonChar left ++ leftRest = quoteJsonChar right ++ rightRest) :
    left = right ∧ leftRest = rightRest := by
  have hread := unquoteChar_quoteJsonChar left leftRest
  rw [hsame, unquoteChar_quoteJsonChar] at hread
  obtain ⟨rfl, rfl⟩ := Prod.mk.inj (Option.some.inj hread)
  exact ⟨rfl, rfl⟩

theorem quoteJsonChar_append_ne (c : Char) (rest others : List Char) :
    quoteJsonChar c ++ rest ≠ '"' :: others := by
  intro hsame
  have hread := unquoteChar_quoteJsonChar c rest
  rw [hsame, unquoteChar, if_pos rfl] at hread
  cases hread

theorem toList_quoteJson (text : String) :
    (quoteJson text).toList = '"' :: text.toList.flatMap quoteJsonChar ++ ['"'] := by
  rw [quoteJson, String.toList_ofList, List.singleton_append]

theorem flatMap_quoteJsonChar_inj {left right leftRest rightRest : List Char}
    (hsame : left.flatMap quoteJsonChar ++ '"' :: leftRest =
      right.flatMap quoteJsonChar ++ '"' :: rightRest) : left = right ∧ leftRest = rightRest := by
  induction left generalizing right with
  | nil =>
      cases right with
      | nil => exact ⟨rfl, (List.cons.inj hsame).2⟩
      | cons c right =>
          rw [List.flatMap_cons, List.append_assoc] at hsame
          exact absurd hsame.symm (quoteJsonChar_append_ne c _ _)
  | cons c left ih =>
      rw [List.flatMap_cons, List.append_assoc] at hsame
      cases right with
      | nil => exact absurd hsame (quoteJsonChar_append_ne c _ _)
      | cons d right =>
          rw [List.flatMap_cons, List.append_assoc] at hsame
          obtain ⟨rfl, hrest⟩ := quoteJsonChar_append_inj hsame
          obtain ⟨rfl, rfl⟩ := ih hrest
          exact ⟨rfl, rfl⟩

theorem quoteJson_append_inj {left right : String} {leftRest rightRest : List Char}
    (hsame : (quoteJson left).toList ++ leftRest = (quoteJson right).toList ++ rightRest) :
    left = right ∧ leftRest = rightRest := by
  simp only [toList_quoteJson, List.cons_append, List.append_assoc, List.nil_append, List.cons.injEq,
    true_and] at hsame
  obtain ⟨htext, hrest⟩ := flatMap_quoteJsonChar_inj hsame
  exact ⟨String.toList_inj.mp htext, hrest⟩

theorem quoteJson_injective : Function.Injective quoteJson := by
  intro left right hsame
  have hlists := congrArg (fun text => text.toList ++ []) hsame
  exact (quoteJson_append_inj hlists).1

theorem unread_hexDigits {digits : List Char} (hdigits : digits.all isLowerHexDigit = true) (depth : Nat)
    (rest : List Char) : unread depth .quoted (digits ++ rest) = unread depth .quoted rest := by
  induction digits with
  | nil => rfl
  | cons c digits ih =>
      rw [List.all_cons, Bool.and_eq_true] at hdigits
      have hquote : c ≠ '"' := by rintro rfl; exact absurd hdigits.1 (by decide)
      have hbackslash : c ≠ '\\' := by rintro rfl; exact absurd hdigits.1 (by decide)
      rw [List.cons_append, unread_quoted, if_neg hquote, if_neg hbackslash, ih hdigits.2]

theorem unread_quoteJsonChar (c : Char) (depth : Nat) (rest : List Char) :
    unread depth .quoted (quoteJsonChar c ++ rest) = unread depth .quoted rest := by
  unfold quoteJsonChar
  split_ifs with hquote hbackslash
  all_goals try rfl
  · rw [List.append_assoc]
    exact unread_hexDigits (all_hexDigits 4 c.toNat) depth rest
  · rw [List.cons_append, List.nil_append, unread_quoted, if_neg hquote, if_neg hbackslash]

theorem closedText_quoteJson (text : String) : ClosedText (quoteJson text).toList := by
  rw [toList_quoteJson]
  refine .quoted fun depth rest => ?_
  induction text.toList with
  | nil => rfl
  | cons c inner ih => rw [List.flatMap_cons, List.append_assoc, unread_quoteJsonChar, ih]

end Deckent

namespace Deckent

namespace JsValue

theorem induction {motive : JsValue → Prop} (undefined : motive undefined) (null : motive null)
    (bool : ∀ value, motive (bool value)) (number : ∀ value, motive (number value))
    (string : ∀ text, motive (string text)) (date : ∀ iso, motive (date iso))
    (array : ∀ items, (∀ item ∈ items, motive item) → motive (array items))
    (object : ∀ members, (∀ entry ∈ members, motive entry.2) → motive (object members))
    (value : JsValue) : motive value :=
  @JsValue.rec motive (fun items => ∀ item ∈ items, motive item)
    (fun members => ∀ entry ∈ members, motive entry.2) (fun entry => motive entry.2)
    undefined null bool number string date array object (List.forall_mem_nil _)
    (fun _ _ hitem hrest => List.forall_mem_cons.mpr ⟨hitem, hrest⟩) (List.forall_mem_nil _)
    (fun _ _ hentry hrest => List.forall_mem_cons.mpr ⟨hentry, hrest⟩) (fun _ _ hvalue => hvalue) value

/-! ### What JSON keeps -/

mutual

def isJsonSafe : JsValue → Bool
  | undefined => false
  | date _ => false
  | array items => itemsSafe items
  | object members => membersSafe members
  | _ => true

def itemsSafe : List JsValue → Bool
  | [] => true
  | item :: rest => item.isJsonSafe && itemsSafe rest

def membersSafe : List (String × JsValue) → Bool
  | [] => true
  | (_, value) :: rest => value.isJsonSafe && membersSafe rest

end

/-- The value is one that is parsed from JSON. -/
def IsStored (value : JsValue) : Prop := value.persisted = some value

theorem itemsSafe_iff {items : List JsValue} :
    itemsSafe items = true ↔ ∀ item ∈ items, item.isJsonSafe = true := by
  induction items with
  | nil => simp [itemsSafe]
  | cons item rest ih => rw [itemsSafe, Bool.and_eq_true, ih, List.forall_mem_cons]

theorem membersSafe_iff {members : List (String × JsValue)} :
    membersSafe members = true ↔ ∀ entry ∈ members, entry.2.isJsonSafe = true := by
  induction members with
  | nil => simp [membersSafe]
  | cons entry rest ih => rw [membersSafe, Bool.and_eq_true, ih, List.forall_mem_cons]

theorem persistedItems_eq (items : List JsValue) :
    persistedItems items = items.map (·.persisted.getD null) := by
  induction items with
  | nil => rfl
  | cons item rest ih => rw [persistedItems, ih, List.map_cons]

theorem persistedMembers_eq (members : List (String × JsValue)) :
    persistedMembers members = members.filterMap fun entry => entry.2.persisted.map (entry.1, ·) := by
  induction members with
  | nil => rfl
  | cons entry rest ih =>
      obtain ⟨key, value⟩ := entry
      rw [persistedMembers, ih, List.filterMap_cons]
      cases hvalue : value.persisted.map (key, ·) with
      | none => rfl
      | some kept => rfl

theorem persisted_eq_none {value : JsValue} : value.persisted = none ↔ value = undefined := by
  cases value with
  | number value => cases value <;> simp [persisted]
  | date iso => cases iso <;> simp [persisted]
  | _ => simp [persisted]

theorem persisted_object (members : List (String × JsValue)) :
    (object members).persisted = some (object (persistedMembers members)) := rfl

theorem persistedMembers_append (left right : List (String × JsValue)) :
    persistedMembers (left ++ right) = persistedMembers left ++ persistedMembers right := by
  rw [persistedMembers_eq, List.filterMap_append, ← persistedMembers_eq, ← persistedMembers_eq]

theorem persistedMembers_of_forall {members : List (String × JsValue)}
    (hdefined : ∀ entry ∈ members, entry.2 ≠ undefined) :
    persistedMembers members = members.map fun entry => (entry.1, entry.2.persisted.getD null) := by
  rw [persistedMembers_eq, ← List.filterMap_eq_map]
  refine List.filterMap_congr fun entry hentry => ?_
  obtain ⟨kept, hkept⟩ := Option.ne_none_iff_exists'.mp (mt persisted_eq_none.mp (hdefined entry hentry))
  simp [hkept]

theorem defined_of_length {members : List (String × JsValue)}
    (hlength : members.length ≤ (persistedMembers members).length) :
    ∀ entry ∈ members, entry.2 ≠ undefined := by
  rw [persistedMembers_eq] at hlength
  have hsome := List.filterMap_length_eq_length.mp (le_antisymm (List.length_filterMap_le ..) hlength)
  intro entry hentry hundefined
  have hkept := hsome entry hentry
  rw [hundefined] at hkept
  cases hkept

theorem map_eq_self {α : Type*} {f : α → α} {list : List α} :
    list.map f = list ↔ ∀ x ∈ list, f x = x := by
  rw [← List.map_inj_left, List.map_id']

theorem map_eq_map_of {α β γ : Type*} {f : α → β} {g : α → γ} {left right : List α}
    (hstep : ∀ x ∈ left, ∀ y ∈ right, f x = f y → g x = g y) (hsame : left.map f = right.map f) :
    left.map g = right.map g := by
  induction left generalizing right with
  | nil => rw [List.map_eq_nil_iff.mp hsame.symm]
  | cons x left ih =>
      cases right with
      | nil => cases hsame
      | cons y right =>
          obtain ⟨hhead, htail⟩ := List.cons.inj hsame
          rw [List.map_cons, List.map_cons, hstep x (List.mem_cons_self ..) y (List.mem_cons_self ..) hhead,
            ih (fun x hx y hy => hstep x (List.mem_cons_of_mem _ hx) y (List.mem_cons_of_mem _ hy)) htail]

theorem isStored_array {items : List JsValue} :
    (array items).IsStored ↔ ∀ item ∈ items, item.IsStored := by
  rw [IsStored, persisted, persistedItems_eq, Option.some.injEq, array.injEq, map_eq_self]
  refine forall₂_congr fun item _ => ?_
  rw [IsStored]
  cases hitem : item.persisted with
  | none =>
      rw [persisted_eq_none.mp hitem]
      simp
  | some kept => simp

theorem isStored_object {members : List (String × JsValue)} :
    (object members).IsStored ↔ ∀ entry ∈ members, entry.2.IsStored := by
  rw [IsStored, persisted, Option.some.injEq, object.injEq]
  constructor
  · intro hkept
    have hdefined := defined_of_length (le_of_eq (congrArg List.length hkept.symm))
    rw [persistedMembers_of_forall hdefined, map_eq_self] at hkept
    intro entry hentry
    obtain ⟨kept, hvalue⟩ :=
      Option.ne_none_iff_exists'.mp (mt persisted_eq_none.mp (hdefined entry hentry))
    have hentry' := congrArg Prod.snd (hkept entry hentry)
    rw [hvalue] at hentry'
    rw [IsStored, hvalue]
    exact congrArg some hentry'
  · intro hstored
    have hdefined : ∀ entry ∈ members, entry.2 ≠ undefined := by
      intro entry hentry hundefined
      have hentry' := hstored entry hentry
      rw [hundefined] at hentry'
      cases hentry'
    rw [persistedMembers_of_forall hdefined, map_eq_self]
    intro entry hentry
    rw [hstored entry hentry]
    rfl

theorem isStored_persisted {value kept : JsValue} (hkept : value.persisted = some kept) : kept.IsStored := by
  induction value using JsValue.induction generalizing kept with
  | undefined => cases hkept
  | null => cases hkept; rfl
  | bool value => cases hkept; rfl
  | number value =>
      cases value with
      | finite value => cases hkept; rfl
      | _ => cases hkept; rfl
  | string text => cases hkept; rfl
  | date iso =>
      cases iso with
      | none => cases hkept; rfl
      | some iso => cases hkept; rfl
  | array items ih =>
      cases hkept
      rw [persistedItems_eq, isStored_array]
      intro item hitem
      obtain ⟨item, hmem, rfl⟩ := List.mem_map.mp hitem
      cases hvalue : item.persisted with
      | none => rfl
      | some kept => exact ih item hmem hvalue
  | object members ih =>
      cases hkept
      rw [persistedMembers_eq, isStored_object]
      intro entry hentry
      obtain ⟨entry, hmem, hkept⟩ := List.mem_filterMap.mp hentry
      obtain ⟨kept, hvalue, rfl⟩ := Option.map_eq_some_iff.mp hkept
      exact ih entry hmem hvalue

/-! ### The order of members -/

def byKey : List (String × JsValue) → List (String × JsValue) :=
  sortBy fun left right => compareCodePoint left.1 right.1

theorem byKey_map (f : JsValue → JsValue) (members : List (String × JsValue)) :
    byKey (members.map fun entry => (entry.1, f entry.2)) =
      (byKey members).map fun entry => (entry.1, f entry.2) :=
  sortBy_map _ members

theorem length_byKey (members : List (String × JsValue)) : (byKey members).length = members.length :=
  length_sortBy _ members

theorem mem_byKey {members : List (String × JsValue)} {entry : String × JsValue} :
    entry ∈ byKey members ↔ entry ∈ members := mem_sortBy

mutual

/-- The value with the members of each object in the order of their keys. -/
def ordered : JsValue → JsValue
  | array items => array (orderedItems items)
  | object members => object (byKey (orderedMembers members))
  | value => value

def orderedItems : List JsValue → List JsValue
  | [] => []
  | item :: rest => item.ordered :: orderedItems rest

def orderedMembers : List (String × JsValue) → List (String × JsValue)
  | [] => []
  | (key, value) :: rest => (key, value.ordered) :: orderedMembers rest

end

theorem orderedItems_eq (items : List JsValue) : orderedItems items = items.map ordered := by
  induction items with
  | nil => rfl
  | cons item rest ih => rw [orderedItems, ih, List.map_cons]

theorem orderedMembers_eq (members : List (String × JsValue)) :
    orderedMembers members = members.map fun entry => (entry.1, entry.2.ordered) := by
  induction members with
  | nil => rfl
  | cons entry rest ih =>
      obtain ⟨key, value⟩ := entry
      rw [orderedMembers, ih, List.map_cons]

end JsValue

namespace Audit

open JsValue

/-- How `JSON.stringify` writes numbers. -/
structure WritesNumbers (numberText : ℚ → String) : Prop where
  characters : ∀ value, ∀ c ∈ (numberText value).toList, c.isDigit = true ∨ c ∈ ['-', '+', '.', 'e']
  nonempty : ∀ value, numberText value ≠ ""
  injective : Function.Injective numberText

section Texts

variable {numberText : ℚ → String}

theorem canonicalItems_eq (items : List JsValue) :
    canonicalItems numberText items = items.map fun item => (canonicalJson numberText item).getD "" := by
  induction items with
  | nil => rfl
  | cons item rest ih => rw [canonicalItems, ih, List.map_cons]

theorem canonicalMembers_eq (members : List (String × JsValue)) :
    canonicalMembers numberText members =
      members.map fun entry => (entry.1, (canonicalJson numberText entry.2).getD "undefined") := by
  induction members with
  | nil => rfl
  | cons entry rest ih =>
      obtain ⟨key, value⟩ := entry
      rw [canonicalMembers, ih, List.map_cons]

theorem canonicalJson_eq_none {value : JsValue} :
    canonicalJson numberText value = none ↔ value = undefined := by
  cases value <;> simp [canonicalJson]

variable (numberText) in
theorem exists_canonicalJson {value : JsValue} (hdefined : value ≠ undefined) :
    ∃ text, canonicalJson numberText value = some text :=
  Option.ne_none_iff_exists'.mp (mt canonicalJson_eq_none.mp hdefined)

variable (numberText) in
def memberLine (entry : String × JsValue) : List Char :=
  (quoteJson entry.1).toList ++ ':' :: ((canonicalJson numberText entry.2).getD "undefined").toList

theorem memberText_eq (entry : String × JsValue) :
    (quoteJson entry.1 ++ ":" ++ (canonicalJson numberText entry.2).getD "undefined").toList =
      memberLine numberText entry := by
  rw [memberLine, String.toList_append, String.toList_append, List.append_assoc]
  rfl

theorem toList_canonicalObject (members : List (String × JsValue)) :
    (canonicalObject (canonicalMembers numberText members)).toList =
      '\x7b' :: commaLine ['\x7d'] ((byKey members).map (memberLine numberText)) := by
  have hsorted : sortBy (fun left right => compareCodePoint left.1 right.1)
      (canonicalMembers numberText members) =
      (byKey members).map fun entry => (entry.1, (canonicalJson numberText entry.2).getD "undefined") := by
    rw [canonicalMembers_eq]
    exact sortBy_map _ members
  have hopening : "\x7b".toList = ['\x7b'] := rfl
  have hcomma : ",".toList = [','] := rfl
  have hclosing : "\x7d".toList = ['\x7d'] := rfl
  rw [canonicalObject, String.toList_append, String.toList_append, String.toList_intercalate, hopening,
    hcomma, hclosing, hsorted, List.map_map, List.map_map, commaLine_eq, List.singleton_append]
  rw [← List.map_congr_left fun entry _ => memberText_eq entry]
  simp only [Function.comp_def, List.cons_append]

theorem canonicalObject_nil : canonicalObject [] = "\x7b\x7d" := by decide

theorem toList_canonicalArray (items : List JsValue) :
    ("[" ++ ",".intercalate (canonicalItems numberText items) ++ "]").toList =
      '[' :: commaLine [']'] (items.map fun item => ((canonicalJson numberText item).getD "").toList) := by
  rw [canonicalItems_eq, commaLine_eq, String.toList_append, String.toList_append,
    String.toList_intercalate, List.map_map]
  rfl

/-! ### Closed texts -/

theorem plain_of_number {c : Char} (hc : c.isDigit = true ∨ c ∈ ['-', '+', '.', 'e']) :
    isStructural c = false := by
  by_contra hstructural
  simp only [isStructural, isOpeningBracket, isClosingBracket, Bool.or_eq_true, decide_eq_true_eq,
    Bool.not_eq_false] at hstructural
  obtain ((rfl | rfl) | rfl | rfl) | rfl | rfl := hstructural <;> revert hc <;> decide

theorem closedText_literal (text : String) (hplain : text.toList.all (!isStructural ·) = true) :
    ClosedText text.toList :=
  .plain fun c hc => Bool.not_eq_true' _ ▸ List.all_eq_true.mp hplain c hc

theorem closedText_numberJson (hwrites : WritesNumbers numberText) (value : JsNumber) :
    ClosedText (numberJson numberText value).toList := by
  cases value with
  | finite value => exact .plain fun c hc => plain_of_number (hwrites.characters value c hc)
  | _ => exact closedText_literal "null" (by decide)

theorem closedText_getD {text : Option String} {other : String} (hother : ClosedText other.toList)
    (htext : ClosedText (text.getD "").toList) : ClosedText (text.getD other).toList := by
  cases text with
  | none => exact hother
  | some text => exact htext

theorem closedText_memberLine {entry : String × JsValue}
    (hvalue : ClosedText ((canonicalJson numberText entry.2).getD "").toList) :
    ClosedText (memberLine numberText entry) :=
  (closedText_quoteJson entry.1).append ((closedText_literal ":" (by decide)).append
    (closedText_getD (closedText_literal "undefined" (by decide)) hvalue))

theorem starts_memberLine (entry : String × JsValue) : Starts (memberLine numberText entry) := by
  rw [Starts, memberLine, toList_quoteJson]
  exact ⟨'"', rfl, by decide, rfl⟩

theorem closedText_canonicalJson (hwrites : WritesNumbers numberText) (value : JsValue) :
    ClosedText ((canonicalJson numberText value).getD "").toList := by
  induction value using JsValue.induction with
  | undefined => exact .nil
  | null => exact closedText_literal "null" (by decide)
  | bool value =>
      cases value with
      | true => exact closedText_literal "true" (by decide)
      | false => exact closedText_literal "false" (by decide)
  | number value => exact closedText_numberJson hwrites value
  | string text => exact closedText_quoteJson text
  | date iso =>
      have hclosed : ClosedText ('\x7b' :: [] ++ ['\x7d']) := .bracketed rfl rfl ClosedText.nil.within
      rw [canonicalJson, Option.getD_some, canonicalObject_nil]
      exact hclosed
  | array items ih =>
      rw [canonicalJson, Option.getD_some, toList_canonicalArray, commaLine_eq, ← List.cons_append]
      refine .bracketed rfl rfl (closedWithin_commaLine fun text htext => ?_)
      obtain ⟨item, hitem, rfl⟩ := List.mem_map.mp htext
      exact ih item hitem
  | object members ih =>
      rw [canonicalJson, Option.getD_some, toList_canonicalObject, commaLine_eq, ← List.cons_append]
      refine .bracketed rfl rfl (closedWithin_commaLine fun text htext => ?_)
      obtain ⟨entry, hentry, rfl⟩ := List.mem_map.mp htext
      exact closedText_memberLine (ih entry (mem_byKey.mp hentry))

/-! ### Two encodings of one value -/

theorem getD_inj {left right : JsValue} {other : String} (hleft : left ≠ undefined)
    (hright : right ≠ undefined)
    (hsame : (canonicalJson numberText left).getD other = (canonicalJson numberText right).getD other) :
    canonicalJson numberText left = canonicalJson numberText right := by
  obtain ⟨leftText, hleftText⟩ := exists_canonicalJson numberText hleft
  obtain ⟨rightText, hrightText⟩ := exists_canonicalJson numberText hright
  rw [hleftText, hrightText] at hsame ⊢
  exact congrArg some hsame

theorem memberLine_inj {key : String} {left right : JsValue} (hleft : left ≠ undefined)
    (hright : right ≠ undefined)
    (hsame : memberLine numberText (key, left) = memberLine numberText (key, right)) :
    canonicalJson numberText left = canonicalJson numberText right := by
  have htext := (List.cons.inj (List.append_cancel_left hsame)).2
  exact getD_inj hleft hright (String.toList_inj.mp htext)

theorem persisted_ne_undefined {value kept : JsValue} (hkept : value.persisted = some kept) :
    kept ≠ undefined := by
  rintro rfl
  cases isStored_persisted hkept

theorem canonicalItems_persisted {items : List JsValue}
    (hsame : ∀ item ∈ items, ∀ kept, item.persisted = some kept →
      canonicalJson numberText kept = canonicalJson numberText item)
    (hdefined : ∀ item ∈ items, item ≠ undefined) :
    canonicalItems numberText (persistedItems items) = canonicalItems numberText items := by
  rw [canonicalItems_eq, canonicalItems_eq, persistedItems_eq, List.map_map]
  refine List.map_congr_left fun item hitem => ?_
  obtain ⟨kept, hkept⟩ := Option.ne_none_iff_exists'.mp (mt persisted_eq_none.mp (hdefined item hitem))
  rw [Function.comp_apply, hkept, Option.getD_some, hsame item hitem kept hkept]

theorem canonicalMembers_persisted {members : List (String × JsValue)}
    (hsame : ∀ entry ∈ members, ∀ kept, entry.2.persisted = some kept →
      canonicalJson numberText kept = canonicalJson numberText entry.2)
    (hdefined : ∀ entry ∈ members, entry.2 ≠ undefined) :
    canonicalMembers numberText (persistedMembers members) = canonicalMembers numberText members := by
  rw [canonicalMembers_eq, canonicalMembers_eq, persistedMembers_of_forall hdefined, List.map_map]
  refine List.map_congr_left fun entry hentry => ?_
  obtain ⟨kept, hkept⟩ :=
    Option.ne_none_iff_exists'.mp (mt persisted_eq_none.mp (hdefined entry hentry))
  rw [Function.comp_apply, hkept, Option.getD_some, hsame entry hentry kept hkept]

theorem ne_undefined_of_safe {value : JsValue} (hsafe : value.isJsonSafe = true) : value ≠ undefined := by
  rintro rfl
  cases hsafe

theorem canonicalJson_of_safe {value kept : JsValue} (hsafe : value.isJsonSafe = true)
    (hkept : value.persisted = some kept) :
    canonicalJson numberText kept = canonicalJson numberText value := by
  induction value using JsValue.induction generalizing kept with
  | undefined => cases hsafe
  | null => cases hkept; rfl
  | bool value => cases hkept; rfl
  | number value =>
      cases value with
      | finite value => cases hkept; rfl
      | _ => cases hkept; rfl
  | string text => cases hkept; rfl
  | date iso => cases hsafe
  | array items ih =>
      cases hkept
      have hitems := itemsSafe_iff.mp hsafe
      rw [canonicalJson, canonicalJson, canonicalItems_persisted
        (fun item hitem kept => ih item hitem (hitems item hitem))
        fun item hitem => ne_undefined_of_safe (hitems item hitem)]
  | object members ih =>
      cases hkept
      have hmembers := membersSafe_iff.mp hsafe
      rw [canonicalJson, canonicalJson, canonicalMembers_persisted
        (fun entry hentry kept => ih entry hentry (hmembers entry hentry))
        fun entry hentry => ne_undefined_of_safe (hmembers entry hentry)]

/-- Where the text is that of what JSON makes of the value, it is safe: a list shows each of its items, and
an object each of its members. -/
theorem safe_of_canonicalJson (hwrites : WritesNumbers numberText) {value kept : JsValue}
    (hkept : value.persisted = some kept)
    (hsame : canonicalJson numberText kept = canonicalJson numberText value) :
    value.isJsonSafe = true := by
  have hclosed (value : JsValue) := closedText_canonicalJson hwrites value
  induction value using JsValue.induction generalizing kept with
  | undefined => cases hkept
  | null => rfl
  | bool value => rfl
  | number value => rfl
  | string text => rfl
  | date iso =>
      rw [canonicalJson, canonicalObject_nil] at hsame
      cases iso with
      | none =>
          cases hkept
          simp [canonicalJson] at hsame
      | some iso =>
          cases hkept
          have htext := congrArg String.toList (Option.some.inj hsame)
          rw [toList_quoteJson] at htext
          cases (List.cons.inj htext).1
  | array items ih =>
      cases hkept
      have htexts := congrArg String.toList (Option.some.inj hsame)
      rw [toList_canonicalArray, toList_canonicalArray, persistedItems_eq, List.map_map] at htexts
      have hitems := commaLine_inj (List.forall_mem_map.mpr fun item _ => hclosed _)
        (List.forall_mem_map.mpr fun item _ => hclosed item) (isEnd_closing rfl []) (isEnd_closing rfl [])
        (by rw [List.length_map, List.length_map]) (List.cons.inj htexts).2
      refine itemsSafe_iff.mpr fun item hitem => ?_
      have htext := String.toList_inj.mp (List.map_inj_left.mp hitems item hitem)
      cases hvalue : item.persisted with
      | none =>
          rw [hvalue, persisted_eq_none.mp hvalue] at htext
          simp [canonicalJson] at htext
      | some kept =>
          rw [hvalue, Option.getD_some] at htext
          have hitem' : item ≠ undefined := by rintro rfl; cases hvalue
          exact ih item hitem hvalue (getD_inj (persisted_ne_undefined hvalue) hitem' htext)
  | object members ih =>
      cases hkept
      have htexts := congrArg String.toList (Option.some.inj hsame)
      rw [toList_canonicalObject, toList_canonicalObject] at htexts
      have hlines := commaLine_inj_of_starts
        (List.forall_mem_map.mpr fun entry _ => ⟨closedText_memberLine (hclosed _), starts_memberLine entry⟩)
        (List.forall_mem_map.mpr fun entry _ => ⟨closedText_memberLine (hclosed _), starts_memberLine entry⟩)
        rfl (List.cons.inj htexts).2
      have hlength := congrArg List.length hlines
      rw [List.length_map, List.length_map, length_byKey, length_byKey] at hlength
      have hdefined := defined_of_length hlength.ge
      rw [persistedMembers_of_forall hdefined, byKey_map (·.persisted.getD null), List.map_map] at hlines
      refine membersSafe_iff.mpr fun entry hentry => ?_
      obtain ⟨kept, hvalue⟩ :=
        Option.ne_none_iff_exists'.mp (mt persisted_eq_none.mp (hdefined entry hentry))
      have hline := List.map_inj_left.mp hlines entry (mem_byKey.mpr hentry)
      rw [Function.comp_apply, hvalue, Option.getD_some] at hline
      exact ih entry hentry hvalue
        (memberLine_inj (persisted_ne_undefined hvalue) (hdefined entry hentry) hline)

/-! ### Stored values -/

def leadingMark (text : List Char) : Option Char :=
  text.head?.filter fun c => !(c.isDigit || c ∈ ['-', '+', '.', 'e'])

def mark : JsValue → Option Char
  | .null => some 'n'
  | .bool true => some 't'
  | .bool false => some 'f'
  | .string _ => some '"'
  | .array _ => some '['
  | .object _ => some '\x7b'
  | _ => none

theorem leadingMark_number (hwrites : WritesNumbers numberText) (value : ℚ) :
    ∃ c rest, (numberText value).toList = c :: rest ∧ leadingMark (c :: rest) = none ∧
      isStructural c = false := by
  cases htext : (numberText value).toList with
  | nil => exact absurd (String.toList_eq_nil_iff.mp htext) (hwrites.nonempty value)
  | cons c rest =>
      have hc := hwrites.characters value c (by rw [htext]; exact List.mem_cons_self ..)
      have hnumber : (c.isDigit || c ∈ ['-', '+', '.', 'e']) = true := by
        rw [Bool.or_eq_true, decide_eq_true_iff]
        exact hc
      refine ⟨c, rest, rfl, ?_, plain_of_number hc⟩
      rw [leadingMark, List.head?_cons, Option.filter_some, hnumber]
      rfl

theorem leadingMark_eq (hwrites : WritesNumbers numberText) {value : JsValue} {text : String}
    (hstored : value.IsStored) (htext : canonicalJson numberText value = some text) :
    leadingMark text.toList = mark value := by
  cases value with
  | undefined => cases hstored
  | null => cases htext; rfl
  | bool value =>
      cases value with
      | true => cases htext; rfl
      | false => cases htext; rfl
  | number value =>
      cases value with
      | finite value =>
          cases htext
          obtain ⟨c, rest, htext, hmark, -⟩ := leadingMark_number hwrites value
          rw [numberJson, htext, hmark]
          rfl
      | _ => cases hstored
  | string text =>
      cases htext
      rw [toList_quoteJson]
      rfl
  | date iso => cases iso <;> cases hstored
  | array items =>
      cases htext
      rw [toList_canonicalArray]
      rfl
  | object members =>
      cases htext
      rw [toList_canonicalObject]
      rfl

theorem starts_of_mark {text : List Char} {c : Char} (hmark : leadingMark text = some c)
    (hcomma : c ≠ ',') (hopen : isClosingBracket c = false) : Starts text := by
  obtain ⟨hhead, -⟩ := Option.filter_eq_some_iff.mp hmark
  exact ⟨c, hhead, hcomma, hopen⟩

theorem starts_of_stored (hwrites : WritesNumbers numberText) {value : JsValue} {text : String}
    (hstored : value.IsStored) (htext : canonicalJson numberText value = some text) :
    Starts text.toList := by
  have hmark := leadingMark_eq hwrites hstored htext
  cases value with
  | undefined => cases hstored
  | number value =>
      cases value with
      | finite value =>
          cases htext
          obtain ⟨c, rest, htext, -, hc⟩ := leadingMark_number hwrites value
          simp only [isStructural, Bool.or_eq_false_iff, decide_eq_false_iff_not] at hc
          exact ⟨c, by rw [numberJson, htext]; rfl, hc.1.1.2, hc.2⟩
      | _ => cases hstored
  | date iso => cases iso <;> cases hstored
  | bool value => cases value <;> exact starts_of_mark hmark (by decide) rfl
  | _ => exact starts_of_mark hmark (by decide) rfl

theorem starts_getD (hwrites : WritesNumbers numberText) {value : JsValue} (hstored : value.IsStored) :
    Starts ((canonicalJson numberText value).getD "").toList := by
  obtain ⟨text, htext⟩ := exists_canonicalJson numberText (persisted_ne_undefined hstored)
  rw [htext]
  exact starts_of_stored hwrites hstored htext

theorem mark_eq_of_canonicalJson (hwrites : WritesNumbers numberText) {left right : JsValue}
    (hleft : left.IsStored) (hright : right.IsStored)
    (hsame : canonicalJson numberText left = canonicalJson numberText right) : mark left = mark right := by
  obtain ⟨text, htext⟩ := exists_canonicalJson numberText (persisted_ne_undefined hleft)
  rw [← leadingMark_eq hwrites hleft htext, ← leadingMark_eq hwrites hright (hsame ▸ htext)]

/-- Stored values with one text differ at most in the order of members. -/
theorem ordered_eq_of_canonicalJson (hwrites : WritesNumbers numberText) {left right : JsValue}
    (hleft : left.IsStored) (hright : right.IsStored)
    (hsame : canonicalJson numberText left = canonicalJson numberText right) :
    left.ordered = right.ordered := by
  have hclosed (value : JsValue) := closedText_canonicalJson hwrites value
  have hmark := mark_eq_of_canonicalJson hwrites hleft hright hsame
  induction left using JsValue.induction generalizing right with
  | undefined => cases hleft
  | null =>
      cases right with
      | null => rfl
      | bool value => cases value <;> simp [mark] at hmark
      | _ => simp [mark] at hmark
  | bool value =>
      cases right with
      | bool other => cases value <;> cases other <;> first | rfl | simp [mark] at hmark
      | _ => cases value <;> simp [mark] at hmark
  | number value =>
      cases right with
      | number other =>
          cases value with
          | finite value =>
              cases other with
              | finite other => rw [hwrites.injective (Option.some.inj hsame)]
              | _ => cases hright
          | _ => cases hleft
      | bool value => cases value <;> simp [mark] at hmark
      | undefined => cases hright
      | date iso => cases iso <;> cases hright
      | _ => simp [mark] at hmark
  | string text =>
      cases right with
      | string other => rw [quoteJson_injective (Option.some.inj hsame)]
      | bool value => cases value <;> simp [mark] at hmark
      | _ => simp [mark] at hmark
  | date iso => cases iso <;> cases hleft
  | array items ih =>
      cases right with
      | array others =>
          rw [isStored_array] at hleft hright
          have htexts := congrArg String.toList (Option.some.inj hsame)
          rw [toList_canonicalArray, toList_canonicalArray] at htexts
          have hitems := commaLine_inj_of_starts
            (List.forall_mem_map.mpr fun item hitem => ⟨hclosed item, starts_getD hwrites (hleft item hitem)⟩)
            (List.forall_mem_map.mpr fun item hitem => ⟨hclosed item, starts_getD hwrites (hright item hitem)⟩)
            rfl (List.cons.inj htexts).2
          rw [ordered, ordered, orderedItems_eq, orderedItems_eq]
          refine congrArg array (map_eq_map_of (fun item hitem other hother htext => ?_) hitems)
          have hsame := getD_inj (persisted_ne_undefined (hleft item hitem))
            (persisted_ne_undefined (hright other hother)) (String.toList_inj.mp htext)
          exact ih item hitem (hleft item hitem) (hright other hother) hsame
            (mark_eq_of_canonicalJson hwrites (hleft item hitem) (hright other hother) hsame)
      | bool value => cases value <;> simp [mark] at hmark
      | _ => simp [mark] at hmark
  | object members ih =>
      cases right with
      | object others =>
          rw [isStored_object] at hleft hright
          have htexts := congrArg String.toList (Option.some.inj hsame)
          rw [toList_canonicalObject, toList_canonicalObject] at htexts
          have hlines := commaLine_inj_of_starts
            (List.forall_mem_map.mpr fun entry _ =>
              ⟨closedText_memberLine (hclosed _), starts_memberLine entry⟩)
            (List.forall_mem_map.mpr fun entry _ =>
              ⟨closedText_memberLine (hclosed _), starts_memberLine entry⟩)
            rfl (List.cons.inj htexts).2
          rw [ordered, ordered, orderedMembers_eq, orderedMembers_eq, byKey_map, byKey_map]
          refine congrArg object (map_eq_map_of (fun entry hentry other hother hline => ?_) hlines)
          obtain ⟨hkey, hrest⟩ := quoteJson_append_inj hline
          have hvalue := hleft entry (mem_byKey.mp hentry)
          have hother' := hright other (mem_byKey.mp hother)
          have hsame := getD_inj (persisted_ne_undefined hvalue) (persisted_ne_undefined hother')
            (String.toList_inj.mp (List.cons.inj hrest).2)
          rw [hkey, ih entry (mem_byKey.mp hentry) hvalue hother' hsame
            (mark_eq_of_canonicalJson hwrites hvalue hother' hsame)]
      | bool value => cases value <;> simp [mark] at hmark
      | _ => simp [mark] at hmark

/-! ### Numbers in unary -/

def unaryText (value : ℚ) : List Char :=
  (if value.num < 0 then '-' else '+') ::
    (List.replicate value.num.natAbs '0' ++ '.' :: List.replicate value.den '0')

theorem replicate_mark_inj {mark : Char} (hmark : mark ≠ '0') {left right : Nat}
    {leftRest rightRest : List Char}
    (hsame : List.replicate left '0' ++ mark :: leftRest = List.replicate right '0' ++ mark :: rightRest) :
    left = right ∧ leftRest = rightRest := by
  induction left generalizing right with
  | zero =>
      cases right with
      | zero => exact ⟨rfl, (List.cons.inj hsame).2⟩
      | succ right => exact absurd (List.cons.inj hsame).1 hmark
  | succ left ih =>
      cases right with
      | zero => exact absurd (List.cons.inj hsame).1.symm hmark
      | succ right =>
          obtain ⟨rfl, hrest⟩ := ih (List.cons.inj hsame).2
          exact ⟨rfl, hrest⟩

theorem unaryText_injective : Function.Injective unaryText := by
  intro left right hsame
  obtain ⟨hsign, hdigits⟩ := List.cons.inj hsame
  obtain ⟨hnum, hden⟩ := replicate_mark_inj (by decide) hdigits
  have hden := congrArg List.length hden
  rw [List.length_replicate, List.length_replicate] at hden
  have hnegative : left.num < 0 ↔ right.num < 0 := by
    by_cases hleft : left.num < 0 <;> by_cases hright : right.num < 0
    · exact iff_of_true hleft hright
    · rw [if_pos hleft, if_neg hright] at hsign
      exact absurd hsign (by decide)
    · rw [if_neg hleft, if_pos hright] at hsign
      exact absurd hsign (by decide)
    · exact iff_of_false hleft hright
  exact Rat.ext (by omega) hden

theorem writesNumbers_unary {known : ℚ} {short : String} {digit : Char} (hshort : short.toList = [digit])
    (hdigit : digit.isDigit = true) :
    WritesNumbers fun value => if value = known then short else String.ofList (unaryText value) where
  characters := by
    intro value c hc
    split_ifs at hc
    · rw [hshort, List.mem_singleton] at hc
      exact .inl (hc ▸ hdigit)
    · simp only [String.toList_ofList, unaryText, List.mem_cons, List.mem_append, List.mem_replicate] at hc
      obtain hc | ⟨-, rfl⟩ | rfl | ⟨-, rfl⟩ := hc
      · right
        split_ifs at hc <;> simp [hc]
      · exact .inl rfl
      · exact .inr (by decide)
      · exact .inl rfl
  nonempty := by
    intro value hempty
    have hlist := congrArg String.toList hempty
    split_ifs at hlist
    · rw [hshort] at hlist
      cases hlist
    · rw [String.toList_ofList] at hlist
      cases hlist
  injective := by
    intro left right hsame
    have hlong {value : ℚ} : short ≠ String.ofList (unaryText value) := by
      rintro rfl
      simp [unaryText] at hshort
    dsimp only at hsame
    split_ifs at hsame with hleft hright hright
    · rw [hleft, hright]
    · exact absurd hsame hlong
    · exact absurd hsame.symm hlong
    · exact unaryText_injective (String.ofList_injective hsame)

end Texts

end Audit

end Deckent
