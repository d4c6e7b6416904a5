import Mathlib.Data.List.DropRight
import Mathlib.Data.List.TakeWhile
import Deckent.Lib.Segments
import Deckent.Model.ExecutionTopology

/-!
# Portable writer paths

A declaration is trimmed and normalised once, then cut into segments, and `.` and `..` are worked off.
The path that remains is made of the segments that no later `..` removes. It is normalised to itself
exactly when the first of these does not begin, and the last does not end, with white space: the
declaration `./ a` gives the path ` a`, and that path is trimmed to `a` when it is declared again.
-/

namespace Deckent.ExecutionTopology

/-- What is relied on of normalisation to NFC: it is idempotent, a part of a normalised text is
normalised, and two normalised texts stay so when a slash is put between them. -/
structure NfcLaws (tables : UnicodeTables) : Prop where
  idempotent : ∀ text, tables.nfc (tables.nfc text) = tables.nfc text
  substring : ∀ before after, tables.nfc (before ++ after) = before ++ after →
    tables.nfc before = before ∧ tables.nfc after = after
  separated : ∀ before after, tables.nfc before = before → tables.nfc after = after →
    tables.nfc (before ++ "/" ++ after) = before ++ "/" ++ after

/-! ### Trimming -/

section Trim

variable {text : List Char}

theorem trimChars_eq (text : List Char) :
    trimChars text = (text.dropWhile isJsSpace).rdropWhile isJsSpace := rfl

theorem infix_trimChars (text : List Char) : trimChars text <:+: text := by
  rw [trimChars_eq]
  exact (List.rdropWhile_prefix _ _).isInfix.trans (List.dropWhile_suffix _).isInfix

theorem dropWhile_eq_self (p : Char → Bool) :
    text.dropWhile p = text ↔ ∀ c ∈ text.head?, p c = false := by
  rw [List.dropWhile_eq_self_iff]
  cases text <;> simp

theorem rdropWhile_eq_self (p : Char → Bool) :
    text.rdropWhile p = text ↔ ∀ c ∈ text.getLast?, p c = false := by
  rw [List.rdropWhile_eq_self_iff]
  induction text using List.reverseRecOn with
  | nil => simp
  | append_singleton => simp

theorem trimChars_eq_self_iff :
    trimChars text = text
      ↔ (∀ c ∈ text.head?, isJsSpace c = false) ∧ ∀ c ∈ text.getLast?, isJsSpace c = false := by
  rw [← dropWhile_eq_self, ← rdropWhile_eq_self, trimChars_eq]
  constructor
  · intro htrim
    have hright := (List.rdropWhile_prefix isJsSpace (text.dropWhile isJsSpace)).length_le
    have hleft : text.dropWhile isJsSpace <:+ text := List.dropWhile_suffix _
    have hdrop : text.dropWhile isJsSpace = text :=
      hleft.eq_of_length_le (by rw [htrim] at hright; exact hright)
    rw [hdrop] at htrim
    exact ⟨hdrop, htrim⟩
  · rintro ⟨hdrop, hrdrop⟩
    rw [hdrop, hrdrop]

end Trim

/-! ### The segments that remain -/

def IsName (segment : List Char) : Prop := segment ≠ [] ∧ segment ≠ ['.'] ∧ segment ≠ ['.', '.']

instance (segment : List Char) : Decidable (IsName segment) :=
  inferInstanceAs (Decidable (_ ∧ _ ∧ _))

def removedBefore : List (List Char) → Nat
  | [] => 0
  | segment :: rest =>
      if segment = ['.', '.'] then removedBefore rest + 1
      else if IsName segment then removedBefore rest - 1
      else removedBefore rest

def survivors : List (List Char) → List (List Char)
  | [] => []
  | segment :: rest =>
      if IsName segment ∧ removedBefore rest = 0 then segment :: survivors rest else survivors rest

theorem survivors_sublist (segments : List (List Char)) : (survivors segments).Sublist segments := by
  induction segments with
  | nil => exact List.Sublist.refl _
  | cons segment rest ih =>
      unfold survivors
      split
      · exact ih.cons_cons segment
      · exact ih.cons segment

def IsPlain (segment : List Char) : Prop := IsName segment ∧ Char.ofNat 0 ∉ segment ∧ ':' ∉ segment

/-- The stack after the segments: what they leave of it, and their survivors, which are plain. -/
theorem normalizeSegments_eq_some {segments stack result : List (List Char)}
    (hresult : normalizeSegments stack segments = some result) :
    result = stack.take (stack.length - removedBefore segments) ++ survivors segments
      ∧ ∀ segment ∈ survivors segments, IsPlain segment := by
  induction segments generalizing stack with
  | nil =>
      rw [normalizeSegments, Option.some.injEq] at hresult
      simp [survivors, removedBefore, hresult]
  | cons segment rest ih =>
      unfold normalizeSegments at hresult
      split_ifs at hresult with hdot hup hempty hbad
      · have hname : ¬ IsName segment := by
          rintro ⟨hne, hone, -⟩
          rcases hdot with hnil | hsingle
          · exact hne hnil
          · exact hone hsingle
        have hnotUp : segment ≠ ['.', '.'] := by
          rcases hdot with rfl | rfl <;> decide
        rw [survivors, if_neg (not_and_of_not_left _ hname), removedBefore, if_neg hnotUp, if_neg hname]
        exact ih hresult
      · subst hup
        obtain ⟨heq, hplain⟩ := ih hresult
        have hname : ¬ IsName ['.', '.'] := fun h => h.2.2 rfl
        rw [survivors, if_neg (not_and_of_not_left _ hname), removedBefore, if_pos rfl, heq]
        refine ⟨?_, hplain⟩
        rw [List.dropLast_eq_take, List.take_take, List.length_take]
        congr 2
        omega
      · have hname : IsName segment := ⟨fun h => hdot (Or.inl h), fun h => hdot (Or.inr h), hup⟩
        obtain ⟨heq, hplain⟩ := ih hresult
        rw [removedBefore, if_neg hup, if_pos hname, survivors]
        rw [List.length_append, List.length_singleton] at heq
        by_cases hzero : removedBefore rest = 0
        · rw [if_pos ⟨hname, hzero⟩]
          refine ⟨?_, ?_⟩
          · rw [heq, hzero, Nat.sub_zero, Nat.sub_zero, List.take_of_length_le (by simp),
              List.take_of_length_le le_rfl, List.append_assoc, List.singleton_append]
          · intro other hother
            rcases List.mem_cons.mp hother with rfl | hrest
            · exact ⟨hname, fun h => hbad (Or.inl h), fun h => hbad (Or.inr h)⟩
            · exact hplain other hrest
        · rw [if_neg (fun h => hzero h.2)]
          refine ⟨?_, hplain⟩
          have hle : stack.length + 1 - removedBefore rest ≤ stack.length := by omega
          rw [heq, List.take_append_of_le_length hle]
          congr 2
          omega

theorem normalizeSegments_plain {segments stack : List (List Char)}
    (hplain : ∀ segment ∈ segments, IsPlain segment) :
    normalizeSegments stack segments = some (stack ++ segments) := by
  induction segments generalizing stack with
  | nil => simp [normalizeSegments]
  | cons segment rest ih =>
      obtain ⟨⟨hne, hone, hup⟩, hnul, hcolon⟩ := hplain segment List.mem_cons_self
      unfold normalizeSegments
      rw [if_neg (not_or.mpr ⟨hne, hone⟩), if_neg hup, if_neg (not_or.mpr ⟨hnul, hcolon⟩),
        ih fun other hother => hplain other (List.mem_cons_of_mem _ hother), List.append_assoc,
        List.singleton_append]

/-! ### Declarations -/

section Declaration

variable (tables : UnicodeTables) (raw : String)

def declaredText : List Char :=
  (tables.nfc (trim raw)).toList.map fun c => if c = '\\' then '/' else c

def declaredSegments : List (List Char) := (declaredText tables raw).splitOn '/'

/-- Neither the first of the segments that remain begins, nor the last ends, with white space. -/
def CleanEnds : Prop :=
  (∀ segment ∈ (survivors (declaredSegments tables raw)).head?, ∀ c ∈ segment.head?,
      isJsSpace c = false)
    ∧ ∀ segment ∈ (survivors (declaredSegments tables raw)).getLast?, ∀ c ∈ segment.getLast?,
      isJsSpace c = false

end Declaration

/-- A relative path without empty segments, `.`, `..` or a drive. -/
structure PlainPath (path : String) : Prop where
  relative : path.toList.head? ≠ some '/'
  noDrive : hasDrivePrefix path.toList = false
  segments : ∀ segment ∈ path.toList.splitOn '/', IsPlain segment

variable {tables : UnicodeTables} {raw : String} {result : PortableWriterPath}

def pathOf (segments : List (List Char)) : String := String.ofList (List.intercalate ['/'] segments)

theorem normalizePortableWriterPath_eq_some :
    normalizePortableWriterPath tables raw = some result
      ↔ (declaredText tables raw ≠ [] ∧ (declaredText tables raw).head? ≠ some '/'
          ∧ hasDrivePrefix (declaredText tables raw) = false)
        ∧ ∃ segments, normalizeSegments [] (declaredSegments tables raw) = some segments
          ∧ segments ≠ []
          ∧ result = { path := pathOf segments, collisionKey := tables.toLowerCase (pathOf segments) } := by
  have htext : ((tables.nfc (trim raw)).toList.map fun c => if c = '\\' then '/' else c)
      = declaredText tables raw := rfl
  have hsegments : (declaredText tables raw).splitOn '/' = declaredSegments tables raw := rfl
  unfold normalizePortableWriterPath
  dsimp only
  rw [htext, hsegments]
  split
  · next hrefused =>
      simp only [Bool.or_eq_true, List.isEmpty_iff, decide_eq_true_eq] at hrefused
      simp only [reduceCtorEq, false_iff]
      rintro ⟨⟨hne, hhead, hdrive⟩, -⟩
      rcases hrefused with (hempty | hslash) | hfound
      · exact hne hempty
      · exact hhead hslash
      · exact absurd hfound (by simp [hdrive])
  · next hallowed =>
      simp only [Bool.or_eq_true, List.isEmpty_iff, decide_eq_true_eq, not_or,
        Bool.not_eq_true] at hallowed
      rw [and_iff_right ⟨hallowed.1.1, hallowed.1.2, hallowed.2⟩]
      cases normalizeSegments [] (declaredSegments tables raw) with
      | none => simp
      | some segments => cases segments <;> simp [pathOf, eq_comm]

theorem accepted_path (haccepted : normalizePortableWriterPath tables raw = some result) :
    survivors (declaredSegments tables raw) ≠ []
      ∧ (∀ segment ∈ survivors (declaredSegments tables raw), IsPlain segment)
      ∧ result.path = pathOf (survivors (declaredSegments tables raw))
      ∧ result.collisionKey = tables.toLowerCase result.path := by
  obtain ⟨-, segments, hsegments, hne, rfl⟩ := normalizePortableWriterPath_eq_some.mp haccepted
  obtain ⟨heq, hplain⟩ := normalizeSegments_eq_some hsegments
  rw [List.take_nil, List.nil_append] at heq
  subst heq
  exact ⟨hne, hplain, rfl, rfl⟩

theorem mem_declaredText {c : Char} (hc : c ∈ declaredText tables raw) : c ≠ '\\' := by
  obtain ⟨original, -, rfl⟩ := List.mem_map.mp hc
  split
  · decide
  · next hne => exact hne

theorem infix_of_map_slash {segment text : List Char}
    (hwithin : segment <:+: text.map fun c => if c = '\\' then '/' else c) (hslash : '/' ∉ segment) :
    segment <:+: text := by
  obtain ⟨before, after, heq⟩ := hwithin
  obtain ⟨front, back, rfl, hfront, -⟩ := List.map_eq_append_iff.mp heq.symm
  obtain ⟨first, middle, rfl, -, hmiddle⟩ := List.map_eq_append_iff.mp hfront
  have hkept : ∀ c ∈ middle, (if c = '\\' then '/' else c) = id c := by
    intro c hc
    rw [if_neg, id]
    intro hback
    refine hslash (hmiddle ▸ List.mem_map.mpr ⟨c, hc, ?_⟩)
    rw [if_pos hback]
  rw [List.map_congr_left hkept, List.map_id] at hmiddle
  exact ⟨first, back, by rw [hmiddle]⟩

theorem survivor_chars {segment : List Char}
    (hsegment : segment ∈ survivors (declaredSegments tables raw)) :
    '/' ∉ segment ∧ '\\' ∉ segment ∧ segment <:+: (tables.nfc (trim raw)).toList := by
  have hpiece : segment ∈ (declaredText tables raw).splitOn '/' :=
    (survivors_sublist _).subset hsegment
  have hslash := not_mem_of_mem_splitOn hpiece
  have hwithin := infix_of_mem_splitOn hpiece
  exact ⟨hslash, fun hback => mem_declaredText (hwithin.subset hback) rfl,
    infix_of_map_slash hwithin hslash⟩

/-! ### Normalised texts -/

section Nfc

variable (hlaws : NfcLaws tables)

include hlaws

theorem nfc_of_infix {segment text : List Char} (htext : tables.nfc (String.ofList text) = String.ofList text)
    (hwithin : segment <:+: text) : tables.nfc (String.ofList segment) = String.ofList segment := by
  obtain ⟨before, after, rfl⟩ := hwithin
  rw [String.ofList_append, String.ofList_append] at htext
  exact (hlaws.substring _ _ (hlaws.substring _ _ htext).1).2

theorem nfc_pathOf {segments : List (List Char)}
    (hsegments : ∀ segment ∈ segments, tables.nfc (String.ofList segment) = String.ofList segment)
    (hne : segments ≠ []) : tables.nfc (pathOf segments) = pathOf segments := by
  unfold pathOf
  induction segments with
  | nil => exact absurd rfl hne
  | cons first rest ih =>
      cases rest with
      | nil =>
          rw [List.intercalate_singleton]
          exact hsegments first List.mem_cons_self
      | cons second others =>
          rw [List.intercalate_cons_cons, String.ofList_append, String.ofList_append]
          exact hlaws.separated _ _ (hsegments first List.mem_cons_self)
            (ih (fun segment hsegment => hsegments segment (List.mem_cons_of_mem _ hsegment))
              (List.cons_ne_nil _ _))

theorem nfc_accepted (haccepted : normalizePortableWriterPath tables raw = some result) :
    tables.nfc result.path = result.path := by
  obtain ⟨hne, -, hpath, -⟩ := accepted_path haccepted
  rw [hpath]
  refine nfc_pathOf hlaws (fun segment hsegment => ?_) hne
  refine nfc_of_infix hlaws ?_ (survivor_chars hsegment).2.2
  rw [String.ofList_toList]
  exact hlaws.idempotent _

end Nfc

/-! ### Declaring a path again -/

theorem toList_pathOf (segments : List (List Char)) :
    (pathOf segments).toList = List.intercalate ['/'] segments := String.toList_ofList

theorem length_accepted (haccepted : normalizePortableWriterPath tables raw = some result) :
    result.path.toList.length ≤ (tables.nfc (trim raw)).toList.length := by
  obtain ⟨-, -, hpath, -⟩ := accepted_path haccepted
  calc result.path.toList.length
      = (List.intercalate ['/'] (survivors (declaredSegments tables raw))).length := by
        rw [hpath, toList_pathOf]
    _ ≤ (List.intercalate ['/'] (declaredSegments tables raw)).length :=
        length_intercalate_le (survivors_sublist _)
    _ = (tables.nfc (trim raw)).toList.length := by
        rw [declaredSegments, List.intercalate_splitOn, declaredText, List.length_map]

theorem trim_eq_self_iff {segments : List (List Char)} (hne : segments ≠ [])
    (hplain : ∀ segment ∈ segments, IsPlain segment) :
    trim (pathOf segments) = pathOf segments
      ↔ (∀ segment ∈ segments.head?, ∀ c ∈ segment.head?, isJsSpace c = false)
        ∧ ∀ segment ∈ segments.getLast?, ∀ c ∈ segment.getLast?, isJsSpace c = false := by
  have htrim : trim (pathOf segments) = pathOf segments
      ↔ trimChars (List.intercalate ['/'] segments) = List.intercalate ['/'] segments := by
    rw [trim, toList_pathOf, pathOf, String.ofList_inj]
  rw [htrim, trimChars_eq_self_iff]
  refine and_congr ?_ ?_
  · obtain ⟨first, rest, rfl⟩ := List.exists_cons_of_ne_nil hne
    rw [head?_intercalate (hplain first List.mem_cons_self).1.1]
    simp
  · obtain ⟨front, last, rfl⟩ := List.eq_nil_or_concat segments |>.resolve_left hne
    rw [List.concat_eq_append, getLast?_intercalate (hplain last (by simp)).1.1]
    simp

section Portable

variable {segments : List (List Char)} (hne : segments ≠ [])
  (hplain : ∀ segment ∈ segments, IsPlain segment) (hslash : ∀ segment ∈ segments, '/' ∉ segment)

include hne hplain hslash

theorem splitOn_pathOf : (pathOf segments).toList.splitOn '/' = segments := by
  rw [toList_pathOf, List.splitOn_intercalate '/' hslash hne]

theorem plainPath_pathOf : PlainPath (pathOf segments) := by
  have hchars : ∀ c ∈ (pathOf segments).toList, c ≠ ':' := by
    rintro c hc rfl
    rw [toList_pathOf] at hc
    rcases mem_intercalate hc with hslash | ⟨segment, hsegment, hcolon⟩
    · exact absurd hslash (by decide)
    · exact (hplain segment hsegment).2.2 hcolon
  refine ⟨?_, ?_, ?_⟩
  · obtain ⟨first, rest, rfl⟩ := List.exists_cons_of_ne_nil hne
    have hfirst := hslash first List.mem_cons_self
    rw [toList_pathOf, head?_intercalate (hplain first List.mem_cons_self).1.1]
    intro hhead
    exact hfirst (List.mem_of_head? hhead)
  · unfold hasDrivePrefix
    split
    · next letter rest heq => exact absurd rfl (hchars ':' (heq ▸ by simp))
    · rfl
  · rw [splitOn_pathOf hne hplain hslash]
    exact hplain

theorem normalize_pathOf (hback : ∀ segment ∈ segments, '\\' ∉ segment)
    (hnfc : tables.nfc (pathOf segments) = pathOf segments)
    (htrim : trim (pathOf segments) = pathOf segments) :
    normalizePortableWriterPath tables (pathOf segments)
      = some { path := pathOf segments, collisionKey := tables.toLowerCase (pathOf segments) } := by
  have hkept : ∀ c ∈ (pathOf segments).toList, (if c = '\\' then '/' else c) = id c := by
    intro c hc
    rw [if_neg, id]
    rintro rfl
    rw [toList_pathOf] at hc
    rcases mem_intercalate hc with hslash | ⟨segment, hsegment, hmem⟩
    · exact absurd hslash (by decide)
    · exact hback segment hsegment hmem
  have htext : declaredText tables (pathOf segments) = (pathOf segments).toList := by
    rw [declaredText, htrim, hnfc, List.map_congr_left hkept, List.map_id]
  have hsegments : declaredSegments tables (pathOf segments) = segments := by
    rw [declaredSegments, htext, splitOn_pathOf hne hplain hslash]
  have hpath := plainPath_pathOf hne hplain hslash
  have hnonempty : (pathOf segments).toList ≠ [] := by
    obtain ⟨first, rest, rfl⟩ := List.exists_cons_of_ne_nil hne
    intro hempty
    have hhead : ([].head? : Option Char) = first.head? := by
      rw [← hempty, toList_pathOf, head?_intercalate (hplain first List.mem_cons_self).1.1]
    exact (hplain first List.mem_cons_self).1.1 (List.head?_eq_none_iff.mp hhead.symm)
  rw [normalizePortableWriterPath_eq_some, htext, hsegments, normalizeSegments_plain hplain]
  exact ⟨⟨hnonempty, hpath.relative, hpath.noDrive⟩, segments, rfl, hne, rfl⟩

end Portable

/-- An accepted declaration gives a plain relative path and the key of that path, and the path is
accepted again with itself and its key exactly when its ends are clean. -/
theorem normalizePortableWriterPath_again (hlaws : NfcLaws tables)
    (haccepted : normalizePortableWriterPath tables raw = some result) :
    PlainPath result.path
      ∧ (∀ other again, normalizePortableWriterPath tables other = some again →
        again.path = result.path → again.collisionKey = result.collisionKey)
      ∧ (normalizePortableWriterPath tables result.path = some result ↔ CleanEnds tables raw) := by
  obtain ⟨hne, hplain, hpath, hkey⟩ := accepted_path haccepted
  have hslash : ∀ segment ∈ survivors (declaredSegments tables raw), '/' ∉ segment :=
    fun segment hsegment => (survivor_chars hsegment).1
  have hnfc := nfc_accepted hlaws haccepted
  have hclean : CleanEnds tables raw ↔ trim result.path = result.path := by
    rw [hpath, trim_eq_self_iff hne hplain, CleanEnds]
  refine ⟨?_, ?_, ?_⟩
  · rw [hpath]
    exact plainPath_pathOf hne hplain hslash
  · intro other again hagain hsame
    obtain ⟨-, -, -, hagainKey⟩ := accepted_path hagain
    rw [hkey, hagainKey, hsame]
  · rw [hclean]
    constructor
    · intro hagain
      have hwithin : trimChars result.path.toList <:+: result.path.toList := infix_trimChars _
      have htrimmed : tables.nfc (trim result.path) = trim result.path := by
        refine nfc_of_infix hlaws ?_ hwithin
        rw [String.ofList_toList, hnfc]
      have hlength := length_accepted hagain
      rw [htrimmed, trim, String.toList_ofList] at hlength
      rw [trim, hwithin.eq_of_length_le hlength, String.ofList_toList]
    · intro htrim
      rw [hpath] at hnfc htrim
      have hnormal := normalize_pathOf hne hplain hslash
        (fun segment hsegment => (survivor_chars hsegment).2.1) hnfc htrim
      rw [← hpath, ← hkey] at hnormal
      exact hnormal

/-! ### White space behind a dot segment -/

def plainTables : UnicodeTables := { nfc := fun text => text, toLowerCase := fun text => text }

theorem nfcLaws_plainTables : NfcLaws plainTables where
  idempotent := fun _ => rfl
  substring := fun _ _ _ => ⟨rfl, rfl⟩
  separated := fun _ _ _ _ => rfl

def dottedPath : PortableWriterPath := { path := "src/a.ts", collisionKey := "src/a.ts" }

theorem normalizePortableWriterPath_again_dotted :
    normalizePortableWriterPath plainTables "./src//lib/../a.ts" = some dottedPath
      ∧ PlainPath dottedPath.path
      ∧ (∀ other again, normalizePortableWriterPath plainTables other = some again →
        again.path = dottedPath.path → again.collisionKey = dottedPath.collisionKey)
      ∧ (normalizePortableWriterPath plainTables dottedPath.path = some dottedPath
        ↔ CleanEnds plainTables "./src//lib/../a.ts") := by
  have haccepted : normalizePortableWriterPath plainTables "./src//lib/../a.ts" = some dottedPath := by
    decide +kernel
  exact ⟨haccepted, normalizePortableWriterPath_again nfcLaws_plainTables haccepted⟩

/-- The path of `./ a` begins with a blank, and it is not accepted as itself when it is declared
again. -/
theorem normalizePortableWriterPath_blank :
    normalizePortableWriterPath plainTables "./ a" = some { path := " a", collisionKey := " a" }
      ∧ normalizePortableWriterPath plainTables " a" ≠ some { path := " a", collisionKey := " a" } := by
  decide +kernel

end Deckent.ExecutionTopology
