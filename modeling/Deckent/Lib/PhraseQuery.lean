import Mathlib.Data.List.Basic

/-!
# Queries of quoted phrases

A query is a sequence of quoted phrases, each with a mark for a word that goes on, and of operators that are words.
Two phrases side by side are joined, and an operator stands between two queries. A quote inside a phrase is
doubled, so what is written from tokens is read as those tokens.
-/

namespace Deckent.PhraseQuery

variable {ω : Type*}

inductive QueryToken (ω : Type*) where
  | operator (op : ω)
  | phrase (text : List Char) (starred : Bool)
  deriving DecidableEq

/-! ### Reading -/

inductive Scan where
  | gap
  | word (seen : List Char)
  | inside (seen : List Char)
  | closed (seen : List Char)

section Scan

-- The operator that a word stands for.
variable (operator? : List Char → Option ω)

def scan : Scan → List Char → Option (List (QueryToken ω))
  | .gap, [] => some []
  | .gap, c :: rest =>
      if c = ' ' then scan .gap rest
      else if c = '"' then scan (.inside []) rest
      else if c.isAlpha then scan (.word [c]) rest
      else none
  | .word seen, [] => (operator? seen).map fun op => [.operator op]
  | .word seen, c :: rest =>
      if c.isAlpha then scan (.word (seen ++ [c])) rest
      else if c = ' ' then
        (operator? seen).bind fun op => (scan .gap rest).map fun tokens => .operator op :: tokens
      else none
  | .inside _, [] => none
  | .inside seen, c :: rest => if c = '"' then scan (.closed seen) rest else scan (.inside (seen ++ [c])) rest
  | .closed seen, [] => some [.phrase seen false]
  | .closed seen, c :: rest =>
      if c = '"' then scan (.inside (seen ++ ['"'])) rest
      else if c = '*' then (scan .gap rest).map fun tokens => .phrase seen true :: tokens
      else if c = ' ' then (scan .gap rest).map fun tokens => .phrase seen false :: tokens
      else none

def readQuery (expression : List Char) : Option (List (QueryToken ω)) := scan operator? .gap expression

end Scan

inductive IsQuery : List (QueryToken ω) → Prop
  | phrase (text : List Char) (starred : Bool) : IsQuery [.phrase text starred]
  | joined {left right : List (QueryToken ω)} (hleft : IsQuery left) (hright : IsQuery right) :
      IsQuery (left ++ right)
  | binary {left right : List (QueryToken ω)} (op : ω) (hleft : IsQuery left) (hright : IsQuery right) :
      IsQuery (left ++ .operator op :: right)

/-! ### Writing -/

def doubled (c : Char) : List Char := if c = '"' then ['"', '"'] else [c]

def quoted (text : List Char) : List Char := '"' :: text.flatMap doubled ++ ['"']

/-- A token, where `spell` writes the operators. -/
def QueryToken.written (spell : ω → List Char) : QueryToken ω → List Char
  | operator op => spell op
  | phrase text starred => quoted text ++ if starred then ['*'] else []

variable {operator? : List Char → Option ω} {spell : ω → List Char}

theorem scan_inside (text seen rest : List Char) :
    scan operator? (.inside seen) (text.flatMap doubled ++ '"' :: rest) = scan operator? (.closed (seen ++ text)) rest := by
  induction text generalizing seen with
  | nil => simp [scan]
  | cons c others ih =>
      rw [List.flatMap_cons, List.append_assoc]
      by_cases hquote : c = '"'
      · subst hquote
        rw [show doubled '"' = ['"', '"'] from if_pos rfl]
        have hstep := ih (seen ++ ['"'])
        simpa [scan, List.append_assoc] using hstep
      · rw [show doubled c = [c] from if_neg hquote]
        have hstep := ih (seen ++ [c])
        simpa [scan, hquote, List.append_assoc] using hstep

theorem scan_word {word : List Char} (halpha : ∀ c ∈ word, c.isAlpha = true) (seen rest : List Char) :
    scan operator? (.word seen) (word ++ rest) = scan operator? (.word (seen ++ word)) rest := by
  induction word generalizing seen with
  | nil => simp
  | cons c others ih =>
      have hstep := ih (fun d hd => halpha d (List.mem_cons_of_mem _ hd)) (seen ++ [c])
      rw [List.cons_append, scan, if_pos (halpha c List.mem_cons_self), hstep, List.append_assoc,
        List.singleton_append]

/-- The words of the operators are words, and stand for them. -/
structure Spells (operator? : List Char → Option ω) (spell : ω → List Char) : Prop where
  ne_nil : ∀ op, spell op ≠ []
  isAlpha : ∀ op, ∀ c ∈ spell op, c.isAlpha = true
  read : ∀ op, operator? (spell op) = some op

theorem scan_gap_word (hspells : Spells operator? spell) (op : ω) (rest : List Char) :
    scan operator? .gap (spell op ++ rest) = scan operator? (.word (spell op)) rest := by
  cases hword : spell op with
  | nil => exact absurd hword (hspells.ne_nil op)
  | cons c others =>
      have halpha := hspells.isAlpha op
      rw [hword] at halpha
      have hc := halpha c List.mem_cons_self
      have hblank : c ≠ ' ' ∧ c ≠ '"' := by
        constructor <;> rintro rfl <;> simp at hc
      rw [List.cons_append, scan, if_neg hblank.1, if_neg hblank.2, if_pos hc,
        scan_word (fun d hd => halpha d (List.mem_cons_of_mem _ hd)), List.singleton_append]

theorem scan_gap_quoted (text rest : List Char) :
    scan operator? .gap (quoted text ++ rest) = scan operator? (.closed text) rest := by
  have hinside : scan operator? (.inside []) (text.flatMap doubled ++ '"' :: rest)
      = scan operator? (.closed ([] ++ text)) rest := scan_inside text [] rest
  unfold quoted
  rw [List.append_assoc, List.cons_append, List.singleton_append, scan, if_neg (by decide), if_pos rfl, hinside,
    List.nil_append]

theorem scan_written_last (hspells : Spells operator? spell) (token : QueryToken ω) :
    scan operator? .gap (token.written spell) = some [token] := by
  cases token with
  | operator op =>
      have hword := scan_gap_word hspells op []
      rw [List.append_nil] at hword
      rw [QueryToken.written, hword, scan, hspells.read op]
      rfl
  | phrase text starred =>
      rw [QueryToken.written, scan_gap_quoted]
      cases starred <;> simp [scan]

theorem scan_written_cons (hspells : Spells operator? spell) (token : QueryToken ω) (rest : List Char) :
    scan operator? .gap (token.written spell ++ ' ' :: rest)
      = (scan operator? .gap rest).map fun tokens => token :: tokens := by
  cases token with
  | operator op =>
      rw [QueryToken.written, scan_gap_word hspells, scan, if_neg (by decide), if_pos rfl, hspells.read op]
      rfl
  | phrase text starred =>
      rw [QueryToken.written, List.append_assoc, scan_gap_quoted]
      cases starred <;> simp [scan]

theorem readQuery_written (hspells : Spells operator? spell) (tokens : List (QueryToken ω)) :
    readQuery operator? ([' '].intercalate (tokens.map (·.written spell))) = some tokens := by
  unfold readQuery
  induction tokens with
  | nil => rfl
  | cons token rest ih =>
      cases rest with
      | nil => simpa using scan_written_last hspells token
      | cons next others =>
          rw [List.map_cons, List.map_cons, List.intercalate_cons_cons, List.append_assoc, List.singleton_append,
            scan_written_cons hspells, ← List.map_cons, ih]
          rfl

theorem isQuery_of_phrases {tokens : List (QueryToken ω)} (hne : tokens ≠ [])
    (hphrases : ∀ token ∈ tokens, ∃ text starred, token = .phrase text starred) : IsQuery tokens := by
  induction tokens with
  | nil => exact absurd rfl hne
  | cons token rest ih =>
      obtain ⟨text, starred, rfl⟩ := hphrases token List.mem_cons_self
      cases rest with
      | nil => exact .phrase text starred
      | cons next others =>
          have hrest := ih (by simp) fun other hother => hphrases other (List.mem_cons_of_mem _ hother)
          exact .joined (.phrase text starred) hrest

theorem isQuery_of_intersperse {tokens : List (QueryToken ω)} (op : ω) (hne : tokens ≠ [])
    (hphrases : ∀ token ∈ tokens, ∃ text starred, token = .phrase text starred) :
    IsQuery (tokens.intersperse (.operator op)) := by
  induction tokens with
  | nil => exact absurd rfl hne
  | cons token rest ih =>
      obtain ⟨text, starred, rfl⟩ := hphrases token List.mem_cons_self
      cases rest with
      | nil => exact .phrase text starred
      | cons next others =>
          have hrest := ih (by simp) fun other hother => hphrases other (List.mem_cons_of_mem _ hother)
          exact .binary op (.phrase text starred) hrest

end Deckent.PhraseQuery
