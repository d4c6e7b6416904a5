import Mathlib.Data.List.TakeWhile
import Deckent.Lib.PhraseQuery
import Deckent.Model.MemoryQuery

/-!
# Two expressions for one search

The expression of a text is read as the tokens that the user wrote, with `OR` between phrases where the mode asks for
it. The normalized text has the same tokens exactly where none of them is an operator and the normalization of each
leaves something, and no star that was not there.
-/

namespace Deckent.MemoryQuery

open PhraseQuery

variable {toLowerCase nfd : Text → Text} {text token : Text} {c : Char}

/-! ### What the user wrote -/

inductive FtsOperator where
  | or
  | and
  | not
  deriving DecidableEq

def FtsOperator.word : FtsOperator → Text
  | or => ['O', 'R']
  | and => ['A', 'N', 'D']
  | not => ['N', 'O', 'T']

def operator? (token : Text) : Option FtsOperator :=
  if token = ['O', 'R'] then some .or
  else if token = ['A', 'N', 'D'] then some .and
  else if token = ['N', 'O', 'T'] then some .not
  else none

def userPhrase (token : Text) : QueryToken FtsOperator :=
  if token.getLast? = some '*' then .phrase token.dropLast true else .phrase token false

def userToken (token : Text) : QueryToken FtsOperator :=
  (operator? token).elim (userPhrase token) .operator

def isPhrase : QueryToken FtsOperator → Bool
  | .operator _ => false
  | .phrase _ _ => true

def withOr : List (QueryToken FtsOperator) → List (QueryToken FtsOperator)
  | [] => []
  | [token] => [token]
  | token :: next :: rest =>
      if isPhrase token && isPhrase next then token :: .operator .or :: withOr (next :: rest)
      else token :: withOr (next :: rest)

def userTokens (mode : QueryMode) (text : Text) : List (QueryToken FtsOperator) :=
  if mode = .and then (tokensOf text).map userToken else withOr ((tokensOf text).map userToken)

theorem spells_word : Spells operator? FtsOperator.word where
  ne_nil := fun op => by cases op <;> decide
  isAlpha := fun op => List.all_eq_true.mp (by cases op <;> rfl)
  read := fun op => by cases op <;> decide

theorem operator?_eq_some {op : FtsOperator} : operator? token = some op ↔ token = op.word := by
  unfold operator?
  constructor
  · intro hop
    split at hop
    · next htoken => obtain rfl := Option.some.inj hop; exact htoken
    · split at hop
      · next htoken => obtain rfl := Option.some.inj hop; exact htoken
      · split at hop
        · next htoken => obtain rfl := Option.some.inj hop; exact htoken
        · cases hop
  · rintro rfl
    cases op <;> decide

theorem operators_contains : operators.contains token = (operator? token).isSome := by
  unfold operators operator?
  rw [List.contains_eq_mem, Bool.eq_iff_iff, decide_eq_true_iff, List.mem_cons, List.mem_cons, List.mem_singleton]
  split
  · next htoken => simp [htoken]
  · split
    · next htoken => simp [htoken]
    · split
      · next htoken => simp [htoken]
      · next hor hand hnot => simp [hor, hand, hnot]

theorem operators_contains_written (token : QueryToken FtsOperator) :
    operators.contains (token.written FtsOperator.word) = !isPhrase token := by
  rw [operators_contains]
  cases token with
  | operator op => cases op <;> rfl
  | phrase text starred =>
      have hnone : operator? (QueryToken.written FtsOperator.word (.phrase text starred)) = none := by
        rw [Option.eq_none_iff_forall_ne_some]
        intro op hop
        have hword := operator?_eq_some.mp hop
        rw [QueryToken.written, quoted, List.cons_append, List.cons_append] at hword
        cases op <;> cases hword
      rw [hnone]
      rfl

theorem quoteLiteral_eq (value : Text) : quoteLiteral value = quoted value := rfl

theorem escapeToken_eq (token : Text) : escapeToken token = (userToken token).written FtsOperator.word := by
  unfold escapeToken userToken
  rw [operators_contains]
  cases hop : operator? token with
  | some op =>
      rw [Option.isSome_some, if_pos rfl]
      exact operator?_eq_some.mp hop
  | none =>
      rw [Option.isSome_none, if_neg (by simp), Option.elim_none]
      unfold userPhrase
      split
      · rfl
      · rw [QueryToken.written, if_neg (by simp), List.append_nil, quoteLiteral_eq]

theorem partsFrom_written (before : QueryToken FtsOperator) (tokens : List (QueryToken FtsOperator)) :
    before.written FtsOperator.word :: partsFrom (some (before.written FtsOperator.word))
        (tokens.map (·.written FtsOperator.word))
      = (withOr (before :: tokens)).map (·.written FtsOperator.word) := by
  induction tokens generalizing before with
  | nil => rfl
  | cons next rest ih =>
      rw [List.map_cons, partsFrom, Option.any_some, operators_contains_written, operators_contains_written,
        Bool.not_not, Bool.not_not, withOr]
      by_cases hboth : (isPhrase before && isPhrase next) = true
      · rw [if_pos hboth, if_pos (by rwa [Bool.and_comm]), List.map_cons, List.map_cons, ← ih next]
        rfl
      · rw [if_neg hboth, if_neg (by rwa [Bool.and_comm]), List.map_cons, ← ih next]
        rfl

theorem partsFrom_none (tokens : List (QueryToken FtsOperator)) :
    partsFrom none (tokens.map (·.written FtsOperator.word)) = (withOr tokens).map (·.written FtsOperator.word) := by
  cases tokens with
  | nil => rfl
  | cons token rest => exact partsFrom_written token rest

theorem readQuery_escapeFts5Query (mode : QueryMode) (text : Text) :
    readQuery operator? (escapeFts5Query mode text) = some (userTokens mode text) := by
  have hparts : (tokensOf text).map escapeToken
      = ((tokensOf text).map userToken).map (·.written FtsOperator.word) := by
    rw [List.map_map]
    exact List.map_congr_left fun token _ => escapeToken_eq token
  unfold escapeFts5Query userTokens
  dsimp only
  rw [hparts]
  split
  · exact readQuery_written spells_word _
  · rw [partsFrom_none]
    exact readQuery_written spells_word _

/-! ### Tokens of a text -/

def Solid (text : Text) : Prop := ∀ c ∈ text, isJsSpace c = false

theorem tokensOf_solid (hsolid : Solid text) : tokensOf text = [text].filter (· ≠ []) := by
  unfold tokensOf
  rw [List.splitOnP_eq_singleton hsolid]

theorem tokensOf_append_cons (left right : Text) (hspace : isJsSpace c = true) :
    tokensOf (left ++ c :: right) = tokensOf left ++ tokensOf right := by
  unfold tokensOf
  rw [List.splitOnP_append_cons left right hspace, List.filter_append]

theorem text_induction {motive : Text → Prop} (hsolid : ∀ text, Solid text → motive text)
    (hspace : ∀ left c right, Solid left → isJsSpace c = true → motive right → motive (left ++ c :: right))
    (text : Text) : motive text := by
  induction hlength : text.length using Nat.strong_induction_on generalizing text with
  | _ length ih =>
      by_cases hall : Solid text
      · exact hsolid text hall
      · have hleft : Solid (text.takeWhile fun c => !isJsSpace c) := fun c hc => by
          simpa using List.mem_takeWhile_imp hc
        cases hright : text.dropWhile fun c => !isJsSpace c with
        | nil =>
            rw [List.dropWhile_eq_nil_iff] at hright
            exact absurd (fun c hc => by simpa using hright c hc) hall
        | cons c right =>
            have hsplit := List.takeWhile_append_dropWhile (p := fun c => !isJsSpace c) (l := text)
            have hc : isJsSpace c = true := by
              have hhead := List.head?_dropWhile_not (fun c => !isJsSpace c) text
              rw [hright] at hhead
              simpa using hhead
            rw [hright] at hsplit
            rw [← hsplit]
            refine hspace _ c right hleft hc (ih right.length ?_ right rfl)
            rw [← hlength, ← hsplit, List.length_append, List.length_cons]
            omega

theorem ne_nil_of_mem_tokensOf (htoken : token ∈ tokensOf text) : token ≠ [] := by
  simpa using (List.mem_filter.mp htoken).2

theorem mem_of_mem_tokensOf (htoken : token ∈ tokensOf text) (hc : c ∈ token) : c ∈ text := by
  induction text using text_induction with
  | hsolid text hsolid =>
      rw [tokensOf_solid hsolid] at htoken
      obtain rfl := List.mem_singleton.mp (List.mem_filter.mp htoken).1
      exact hc
  | hspace left s right hleft hs ih =>
      rw [tokensOf_append_cons left right hs] at htoken
      obtain hin | hin := List.mem_append.mp htoken
      · rw [tokensOf_solid hleft] at hin
        obtain rfl := List.mem_singleton.mp (List.mem_filter.mp hin).1
        exact List.mem_append_left _ hc
      · exact List.mem_append_right _ (List.mem_cons_of_mem _ (ih hin))

/-! ### Normalizing -/

/-- What Unicode says of lower-casing and of the canonical decomposition: a star and white space stay in their
place and what stands on their sides is mapped on its own, no white space comes from elsewhere, and no capital
within ASCII is left. U+FEFF is ignored where the case of a capital sigma is decided. -/
structure Documented (toLowerCase nfd : Text → Text) : Prop where
  lower_nil : toLowerCase [] = []
  lower_split : ∀ left c right, c = '*' ∨ isJsSpace c = true ∧ c ≠ '\uFEFF' →
    toLowerCase (left ++ c :: right) = toLowerCase left ++ c :: toLowerCase right
  lower_solid : ∀ text, Solid text → Solid (toLowerCase text)
  nfd_nil : nfd [] = []
  nfd_star : ∀ left right, nfd (left ++ '*' :: right) = nfd left ++ '*' :: nfd right
  nfd_space : ∀ left c right, isJsSpace c = true →
    ∃ blank, isJsSpace blank = true ∧ nfd (left ++ c :: right) = nfd left ++ blank :: nfd right
  nfd_solid : ∀ text, Solid text → Solid (nfd text)
  noCapital : ∀ text, ∀ c ∈ nfd (toLowerCase text), c.isUpper = false

theorem turkishLower_of_space (hspace : isJsSpace c = true) : turkishLower c = c := by
  unfold turkishLower
  split_ifs with h1 h2 h3 h4 h5 h6 h7 <;> first | rfl | (subst_vars; exact absurd hspace (by decide))

theorem isJsSpace_turkishLower (hsolid : isJsSpace c = false) : isJsSpace (turkishLower c) = false := by
  unfold turkishLower
  split_ifs <;> first | decide | exact hsolid

theorem turkishPlain_of_space (hspace : isJsSpace c = true) : turkishPlain c = c := by
  unfold turkishPlain
  split_ifs with h1 h2 h3 h4 h5 h6 <;> first | rfl | (subst_vars; exact absurd hspace (by decide))

theorem isJsSpace_turkishPlain (hsolid : isJsSpace c = false) : isJsSpace (turkishPlain c) = false := by
  unfold turkishPlain
  split_ifs <;> first | decide | exact hsolid

theorem isUpper_turkishPlain (hlower : c.isUpper = false) : (turkishPlain c).isUpper = false := by
  unfold turkishPlain
  split_ifs <;> first | decide | exact hlower

theorem isCombining_of_space (hspace : isJsSpace c = true) : isCombining c = false := by
  unfold isJsSpace at hspace
  unfold isCombining
  simp only [Bool.or_eq_true, Bool.and_eq_true, decide_eq_true_eq, List.contains_eq_mem, List.mem_cons,
    List.not_mem_nil, or_false] at hspace
  simp only [Bool.and_eq_false_iff, decide_eq_false_iff_not]
  omega

theorem normalize_nil : turkishNormalize toLowerCase nfd [] = [] := if_pos rfl

section Documented

variable (hdoc : Documented toLowerCase nfd)

include hdoc

theorem turkishNormalize_eq (text : Text) : turkishNormalize toLowerCase nfd text
    = ((nfd (toLowerCase (text.map turkishLower))).filter fun c => !isCombining c).map turkishPlain := by
  unfold turkishNormalize
  split
  · next hempty => rw [hempty, List.map_nil, hdoc.lower_nil, hdoc.nfd_nil]; rfl
  · rfl

theorem normalize_space (left right : Text) (hspace : isJsSpace c = true) (hbom : c ≠ '\uFEFF') :
    ∃ blank, isJsSpace blank = true ∧ turkishNormalize toLowerCase nfd (left ++ c :: right)
      = turkishNormalize toLowerCase nfd left ++ blank :: turkishNormalize toLowerCase nfd right := by
  have hlower := hdoc.lower_split (left.map turkishLower) c (right.map turkishLower) (.inr ⟨hspace, hbom⟩)
  obtain ⟨blank, hblank, hnfd⟩ := hdoc.nfd_space (toLowerCase (left.map turkishLower)) c
    (toLowerCase (right.map turkishLower)) hspace
  refine ⟨blank, hblank, ?_⟩
  rw [turkishNormalize_eq hdoc, turkishNormalize_eq hdoc, turkishNormalize_eq hdoc, List.map_append, List.map_cons,
    turkishLower_of_space hspace, hlower, hnfd, List.filter_append,
    List.filter_cons_of_pos (by simp [isCombining_of_space hblank]), List.map_append, List.map_cons,
    turkishPlain_of_space hblank]

theorem normalize_star (base : Text) : turkishNormalize toLowerCase nfd (base ++ ['*'])
    = turkishNormalize toLowerCase nfd base ++ ['*'] := by
  have hlower := hdoc.lower_split (base.map turkishLower) '*' [] (.inl rfl)
  have hnfd := hdoc.nfd_star (toLowerCase (base.map turkishLower)) []
  rw [hdoc.lower_nil] at hlower
  rw [hdoc.nfd_nil] at hnfd
  rw [turkishNormalize_eq hdoc, turkishNormalize_eq hdoc, List.map_append, List.map_singleton,
    show turkishLower '*' = '*' from rfl, hlower, hnfd, List.filter_append, List.map_append]
  rfl

theorem solid_normalize (hsolid : Solid text) : Solid (turkishNormalize toLowerCase nfd text) := by
  rw [turkishNormalize_eq hdoc]
  have hmapped : Solid (text.map turkishLower) := by
    intro c hc
    obtain ⟨old, hold, rfl⟩ := List.mem_map.mp hc
    exact isJsSpace_turkishLower (hsolid old hold)
  intro c hc
  obtain ⟨old, hold, rfl⟩ := List.mem_map.mp hc
  exact isJsSpace_turkishPlain (hdoc.nfd_solid _ (hdoc.lower_solid _ hmapped) old (List.mem_filter.mp hold).1)

theorem isUpper_normalize (hc : c ∈ turkishNormalize toLowerCase nfd text) : c.isUpper = false := by
  rw [turkishNormalize_eq hdoc] at hc
  obtain ⟨old, hold, rfl⟩ := List.mem_map.mp hc
  exact isUpper_turkishPlain (hdoc.noCapital _ old (List.mem_filter.mp hold).1)

theorem tokensOf_normalize (hbom : '\uFEFF' ∉ text) : tokensOf (turkishNormalize toLowerCase nfd text)
    = ((tokensOf text).map (turkishNormalize toLowerCase nfd)).filter (· ≠ []) := by
  have hone {text : Text} (hsolid : Solid text) : tokensOf (turkishNormalize toLowerCase nfd text)
      = ((tokensOf text).map (turkishNormalize toLowerCase nfd)).filter (· ≠ []) := by
    rw [tokensOf_solid hsolid, tokensOf_solid (solid_normalize hdoc hsolid)]
    by_cases hempty : text = []
    · rw [hempty, normalize_nil]
      rfl
    · have hkept : [text].filter (· ≠ []) = [text] := List.filter_cons_of_pos (by simpa using hempty)
      rw [hkept, List.map_singleton]
  induction text using text_induction with
  | hsolid text hsolid => exact hone hsolid
  | hspace left s right hleft hs ih =>
      rw [List.mem_append, List.mem_cons, not_or, not_or] at hbom
      obtain ⟨blank, hblank, hnormalized⟩ := normalize_space hdoc left right hs (Ne.symm hbom.2.1)
      rw [hnormalized, tokensOf_append_cons _ _ hblank, tokensOf_append_cons _ _ hs, hone hleft, ih hbom.2.2,
        List.map_append, List.filter_append]

end Documented

/-! ### Both expressions -/

def normalizedToken (toLowerCase nfd : Text → Text) : QueryToken FtsOperator → QueryToken FtsOperator
  | .operator op => .operator op
  | .phrase text starred => .phrase (turkishNormalize toLowerCase nfd text) starred

/-- Both expressions are queries of what the user wrote, and the normalized one has the same operators and stars
with each literal normalized. -/
structure Agrees (toLowerCase nfd : Text → Text) (mode : QueryMode) (text : Text) : Prop where
  read : readQuery operator? (escapeFts5Query mode text) = some (userTokens mode text)
  formed : IsQuery (userTokens mode text)
  readNormalized : readQuery operator? (escapeFts5Query mode (turkishNormalize toLowerCase nfd text))
    = some ((userTokens mode text).map (normalizedToken toLowerCase nfd))
  formedNormalized : IsQuery ((userTokens mode text).map (normalizedToken toLowerCase nfd))

/-- No token is an operator, each keeps a character and gets no star at its end when it is normalized, and U+FEFF
does not change how the tokens are normalized. -/
structure IsLiteral (toLowerCase nfd : Text → Text) (text : Text) : Prop where
  operators : ∀ token ∈ tokensOf text, operators.contains token = false
  kept : ∀ token ∈ tokensOf text, turkishNormalize toLowerCase nfd token ≠ []
  unstarred : ∀ token ∈ tokensOf text, token.getLast? ≠ some '*' →
    (turkishNormalize toLowerCase nfd token).getLast? ≠ some '*'
  byteOrderMark : '\uFEFF' ∈ text → tokensOf (turkishNormalize toLowerCase nfd text)
    = (tokensOf text).map (turkishNormalize toLowerCase nfd)

theorem not_operator_of_lower (hlower : ∀ c ∈ token, c.isUpper = false) : operators.contains token = false := by
  rw [operators_contains, Option.isSome_eq_false_iff, Option.isNone_iff_eq_none, Option.eq_none_iff_forall_ne_some]
  intro op hop
  rw [operator?_eq_some.mp hop] at hlower
  cases op <;> simp [FtsOperator.word] at hlower

theorem userToken_of_literal (hliteral : operators.contains token = false) : userToken token = userPhrase token := by
  rw [operators_contains, Option.isSome_eq_false_iff, Option.isNone_iff_eq_none] at hliteral
  rw [userToken, hliteral, Option.elim_none]

theorem userPhrase_star (base : Text) : userPhrase (base ++ ['*']) = .phrase base true := by
  unfold userPhrase
  rw [if_pos (by simp), List.dropLast_concat]

theorem eq_append_star (hlast : token.getLast? = some '*') : token = token.dropLast ++ ['*'] := by
  obtain ⟨before, rfl⟩ := List.getLast?_eq_some_iff.mp hlast
  rw [List.dropLast_concat]

def sourceText : QueryToken FtsOperator → Text
  | .operator op => op.word
  | .phrase text starred => text ++ if starred then ['*'] else []

theorem sourceText_userPhrase (token : Text) : sourceText (userPhrase token) = token := by
  unfold userPhrase
  split
  · next hlast => exact (eq_append_star hlast).symm
  · exact List.append_nil token

theorem sourceText_userToken (token : Text) : sourceText (userToken token) = token := by
  unfold userToken
  cases hop : operator? token with
  | some op => exact (operator?_eq_some.mp hop).symm
  | none => exact sourceText_userPhrase token

theorem isPhrase_userPhrase (token : Text) : ∃ text starred, userPhrase token = .phrase text starred := by
  unfold userPhrase
  split <;> exact ⟨_, _, rfl⟩

theorem isPhrase_normalizedToken (token : QueryToken FtsOperator) :
    isPhrase (normalizedToken toLowerCase nfd token) = isPhrase token := by
  cases token <;> rfl

theorem withOr_map_normalizedToken (tokens : List (QueryToken FtsOperator)) :
    withOr (tokens.map (normalizedToken toLowerCase nfd)) = (withOr tokens).map (normalizedToken toLowerCase nfd) := by
  induction tokens with
  | nil => rfl
  | cons token rest ih =>
      cases rest with
      | nil => rfl
      | cons next others =>
          rw [List.map_cons, List.map_cons, withOr, withOr, isPhrase_normalizedToken, isPhrase_normalizedToken,
            ← List.map_cons, ih]
          split <;> rfl

theorem withOr_phrases {tokens : List (QueryToken FtsOperator)}
    (hphrases : ∀ token ∈ tokens, ∃ text starred, token = .phrase text starred) :
    withOr tokens = tokens.intersperse (.operator .or) := by
  induction tokens with
  | nil => rfl
  | cons token rest ih =>
      cases rest with
      | nil => rfl
      | cons next others =>
          obtain ⟨text, starred, rfl⟩ := hphrases token List.mem_cons_self
          obtain ⟨text', starred', rfl⟩ := hphrases next (List.mem_cons_of_mem _ List.mem_cons_self)
          rw [withOr, if_pos (show (isPhrase (.phrase text starred) && isPhrase (.phrase text' starred')) = true from rfl),
            ih fun other hother => hphrases other (List.mem_cons_of_mem _ hother)]
          rfl

theorem userToken_normalize (hdoc : Documented toLowerCase nfd) (hliteral : operators.contains token = false)
    (hunstarred : token.getLast? ≠ some '*' → (turkishNormalize toLowerCase nfd token).getLast? ≠ some '*') :
    userToken (turkishNormalize toLowerCase nfd token) = normalizedToken toLowerCase nfd (userToken token) := by
  have hnormalized : operators.contains (turkishNormalize toLowerCase nfd token) = false :=
    not_operator_of_lower fun c hc => isUpper_normalize hdoc hc
  rw [userToken_of_literal hliteral, userToken_of_literal hnormalized]
  by_cases hlast : token.getLast? = some '*'
  · rw [eq_append_star hlast, normalize_star hdoc, userPhrase_star, userPhrase_star]
    rfl
  · unfold userPhrase
    rw [if_neg hlast, if_neg (hunstarred hlast)]
    rfl

theorem userTokens_normalize (mode : QueryMode)
    (htokens : (tokensOf (turkishNormalize toLowerCase nfd text)).map userToken
      = ((tokensOf text).map userToken).map (normalizedToken toLowerCase nfd)) :
    userTokens mode (turkishNormalize toLowerCase nfd text)
      = (userTokens mode text).map (normalizedToken toLowerCase nfd) := by
  unfold userTokens
  split
  · exact htokens
  · rw [htokens, withOr_map_normalizedToken]

theorem isQuery_userTokens (mode : QueryMode) (hne : tokensOf text ≠ [])
    (hliteral : ∀ token ∈ tokensOf text, operators.contains token = false) : IsQuery (userTokens mode text) := by
  have hphrases : ∀ token ∈ (tokensOf text).map userToken, ∃ text starred, token = .phrase text starred := by
    intro token htoken
    obtain ⟨word, hword, rfl⟩ := List.mem_map.mp htoken
    rw [userToken_of_literal (hliteral word hword)]
    exact isPhrase_userPhrase word
  have hsome : (tokensOf text).map userToken ≠ [] := by simpa using hne
  unfold userTokens
  split
  · exact isQuery_of_phrases hsome hphrases
  · rw [withOr_phrases hphrases]
    exact isQuery_of_intersperse .or hsome hphrases

/-- Both expressions agree in every mode exactly where the text is literal. -/
theorem agrees_iff (hdoc : Documented toLowerCase nfd) (hne : tokensOf text ≠ []) :
    (∀ mode, Agrees toLowerCase nfd mode text) ↔ IsLiteral toLowerCase nfd text := by
  constructor
  · intro hagrees
    have htokens : (tokensOf (turkishNormalize toLowerCase nfd text)).map userToken
        = ((tokensOf text).map userToken).map (normalizedToken toLowerCase nfd) :=
      Option.some.inj ((readQuery_escapeFts5Query .and _).symm.trans (hagrees .and).readNormalized)
    have hoperators : ∀ token ∈ tokensOf text, operators.contains token = false := by
      intro token htoken
      rw [operators_contains, Option.isSome_eq_false_iff, Option.isNone_iff_eq_none,
        Option.eq_none_iff_forall_ne_some]
      intro op hop
      -- the operator would stand in the normalized text, which has no capitals
      have hmem : QueryToken.operator op ∈ (tokensOf (turkishNormalize toLowerCase nfd text)).map userToken := by
        rw [htokens]
        refine List.mem_map.mpr ⟨_, List.mem_map_of_mem htoken, ?_⟩
        rw [userToken, hop]
        rfl
      obtain ⟨other, hother, hsame⟩ := List.mem_map.mp hmem
      have hword : other = op.word := by
        rw [← sourceText_userToken other, hsame]
        rfl
      have hnone := not_operator_of_lower fun c hc => isUpper_normalize hdoc (mem_of_mem_tokensOf hother hc)
      rw [operators_contains, hword, spells_word.read op] at hnone
      cases hnone
    have hjoined : tokensOf (turkishNormalize toLowerCase nfd text)
        = (tokensOf text).map (turkishNormalize toLowerCase nfd) := by
      have hsource := congrArg (List.map sourceText) htokens
      rw [List.map_map, List.map_map, List.map_map] at hsource
      rw [show sourceText ∘ userToken = id from funext sourceText_userToken, List.map_id] at hsource
      rw [hsource]
      refine List.map_congr_left fun token htoken => ?_
      rw [Function.comp_apply, Function.comp_apply, userToken_of_literal (hoperators token htoken)]
      by_cases hlast : token.getLast? = some '*'
      · rw [eq_append_star hlast, normalize_star hdoc, userPhrase_star]
        rfl
      · unfold userPhrase
        rw [if_neg hlast]
        exact List.append_nil _
    refine ⟨hoperators, fun token htoken => ?_, fun token htoken hunstarred => ?_, fun _ => hjoined⟩
    · exact ne_nil_of_mem_tokensOf (hjoined ▸ List.mem_map_of_mem htoken)
    · rw [hjoined, List.map_map, List.map_map] at htokens
      have hsame := List.map_inj_left.mp htokens token htoken
      rw [Function.comp_apply, Function.comp_apply, userToken_of_literal (hoperators token htoken), userPhrase,
        if_neg hunstarred] at hsame
      intro hstarred
      have hnormalized : operators.contains (turkishNormalize toLowerCase nfd token) = false :=
        not_operator_of_lower fun c hc => isUpper_normalize hdoc hc
      rw [userToken_of_literal hnormalized, userPhrase, if_pos hstarred] at hsame
      exact absurd (QueryToken.phrase.inj hsame).2 (by decide)
  · intro hliteral mode
    have hjoined : tokensOf (turkishNormalize toLowerCase nfd text)
        = (tokensOf text).map (turkishNormalize toLowerCase nfd) := by
      by_cases hbom : '\uFEFF' ∈ text
      · exact hliteral.byteOrderMark hbom
      · rw [tokensOf_normalize hdoc hbom, List.filter_eq_self]
        intro token htoken
        obtain ⟨word, hword, rfl⟩ := List.mem_map.mp htoken
        simpa using hliteral.kept word hword
    have htokens : (tokensOf (turkishNormalize toLowerCase nfd text)).map userToken
        = ((tokensOf text).map userToken).map (normalizedToken toLowerCase nfd) := by
      rw [hjoined, List.map_map, List.map_map]
      exact List.map_congr_left fun token htoken =>
        userToken_normalize hdoc (hliteral.operators token htoken) (hliteral.unstarred token htoken)
    have hnormalized := userTokens_normalize mode htokens
    refine ⟨readQuery_escapeFts5Query mode text, isQuery_userTokens mode hne hliteral.operators, ?_, ?_⟩
    · rw [← hnormalized]
      exact readQuery_escapeFts5Query mode _
    · rw [← hnormalized]
      refine isQuery_userTokens mode ?_ fun token htoken => ?_
      · rw [hjoined]
        simpa using hne
      · exact not_operator_of_lower fun c hc => isUpper_normalize hdoc (mem_of_mem_tokensOf htoken hc)

def asciiLower (text : Text) : Text := text.map Char.toLower

theorem toLower_cases (c : Char) : c.toLower = c ∧ c.isUpper = false
    ∨ (97 ≤ c.toLower.toNat ∧ c.toLower.toNat ≤ 122) ∧ 65 ≤ c.toNat ∧ c.toNat ≤ 90 := by
  unfold Char.toLower
  split
  · next hupper =>
      right
      have hlow : 65 ≤ c.toNat := hupper.1
      have hhigh : c.toNat ≤ 90 := hupper.2
      have hval : (c.val + ('a'.val - 'A'.val)).toNat = c.toNat + 32 := by
        rw [UInt32.toNat_add]
        exact Nat.mod_eq_of_lt (show c.toNat + 32 < 2 ^ 32 by omega)
      refine ⟨?_, hlow, hhigh⟩
      change 97 ≤ (c.val + ('a'.val - 'A'.val)).toNat ∧ (c.val + ('a'.val - 'A'.val)).toNat ≤ 122
      omega
  · next hupper =>
      refine .inl ⟨rfl, ?_⟩
      unfold Char.isUpper
      simpa using hupper

theorem isJsSpace_of_letter (hletter : 65 ≤ c.toNat ∧ c.toNat ≤ 122) : isJsSpace c = false := by
  rw [Bool.eq_false_iff]
  intro hspace
  unfold isJsSpace at hspace
  simp only [Bool.or_eq_true, Bool.and_eq_true, decide_eq_true_eq, List.contains_eq_mem, List.mem_cons,
    List.not_mem_nil, or_false] at hspace
  omega

theorem isJsSpace_toLower (c : Char) : isJsSpace c.toLower = isJsSpace c := by
  obtain ⟨hsame, -⟩ | ⟨hlower, hupper⟩ := toLower_cases c
  · rw [hsame]
  · rw [isJsSpace_of_letter ⟨by omega, by omega⟩, isJsSpace_of_letter ⟨by omega, by omega⟩]

theorem isUpper_toLower (c : Char) : c.toLower.isUpper = false := by
  obtain ⟨hsame, hlower⟩ | ⟨hlower, -⟩ := toLower_cases c
  · rw [hsame, hlower]
  · rw [Bool.eq_false_iff]
    intro hupper
    unfold Char.isUpper at hupper
    simp only [decide_eq_true_eq] at hupper
    have hle : c.toLower.toNat ≤ 90 := hupper.2
    omega

theorem asciiLower_documented : Documented asciiLower id where
  lower_nil := rfl
  lower_split := by
    rintro left c right (rfl | ⟨hspace, -⟩)
    · simp [asciiLower]
    · have hsame : c.toLower = c := by
        obtain ⟨hsame, -⟩ | ⟨hlower, -⟩ := toLower_cases c
        · exact hsame
        · rw [← isJsSpace_toLower, isJsSpace_of_letter ⟨by omega, by omega⟩] at hspace
          cases hspace
      rw [asciiLower, List.map_append, List.map_cons, hsame]
      rfl
  lower_solid := by
    intro text hsolid c hc
    obtain ⟨old, hold, rfl⟩ := List.mem_map.mp hc
    rw [isJsSpace_toLower]
    exact hsolid old hold
  nfd_nil := rfl
  nfd_star := fun left right => rfl
  nfd_space := fun left c right hspace => ⟨c, hspace, rfl⟩
  nfd_solid := fun text hsolid => hsolid
  noCapital := by
    intro text c hc
    obtain ⟨old, -, rfl⟩ := List.mem_map.mp hc
    exact isUpper_toLower old

theorem agrees_iff_dock : (∀ mode, Agrees asciiLower id mode "dock* beat".toList)
    ↔ IsLiteral asciiLower id "dock* beat".toList :=
  agrees_iff asciiLower_documented (by decide)

/-- An operator is a literal in the normalized expression. -/
theorem not_agrees : ¬ ∀ (toLowerCase nfd : Text → Text) (text : Text), Documented toLowerCase nfd →
    tokensOf text ≠ [] → ∀ mode, Agrees toLowerCase nfd mode text := by
  intro hall
  have hagrees := hall asciiLower id "docker AND heartbeat".toList asciiLower_documented (by decide) .and
  have hsame := (readQuery_escapeFts5Query .and _).symm.trans hagrees.readNormalized
  exact absurd hsame (by decide)

end Deckent.MemoryQuery
