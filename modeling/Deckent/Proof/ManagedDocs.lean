import Deckent.Lib.Segments
import Deckent.Model.ManagedDocs

/-!
# What replacing a section touches

A section ends where the first later section of its level or a higher one starts, so what follows it is parsed as
it was parsed in the whole document. The copies that are left out are chosen by the titles of all lines that look
like a heading, and the last of them is left out with its subsections. So the text after the section is kept up to
copies of real headings exactly when every title among them is that of a real heading and no section follows the
last copy as its subsection.
-/

namespace Deckent.ManagedDocs

variable {inFence : Option Fence} {lines rest : List Text} {sect : ParsedSection}
  {sections following : List ParsedSection} {total i j : Nat}

/-! ### Where sections start and end -/

/-- The line on which the first section starts, or the end of the text. -/
def boundary (total : Nat) (sections : List ParsedSection) : Nat :=
  (sections.head?.map (·.startLine)).getD total

def Extents (total : Nat) : List ParsedSection → Prop
  | [] => True
  | s :: rest =>
      s.endLine = boundary total (rest.dropWhile (s.level < ·.level)) ∧ (∀ r ∈ rest, s.startLine < r.startLine)
        ∧ s.startLine < total ∧ Extents total rest

def headingSection (line : Text) (level i : Nat) (rest : List Text) : ParsedSection where
  heading := line
  level := level
  startLine := i
  endLine := endLineFrom level none (i + 1) rest
  content := joinLines (rest.take (endLineFrom level none (i + 1) rest - (i + 1)))

theorem line_cases (inFence : Option Fence) (line : Text) :
    (∃ next, (∀ i rest, sectionsFrom inFence i (line :: rest) = sectionsFrom next (i + 1) rest) ∧
      ∀ level j rest, endLineFrom level inFence j (line :: rest) = endLineFrom level next (j + 1) rest) ∨
    inFence = none ∧ ∃ level,
      (∀ i rest, sectionsFrom inFence i (line :: rest)
        = headingSection line level i rest :: sectionsFrom none (i + 1) rest) ∧
      ∀ outer j rest, endLineFrom outer inFence j (line :: rest)
        = if level ≤ outer then j else endLineFrom outer none (j + 1) rest := by
  cases hmark : fenceStart line with
  | some mark => exact .inl ⟨_, fun i rest => by rw [sectionsFrom, hmark], fun level j rest => by rw [endLineFrom, hmark]⟩
  | none =>
      cases inFence with
      | some start =>
          refine .inl ⟨some start, fun i rest => ?_, fun level j rest => ?_⟩
          · rw [sectionsFrom, hmark]; rfl
          · rw [endLineFrom, hmark]; rfl
      | none =>
          cases hmatch : headingMatch line with
          | none =>
              refine .inl ⟨none, fun i rest => ?_, fun level j rest => ?_⟩
              · rw [sectionsFrom, hmark, hmatch]; rfl
              · rw [endLineFrom, hmark, hmatch]; rfl
          | some found =>
              refine .inr ⟨rfl, found.1, fun i rest => ?_, fun outer j rest => ?_⟩
              · rw [sectionsFrom, hmark, hmatch]; rfl
              · rw [endLineFrom, hmark, hmatch]
                simp

theorem mem_sectionsFrom (hmem : sect ∈ sectionsFrom inFence i lines) :
    i ≤ sect.startLine ∧ sect.startLine < i + lines.length ∧ sect.heading ∈ lines := by
  induction lines generalizing inFence i with
  | nil => exact absurd hmem List.not_mem_nil
  | cons line rest ih =>
      have hlater {fence : Option Fence} (hmem : sect ∈ sectionsFrom fence (i + 1) rest) :
          i ≤ sect.startLine ∧ sect.startLine < i + (line :: rest).length ∧ sect.heading ∈ line :: rest := by
        obtain ⟨hle, hlt, hheading⟩ := ih hmem
        exact ⟨by omega, by rw [List.length_cons]; omega, List.mem_cons_of_mem _ hheading⟩
      rcases line_cases inFence line with ⟨next, hsections, -⟩ | ⟨rfl, level, hsections, -⟩
      · exact hlater (hsections i rest ▸ hmem)
      · rw [hsections] at hmem
        rcases List.mem_cons.mp hmem with rfl | hmem
        · exact ⟨le_rfl, Nat.lt_add_of_pos_right (Nat.succ_pos _), List.mem_cons_self⟩
        · exact hlater hmem

theorem endLineFrom_eq (level : Nat) :
    endLineFrom level inFence j lines
      = boundary (j + lines.length) ((sectionsFrom inFence j lines).dropWhile (level < ·.level)) := by
  induction lines generalizing inFence j with
  | nil => rfl
  | cons line rest ih =>
      have htotal : j + (line :: rest).length = j + 1 + rest.length := by rw [List.length_cons]; omega
      rw [htotal]
      rcases line_cases inFence line with ⟨next, hsections, hend⟩ | ⟨rfl, own, hsections, hend⟩
      · rw [hsections, hend, ih]
      · rw [hsections, hend, List.dropWhile_cons]
        by_cases hlevel : own ≤ level
        · have hstay : decide (level < own) = false := decide_eq_false (not_lt.mpr hlevel)
          rw [if_pos hlevel, headingSection, hstay]
          rfl
        · have hskip : decide (level < own) = true := decide_eq_true (not_le.mp hlevel)
          rw [if_neg hlevel, headingSection, hskip, if_pos rfl, ← ih]

theorem extents_sectionsFrom : Extents (i + lines.length) (sectionsFrom inFence i lines) := by
  induction lines generalizing inFence i with
  | nil => trivial
  | cons line rest ih =>
      have htotal : i + (line :: rest).length = i + 1 + rest.length := by rw [List.length_cons]; omega
      rw [htotal]
      rcases line_cases inFence line with ⟨next, hsections, -⟩ | ⟨rfl, level, hsections, -⟩
      · exact hsections i rest ▸ ih
      · rw [hsections]
        refine ⟨endLineFrom_eq _, fun r hr => (mem_sectionsFrom hr).1, ?_, ih⟩
        change i < i + 1 + rest.length
        omega

/-! ### What follows a section -/

structure CutAt (total : Nat) (sections : List ParsedSection) (line : Nat) (tail : List Text) : Prop where
  sections : sections.filter (line ≤ ·.startLine) = sectionsFrom none line tail
  boundary : boundary total (sectionsFrom none line tail) = line

theorem cutAt_endLineFrom (level : Nat) :
    ∃ n ≤ lines.length, endLineFrom level inFence j lines = j + n ∧
      CutAt (j + lines.length) (sectionsFrom inFence j lines) (j + n) (lines.drop n) := by
  induction lines generalizing inFence j with
  | nil => exact ⟨0, le_rfl, rfl, rfl, rfl⟩
  | cons line rest ih =>
      have htotal : j + (line :: rest).length = j + 1 + rest.length := by rw [List.length_cons]; omega
      rw [htotal]
      rcases line_cases inFence line with ⟨next, hsections, hend⟩ | ⟨rfl, own, hsections, hend⟩
      · obtain ⟨n, hn, heq, hcut⟩ := @ih next (j + 1)
        refine ⟨n + 1, Nat.succ_le_succ hn, by rw [hend, heq]; omega, ?_⟩
        rw [hsections, List.drop_succ_cons, Nat.add_comm n 1, ← Nat.add_assoc]
        exact hcut
      · by_cases hlevel : own ≤ level
        · refine ⟨0, Nat.zero_le _, by rw [hend, if_pos hlevel, Nat.add_zero], ?_, ?_⟩
          · rw [List.drop_zero, Nat.add_zero, List.filter_eq_self]
            exact fun s hs => decide_eq_true (mem_sectionsFrom hs).1
          · rw [List.drop_zero, Nat.add_zero, hsections]
            rfl
        · obtain ⟨n, hn, heq, hcut⟩ := @ih none (j + 1)
          refine ⟨n + 1, Nat.succ_le_succ hn, by rw [hend, if_neg hlevel, heq]; omega, ?_, ?_⟩
          · rw [hsections, List.drop_succ_cons, Nat.add_comm n 1, ← Nat.add_assoc, List.filter_cons_of_neg]
            · exact hcut.sections
            · exact mt of_decide_eq_true (by change ¬ j + 1 + n ≤ j; omega)
          · rw [List.drop_succ_cons, Nat.add_comm n 1, ← Nat.add_assoc]
            exact hcut.boundary

theorem cutAt_endLine (hmem : sect ∈ sectionsFrom inFence i lines) :
    ∃ n ≤ lines.length, sect.endLine = i + n ∧
      CutAt (i + lines.length) (sectionsFrom inFence i lines) (i + n) (lines.drop n) := by
  induction lines generalizing inFence i with
  | nil => exact absurd hmem List.not_mem_nil
  | cons line rest ih =>
      have htotal : i + (line :: rest).length = i + 1 + rest.length := by rw [List.length_cons]; omega
      rw [htotal]
      rcases line_cases inFence line with ⟨next, hsections, -⟩ | ⟨rfl, level, hsections, -⟩
      · rw [hsections] at hmem ⊢
        obtain ⟨n, hn, heq, hcut⟩ := ih hmem
        refine ⟨n + 1, Nat.succ_le_succ hn, by omega, ?_⟩
        rw [List.drop_succ_cons, Nat.add_comm n 1, ← Nat.add_assoc]
        exact hcut
      · have hlater : ∃ n ≤ rest.length, sect.endLine = i + 1 + n ∧
            CutAt (i + 1 + rest.length) (sectionsFrom none (i + 1) rest) (i + 1 + n) (rest.drop n) := by
          rw [hsections] at hmem
          rcases List.mem_cons.mp hmem with rfl | hmem
          · exact cutAt_endLineFrom level
          · exact ih hmem
        obtain ⟨n, hn, heq, hcut⟩ := hlater
        refine ⟨n + 1, Nat.succ_le_succ hn, by omega, ?_, ?_⟩
        · rw [hsections, List.drop_succ_cons, Nat.add_comm n 1, ← Nat.add_assoc, List.filter_cons_of_neg]
          · exact hcut.sections
          · exact mt of_decide_eq_true (by change ¬ i + 1 + n ≤ i; omega)
        · rw [List.drop_succ_cons, Nat.add_comm n 1, ← Nat.add_assoc]
          exact hcut.boundary

def ParsedSection.shift (lineCount : Nat) (s : ParsedSection) : ParsedSection :=
  { s with startLine := lineCount + s.startLine, endLine := lineCount + s.endLine }

theorem endLineFrom_add (level lineCount : Nat) :
    endLineFrom level inFence (lineCount + j) lines = lineCount + endLineFrom level inFence j lines := by
  induction lines generalizing inFence j with
  | nil => rfl
  | cons line rest ih =>
      rcases line_cases inFence line with ⟨next, -, hend⟩ | ⟨rfl, own, -, hend⟩
      · rw [hend, hend, Nat.add_assoc, ih]
      · rw [hend, hend, Nat.add_assoc, ih]
        split <;> rfl

theorem sectionsFrom_add (lineCount : Nat) :
    sectionsFrom inFence (lineCount + i) lines = (sectionsFrom inFence i lines).map (·.shift lineCount) := by
  induction lines generalizing inFence i with
  | nil => rfl
  | cons line rest ih =>
      rcases line_cases inFence line with ⟨next, hsections, -⟩ | ⟨rfl, level, hsections, -⟩
      · rw [hsections, hsections, Nat.add_assoc, ih]
      · rw [hsections, hsections, List.map_cons, Nat.add_assoc, ih]
        congr 1
        rw [headingSection, headingSection, ParsedSection.shift, Nat.add_assoc, endLineFrom_add,
          Nat.add_sub_add_left]

/-! ### The run of stale copies -/

section Copies

variable {stale : ParsedSection → Bool} {real : ParsedSection → Prop}

theorem Extents.startLine_lt (h : Extents total (sect :: sections)) :
    sect.startLine < sect.endLine ∧ sect.endLine ≤ total := by
  obtain ⟨hend, hstarts, htotal, hextents⟩ := h
  cases hrest : sections.dropWhile (sect.level < ·.level) with
  | nil =>
      rw [hrest] at hend
      change sect.endLine = total at hend
      omega
  | cons next more =>
      have hnext : next ∈ sections := List.dropWhile_subset _ (hrest ▸ List.mem_cons_self)
      rw [hrest] at hend
      change sect.endLine = next.startLine at hend
      have hbelow : ∀ {sections : List ParsedSection}, Extents total sections → ∀ r ∈ sections, r.startLine < total := by
        intro sections hextents
        induction sections with
        | nil => exact List.forall_mem_nil _
        | cons s rest ih => exact List.forall_mem_cons.mpr ⟨hextents.2.2.1, ih hextents.2.2.2⟩
      have := hstarts next hnext
      have := hbelow hextents next hnext
      omega

theorem Extents.append_right {run : List ParsedSection} (h : Extents total (run ++ sections)) :
    Extents total sections := by
  induction run with
  | nil => exact h
  | cons s run ih => exact ih h.2.2.2

def healedLine (stale : ParsedSection → Bool) (line : Nat) (following : List ParsedSection) : Nat :=
  ((following.takeWhile stale).getLast?.map (·.endLine)).getD line

def EndsWhole (stale : ParsedSection → Bool) (following : List ParsedSection) : Prop :=
  ∀ last next, (following.takeWhile stale).getLast? = some last →
    (following.dropWhile stale).head? = some next → next.level ≤ last.level

theorem boundary_le {run : List ParsedSection} (h : Extents total (run ++ sect :: sections)) :
    boundary total (run ++ sect :: sections) ≤ sect.startLine := by
  cases run with
  | nil => exact le_rfl
  | cons s run => exact (h.2.1 sect (by simp)).le

theorem Extents.startLine_lt_of_nested {last next : ParsedSection} (h : Extents total (last :: next :: sections))
    (hlevel : last.level < next.level) : next.startLine < last.endLine := by
  obtain ⟨hend, -, -, hrest⟩ := h
  rw [hend, List.dropWhile_cons, if_pos (decide_eq_true hlevel)]
  cases hskip : sections.dropWhile (last.level < ·.level) with
  | nil => exact hrest.2.2.1
  | cons r others => exact hrest.2.1 r (List.dropWhile_subset _ (hskip ▸ List.mem_cons_self))

theorem Extents.endLine_of_not_nested {last : ParsedSection} (h : Extents total (last :: sections))
    (hwhole : ∀ next, sections.head? = some next → next.level ≤ last.level) :
    last.endLine = boundary total sections := by
  rw [h.1]
  cases sections with
  | nil => rfl
  | cons next more => rw [List.dropWhile_cons, if_neg (by simpa using hwhole next rfl)]

theorem mem_run_of_startLine_lt {run rest : List ParsedSection} (h : Extents total (run ++ rest))
    (hmem : sect ∈ run ++ rest) (hlt : sect.startLine < boundary total rest) : sect ∈ run := by
  refine (List.mem_append.mp hmem).resolve_right fun hrest => ?_
  obtain ⟨ahead, behind, rfl⟩ := List.append_of_mem hrest
  exact absurd hlt (not_lt.mpr (boundary_le h.append_right))

theorem Extents.startLine_le_last {run : List ParsedSection} {last : ParsedSection}
    (h : Extents total (run ++ last :: sections)) (hmem : sect ∈ run ++ [last]) :
    sect.startLine ≤ last.startLine := by
  rcases List.mem_append.mp hmem with hmem | hmem
  · obtain ⟨ahead, behind, rfl⟩ := List.append_of_mem hmem
    rw [List.append_assoc, List.cons_append] at h
    exact (h.append_right.2.1 last (by simp)).le
  · rw [List.mem_singleton.mp hmem]

/-- The text behind the run is that behind a run of real copies exactly when all copies are real and the run
ends whole. -/
theorem exists_run_iff {line : Nat} (h : Extents total following) (hline : boundary total following = line)
    (hreal : ∀ s ∈ following, real s → stale s = true) :
    (∃ run rest, following = run ++ rest ∧ (∀ s ∈ run, real s) ∧ healedLine stale line following = boundary total rest)
      ↔ (∀ s ∈ following.takeWhile stale, real s) ∧ EndsWhole stale following := by
  have hsplit : following.takeWhile stale ++ following.dropWhile stale = following := List.takeWhile_append_dropWhile
  have hkept : following.dropWhile stale ⊆ following := List.dropWhile_subset _
  cases hlast : (following.takeWhile stale).getLast? with
  | none =>
      have hnil : following.takeWhile stale = [] := List.getLast?_eq_none_iff.mp hlast
      rw [healedLine, hlast, hnil]
      refine iff_of_true ⟨[], following, rfl, List.forall_mem_nil _, hline.symm⟩ ⟨List.forall_mem_nil _, ?_⟩
      intro last next hsome
      rw [hlast] at hsome
      cases hsome
  | some last =>
      obtain ⟨before, hbefore⟩ := List.getLast?_eq_some_iff.mp hlast
      have hextents : Extents total (before ++ last :: following.dropWhile stale) := by
        rw [hbefore, List.append_assoc] at hsplit
        exact hsplit.symm ▸ h
      have hhealed : healedLine stale line following = last.endLine := by rw [healedLine, hlast]; rfl
      rw [hhealed]
      constructor
      · rintro ⟨run, rest, rfl, hrun, hend⟩
        refine ⟨fun s hs => ?_, fun own next hown hnext => ?_⟩
        · have hle : s.startLine ≤ last.startLine := hextents.startLine_le_last (hbefore ▸ hs)
          have hlt : s.startLine < boundary total rest :=
            hend ▸ hle.trans_lt hextents.append_right.startLine_lt.1
          exact hrun s (mem_run_of_startLine_lt h (List.takeWhile_subset _ hs) hlt)
        · obtain rfl : last = own := Option.some.inj (hlast.symm.trans hown)
          by_contra hlevel
          obtain ⟨more, hmore⟩ := List.head?_eq_some_iff.mp hnext
          rw [hmore] at hextents
          have hlt : next.startLine < boundary total rest :=
            hend ▸ hextents.append_right.startLine_lt_of_nested (not_le.mp hlevel)
          have hmem : next ∈ run ++ rest := hkept (List.mem_of_mem_head? hnext)
          have hstale := hreal next hmem (hrun next (mem_run_of_startLine_lt h hmem hlt))
          have hnot := List.head?_dropWhile_not stale (run ++ rest)
          rw [hnext] at hnot
          exact absurd hstale (by simpa using hnot)
      · rintro ⟨hall, hwhole⟩
        exact ⟨following.takeWhile stale, following.dropWhile stale, hsplit.symm, hall,
          hextents.append_right.endLine_of_not_nested fun next hnext => hwhole last next hlast hnext⟩

end Copies

/-! ### The text behind the section -/

section Replacing

variable {toLowerCase : Text → Text} {content sectionTitle newContent : Text}

def followingSections (content : Text) (sect : ParsedSection) : List ParsedSection :=
  (parseSections content).filter (sect.endLine ≤ ·.startLine)

def realTitles (toLowerCase : Text → Text) (md : Text) : List Text :=
  (parseSections md).filterMap fun s => headingTitle toLowerCase s.heading

theorem realTitles_subset : realTitles toLowerCase newContent ⊆ headingTitles toLowerCase newContent := by
  intro title htitle
  obtain ⟨s, hs, hheading⟩ := List.mem_filterMap.mp htitle
  exact List.mem_filterMap.mpr ⟨s.heading, (mem_sectionsFrom hs).2.2, hheading⟩

theorem parseSections_joinLines (hlines : ∀ line ∈ lines, '\n' ∉ line) :
    parseSections (joinLines lines) = sectionsFrom none 0 lines := by
  cases lines with
  | nil => decide
  | cons line rest =>
      rw [parseSections, linesOf, joinLines, List.splitOn_intercalate '\n' hlines (List.cons_ne_nil _ _)]

theorem healedLine_cons (stale : ParsedSection → Bool) (line : Nat) :
    healedLine stale line (sect :: sections) = if stale sect then healedLine stale sect.endLine sections else line := by
  rw [healedLine, List.takeWhile_cons]
  cases hstale : stale sect with
  | false => rfl
  | true =>
      rw [if_pos rfl, if_pos rfl, healedLine, List.getLast?_cons]
      cases (sections.takeWhile stale).getLast? with
      | none => rfl
      | some last => rfl

theorem afterLineFrom_eq (newTitles : List Text) (endLine afterLine : Nat) (tail : List ParsedSection) :
    afterLineFrom toLowerCase newTitles endLine afterLine tail
      = healedLine (fun s => decide (s.title toLowerCase ∈ newTitles)) afterLine (tail.map (·.shift endLine)) := by
  induction tail generalizing afterLine with
  | nil => rfl
  | cons s tail ih =>
      have htitle : (s.shift endLine).title toLowerCase = s.title toLowerCase := rfl
      rw [afterLineFrom, List.map_cons, healedLine_cons, htitle, ih]
      simp only [decide_eq_true_eq]
      rfl

theorem Extents.boundary_le (h : Extents total sections) : boundary total sections ≤ total := by
  cases sections with
  | nil => exact le_rfl
  | cons s rest => exact h.2.2.1.le

theorem Extents.healedLine_le {stale : ParsedSection → Bool} {line : Nat} (h : Extents total sections)
    (hline : line ≤ total) : healedLine stale line sections ≤ total := by
  induction sections generalizing line with
  | nil => exact hline
  | cons s rest ih =>
      rw [healedLine_cons]
      split
      · exact ih h.2.2.2 h.startLine_lt.2
      · exact hline

theorem afterLine_eq (hmem : sect ∈ parseSections content) :
    afterLine toLowerCase content newContent sect
      = healedLine (fun s => decide (s.title toLowerCase ∈ headingTitles toLowerCase newContent)) sect.endLine
          (followingSections content sect) := by
  have hlines : ∀ line ∈ (linesOf content).drop sect.endLine, '\n' ∉ line := fun line hline =>
    not_mem_of_mem_splitOn (List.drop_subset _ _ hline)
  obtain ⟨n, -, heq, hcut⟩ := cutAt_endLine hmem
  simp only [Nat.zero_add] at heq hcut
  have hfollowing : followingSections content sect
      = (sectionsFrom none 0 ((linesOf content).drop sect.endLine)).map (·.shift sect.endLine) := by
    rw [← sectionsFrom_add, Nat.add_zero, followingSections, parseSections, heq, hcut.sections]
  rw [afterLine, parseSections_joinLines hlines, hfollowing]
  by_cases hnone : headingTitles toLowerCase newContent = []
  · rw [if_pos hnone, hnone]
    cases (sectionsFrom none 0 ((linesOf content).drop sect.endLine)).map (·.shift sect.endLine) with
    | nil => rfl
    | cons s rest => simp [healedLine_cons]
  · rw [if_neg hnone, afterLineFrom_eq]

/-! ### Blocks of other tools -/

def occurrences (block text : Text) : Nat := text.tails.countP (block.isPrefixOf ·)

def BeginsIn (block text behind : Text) : Prop := ∃ v, v <:+ text ∧ v ≠ [] ∧ block <+: v ++ behind

theorem occurrences_cons (block : Text) (c : Char) (text : Text) :
    occurrences block (c :: text) = occurrences block text + if block <+: c :: text then 1 else 0 := by
  rw [occurrences, List.tails_cons, List.countP_cons]
  simp only [List.isPrefixOf_iff_prefix]
  rfl

theorem occurrences_pos {block text : Text} (hwithin : block <:+: text) : 0 < occurrences block text := by
  obtain ⟨before, hbefore⟩ := List.infix_iff_prefix_suffix.mp hwithin
  rw [occurrences, List.countP_pos_iff]
  exact ⟨before, (List.mem_tails _ _).mpr hbefore.2, List.isPrefixOf_iff_prefix.mpr hbefore.1⟩

theorem beginsIn_cons {block behind text : Text} {c : Char} :
    BeginsIn block (c :: text) behind ↔ block <+: c :: text ++ behind ∨ BeginsIn block text behind := by
  constructor
  · rintro ⟨v, hsuffix, hne, hbegins⟩
    rcases List.suffix_cons_iff.mp hsuffix with rfl | hsuffix
    · exact .inl hbegins
    · exact .inr ⟨v, hsuffix, hne, hbegins⟩
  · rintro (hbegins | ⟨v, hsuffix, hne, hbegins⟩)
    · exact ⟨c :: text, List.suffix_rfl, List.cons_ne_nil _ _, hbegins⟩
    · exact ⟨v, hsuffix.trans (List.suffix_cons _ _), hne, hbegins⟩

theorem occurrences_append_eq_one_iff {block text behind : Text} (hbehind : block <:+: behind) :
    occurrences block (text ++ behind) = 1 ↔ ¬ BeginsIn block text behind ∧ occurrences block behind = 1 := by
  have hpos := occurrences_pos hbehind
  have hle : ∀ text, occurrences block behind ≤ occurrences block (text ++ behind) := by
    intro text
    induction text with
    | nil => exact le_rfl
    | cons c rest ih => exact ih.trans (occurrences_cons block c _ ▸ Nat.le_add_right _ _)
  induction text with
  | nil =>
      refine (and_iff_right ?_).symm
      rintro ⟨v, hsuffix, hne, -⟩
      exact hne (List.suffix_nil.mp hsuffix)
  | cons c rest ih =>
      have := hle rest
      rw [List.cons_append, occurrences_cons, beginsIn_cons]
      by_cases hbegins : block <+: c :: (rest ++ behind)
      · rw [if_pos hbegins]
        exact iff_of_false (by omega) fun h => h.1 (.inl hbegins)
      · rw [if_neg hbegins, Nat.add_zero, not_or, List.cons_append]
        exact ih.trans (and_congr_left fun _ => (and_iff_right hbegins).symm)

def preservedText (preserved : List Text) : Text := ['\n', '\n'] ++ ['\n', '\n'].intercalate preserved ++ ['\n']

theorem joinLines_newBody {preserved : List Text} (hne : preserved ≠ []) :
    joinLines (newBody newContent preserved) = trimEnd newContent ++ preservedText preserved := by
  rw [newBody, if_pos hne, joinLines, preservedText]
  simp [List.intercalate_cons_cons]

theorem infix_preservedText {block : Text} {preserved : List Text} (hblock : block ∈ preserved) :
    block <:+: preservedText preserved := by
  have hwithin : block <:+: ['\n', '\n'].intercalate preserved := infix_intercalate hblock
  obtain ⟨ahead, behind, heq⟩ := hwithin
  exact ⟨['\n', '\n'] ++ ahead, behind ++ ['\n'], by rw [preservedText, ← heq]; simp⟩

/-! ### The whole contract -/

/-- Replacing a section touches its body and following copies of generated sections, and nothing else. -/
def TouchesOnlySection (toLowerCase : Text → Text) (content sectionTitle newContent : Text) : Prop :=
  (findSectionByTitle toLowerCase (parseSections content) sectionTitle = none →
    replaceSectionContent toLowerCase content sectionTitle newContent = content) ∧
  ∀ sect, findSectionByTitle toLowerCase (parseSections content) sectionTitle = some sect →
    (∃ run rest, followingSections content sect = run ++ rest ∧
      (∀ copy ∈ run, copy.title toLowerCase ∈ realTitles toLowerCase newContent) ∧
      replaceSectionContent toLowerCase content sectionTitle newContent
        = joinLines ((linesOf content).take (sect.startLine + 1)
          ++ newBody newContent (extractAutogenBlocks sect.content)
          ++ (linesOf content).drop (boundary (linesOf content).length rest))) ∧
    ∀ block ∈ extractAutogenBlocks sect.content,
      occurrences block (joinLines (newBody newContent (extractAutogenBlocks sect.content))) = 1

def isStaleCopy (toLowerCase : Text → Text) (newContent : Text) (s : ParsedSection) : Bool :=
  (headingTitles toLowerCase newContent).contains (s.title toLowerCase)

/-- The copies that are left out are copies of real headings and end whole, and no block stands twice. -/
structure HealsExactly (toLowerCase : Text → Text) (content newContent : Text) (sect : ParsedSection) : Prop where
  real : ∀ copy ∈ (followingSections content sect).takeWhile (isStaleCopy toLowerCase newContent),
    copy.title toLowerCase ∈ realTitles toLowerCase newContent
  whole : EndsWhole (isStaleCopy toLowerCase newContent) (followingSections content sect)
  apart : ∀ block ∈ extractAutogenBlocks sect.content,
    ¬ BeginsIn block (trimEnd newContent) (preservedText (extractAutogenBlocks sect.content))
      ∧ occurrences block (preservedText (extractAutogenBlocks sect.content)) = 1

/-- The text behind the section is kept up to copies of real headings exactly when the copies are such copies and
the last of them ends whole. -/
theorem keeps_behind_iff (hfound : findSectionByTitle toLowerCase (parseSections content) sectionTitle = some sect) :
    (∃ run rest, followingSections content sect = run ++ rest ∧
        (∀ copy ∈ run, copy.title toLowerCase ∈ realTitles toLowerCase newContent) ∧
        replaceSectionContent toLowerCase content sectionTitle newContent
          = joinLines ((linesOf content).take (sect.startLine + 1)
            ++ newBody newContent (extractAutogenBlocks sect.content)
            ++ (linesOf content).drop (boundary (linesOf content).length rest)))
      ↔ (∀ copy ∈ (followingSections content sect).takeWhile (isStaleCopy toLowerCase newContent),
          copy.title toLowerCase ∈ realTitles toLowerCase newContent)
        ∧ EndsWhole (isStaleCopy toLowerCase newContent) (followingSections content sect) := by
  have hmem : sect ∈ parseSections content := List.mem_of_find?_eq_some hfound
  obtain ⟨n, hn, heq, hcut⟩ := cutAt_endLine hmem
  simp only [Nat.zero_add] at heq hcut
  have hfollowing : followingSections content sect = sectionsFrom none n ((linesOf content).drop n) := by
    rw [followingSections, parseSections, heq, hcut.sections]
  have hextents : Extents (linesOf content).length (followingSections content sect) := by
    have htotal : n + ((linesOf content).drop n).length = (linesOf content).length := by
      rw [List.length_drop, Nat.add_sub_cancel' hn]
    rw [hfollowing]
    exact htotal ▸ extents_sectionsFrom
  have hboundary : boundary (linesOf content).length (followingSections content sect) = sect.endLine := by
    rw [hfollowing, heq, hcut.boundary]
  have hstale : ∀ s ∈ followingSections content sect,
      s.title toLowerCase ∈ realTitles toLowerCase newContent → isStaleCopy toLowerCase newContent s = true :=
    fun s _ hreal => List.contains_iff_mem.2 (realTitles_subset hreal)
  rw [← exists_run_iff hextents hboundary hstale]
  refine exists₂_congr fun run rest => and_congr_right fun happend => and_congr_right fun _ => ?_
  have hresult : replaceSectionContent toLowerCase content sectionTitle newContent
      = joinLines ((linesOf content).take (sect.startLine + 1) ++ newBody newContent (extractAutogenBlocks sect.content)
        ++ (linesOf content).drop
          (healedLine (isStaleCopy toLowerCase newContent) sect.endLine (followingSections content sect))) := by
    rw [replaceSectionContent, hfound]
    dsimp only
    have hcopy : isStaleCopy toLowerCase newContent
        = fun s => decide (s.title toLowerCase ∈ headingTitles toLowerCase newContent) :=
      funext fun s => List.contains_eq_mem _ _
    rw [afterLine_eq hmem, hcopy]
  rw [hresult]
  refine ⟨fun hsame => ?_, fun hsame => by rw [hsame]⟩
  refine drop_inj_of_intercalate (by simp [newBody]) ?_ ?_ hsame
  · exact hextents.healedLine_le (hboundary ▸ hextents.boundary_le)
  · exact (happend ▸ hextents).append_right.boundary_le

/-- Replacing a section touches nothing else exactly when the copies that follow it are whole copies of headings
outside code fences and none of the kept blocks is repeated. -/
theorem replaceSectionContent_touchesOnly_iff :
    TouchesOnlySection toLowerCase content sectionTitle newContent
      ↔ ∀ sect, findSectionByTitle toLowerCase (parseSections content) sectionTitle = some sect →
          HealsExactly toLowerCase content newContent sect := by
  have hmissing : findSectionByTitle toLowerCase (parseSections content) sectionTitle = none →
      replaceSectionContent toLowerCase content sectionTitle newContent = content := by
    intro hnone
    rw [replaceSectionContent, hnone]
  have hblocks : ∀ sect : ParsedSection, (∀ block ∈ extractAutogenBlocks sect.content,
      occurrences block (joinLines (newBody newContent (extractAutogenBlocks sect.content))) = 1) ↔
      ∀ block ∈ extractAutogenBlocks sect.content,
        ¬ BeginsIn block (trimEnd newContent) (preservedText (extractAutogenBlocks sect.content))
          ∧ occurrences block (preservedText (extractAutogenBlocks sect.content)) = 1 := by
    intro sect
    refine forall₂_congr fun block hblock => ?_
    rw [joinLines_newBody (List.ne_nil_of_mem hblock), occurrences_append_eq_one_iff (infix_preservedText hblock)]
  rw [TouchesOnlySection, and_iff_right hmissing]
  refine forall₂_congr fun sect hfound => ?_
  rw [keeps_behind_iff hfound, hblocks]
  constructor
  · rintro ⟨⟨hreal, hwhole⟩, hapart⟩
    exact ⟨hreal, hwhole, hapart⟩
  · rintro ⟨hreal, hwhole, hapart⟩
    exact ⟨⟨hreal, hwhole⟩, hapart⟩

/-! ### Two documents that lose a section -/

def asciiLower (text : Text) : Text := text.map Char.toLower

def guideSection : ParsedSection where
  heading := "## Guide".toList
  level := 2
  startLine := 0
  endLine := 2
  content := "old".toList

def commentedDocument : Text := "## Guide\nold\n## Install\nkeep\n".toList

def commentedContent : Text := "```bash\n# Install\n```".toList

def extendedDocument : Text := "## Guide\nold\n## Install\nsteps\n### Notes\nkeep\n".toList

def extendedContent : Text := "### Install\nrun it".toList

theorem not_touchesOnly_samples :
    ¬ TouchesOnlySection asciiLower commentedDocument "Guide".toList commentedContent ∧
      ¬ TouchesOnlySection asciiLower extendedDocument "Guide".toList extendedContent := by
  constructor
  · intro htouches
    have hfound : findSectionByTitle asciiLower (parseSections commentedDocument) "Guide".toList
        = some guideSection := by decide +kernel
    have hreal := ((keeps_behind_iff hfound).mp (htouches.2 _ hfound).1).1
    revert hreal
    decide +kernel
  · intro htouches
    have hfound : findSectionByTitle asciiLower (parseSections extendedDocument) "Guide".toList
        = some guideSection := by decide +kernel
    have hwhole := ((keeps_behind_iff hfound).mp (htouches.2 _ hfound).1).2 _ _ rfl rfl
    revert hwhole
    decide +kernel

end Replacing

end Deckent.ManagedDocs
