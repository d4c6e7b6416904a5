import Mathlib.Data.List.Basic
import Mathlib.Data.List.SplitOn
import Deckent.Model.Js

/-!
# Sections of managed documents

A managed document is cut at its headings, and the sections that are generated are replaced by their title. A
section ends before the next heading of its level or a higher one, and what stands in a code fence is no heading.
Blocks that another tool owns outlast the text around them.

A text is the list of its characters. Lower-casing depends on the Unicode tables, so it is a parameter.
-/

namespace Deckent.ManagedDocs

abbrev Text := List Char

def linesOf (content : Text) : List Text := content.splitOn '\n'

def joinLines (lines : List Text) : Text := ['\n'].intercalate lines

def trimEnd (text : Text) : Text := (text.reverse.dropWhile isJsSpace).reverse

/-! ### Lines -/

structure Fence where
  char : Char
  length : Nat
  deriving DecidableEq

def backtick : Char := Char.ofNat 0x60

def fenceStart (line : Text) : Option Fence :=
  let backticks := (line.takeWhile (· = backtick)).length
  let tildes := (line.takeWhile (· = '~')).length
  if 3 ≤ backticks then some ⟨backtick, backticks⟩
  else if 3 ≤ tildes then some ⟨'~', tildes⟩
  else none

def afterFence (inFence : Option Fence) (mark : Fence) : Option Fence :=
  match inFence with
  | none => some mark
  | some start => if mark.char = start.char ∧ start.length ≤ mark.length then none else some start

def isLineTerminator (c : Char) : Bool := [0x0A, 0x0D, 0x2028, 0x2029].contains c.toNat

/-- `/^(#{1,6})\s+(.+)$/`: the level and the text of a heading. -/
def headingMatch (line : Text) : Option (Nat × Text) :=
  let level := (line.takeWhile (· = '#')).length
  let rest := line.dropWhile (· = '#')
  let space := rest.takeWhile isJsSpace
  let text := rest.dropWhile isJsSpace
  if level = 0 ∨ 6 < level ∨ space = [] then none
  else if text ≠ [] then
    if text.any isLineTerminator then none else some (level, text)
  else if 2 ≤ space.length then
    -- the blanks have to leave one for the text
    (space.getLast?.filter (!isLineTerminator ·)).map (level, [·])
  else none

/-! ### Sections -/

structure ParsedSection where
  heading : Text
  level : Nat
  startLine : Nat
  endLine : Nat
  content : Text
  deriving DecidableEq

def endLineFrom (level : Nat) : Option Fence → Nat → List Text → Nat
  | _, j, [] => j
  | innerFence, j, nextLine :: rest =>
      match fenceStart nextLine with
      | some mark => endLineFrom level (afterFence innerFence mark) (j + 1) rest
      | none =>
          if innerFence.isSome then endLineFrom level innerFence (j + 1) rest
          else if (headingMatch nextLine).any (·.1 ≤ level) then j
          else endLineFrom level innerFence (j + 1) rest

def sectionsFrom : Option Fence → Nat → List Text → List ParsedSection
  | _, _, [] => []
  | inFence, i, line :: rest =>
      match fenceStart line with
      | some mark => sectionsFrom (afterFence inFence mark) (i + 1) rest
      | none =>
          if inFence.isSome then sectionsFrom inFence (i + 1) rest
          else
            match headingMatch line with
            | none => sectionsFrom inFence (i + 1) rest
            | some (level, _) =>
                let endLine := endLineFrom level none (i + 1) rest
                { heading := line, level := level, startLine := i, endLine := endLine
                  content := joinLines (rest.take (endLine - (i + 1))) } :: sectionsFrom inFence (i + 1) rest

def parseSections (content : Text) : List ParsedSection := sectionsFrom none 0 (linesOf content)

def withoutMarks (heading : Text) : Text :=
  if heading.head? = some '#' then (heading.dropWhile (· = '#')).dropWhile isJsSpace else heading

section Titles

variable (toLowerCase : Text → Text)

def ParsedSection.title (sect : ParsedSection) : Text := trimChars (toLowerCase (withoutMarks sect.heading))

def findSectionByTitle (sections : List ParsedSection) (title : Text) : Option ParsedSection :=
  let normalized := trimChars (toLowerCase title)
  sections.find? (·.title toLowerCase = normalized)

def headingTitle (line : Text) : Option Text :=
  (headingMatch line).map fun found => trimChars (toLowerCase found.2)

def headingTitles (md : Text) : List Text := (linesOf md).filterMap (headingTitle toLowerCase)

end Titles

/-! ### Blocks of other tools -/

def autogenStart : Text := "<!-- AUTOGEN:START id=\"".toList
def autogenEnd : Text := "<!-- AUTOGEN:END id=\"".toList
def markerEnd : Text := "\" -->".toList

def dropMarker (opening text : Text) : Option Text :=
  if opening.isPrefixOf text then
    let id := (text.drop opening.length).takeWhile (· ≠ '"')
    let rest := (text.drop opening.length).dropWhile (· ≠ '"')
    if id ≠ [] ∧ markerEnd.isPrefixOf rest then some (rest.drop markerEnd.length) else none
  else none

def afterAutogenEnd : Text → Option Text
  | [] => none
  | c :: rest =>
      match dropMarker autogenEnd (c :: rest) with
      | some after => some after
      | none => afterAutogenEnd rest

def autogenBlock (text : Text) : Option Text :=
  ((dropMarker autogenStart text).bind afterAutogenEnd).map fun after => text.take (text.length - after.length)

def autogenBlocksFrom : Nat → Text → List Text
  | _, [] => []
  | skip + 1, _ :: rest => autogenBlocksFrom skip rest
  | 0, c :: rest =>
      match autogenBlock (c :: rest) with
      | some block => block :: autogenBlocksFrom (block.length - 1) rest
      | none => autogenBlocksFrom 0 rest

def extractAutogenBlocks (body : Text) : List Text := autogenBlocksFrom 0 body

/-! ### Replacing sections -/

section Update

variable (toLowerCase : Text → Text)

def afterLineFrom (newTitles : List Text) (endLine : Nat) : Nat → List ParsedSection → Nat
  | afterLine, [] => afterLine
  | afterLine, s :: tail =>
      if s.title toLowerCase ∈ newTitles then afterLineFrom newTitles endLine (endLine + s.endLine) tail
      else afterLine

def afterLine (content newContent : Text) (sect : ParsedSection) : Nat :=
  let newTitles := headingTitles toLowerCase newContent
  if newTitles = [] then sect.endLine
  else
    let tail := parseSections (joinLines ((linesOf content).drop sect.endLine))
    afterLineFrom toLowerCase newTitles sect.endLine sect.endLine tail

def newBody (newContent : Text) (preserved : List Text) : List Text :=
  let trimmedNew := trimEnd newContent
  (if preserved ≠ [] then [trimmedNew, [], ['\n', '\n'].intercalate preserved] else [trimmedNew]) ++ [[]]

def replaceSectionContent (content sectionTitle newContent : Text) : Text :=
  match findSectionByTitle toLowerCase (parseSections content) sectionTitle with
  | none => content
  | some sect =>
      let lines := linesOf content
      let before := lines.take (sect.startLine + 1)
      let after := lines.drop (afterLine toLowerCase content newContent sect)
      let preserved := extractAutogenBlocks sect.content
      joinLines (before ++ newBody newContent preserved ++ after)

def appendSection (content sectionHeading newContent : Text) : Text :=
  let heading := if sectionHeading.head? = some '#' then sectionHeading else "## ".toList ++ sectionHeading
  trimEnd content ++ ['\n', '\n'] ++ heading ++ ['\n'] ++ trimEnd newContent ++ ['\n']

structure ManagedDocEntry where
  autoSections : Option (List Text)

def updateDocSections (content : Text) (entry : ManagedDocEntry) (generated : Text → Option Text) : Text :=
  (entry.autoSections.getD []).foldl (fun result sectionTitle =>
    match (generated sectionTitle).filter (· ≠ []) with
    | none => result
    | some generatedContent =>
        if (findSectionByTitle toLowerCase (parseSections result) sectionTitle).isSome then
          replaceSectionContent toLowerCase result sectionTitle generatedContent
        else appendSection result sectionTitle generatedContent) content

end Update

end Deckent.ManagedDocs
