import Mathlib.Data.List.Basic
import Mathlib.Data.List.SplitOn
import Deckent.Model.Js

/-!
# The scope gate

Before a worker is spawned, each path that a task declares is held against the tracked files. A path to write that
is not tracked is suspect when a tracked file elsewhere has its name, or when its directory looks invented. For a
suspect that the tracked files or the task itself decide there is a resolution, and the writes of the task are
repaired with it.

Lower-casing and the texts of messages are parameters.
-/

namespace Deckent.ScopeGate

structure GateRuntime where
  toLowerCase : String → String
  getMessage : String → String → List (String × String) → String

/-! ### Input and result -/

structure Scope where
  filesWrite : Option (List String)
  filesRead : Option (List String)
  directories : Option (List String)

structure ScopeGateTask where
  id : String
  scope : Scope

inductive ScopePathClass where
  | confirmed
  | newPlausible
  | suspect
  deriving DecidableEq

inductive ScopeRole where
  | write
  | read
  deriving DecidableEq

structure ScopePathVerdict where
  taskId : String
  path : String
  role : ScopeRole
  classification : ScopePathClass
  suggestion : Option String
  reason : String
  /-- Whether a directory is declared as a file to write. -/
  structuralError : Bool
  deriving DecidableEq

structure ScopeGateInput where
  tasks : List ScopeGateTask
  trackedFiles : List String
  acknowledgeScopePaths : Bool
  resolveSuggestions : Bool
  lang : Option String

inductive ScopeAction where
  | dropDuplicate
  | autoReplace
  deriving DecidableEq

structure ScopeResolution where
  taskId : String
  path : String
  action : ScopeAction
  replacement : Option String
  reason : String
  deriving DecidableEq

structure ScopeGatePass where
  verdicts : List ScopePathVerdict
  advisories : List ScopePathVerdict
  overrideApplied : Bool
  resolutions : List ScopeResolution
  greenfieldNotice : Option String

inductive ScopeGateReason where
  | scopeGateSuspect
  | directoryInFilesWrite
  deriving DecidableEq

structure ScopeGateBlocked where
  reason : ScopeGateReason
  suspects : List ScopePathVerdict
  verdicts : List ScopePathVerdict
  resolutions : List ScopeResolution
  message : String

/-! ### Paths -/

def withoutDot (path : String) : String :=
  match path.toList with
  | '.' :: '/' :: rest => String.ofList rest
  | _ => path

def withoutSlashes (path : String) : String :=
  String.ofList (path.toList.reverse.dropWhile (· = '/')).reverse

def basename (path : String) : String := String.ofList (path.toList.reverse.takeWhile (· ≠ '/')).reverse

def dirname (path : String) : String :=
  String.ofList ((path.toList.reverse.dropWhile (· ≠ '/')).drop 1).reverse

def startsWith (text start : String) : Bool := start.toList.isPrefixOf text.toList

def segmentsOf (path : String) : List (List Char) := path.toList.splitOn '/'

def joinSegments (segments : List (List Char)) : String := String.ofList (['/'].intercalate segments)

def directoriesFrom : Nat → String → List String
  | 0, _ => []
  | depth + 1, directory =>
      if directory = "" then [] else directory :: directoriesFrom depth (dirname directory)

def isTrackedDir (trackedFiles : List String) (directory : String) : Bool :=
  trackedFiles.any fun file => (directoriesFrom file.length (dirname file)).contains directory

def byBasename (trackedFiles : List String) (name : String) : List String :=
  trackedFiles.filter (basename · = name)

section Runtime

variable (runtime : GateRuntime)

def normPath (path : String) : String := runtime.toLowerCase (withoutDot path)

/-! ### Names of tests -/

def commonBasenames : List String :=
  ["index.ts", "index.js", "index.tsx", "index.jsx", "types.ts", "utils.ts", "mod.ts", "main.ts", "readme.md",
    "__init__.py", "mod.rs", "lib.rs"]

def sourceSuffixes : List (List Char) :=
  ["", "c", "m"].flatMap fun variant => ["j", "t"].flatMap fun language => ["", "x"].map fun markup =>
    ("." ++ variant ++ language ++ "s" ++ markup).toList

def testSuffixes : List (List Char) :=
  [".test", ".spec"].flatMap fun kind => sourceSuffixes.map (kind.toList ++ ·)

def withoutSuffix (suffixes : List (List Char)) (fold : Char → Char) (text : List Char) : Option (List Char) :=
  (suffixes.find? (·.isSuffixOf (text.map fold))).map fun suffix => text.take (text.length - suffix.length)

def testStem (name : String) : Option String :=
  (withoutSuffix testSuffixes Char.toLower name.toList).map String.ofList

def isRecurringTestBasename (name : String) : Bool := (testStem name).isSome

def taskOwnsMatchingSource (testBasename : String) (taskPaths : List String) : Bool :=
  let stem := runtime.toLowerCase ((testStem testBasename).getD testBasename)
  taskPaths.any fun path =>
    let name := basename path
    if isRecurringTestBasename name then false
    else
      let lower := (runtime.toLowerCase name).toList
      String.ofList ((withoutSuffix sourceSuffixes id lower).getD lower) = stem

/-! ### Patterns -/

def hasGlobMagic (path : String) : Bool := path.toList.any ("*?[".toList.contains ·)

inductive GlobPart where
  /-- `(?:.*/)?`. -/
  | directories
  /-- `.*`. -/
  | anything
  /-- `[^/]*`. -/
  | withinSegment
  /-- `[^/]`. -/
  | one
  | codeUnit (value : Nat)

def globParts : List Char → List GlobPart
  | '*' :: '*' :: '/' :: rest => .directories :: globParts rest
  | '*' :: '*' :: rest => .anything :: globParts rest
  | '*' :: rest => .withinSegment :: globParts rest
  | '?' :: rest => .one :: globParts rest
  | c :: rest => (utf16Units c).map .codeUnit ++ globParts rest
  | [] => []

def slashUnit : Nat := 0x2F

def isLineTerminatorUnit (value : Nat) : Bool := [0x0A, 0x0D, 0x2028, 0x2029].contains value

def matchStar (allowed : Nat → Bool) (next : List Nat → Bool) : List Nat → Bool
  | [] => next []
  | value :: rest => next (value :: rest) || (allowed value && matchStar allowed next rest)

def matchGlob : List GlobPart → List Nat → Bool
  | [], text => text.isEmpty
  | .codeUnit value :: parts, text => text.head? = some value && matchGlob parts text.tail
  | .one :: parts, text => text.head?.any (· ≠ slashUnit) && matchGlob parts text.tail
  | .withinSegment :: parts, text => matchStar (· ≠ slashUnit) (matchGlob parts) text
  | .anything :: parts, text => matchStar (!isLineTerminatorUnit ·) (matchGlob parts) text
  | .directories :: parts, text =>
      matchStar (!isLineTerminatorUnit ·)
          (fun rest => rest.head? = some slashUnit && matchGlob parts rest.tail) text
        || matchGlob parts text

def globMatches (pattern : String) (trackedFiles : List String) : List String :=
  trackedFiles.filter fun file => matchGlob (globParts pattern.toList) (utf16 file)

/-! ### Directories -/

def sharedSegments : List (List Char) → List (List Char) → Nat
  | s :: target, c :: candidate => if s = c then sharedSegments target candidate + 1 else 0
  | _, _ => 0

def pickClosest (target : String) : List String → Option String
  | [] => none
  | first :: rest =>
      let shared := fun candidate => sharedSegments (segmentsOf target) (segmentsOf candidate)
      some (rest.foldl (fun best candidate => if shared best < shared candidate then candidate else best) first)

def climbsOut : Nat → List (List Char) → Bool
  | _, [] => false
  | depth, segment :: rest =>
      if segment = ['.', '.'] then
        match depth with
        | 0 => true
        | depth + 1 => climbsOut depth rest
      else if segment = ['.'] ∨ segment = [] then climbsOut depth rest
      else climbsOut (depth + 1) rest

def looksOutOfRoot (path : String) : Bool :=
  startsWith path "/" || startsWith path "~" || climbsOut 0 (segmentsOf path)

def hasSuspiciousCharacters (path : String) : Bool :=
  path.toList.any fun c => c.toNat ≤ 0x1F || "<>:\"|?*\\".toList.contains c

def maxNewDirDepth : Nat := 2
def minEstablishedRootFiles : Nat := 15

structure TrackedAncestor where
  ancestor : String
  newDepth : Nat

def findTrackedAncestor (directory : String) (trackedFiles : List String) : Option TrackedAncestor :=
  let segments := segmentsOf directory
  ((List.range segments.length).drop 1).reverse.findSome? fun i =>
    let prefixPath := joinSegments (segments.take i)
    if isTrackedDir trackedFiles prefixPath then some ⟨prefixPath, segments.length - i⟩ else none

/-! ### Classifying a path -/

def normalizeLang (lang : Option String) : String := if lang = some "tr" then "tr" else "en"

def coveringEntry (declaredDirs : List String) (candidate : String) : Option String :=
  let lower := runtime.toLowerCase (withoutDot candidate)
  (declaredDirs.map fun directory => runtime.toLowerCase (withoutSlashes (withoutDot directory))).find?
    fun directory => directory ≠ "" && startsWith lower (directory ++ "/")

section Classify

variable (lang : String) (trackedFiles plannedWrites : List String) (taskId path : String) (role : ScopeRole)

def verdict (classification : ScopePathClass) (suggestion : Option String) (key : String)
    (values : List (String × String)) (structuralError : Bool) : ScopePathVerdict where
  taskId := taskId
  path := path
  role := role
  classification := classification
  suggestion := suggestion
  reason := runtime.getMessage key lang values
  structuralError := structuralError

def isParallelTreeMirror (declaredDirs siblings : List String) : Bool :=
  match coveringEntry runtime declaredDirs path with
  | none => false
  | some suspectEntry =>
      (siblings.filterMap (coveringEntry runtime declaredDirs)).any (· ≠ suspectEntry)

def intentionalNewDir (parent : String) : Option (String × Nat) :=
  if looksOutOfRoot path || hasSuspiciousCharacters path then none
  else
    match findTrackedAncestor parent trackedFiles with
    | none => none
    | some info =>
        let count := (trackedFiles.filter (startsWith · (info.ancestor ++ "/"))).length
        if info.newDepth ≤ maxNewDirDepth ∧ minEstablishedRootFiles ≤ count then some (info.ancestor, count)
        else none

def isGreenfield : Bool := trackedFiles.all fun file => (directoriesFrom file.length (dirname file)).isEmpty

def classifyNew : ScopePathVerdict :=
  let parent := dirname path
  if parent = "" ∨ isTrackedDir trackedFiles parent then
    verdict runtime lang taskId path role .newPlausible none "scope_gate.reason.new_plausible" [] false
  else if isGreenfield trackedFiles then
    verdict runtime lang taskId path role .newPlausible none "scope_gate.reason.greenfield" [] false
  else
    match intentionalNewDir trackedFiles path parent with
    | some (ancestor, count) =>
        verdict runtime lang taskId path role .newPlausible none "scope_gate.reason.intentional_new_dir"
          [("parent", parent), ("ancestor", ancestor), ("count", toString count)] false
    | none =>
        verdict runtime lang taskId path role .suspect none "scope_gate.reason.invented_dir" [("parent", parent)]
          false

def classify (taskPaths declaredDirs : List String) : ScopePathVerdict :=
  let normalizedPath := withoutSlashes (withoutDot path)
  if role = .write ∧ isTrackedDir trackedFiles normalizedPath then
    verdict runtime lang taskId path role .suspect none "scope_gate.reason.directory_in_files_write" [] true
  else if path ∈ trackedFiles ∨ role = .read ∧ path ∈ plannedWrites then
    verdict runtime lang taskId path role .confirmed none "scope_gate.reason.confirmed" [] false
  else if hasGlobMagic path then
    let matchCount := (globMatches path trackedFiles).length
    if 0 < matchCount then
      verdict runtime lang taskId path role .confirmed none "scope_gate.reason.glob_confirmed"
        [("count", toString matchCount)] false
    else verdict runtime lang taskId path role .suspect none "scope_gate.reason.glob_no_match" [] false
  else
    let name := basename path
    let siblings := byBasename trackedFiles name
    let testMirrorInTrackedDir := isRecurringTestBasename name && isTrackedDir trackedFiles (dirname path)
      && taskOwnsMatchingSource runtime name taskPaths
    if isParallelTreeMirror runtime path declaredDirs siblings then
      verdict runtime lang taskId path role .newPlausible none "scope_gate.reason.parallel_tree_mirror" [] false
    else
      match pickClosest path siblings with
      | some suggestion =>
          if commonBasenames.contains (runtime.toLowerCase name) || testMirrorInTrackedDir then
            classifyNew runtime lang trackedFiles taskId path role
          else
            verdict runtime lang taskId path role .suspect (some suggestion)
              "scope_gate.reason.wrong_dir_suggestion" [("suggestion", suggestion)] false
      | none => classifyNew runtime lang trackedFiles taskId path role

end Classify

/-! ### The gate -/

def ScopeGateTask.filesWrite (task : ScopeGateTask) : List String := task.scope.filesWrite.getD []
def ScopeGateTask.filesRead (task : ScopeGateTask) : List String := task.scope.filesRead.getD []

section Gate

variable (input : ScopeGateInput)

def taskVerdicts (task : ScopeGateTask) : List ScopePathVerdict :=
  let lang := normalizeLang input.lang
  let plannedWrites := input.tasks.flatMap (·.filesWrite)
  let taskPaths := task.filesWrite ++ task.filesRead
  let declaredDirs := task.scope.directories.getD []
  task.filesWrite.map (classify runtime lang input.trackedFiles plannedWrites task.id · .write taskPaths declaredDirs)
    ++ task.filesRead.map
      (classify runtime lang input.trackedFiles plannedWrites task.id · .read taskPaths declaredDirs)

def verdicts : List ScopePathVerdict := input.tasks.flatMap (taskVerdicts runtime input)

def isWriteSuspect (own : ScopePathVerdict) : Bool := own.role = .write && own.classification = .suspect

def taskById (taskId : String) : Option ScopeGateTask := input.tasks.reverse.find? (·.id = taskId)

/-- What the evidence at hand makes of a suspect. -/
def resolutionOf (suspect : ScopePathVerdict) : Option ScopeResolution :=
  match suspect.suggestion.filter (· ≠ "") with
  | none => none
  | some suggestion =>
      let lang := normalizeLang input.lang
      let taskWrites := ((taskById input suspect.taskId).map (·.filesWrite)).getD []
      let suggestionNorm := normPath runtime suggestion
      if taskWrites.any (normPath runtime · = suggestionNorm) then
        some
          { taskId := suspect.taskId, path := suspect.path, action := .dropDuplicate, replacement := some suggestion
            reason := runtime.getMessage "scope_gate.resolution.drop_duplicate" lang [("suggestion", suggestion)] }
      else if (byBasename input.trackedFiles (basename suspect.path)).length = 1 then
        some
          { taskId := suspect.taskId, path := suspect.path, action := .autoReplace, replacement := some suggestion
            reason := runtime.getMessage "scope_gate.resolution.auto_replace" lang [("suggestion", suggestion)] }
      else none

def writeSuspects : List ScopePathVerdict := (verdicts runtime input).filter isWriteSuspect

def resolutions : List ScopeResolution := (writeSuspects runtime input).filterMap (resolutionOf runtime input)

def isResolved (suspect : ScopePathVerdict) : Bool := (resolutionOf runtime input suspect).isSome

def blockingWriteSuspects : List ScopePathVerdict :=
  if input.resolveSuggestions then (writeSuspects runtime input).filter (!isResolved runtime input ·)
  else writeSuspects runtime input

def maxListedSuspects : Nat := 20

def listed (lang : String) (lineOf : ScopePathVerdict → String) (suspects : List ScopePathVerdict) : String :=
  let shown := suspects.take maxListedSuspects
  let more := if shown.length < suspects.length then
    "\n  " ++ runtime.getMessage "scope_gate.message.more_suspects" lang
      [("count", toString (suspects.length - shown.length))] else ""
  "\n".intercalate (shown.map lineOf) ++ more

def structuralMessage (lang : String) (suspects : List ScopePathVerdict) : String :=
  runtime.getMessage "scope_gate.message.directory_in_files_write_header" lang
      [("count", toString suspects.length)] ++ "\n"
    ++ listed runtime lang (fun own => "  • [" ++ own.taskId ++ "] " ++ own.path ++ " (" ++ own.reason ++ ")") suspects
    ++ "\n" ++ runtime.getMessage "scope_gate.message.directory_in_files_write_footer" lang []

def suspectMessage (lang : String) (suspects : List ScopePathVerdict) : String :=
  let lineOf (own : ScopePathVerdict) : String :=
    let hint := match own.suggestion.filter (· ≠ "") with
      | some suggestion => runtime.getMessage "scope_gate.message.hint_suggestion" lang [("suggestion", suggestion)]
      | none => ""
    "  • [" ++ own.taskId ++ "] " ++ own.path ++ " (" ++ own.reason ++ ")" ++ hint
  runtime.getMessage "scope_gate.message.header" lang [("count", toString suspects.length)] ++ "\n"
    ++ listed runtime lang lineOf suspects
    ++ "\n" ++ runtime.getMessage "scope_gate.message.footer" lang []

def evaluateScopeGate : Except ScopeGateBlocked ScopeGatePass :=
  let lang := normalizeLang input.lang
  let all := verdicts runtime input
  let structuralWriteErrors := (writeSuspects runtime input).filter (·.structuralError)
  let advisories := all.filter fun own =>
    own.classification = .newPlausible || (own.classification = .suspect && own.role = .read)
  let blocking := blockingWriteSuspects runtime input
  if structuralWriteErrors ≠ [] then
    .error ⟨.directoryInFilesWrite, structuralWriteErrors, all, resolutions runtime input,
      structuralMessage runtime lang structuralWriteErrors⟩
  else if blocking ≠ [] ∧ input.acknowledgeScopePaths = false then
    .error ⟨.scopeGateSuspect, blocking, all, resolutions runtime input, suspectMessage runtime lang blocking⟩
  else
    let greenfieldUnvalidated := if isGreenfield input.trackedFiles then
      (all.filter fun own => own.role = .write && own.classification ≠ .confirmed).length else 0
    let resolvedWriteSuspects := if input.resolveSuggestions then
      (writeSuspects runtime input).filter (isResolved runtime input) else []
    .ok
      { verdicts := all
        advisories := advisories ++ resolvedWriteSuspects
        overrideApplied := blocking ≠ []
        resolutions := resolutions runtime input
        greenfieldNotice := if 0 < greenfieldUnvalidated then
          some (runtime.getMessage "scope_gate.notice.greenfield" lang [("count", toString greenfieldUnvalidated)])
          else none }

end Gate

/-! ### Repairing the writes of a task -/

inductive AppliedAction where
  | dropped
  | replaced
  deriving DecidableEq

structure AppliedScopeResolution where
  resolution : ScopeResolution
  appliedAction : AppliedAction
  deriving DecidableEq

structure Repair where
  filesWrite : List String
  applied : List AppliedScopeResolution

def applyResolution (taskId : String) (repair : Repair) (resolution : ScopeResolution) : Repair :=
  match resolution.replacement.filter (· ≠ "") with
  | none => repair
  | some replacement =>
      if resolution.taskId ≠ taskId then repair
      else
        let norm := normPath runtime
        let files := repair.filesWrite
        match files.findIdx? (norm · = norm resolution.path) with
        | none => repair
        | some index =>
            if files.any (norm · = norm replacement) then
              ⟨files.eraseIdx index, repair.applied ++ [⟨resolution, .dropped⟩]⟩
            else ⟨files.set index replacement, repair.applied ++ [⟨resolution, .replaced⟩]⟩

def applyScopeResolutions (taskId : String) (filesWrite : List String) (resolutions : List ScopeResolution) : Repair :=
  resolutions.foldl (applyResolution runtime taskId) ⟨filesWrite, []⟩

end Runtime

end Deckent.ScopeGate
