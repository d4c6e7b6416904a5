import Mathlib.Data.List.Dedup
import Mathlib.Data.List.Perm.Subperm
import Deckent.Lib.KeyedReplacement
import Deckent.Model.ScopeGate

/-!
# What scope repair loses

The verdict on a path depends on the path and its task alone, so the resolutions of a task are steps that come from a
suggestion for each of its writes. A suggested path is tracked and has no suggestion itself. The repair keeps every
deliverable exactly when, in each task, writes without a resolution stand behind those of the same normal form that
have one, and each suggestion is a write of the task or the late suggestion of its normal form.
-/

namespace Deckent.ScopeGate

variable {runtime : GateRuntime} {input : ScopeGateInput} {task : ScopeGateTask}

/-! ### Verdicts -/

section Classify

variable {lang taskId path : String} {trackedFiles plannedWrites taskPaths declaredDirs : List String}
  {role : ScopeRole}

theorem suggestion_classifyNew : (classifyNew runtime lang trackedFiles taskId path role).suggestion = none := by
  unfold classifyNew
  dsimp only
  split
  · rfl
  · split
    · rfl
    · split <;> rfl

theorem suggestion_classify_of_mem (hmem : path ∈ trackedFiles) :
    (classify runtime lang trackedFiles plannedWrites taskId path role taskPaths declaredDirs).suggestion = none := by
  unfold classify
  dsimp only
  split
  · rfl
  · rw [if_pos (.inl hmem)]
    rfl

theorem foldl_pick_mem {α : Type*} (better : α → α → Bool) (first : α) (rest : List α) :
    rest.foldl (fun best candidate => if better best candidate then candidate else best) first ∈ first :: rest := by
  induction rest generalizing first with
  | nil => exact List.mem_cons_self
  | cons candidate rest ih =>
      rw [List.foldl_cons]
      split
      · exact List.mem_cons_of_mem _ (ih candidate)
      · rcases List.mem_cons.mp (ih first) with heq | hmem
        · rw [heq]
          exact List.mem_cons_self
        · exact List.mem_cons_of_mem _ (List.mem_cons_of_mem _ hmem)

theorem mem_of_pickClosest {target suggestion : String} {candidates : List String}
    (hpick : pickClosest target candidates = some suggestion) : suggestion ∈ candidates := by
  cases candidates with
  | nil => cases hpick
  | cons first rest =>
      obtain rfl := Option.some.inj hpick
      have hmem := foldl_pick_mem (fun best candidate => decide
        (sharedSegments (segmentsOf target) (segmentsOf best)
          < sharedSegments (segmentsOf target) (segmentsOf candidate))) first rest
      simpa only [decide_eq_true_eq] using hmem

theorem mem_of_suggestion_classify {suggestion : String}
    (h : (classify runtime lang trackedFiles plannedWrites taskId path role taskPaths declaredDirs).suggestion
      = some suggestion) : suggestion ∈ trackedFiles := by
  unfold classify at h
  dsimp only at h
  split at h
  · cases h
  · split at h
    · cases h
    · split at h
      · split at h <;> cases h
      · split at h
        · cases h
        · split at h
          · next found hfound =>
              split at h
              · rw [suggestion_classifyNew] at h
                cases h
              · cases h
                exact List.mem_of_mem_filter (mem_of_pickClosest hfound)
          · rw [suggestion_classifyNew] at h
            cases h

theorem taskId_classify :
    (classify runtime lang trackedFiles plannedWrites taskId path role taskPaths declaredDirs).taskId = taskId
      ∧ (classify runtime lang trackedFiles plannedWrites taskId path role taskPaths declaredDirs).path = path
      ∧ (classify runtime lang trackedFiles plannedWrites taskId path role taskPaths declaredDirs).role = role := by
  unfold classify classifyNew
  dsimp only
  repeat' split
  all_goals exact ⟨rfl, rfl, rfl⟩

end Classify

/-! ### The resolutions of a task -/

def writeVerdict (runtime : GateRuntime) (input : ScopeGateInput) (task : ScopeGateTask) (path : String) :
    ScopePathVerdict :=
  classify runtime (normalizeLang input.lang) input.trackedFiles (input.tasks.flatMap (·.filesWrite)) task.id path
    .write (task.filesWrite ++ task.filesRead) (task.scope.directories.getD [])

def suggestionFor (runtime : GateRuntime) (input : ScopeGateInput) (task : ScopeGateTask) (path : String) :
    Option String :=
  if isWriteSuspect (writeVerdict runtime input task path) then
    (resolutionOf runtime input (writeVerdict runtime input task path)).bind (·.replacement)
  else none

theorem resolutionOf_eq_some {suspect : ScopePathVerdict} {resolution : ScopeResolution}
    (h : resolutionOf runtime input suspect = some resolution) :
    ∃ suggestion, suspect.suggestion = some suggestion ∧ suggestion ≠ "" ∧ resolution.taskId = suspect.taskId
      ∧ resolution.path = suspect.path ∧ resolution.replacement = some suggestion := by
  unfold resolutionOf at h
  split at h
  · cases h
  · next suggestion hsuggestion =>
      rw [Option.filter_eq_some_iff, decide_eq_true_eq] at hsuggestion
      dsimp only at h
      split at h
      · cases h
        exact ⟨suggestion, hsuggestion.1, hsuggestion.2, rfl, rfl, rfl⟩
      · split at h
        · cases h
          exact ⟨suggestion, hsuggestion.1, hsuggestion.2, rfl, rfl, rfl⟩
        · cases h

theorem suggestionFor_eq_some {path suggestion : String} (h : suggestionFor runtime input task path = some suggestion) :
    (writeVerdict runtime input task path).suggestion = some suggestion ∧ suggestion ≠ "" := by
  unfold suggestionFor at h
  split at h
  · obtain ⟨resolution, hresolution, hreplacement⟩ := Option.bind_eq_some_iff.mp h
    obtain ⟨own, hown, hne, -, -, hsame⟩ := resolutionOf_eq_some hresolution
    obtain rfl := Option.some.inj (hreplacement.symm.trans hsame)
    exact ⟨hown, hne⟩
  · cases h

theorem suggestionFor_suggestion {path suggestion : String}
    (h : suggestionFor runtime input task path = some suggestion) :
    suggestionFor runtime input task suggestion = none := by
  have hmem : suggestion ∈ input.trackedFiles := mem_of_suggestion_classify (suggestionFor_eq_some h).1
  cases hagain : suggestionFor runtime input task suggestion with
  | none => rfl
  | some other =>
      have hnone : (writeVerdict runtime input task suggestion).suggestion = none := suggestion_classify_of_mem hmem
      rw [(suggestionFor_eq_some hagain).1] at hnone
      cases hnone

def stepOf (taskId : String) (resolution : ScopeResolution) : Option (String × String) :=
  if resolution.taskId = taskId then (resolution.replacement.filter (· ≠ "")).map (resolution.path, ·) else none

theorem filesWrite_applyResolution (taskId : String) (repair : Repair) (resolution : ScopeResolution) :
    (applyResolution runtime taskId repair resolution).filesWrite
      = (stepOf taskId resolution).elim repair.filesWrite (replaceOne (normPath runtime) repair.filesWrite) := by
  unfold applyResolution stepOf
  cases hreplacement : resolution.replacement.filter (· ≠ "") with
  | none => simp
  | some replacement =>
      dsimp only
      by_cases htask : resolution.taskId = taskId
      · rw [if_pos htask, if_neg (not_not_intro htask), Option.map_some, Option.elim_some, replaceOne]
        cases repair.filesWrite.findIdx? (normPath runtime · = normPath runtime resolution.path) with
        | none => rfl
        | some index =>
            dsimp only
            split <;> rfl
      · rw [if_neg htask, if_pos htask]
        rfl

theorem filesWrite_applyScopeResolutions (taskId : String) (files : List String) (resolutions : List ScopeResolution) :
    (applyScopeResolutions runtime taskId files resolutions).filesWrite
      = replaceAll (normPath runtime) files (resolutions.filterMap (stepOf taskId)) := by
  have hgeneral : ∀ repair : Repair, (resolutions.foldl (applyResolution runtime taskId) repair).filesWrite
      = replaceAll (normPath runtime) repair.filesWrite (resolutions.filterMap (stepOf taskId)) := by
    induction resolutions with
    | nil => exact fun _ => rfl
    | cons resolution rest ih =>
        intro repair
        have hone : (applyResolution runtime taskId repair resolution).filesWrite = _ :=
          filesWrite_applyResolution taskId repair resolution
        rw [List.foldl_cons, ih, hone, List.filterMap_cons]
        cases stepOf taskId resolution with
        | none => rfl
        | some step => rfl
  exact hgeneral ⟨files, []⟩

def verdictStep (runtime : GateRuntime) (input : ScopeGateInput) (taskId : String) (own : ScopePathVerdict) :
    Option (String × String) :=
  (if isWriteSuspect own then resolutionOf runtime input own else none).bind (stepOf taskId)

theorem verdictStep_of_taskId_ne {taskId : String} {own : ScopePathVerdict} (hne : own.taskId ≠ taskId) :
    verdictStep runtime input taskId own = none := by
  unfold verdictStep
  split
  · cases hresolution : resolutionOf runtime input own with
    | none => rfl
    | some resolution =>
        obtain ⟨-, -, -, htask, -, -⟩ := resolutionOf_eq_some hresolution
        rw [Option.bind_some, stepOf, if_neg (htask ▸ hne)]
  · rfl

theorem verdictStep_of_read {taskId : String} {own : ScopePathVerdict} (hread : own.role = .read) :
    verdictStep runtime input taskId own = none := by
  have hnot : isWriteSuspect own = false := by rw [isWriteSuspect, hread]; rfl
  rw [verdictStep, hnot]
  rfl

theorem verdictStep_writeVerdict (path : String) :
    verdictStep runtime input task.id (writeVerdict runtime input task path)
      = (suggestionFor runtime input task path).map (path, ·) := by
  unfold verdictStep suggestionFor
  split
  · cases hresolution : resolutionOf runtime input (writeVerdict runtime input task path) with
    | none => rfl
    | some resolution =>
        obtain ⟨suggestion, -, hne, htask, hpath, hreplacement⟩ := resolutionOf_eq_some hresolution
        rw [writeVerdict, taskId_classify.1] at htask
        rw [writeVerdict, taskId_classify.2.1] at hpath
        rw [Option.bind_some, Option.bind_some, stepOf, if_pos htask, hreplacement, hpath, Option.filter_some,
          if_pos (decide_eq_true hne)]
  · rfl

theorem filterMap_taskVerdicts :
    (taskVerdicts runtime input task).filterMap (verdictStep runtime input task.id)
      = repairSteps (suggestionFor runtime input task) task.filesWrite := by
  have hreads : ∀ own ∈ task.filesRead.map (classify runtime (normalizeLang input.lang) input.trackedFiles
      (input.tasks.flatMap (·.filesWrite)) task.id · .read (task.filesWrite ++ task.filesRead)
      (task.scope.directories.getD [])), verdictStep runtime input task.id own = none := by
    rw [List.forall_mem_map]
    exact fun path _ => verdictStep_of_read taskId_classify.2.2
  rw [taskVerdicts, List.filterMap_append, List.filterMap_eq_nil_iff.mpr hreads, List.append_nil, List.filterMap_map]
  exact List.filterMap_congr fun path _ => verdictStep_writeVerdict path

theorem filterMap_taskVerdicts_of_ne {taskId : String} (hne : task.id ≠ taskId) :
    (taskVerdicts runtime input task).filterMap (verdictStep runtime input taskId) = [] := by
  rw [List.filterMap_eq_nil_iff]
  intro own hown
  refine verdictStep_of_taskId_ne ?_
  rcases List.mem_append.mp hown with hown | hown
  · obtain ⟨path, -, rfl⟩ := List.mem_map.mp hown
    exact taskId_classify.1 ▸ hne
  · obtain ⟨path, -, rfl⟩ := List.mem_map.mp hown
    exact taskId_classify.1 ▸ hne

theorem flatMap_of_nodup {α β : Type*} {id : α → String} {list : List α} {x : α} {f : α → List β}
    (hdistinct : (list.map id).Nodup) (hx : x ∈ list) (hother : ∀ y, id y ≠ id x → f y = []) :
    list.flatMap f = f x := by
  obtain ⟨before, after, rfl⟩ := List.append_of_mem hx
  rw [List.map_append, List.map_cons, List.nodup_middle, List.nodup_cons, List.mem_append, not_or] at hdistinct
  have hnil : ∀ part : List α, id x ∉ part.map id → part.flatMap f = [] := by
    intro part hpart
    rw [List.flatMap_eq_nil_iff]
    exact fun y hy => hother y fun heq => hpart (List.mem_map.mpr ⟨y, hy, heq⟩)
  rw [List.flatMap_append, List.flatMap_cons, hnil before hdistinct.1.1, hnil after hdistinct.1.2, List.nil_append,
    List.append_nil]

theorem filterMap_stepOf_resolutions (hdistinct : (input.tasks.map (·.id)).Nodup) (htask : task ∈ input.tasks) :
    (resolutions runtime input).filterMap (stepOf task.id)
      = repairSteps (suggestionFor runtime input task) task.filesWrite := by
  have hsteps : (resolutions runtime input).filterMap (stepOf task.id)
      = (verdicts runtime input).filterMap (verdictStep runtime input task.id) := by
    rw [resolutions, writeSuspects, List.filterMap_filter, List.filterMap_filterMap]
    rfl
  rw [hsteps, verdicts, List.filterMap_flatMap, flatMap_of_nodup hdistinct htask, filterMap_taskVerdicts]
  exact fun other hne => filterMap_taskVerdicts_of_ne hne

/-! ### What the gate reports -/

def gateResolutions : Except ScopeGateBlocked ScopeGatePass → List ScopeResolution
  | .error blocked => blocked.resolutions
  | .ok pass => pass.resolutions

def gateSuspects : Except ScopeGateBlocked ScopeGatePass → List ScopePathVerdict
  | .error blocked => blocked.suspects
  | .ok _ => []

theorem gateResolutions_evaluate : gateResolutions (evaluateScopeGate runtime input) = resolutions runtime input := by
  unfold evaluateScopeGate
  dsimp only
  split
  · rfl
  · split <;> rfl

theorem mem_gateSuspects {own : ScopePathVerdict} (hown : own ∈ gateSuspects (evaluateScopeGate runtime input)) :
    own ∈ writeSuspects runtime input := by
  have hblocking : blockingWriteSuspects runtime input ⊆ writeSuspects runtime input := by
    unfold blockingWriteSuspects
    split
    · exact List.filter_sublist.subset
    · exact List.Subset.refl _
  unfold evaluateScopeGate at hown
  dsimp only at hown
  split at hown
  · exact List.mem_of_mem_filter hown
  · split at hown
    · exact hblocking hown
    · cases hown

/-! ### What the repair keeps -/

def resolvedTo (runtime : GateRuntime) (input : ScopeGateInput) (task : ScopeGateTask) (path : String) :
    Option String :=
  ((gateResolutions (evaluateScopeGate runtime input)).filterMap (stepOf task.id)).lookup path

def repairedWrites (runtime : GateRuntime) (input : ScopeGateInput) (task : ScopeGateTask) : List String :=
  (applyScopeResolutions runtime task.id task.filesWrite (gateResolutions (evaluateScopeGate runtime input))).filesWrite

def repairedTask (runtime : GateRuntime) (input : ScopeGateInput) (task : ScopeGateTask) : ScopeGateTask :=
  { task with scope := { task.scope with filesWrite := some (repairedWrites runtime input task) } }

def repairedInput (runtime : GateRuntime) (input : ScopeGateInput) (acknowledge resolve : Bool) : ScopeGateInput :=
  { input with
    tasks := input.tasks.map (repairedTask runtime input)
    acknowledgeScopePaths := acknowledge
    resolveSuggestions := resolve }

/-- Repairing the writes of all tasks loses no deliverable. -/
structure LosesNothing (runtime : GateRuntime) (input : ScopeGateInput) : Prop where
  kept : ∀ task ∈ input.tasks,
    (task.filesWrite.filter (resolvedTo runtime input task · |>.isNone)).Sublist (repairedWrites runtime input task)
  delivered : ∀ task ∈ input.tasks, ∀ path ∈ task.filesWrite, ∀ suggestion ∈ resolvedTo runtime input task path,
    suggestion ∈ repairedWrites runtime input task
  targets : ∀ task ∈ input.tasks,
    (task.filesWrite.map fun path => (resolvedTo runtime input task path).getD path).dedup.length
      ≤ (repairedWrites runtime input task).dedup.length
  settled : ∀ acknowledge resolve,
    ∀ own ∈ gateSuspects (evaluateScopeGate runtime (repairedInput runtime input acknowledge resolve)),
    ∀ resolution ∈ gateResolutions (evaluateScopeGate runtime input),
      resolution.taskId = own.taskId → resolution.path ≠ own.path

/-- Each step of the repair finds its own write, and each suggestion is a write or the late one of its form. -/
structure RepairsCleanly (runtime : GateRuntime) (input : ScopeGateInput) (task : ScopeGateTask) : Prop where
  first : SuggestedFirst (normPath runtime) (suggestionFor runtime input task) task.filesWrite
  delivered : ∀ path ∈ task.filesWrite, ∀ suggestion ∈ suggestionFor runtime input task path,
    Delivered (normPath runtime) (suggestionFor runtime input task) task.filesWrite suggestion

section Repair

variable (hdistinct : (input.tasks.map (·.id)).Nodup)

include hdistinct

theorem repairedWrites_eq (htask : task ∈ input.tasks) : repairedWrites runtime input task
    = replaceAll (normPath runtime) task.filesWrite (repairSteps (suggestionFor runtime input task) task.filesWrite) := by
  rw [repairedWrites, gateResolutions_evaluate, filesWrite_applyScopeResolutions,
    filterMap_stepOf_resolutions hdistinct htask]

theorem resolvedTo_eq (htask : task ∈ input.tasks) {path : String} (hpath : path ∈ task.filesWrite) :
    resolvedTo runtime input task path = suggestionFor runtime input task path := by
  rw [resolvedTo, gateResolutions_evaluate, filterMap_stepOf_resolutions hdistinct htask, lookup_repairSteps hpath]

theorem kept_iff (htask : task ∈ input.tasks) :
    (task.filesWrite.filter (resolvedTo runtime input task · |>.isNone)).Sublist (repairedWrites runtime input task)
      ↔ SuggestedFirst (normPath runtime) (suggestionFor runtime input task) task.filesWrite := by
  have hfilter : task.filesWrite.filter (resolvedTo runtime input task · |>.isNone)
      = task.filesWrite.filter (suggestionFor runtime input task · |>.isNone) :=
    List.filter_congr fun path hpath => by rw [resolvedTo_eq hdistinct htask hpath]
  rw [hfilter, repairedWrites_eq hdistinct htask, sublist_replaceAll_iff]

theorem delivered_iff (htask : task ∈ input.tasks)
    (hfirst : SuggestedFirst (normPath runtime) (suggestionFor runtime input task) task.filesWrite) :
    (∀ path ∈ task.filesWrite, ∀ suggestion ∈ resolvedTo runtime input task path,
        suggestion ∈ repairedWrites runtime input task)
      ↔ ∀ path ∈ task.filesWrite, ∀ suggestion ∈ suggestionFor runtime input task path,
        Delivered (normPath runtime) (suggestionFor runtime input task) task.filesWrite suggestion := by
  refine forall₂_congr fun path hpath => ?_
  rw [resolvedTo_eq hdistinct htask hpath, repairedWrites_eq hdistinct htask]
  exact forall₂_congr fun suggestion hsuggestion => mem_replaceAll_iff hfirst (suggestionFor_suggestion hsuggestion)

omit hdistinct in
theorem targets_of_kept
    (hkept : (task.filesWrite.filter (resolvedTo runtime input task · |>.isNone)).Sublist
      (repairedWrites runtime input task))
    (hdelivered : ∀ path ∈ task.filesWrite, ∀ suggestion ∈ resolvedTo runtime input task path,
      suggestion ∈ repairedWrites runtime input task) :
    (task.filesWrite.map fun path => (resolvedTo runtime input task path).getD path).dedup.length
      ≤ (repairedWrites runtime input task).dedup.length := by
  refine (List.Nodup.subperm (List.nodup_dedup _) fun target htarget => ?_).length_le
  rw [List.mem_dedup] at htarget ⊢
  obtain ⟨path, hpath, rfl⟩ := List.mem_map.mp htarget
  cases hresolved : resolvedTo runtime input task path with
  | none => exact hkept.subset (List.mem_filter.mpr ⟨hpath, by rw [Option.getD_none, hresolved]; rfl⟩)
  | some suggestion => exact hdelivered path hpath suggestion hresolved

theorem notMem_repairedWrites (htask : task ∈ input.tasks)
    (hfirst : SuggestedFirst (normPath runtime) (suggestionFor runtime input task) task.filesWrite)
    {path suggestion : String} (hsuggestion : suggestionFor runtime input task path = some suggestion) :
    path ∉ repairedWrites runtime input task := by
  intro hmem
  rw [repairedWrites_eq hdistinct htask] at hmem
  rcases mem_replaceAll hfirst hmem with ⟨-, hnone⟩ | ⟨other, -, hother⟩
  · rw [hsuggestion] at hnone
    cases hnone
  · have hnone := suggestionFor_suggestion hother
    rw [hsuggestion] at hnone
    cases hnone

omit hdistinct in
theorem exists_of_mem_writeSuspects {own : ScopePathVerdict} (hown : own ∈ writeSuspects runtime input) :
    ∃ task ∈ input.tasks, own.taskId = task.id ∧ own.path ∈ task.filesWrite := by
  obtain ⟨hmem, hsuspect⟩ := List.mem_filter.mp hown
  obtain ⟨task, htask, hverdict⟩ := List.mem_flatMap.mp hmem
  rcases List.mem_append.mp hverdict with hwrite | hread
  · obtain ⟨path, hpath, rfl⟩ := List.mem_map.mp hwrite
    exact ⟨task, htask, taskId_classify.1, taskId_classify.2.1.symm ▸ hpath⟩
  · obtain ⟨path, -, rfl⟩ := List.mem_map.mp hread
    rw [isWriteSuspect, taskId_classify.2.2] at hsuspect
    cases hsuspect

omit hdistinct in
theorem replacement_of_mem_resolutions {resolution : ScopeResolution} (hmem : resolution ∈ resolutions runtime input) :
    ∃ suggestion, stepOf resolution.taskId resolution = some (resolution.path, suggestion) := by
  obtain ⟨suspect, -, hresolution⟩ := List.mem_filterMap.mp hmem
  obtain ⟨suggestion, -, hne, -, -, hreplacement⟩ := resolutionOf_eq_some hresolution
  refine ⟨suggestion, ?_⟩
  rw [stepOf, if_pos rfl, hreplacement, Option.filter_some, if_pos (decide_eq_true hne)]
  rfl

theorem settled_of_first
    (hfirst : ∀ task ∈ input.tasks, SuggestedFirst (normPath runtime) (suggestionFor runtime input task) task.filesWrite)
    {acknowledge resolve : Bool} {own : ScopePathVerdict}
    (hown : own ∈ gateSuspects (evaluateScopeGate runtime (repairedInput runtime input acknowledge resolve)))
    {resolution : ScopeResolution} (hmem : resolution ∈ gateResolutions (evaluateScopeGate runtime input))
    (hsame : resolution.taskId = own.taskId) : resolution.path ≠ own.path := by
  obtain ⟨repaired, hrepaired, htaskId, hpath⟩ := exists_of_mem_writeSuspects (mem_gateSuspects hown)
  obtain ⟨task, htask, rfl⟩ := List.mem_map.mp hrepaired
  rw [gateResolutions_evaluate] at hmem
  obtain ⟨suggestion, hstep⟩ := replacement_of_mem_resolutions hmem
  have hsteps : (resolution.path, suggestion) ∈ repairSteps (suggestionFor runtime input task) task.filesWrite := by
    rw [← filterMap_stepOf_resolutions hdistinct htask]
    have hid : resolution.taskId = task.id := hsame.trans htaskId
    exact List.mem_filterMap.mpr ⟨resolution, hmem, hid ▸ hstep⟩
  intro heq
  have hnot := notMem_repairedWrites hdistinct htask (hfirst task htask) (mem_repairSteps.mp hsteps).2
  exact hnot (heq ▸ hpath)

/-- Scope repair loses no deliverable exactly when every task is repaired cleanly. -/
theorem applyScopeResolutions_losesNothing_iff :
    LosesNothing runtime input ↔ ∀ task ∈ input.tasks, RepairsCleanly runtime input task := by
  constructor
  · intro h task htask
    have hfirst := (kept_iff hdistinct htask).mp (h.kept task htask)
    exact ⟨hfirst, (delivered_iff hdistinct htask hfirst).mp (h.delivered task htask)⟩
  · intro h
    have hkept := fun task htask => (kept_iff hdistinct htask).mpr (h task htask).first
    have hdelivered := fun task htask =>
      (delivered_iff hdistinct htask (h task htask).first).mpr (h task htask).delivered
    exact ⟨hkept, hdelivered, fun task htask => targets_of_kept (hkept task htask) (hdelivered task htask),
      fun _ _ own hown resolution hmem hsame =>
        settled_of_first hdistinct (fun task htask => (h task htask).first) hown hmem hsame⟩

end Repair

/-! ### Sample repairs -/

/-- Lower-casing of ASCII, and messages that are their keys. -/
def asciiRuntime : GateRuntime where
  toLowerCase text := String.ofList (text.toList.map Char.toLower)
  getMessage key _ _ := key

def plainTask (id : String) (filesWrite : List String) : ScopeGateTask where
  id := id
  scope := { filesWrite := some filesWrite, filesRead := none, directories := none }

def sampleInput (filesWrite : List String) : ScopeGateInput where
  tasks := [plainTask "001" filesWrite]
  trackedFiles := ["src/agents/worker.ts", "src/orchestra/planner.ts"]
  acknowledgeScopePaths := false
  resolveSuggestions := true
  lang := none

def wrongDirectory : ScopeGateInput := sampleInput ["src/orchestra/worker.ts", "src/orchestra/planner.ts"]

theorem applyScopeResolutions_losesNothing_wrongDirectory :
    (wrongDirectory.tasks.map (·.id)).Nodup ∧ LosesNothing asciiRuntime wrongDirectory := by
  refine ⟨by decide, (applyScopeResolutions_losesNothing_iff (by decide)).mpr fun task htask => ?_⟩
  obtain rfl := List.mem_singleton.mp htask
  constructor
  · unfold SuggestedFirst
    decide +kernel
  · unfold Delivered
    decide +kernel

def otherSpelling : ScopeGateInput := sampleInput ["./src/agents/worker.ts"]

/-- A write that is a spelling of its own suggestion counts as the planned write and is dropped. -/
theorem not_losesNothing_otherSpelling :
    ¬ LosesNothing asciiRuntime otherSpelling ∧
      otherSpelling.tasks.map (repairedWrites asciiRuntime otherSpelling) = [[]] := by
  refine ⟨fun h => ?_, by decide +kernel⟩
  have hdelivered := h.delivered
  revert hdelivered
  decide +kernel

end Deckent.ScopeGate
