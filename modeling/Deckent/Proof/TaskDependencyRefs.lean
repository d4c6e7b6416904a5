import Deckent.Model.TaskDependencyRefs

/-!
# References that other tasks capture

A task that is put before the authored ones captures a reference when its id is the reference or when its title
has the label. A second pass reads the ids that the first one wrote, and keeps those that name themselves.
-/

namespace Deckent.TaskDependencyRefs

variable {canonicalize : Nat → Nat} {tasks prepended authored : List SprintTask} {ref id : String}
  {task target : SprintTask}

/-! ### What a reference denotes -/

/-- The place that an index form stands for, where `Task 0` has none. -/
def position (trimmed : String) : Option (Option Nat) :=
  if isDigits trimmed.toList then some (some (parseDigits trimmed.toList))
  else (taskNumber trimmed).map fun n => if n = 0 then none else some (n - 1)

def directives (tasks : List SprintTask) : List SprintTask :=
  tasks.filter (·.isPriorityFix ≠ some true)

def titled (canonicalize : Nat → Nat) (tasks : List SprintTask) (trimmed : String) : Option SprintTask :=
  tasks.find? fun task => titleHasRefToken canonicalize task.title trimmed

def IsOpen (ref : String) : Prop := trim ref ≠ "" ∧ isReserved (trim ref) = false

def IsIndexRef (ref : String) : Prop := (position (trim ref)).isSome = true

def IsTitleLabel (ref : String) : Prop :=
  IsOpen ref ∧ position (trim ref) = none ∧ isPlanSlotId (trim ref) = false

inductive ByForm (canonicalize : Nat → Nat) (tasks : List SprintTask) (ref : String) (target : SprintTask) : Prop
  | index (place : Nat) (hopen : IsOpen ref) (hform : position (trim ref) = some (some place))
      (htarget : (directives tasks)[place]? = some target)
  | label (hform : IsTitleLabel ref) (htarget : titled canonicalize tasks (trim ref) = some target)

def Denotes (canonicalize : Nat → Nat) (tasks : List SprintTask) (ref : String) (target : SprintTask) : Prop :=
  IsOpen ref ∧ target ∈ tasks ∧ target.id = trim ref
    ∨ (∀ task ∈ tasks, task.id ≠ trim ref) ∧ ByForm canonicalize tasks ref target

theorem resolve_of_not_open (hopen : ¬ IsOpen ref) : resolveDependencyRef canonicalize ref tasks = none := by
  unfold resolveDependencyRef
  dsimp only
  split
  · rfl
  · next hblank =>
      have hreserved : isReserved (trim ref) = true := by
        by_contra hother
        exact hopen ⟨hblank, by simpa using hother⟩
      rw [if_pos hreserved]

theorem resolve_of_exact (hopen : IsOpen ref) (hexact : ∃ task ∈ tasks, task.id = trim ref) :
    resolveDependencyRef canonicalize ref tasks = some (trim ref) := by
  obtain ⟨found, hfound⟩ : ∃ found, tasks.find? (·.id = trim ref) = some found := by
    rw [← Option.isSome_iff_exists, List.find?_isSome]
    obtain ⟨task, htask, hid⟩ := hexact
    exact ⟨task, htask, by simpa using hid⟩
  have hid : found.id = trim ref := by simpa using List.find?_some hfound
  unfold resolveDependencyRef
  dsimp only
  rw [if_neg hopen.1, if_neg (by simp [hopen.2]), hfound]
  exact congrArg some hid

theorem resolve_of_form (hopen : IsOpen ref) (hforeign : ∀ task ∈ tasks, task.id ≠ trim ref) :
    resolveDependencyRef canonicalize ref tasks
      = (((position (trim ref)).elim
          (if isPlanSlotId (trim ref) then none else titled canonicalize tasks (trim ref))
          fun place => place.bind fun n => (directives tasks)[n]?).map (·.id)) := by
  have hnone : tasks.find? (·.id = trim ref) = none :=
    List.find?_eq_none.mpr fun task htask => by simpa using hforeign task htask
  unfold resolveDependencyRef position titled directives
  dsimp only
  rw [if_neg hopen.1, if_neg (by simp [hopen.2]), hnone]
  dsimp only
  split
  · rfl
  · cases taskNumber (trim ref) with
    | none => simp only [Option.map_none, Option.elim_none]; split <;> rfl
    | some n =>
        simp only [Option.map_some, Option.elim_some]
        split <;> rfl

theorem byForm_iff (hopen : IsOpen ref) :
    ByForm canonicalize tasks ref target
      ↔ ((position (trim ref)).elim
          (if isPlanSlotId (trim ref) then none else titled canonicalize tasks (trim ref))
          fun place => place.bind fun n => (directives tasks)[n]?) = some target := by
  constructor
  · rintro (⟨place, -, hform, htarget⟩ | ⟨⟨-, hform, hslot⟩, htarget⟩)
    · rw [hform]
      exact htarget
    · rw [hform, Option.elim_none, if_neg (by simp [hslot])]
      exact htarget
  · intro htarget
    cases hform : position (trim ref) with
    | none =>
        rw [hform, Option.elim_none] at htarget
        split at htarget
        · cases htarget
        · next hslot => exact .label ⟨hopen, hform, by simpa using hslot⟩ htarget
    | some place =>
        rw [hform, Option.elim_some] at htarget
        cases place with
        | none => cases htarget
        | some n => exact .index n hopen hform htarget

theorem resolve_eq_some_iff :
    resolveDependencyRef canonicalize ref tasks = some id
      ↔ ∃ target, Denotes canonicalize tasks ref target ∧ target.id = id := by
  by_cases hopen : IsOpen ref
  · by_cases hexact : ∃ task ∈ tasks, task.id = trim ref
    · rw [resolve_of_exact hopen hexact, Option.some.injEq]
      obtain ⟨task, htask, hid⟩ := hexact
      constructor
      · rintro rfl
        exact ⟨task, .inl ⟨hopen, htask, hid⟩, hid⟩
      · rintro ⟨target, ⟨-, -, htrim⟩ | ⟨hforeign, -⟩, rfl⟩
        · exact htrim.symm
        · exact absurd hid (hforeign task htask)
    · have hforeign : ∀ task ∈ tasks, task.id ≠ trim ref := fun task htask hid => hexact ⟨task, htask, hid⟩
      rw [resolve_of_form hopen hforeign, Option.map_eq_some_iff]
      refine exists_congr fun target => and_congr_left fun _ => ?_
      rw [← byForm_iff hopen]
      constructor
      · exact fun hform => .inr ⟨hforeign, hform⟩
      · rintro (⟨-, htarget, hid⟩ | ⟨-, hform⟩)
        · exact absurd hid (hforeign target htarget)
        · exact hform
  · rw [resolve_of_not_open hopen]
    constructor
    · intro hnone
      cases hnone
    · rintro ⟨target, ⟨hstill, -⟩ | ⟨-, ⟨-, hstill, -⟩ | ⟨⟨hstill, -⟩, -⟩⟩, -⟩ <;> exact absurd hstill hopen

/-! ### Tasks put before the authored ones -/

def resolvedId (canonicalize : Nat → Nat) (tasks : List SprintTask) (ref : String) : Option String :=
  truthy (resolveDependencyRef canonicalize ref tasks)

def Captures (canonicalize : Nat → Nat) (ref : String) (fix : SprintTask) : Prop :=
  fix.id = trim ref ∨ IsTitleLabel ref ∧ titleHasRefToken canonicalize fix.title (trim ref) = true

/-- Tasks that fix a debt, whose ids no authored task has. -/
structure DebtFixes (prepended authored : List SprintTask) : Prop where
  isPriorityFix : ∀ fix ∈ prepended, fix.isPriorityFix = some true
  fresh : ∀ fix ∈ prepended, fix.id ≠ "" ∧ ∀ task ∈ authored, task.id ≠ fix.id

theorem DebtFixes.directives_append (hfixes : DebtFixes prepended authored) :
    directives (prepended ++ authored) = directives authored := by
  unfold directives
  rw [List.filter_append, List.filter_eq_nil_iff.mpr, List.nil_append]
  intro fix hfix
  simp [hfixes.isPriorityFix fix hfix]

theorem val_of_toUpper {c d : Char} (hupper : c.toUpper = d) : c = d ∨ c.val = d.val + 32 := by
  unfold Char.toUpper at hupper
  split at hupper
  · right
    rw [← hupper]
    dsimp only
    rw [UInt32.add_assoc]
    simp
  · exact .inl hupper

theorem toUpper_ne {c : Char} (hc : c.isDigit = true ∨ c.toLower = 't') : c.toUpper ≠ 'N' ∧ c.toUpper ≠ 'A' := by
  constructor
  · intro hupper
    obtain rfl | hval := val_of_toUpper hupper
    · simp at hc
    · obtain rfl : c = 'n' := Char.ext hval
      simp at hc
  · intro hupper
    obtain rfl | hval := val_of_toUpper hupper
    · simp at hc
    · obtain rfl : c = 'a' := Char.ext hval
      simp at hc

theorem isOpen_of_index (hindex : IsIndexRef ref) : IsOpen ref := by
  have hnumber : isDigits (trim ref).toList = true ∨ (taskNumber (trim ref)).isSome = true := by
    unfold IsIndexRef position at hindex
    split at hindex
    · next hdigits => exact .inl hdigits
    · exact .inr (by simpa using hindex)
  obtain ⟨c, rest, hcons, hc⟩ : ∃ c rest, (trim ref).toList = c :: rest ∧ (c.isDigit = true ∨ c.toLower = 't') := by
    cases htext : (trim ref).toList with
    | nil =>
        unfold taskNumber at hnumber
        simp [htext, isDigits] at hnumber
    | cons c rest =>
        refine ⟨c, rest, rfl, ?_⟩
        obtain hdigits | htask := hnumber
        · rw [htext] at hdigits
          unfold isDigits at hdigits
          simp only [List.all_cons, Bool.and_eq_true] at hdigits
          exact .inl hdigits.2.1
        · unfold taskNumber at htask
          rw [htext] at htask
          dsimp only at htask
          split at htask
          · next hall =>
              simp only [List.take_succ_cons, List.map_cons, Bool.and_eq_true, decide_eq_true_eq,
                List.cons.injEq] at hall
              exact .inr hall.1.1.1
          · cases htask
  have hletters : c.toUpper ≠ 'N' ∧ c.toUpper ≠ 'A' := toUpper_ne hc
  refine ⟨fun hblank => by simp [hblank] at hcons, ?_⟩
  have hupper : (trim ref).toUpper.toList = c.toUpper :: rest.map Char.toUpper := by
    rw [String.toUpper, String.toList_map, hcons, List.map_cons]
  unfold isReserved dependencyRefReserved
  rw [List.contains_eq_mem, decide_eq_false_iff_not, List.mem_cons, List.mem_singleton]
  rintro (hnone | hauto)
  · rw [hnone] at hupper
    exact hletters.1 (List.cons.inj hupper).1.symm
  · rw [hauto] at hupper
    exact hletters.2 (List.cons.inj hupper).1.symm

theorem DebtFixes.resolve_append (hfixes : DebtFixes prepended authored)
    (hfree : (∃ task ∈ authored, task.id = trim ref) ∨ ∀ fix ∈ prepended, ¬ Captures canonicalize ref fix) :
    resolveDependencyRef canonicalize ref (prepended ++ authored) = resolveDependencyRef canonicalize ref authored := by
  by_cases hopen : IsOpen ref
  · by_cases hexact : ∃ task ∈ authored, task.id = trim ref
    · rw [resolve_of_exact hopen hexact]
      obtain ⟨task, htask, hid⟩ := hexact
      exact resolve_of_exact hopen ⟨task, List.mem_append_right _ htask, hid⟩
    · have hforeign : ∀ task ∈ authored, task.id ≠ trim ref := fun task htask hid => hexact ⟨task, htask, hid⟩
      have hfree := hfree.resolve_left hexact
      have hall : ∀ task ∈ prepended ++ authored, task.id ≠ trim ref := by
        intro task htask
        obtain hfix | hown := List.mem_append.mp htask
        · exact fun hid => hfree task hfix (.inl hid)
        · exact hforeign task hown
      rw [resolve_of_form hopen hforeign, resolve_of_form hopen hall, hfixes.directives_append]
      cases hform : position (trim ref) with
      | some place => rw [Option.elim_some, Option.elim_some]
      | none =>
          rw [Option.elim_none, Option.elim_none]
          by_cases hslot : isPlanSlotId (trim ref) = true
          · rw [if_pos hslot, if_pos hslot]
          · have hlabel : IsTitleLabel ref := ⟨hopen, hform, by simpa using hslot⟩
            have hnone : prepended.find? (fun task => titleHasRefToken canonicalize task.title (trim ref)) = none :=
              List.find?_eq_none.mpr fun fix hfix htoken => hfree fix hfix (.inr ⟨hlabel, htoken⟩)
            unfold titled
            rw [List.find?_append, hnone, Option.none_or]
  · rw [resolve_of_not_open hopen, resolve_of_not_open hopen]

theorem resolve_captured {fix : SprintTask} (hfix : fix ∈ prepended) (hcaptures : Captures canonicalize ref fix) (hopen : IsOpen ref)
    (hforeign : ∀ task ∈ authored, task.id ≠ trim ref) :
    ∃ other ∈ prepended, resolveDependencyRef canonicalize ref (prepended ++ authored) = some other.id := by
  by_cases hexact : ∃ task ∈ prepended, task.id = trim ref
  · obtain ⟨task, htask, hid⟩ := hexact
    refine ⟨task, htask, ?_⟩
    rw [resolve_of_exact hopen ⟨task, List.mem_append_left _ htask, hid⟩, hid]
  · have hall : ∀ task ∈ prepended ++ authored, task.id ≠ trim ref := by
      intro task htask
      obtain hown | hown := List.mem_append.mp htask
      · exact fun hid => hexact ⟨task, hown, hid⟩
      · exact hforeign task hown
    obtain ⟨⟨-, hform, hslot⟩, htoken⟩ := hcaptures.resolve_left (hall fix (List.mem_append_left _ hfix))
    obtain ⟨other, hother⟩ : ∃ other, prepended.find? (fun task =>
        titleHasRefToken canonicalize task.title (trim ref)) = some other := by
      rw [← Option.isSome_iff_exists, List.find?_isSome]
      exact ⟨fix, hfix, htoken⟩
    refine ⟨other, List.mem_of_find?_eq_some hother, ?_⟩
    rw [resolve_of_form hopen hall, hform, Option.elim_none, if_neg (by simp [hslot])]
    unfold titled
    rw [List.find?_append, hother]
    rfl

theorem Denotes.mem (hdenotes : Denotes canonicalize tasks ref target) : target ∈ tasks := by
  obtain ⟨-, hmem, -⟩ | ⟨-, ⟨place, -, -, htarget⟩ | ⟨-, htarget⟩⟩ := hdenotes
  · exact hmem
  · exact (List.mem_filter.mp (List.mem_of_getElem? htarget)).1
  · exact List.mem_of_find?_eq_some htarget

theorem DebtFixes.resolvedId_append_iff (hfixes : DebtFixes prepended authored)
    (hform : IsIndexRef ref ∨ IsTitleLabel ref) :
    resolvedId canonicalize (prepended ++ authored) ref = resolvedId canonicalize authored ref
      ↔ (∃ task ∈ authored, task.id = trim ref) ∨ ∀ fix ∈ prepended, ¬ Captures canonicalize ref fix := by
  have hopen : IsOpen ref := hform.elim isOpen_of_index fun hlabel => hlabel.1
  constructor
  · intro hsame
    by_contra hcaptured
    rw [not_or, not_forall] at hcaptured
    obtain ⟨hexact, fix, hfix⟩ := hcaptured
    rw [Classical.not_imp, not_not] at hfix
    have hforeign : ∀ task ∈ authored, task.id ≠ trim ref := fun task htask hid => hexact ⟨task, htask, hid⟩
    obtain ⟨other, hother, hresolved⟩ := resolve_captured hfix.1 hfix.2 hopen hforeign
    have hid : resolvedId canonicalize authored ref = some other.id := by
      rw [← hsame]
      exact truthy_eq_some_iff.mpr ⟨hresolved, (hfixes.fresh other hother).1⟩
    obtain ⟨target, hdenotes, hsameId⟩ := resolve_eq_some_iff.mp (truthy_eq_some_iff.mp hid).1
    exact (hfixes.fresh other hother).2 target hdenotes.mem hsameId
  · intro hfree
    unfold resolvedId
    rw [hfixes.resolve_append hfree]

/-! ### The normalized list -/

theorem find?_map_same {f : SprintTask → SprintTask} {p : SprintTask → Bool} (hp : ∀ task, p (f task) = p task) :
    (tasks.map f).find? p = (tasks.find? p).map f := by
  rw [List.find?_map]
  congr 2
  exact funext hp

theorem resolve_map {f : SprintTask → SprintTask} (hf : ∀ task, (f task).id = task.id ∧ (f task).title = task.title
    ∧ (f task).isPriorityFix = task.isPriorityFix) :
    resolveDependencyRef canonicalize ref (tasks.map f) = resolveDependencyRef canonicalize ref tasks := by
  have hdirectives : directives (tasks.map f) = (directives tasks).map f := by
    unfold directives
    rw [List.filter_map]
    congr 2
    exact funext fun task => by simp [(hf task).2.2]
  by_cases hopen : IsOpen ref
  · by_cases hexact : ∃ task ∈ tasks, task.id = trim ref
    · rw [resolve_of_exact hopen hexact]
      obtain ⟨task, htask, hid⟩ := hexact
      exact resolve_of_exact hopen ⟨f task, List.mem_map_of_mem htask, (hf task).1.trans hid⟩
    · have hforeign : ∀ task ∈ tasks, task.id ≠ trim ref := fun task htask hid => hexact ⟨task, htask, hid⟩
      have hmapped : ∀ task ∈ tasks.map f, task.id ≠ trim ref := by
        intro task htask
        obtain ⟨old, hold, rfl⟩ := List.mem_map.mp htask
        rw [(hf old).1]
        exact hforeign old hold
      have hid : (fun task : SprintTask => task.id) ∘ f = fun task => task.id := funext fun task => (hf task).1
      rw [resolve_of_form hopen hforeign, resolve_of_form hopen hmapped, hdirectives]
      cases position (trim ref) with
      | some place =>
          rw [Option.elim_some, Option.elim_some]
          cases place with
          | none => rfl
          | some n => rw [Option.bind_some, Option.bind_some, List.getElem?_map, Option.map_map, hid]
      | none =>
          rw [Option.elim_none, Option.elim_none]
          split
          · rfl
          · unfold titled
            rw [find?_map_same fun task => by rw [(hf task).2.1], Option.map_map, hid]
  · rw [resolve_of_not_open hopen, resolve_of_not_open hopen]

def resolvedIds (canonicalize : Nat → Nat) (tasks : List SprintTask) (refs : List String) : OrderedSet String :=
  OrderedSet.ofList (refs.filterMap (resolvedId canonicalize tasks))

/-- The task with its references resolved. -/
def normalized (canonicalize : Nat → Nat) (tasks : List SprintTask) (task : SprintTask) : SprintTask :=
  { task with dependencies := (resolvedIds canonicalize tasks task.dependencies).members }

section Normalize

variable {strict : Bool} {owner : String} {refs : List String} {result done : ResolveTaskDependenciesLoudResult}
  {results : List SprintTask} {warnings : List DependencyRefWarning}

theorem resolveLoop_eq_ok (hloop : resolveLoop canonicalize strict owner tasks refs result = .ok done) :
    done.resolved = (refs.filterMap (resolvedId canonicalize tasks)).foldl OrderedSet.add result.resolved
      ∧ done.warnings = result.warnings ++ (refs.filter fun ref =>
        resolvedId canonicalize tasks ref = none).map fun ref => ⟨owner, ref, unresolvedMessage owner ref⟩ := by
  induction refs generalizing result with
  | nil =>
      obtain rfl := Except.ok.inj hloop
      simp
  | cons ref rest ih =>
      unfold resolveLoop at hloop
      cases hid : resolvedId canonicalize tasks ref with
      | some id =>
          rw [show truthy (resolveDependencyRef canonicalize ref tasks) = some id from hid] at hloop
          obtain ⟨hresolved, hwarnings⟩ := ih hloop
          rw [List.filterMap_cons_some hid, List.filter_cons_of_neg (by simp [hid])]
          exact ⟨hresolved, hwarnings⟩
      | none =>
          rw [show truthy (resolveDependencyRef canonicalize ref tasks) = none from hid] at hloop
          dsimp only at hloop
          split at hloop
          · cases hloop
          · obtain ⟨hresolved, hwarnings⟩ := ih hloop
            rw [List.filterMap_cons_none hid, List.filter_cons_of_pos (by simp [hid])]
            refine ⟨hresolved, ?_⟩
            rw [hwarnings, List.map_cons, List.append_assoc, List.singleton_append]

variable (owner result) in
theorem exists_resolveLoop (hresolved : strict = false
    ∨ ∀ ref ∈ refs, (resolvedId canonicalize tasks ref).isSome = true) :
    ∃ done, resolveLoop canonicalize strict owner tasks refs result = .ok done := by
  induction refs generalizing result with
  | nil => exact ⟨result, rfl⟩
  | cons ref rest ih =>
      have hrest {result : ResolveTaskDependenciesLoudResult} :
          ∃ done, resolveLoop canonicalize strict owner tasks rest result = .ok done :=
        ih _ (hresolved.imp_right fun hall other hother => hall other (List.mem_cons_of_mem _ hother))
      unfold resolveLoop
      cases hid : resolvedId canonicalize tasks ref with
      | some id =>
          rw [show truthy (resolveDependencyRef canonicalize ref tasks) = some id from hid]
          exact hrest
      | none =>
          rw [show truthy (resolveDependencyRef canonicalize ref tasks) = none from hid]
          have hlenient : strict = false := hresolved.resolve_right fun hall => by
            simpa [hid] using hall ref List.mem_cons_self
          subst hlenient
          exact hrest

def unresolved (canonicalize : Nat → Nat) (tasks : List SprintTask) (task : SprintTask) :
    List DependencyRefWarning :=
  (task.dependencies.filter fun ref => resolvedId canonicalize tasks ref = none).map fun ref =>
    ⟨task.id, ref, unresolvedMessage task.id ref⟩

theorem unresolved_eq_nil_iff : unresolved canonicalize tasks task = []
    ↔ ∀ ref ∈ task.dependencies, (resolvedId canonicalize tasks ref).isSome = true := by
  unfold unresolved
  rw [List.map_eq_nil_iff, List.filter_eq_nil_iff]
  simp [Option.isSome_iff_ne_none]

theorem normalizeTask_eq_ok {warned : SprintTask × List DependencyRefWarning}
    (htask : normalizeTask canonicalize strict tasks task = .ok warned) :
    warned = (normalized canonicalize tasks task, unresolved canonicalize tasks task) := by
  unfold normalizeTask at htask
  split at htask
  · next hempty =>
      obtain rfl := Except.ok.inj htask
      obtain ⟨id, title, dependencies, isPriorityFix⟩ := task
      obtain rfl : dependencies = [] := hempty
      rfl
  · obtain ⟨done, hdone, hwarned⟩ := bind_eq_ok.mp htask
    obtain rfl := pure_eq_ok.mp hwarned
    obtain ⟨hresolved, hwarnings⟩ := resolveLoop_eq_ok hdone
    rw [hresolved, hwarnings]
    rfl

theorem normalizeTask_of_resolved (hresolved : strict = false
    ∨ ∀ ref ∈ task.dependencies, (resolvedId canonicalize tasks ref).isSome = true) :
    normalizeTask canonicalize strict tasks task
      = .ok (normalized canonicalize tasks task, unresolved canonicalize tasks task) := by
  obtain ⟨warned, hwarned⟩ : ∃ warned, normalizeTask canonicalize strict tasks task = .ok warned := by
    unfold normalizeTask
    split
    · exact ⟨_, rfl⟩
    · obtain ⟨done, hdone⟩ := exists_resolveLoop task.id ⟨∅, []⟩ hresolved
      exact ⟨_, bind_eq_ok.mpr ⟨done, hdone, rfl⟩⟩
  rw [hwarned, normalizeTask_eq_ok hwarned]

theorem normalize_eq_ok (hok : normalizeStructuredTaskDependencies canonicalize strict tasks = .ok (results, warnings)) :
    results = tasks.map (normalized canonicalize tasks)
      ∧ warnings = tasks.flatMap (unresolved canonicalize tasks) := by
  obtain ⟨pairs, hpairs, hresult⟩ := bind_eq_ok.mp hok
  obtain ⟨rfl, rfl⟩ := Prod.mk.inj (pure_eq_ok.mp hresult)
  obtain ⟨rfl, -⟩ := (mapM_eq_ok_iff fun task _ warned hwarned => normalizeTask_eq_ok hwarned).mp hpairs
  rw [List.map_map, List.flatMap_map]
  exact ⟨rfl, rfl⟩

theorem normalize_of_resolved (hresolved : strict = false ∨ ∀ task ∈ tasks,
    ∀ ref ∈ task.dependencies, (resolvedId canonicalize tasks ref).isSome = true) :
    normalizeStructuredTaskDependencies canonicalize strict tasks
      = .ok (tasks.map (normalized canonicalize tasks), tasks.flatMap (unresolved canonicalize tasks)) := by
  have hstep : ∀ task ∈ tasks, ∀ warned, normalizeTask canonicalize strict tasks task = .ok warned →
      warned = (normalized canonicalize tasks task, unresolved canonicalize tasks task) :=
    fun task _ warned hwarned => normalizeTask_eq_ok hwarned
  have hall := (mapM_eq_ok_iff hstep).mpr ⟨rfl, fun task htask =>
    normalizeTask_of_resolved (hresolved.imp_right fun hall => hall task htask)⟩
  refine bind_eq_ok.mpr ⟨_, hall, ?_⟩
  rw [List.map_map, List.flatMap_map]
  rfl

theorem resolvedId_map_normalized (others : List SprintTask) :
    resolvedId canonicalize (tasks.map (normalized canonicalize others)) = resolvedId canonicalize tasks := by
  funext ref
  have hsame : resolveDependencyRef canonicalize ref (tasks.map (normalized canonicalize others))
      = resolveDependencyRef canonicalize ref tasks := resolve_map fun task => ⟨rfl, rfl, rfl⟩
  exact congrArg truthy hsame

end Normalize

/-! ### A second pass -/

def NamesItself (canonicalize : Nat → Nat) (tasks : List SprintTask) (id : String) : Prop :=
  isReserved (trim id) = false ∧ (trim id = id
    ∨ (∀ task ∈ tasks, task.id ≠ trim id) ∧ ∃ other, ByForm canonicalize tasks id other ∧ other.id = id)

theorem resolvedId_self_iff (hid : ∃ task ∈ tasks, task.id = id) (hne : id ≠ "") :
    resolvedId canonicalize tasks id = some id ↔ NamesItself canonicalize tasks id := by
  unfold resolvedId
  rw [truthy_eq_some_iff, resolve_eq_some_iff]
  constructor
  · rintro ⟨⟨target, ⟨hopen, -, htrim⟩ | ⟨hforeign, hform⟩, rfl⟩, -⟩
    · exact ⟨hopen.2, .inl htrim.symm⟩
    · have hopen : IsOpen target.id := by
        obtain ⟨-, hopen, -⟩ | ⟨⟨hopen, -⟩, -⟩ := hform <;> exact hopen
      exact ⟨hopen.2, .inr ⟨hforeign, target, hform, rfl⟩⟩
  · rintro ⟨hreserved, htrim | ⟨hforeign, other, hform, hother⟩⟩
    · obtain ⟨task, htask, rfl⟩ := hid
      exact ⟨⟨task, .inl ⟨⟨by rwa [htrim], hreserved⟩, htask, htrim.symm⟩, rfl⟩, hne⟩
    · exact ⟨⟨other, .inr ⟨hforeign, hform⟩, hother⟩, hne⟩

theorem resolvedIds_eq_self_iff {set : OrderedSet String} :
    ((∀ ref ∈ set.members, (resolvedId canonicalize tasks ref).isSome = true)
        ∧ (resolvedIds canonicalize tasks set.members).members = set.members)
      ↔ ∀ ref ∈ set.members, resolvedId canonicalize tasks ref = some ref := by
  constructor
  · rintro ⟨hsome, hsame⟩
    have hmap : (set.members.filterMap (resolvedId canonicalize tasks)).map some
        = set.members.map (resolvedId canonicalize tasks) := by
      rw [List.map_filterMap_some_eq_filter_map_isSome, List.filter_eq_self]
      intro id hid
      obtain ⟨ref, href, rfl⟩ := List.mem_map.mp hid
      exact hsome ref href
    have hlength := congrArg List.length hmap
    rw [List.length_map, List.length_map] at hlength
    have hnodup : (set.members.filterMap (resolvedId canonicalize tasks)).Nodup := by
      refine OrderedSet.nodup_of_ofList ?_
      rw [hlength]
      exact (congrArg List.length hsame).ge
    have hkept : set.members.filterMap (resolvedId canonicalize tasks) = set.members :=
      (OrderedSet.members_ofList hnodup).symm.trans hsame
    rw [hkept] at hmap
    intro ref href
    exact (List.map_inj_left.mp hmap ref href).symm
  · intro hself
    have hfilter : set.members.filterMap (resolvedId canonicalize tasks) = set.members := by
      rw [List.filterMap_congr (g := some) hself, List.filterMap_some]
    refine ⟨fun ref href => by rw [hself ref href]; rfl, ?_⟩
    unfold resolvedIds
    rw [hfilter, OrderedSet.ofList_members]

/-! ### Every list of tasks -/

/-- The references of the authored tasks are resolved as without the tasks before them, and a second pass changes
no dependency list and warns of nothing. -/
structure Survives (canonicalize : Nat → Nat) (prepended authored : List SprintTask) : Prop where
  same : ∀ task ∈ authored, ∀ ref ∈ task.dependencies, IsIndexRef ref ∨ IsTitleLabel ref →
    resolvedId canonicalize (prepended ++ authored) ref = resolvedId canonicalize authored ref
  again : ∀ strict tasks warnings,
    normalizeStructuredTaskDependencies canonicalize strict (prepended ++ authored) = .ok (tasks, warnings) →
    normalizeStructuredTaskDependencies canonicalize strict tasks = .ok (tasks, [])

/-- No task before the authored ones captures one of their references, and the ids of the tasks that references
stand for name themselves. -/
structure Unambiguous (canonicalize : Nat → Nat) (prepended authored : List SprintTask) : Prop where
  refs : ∀ task ∈ authored, ∀ ref ∈ task.dependencies, IsIndexRef ref ∨ IsTitleLabel ref →
    (∃ task ∈ authored, task.id = trim ref) ∨ ∀ fix ∈ prepended, ¬ Captures canonicalize ref fix
  ids : ∀ task ∈ prepended ++ authored, ∀ ref ∈ task.dependencies, ∀ target,
    Denotes canonicalize (prepended ++ authored) ref target → target.id ≠ "" →
    NamesItself canonicalize (prepended ++ authored) target.id

theorem mem_resolvedIds {refs : List String} : id ∈ (resolvedIds canonicalize tasks refs).members
    ↔ ∃ ref ∈ refs, ∃ target, Denotes canonicalize tasks ref target ∧ target.id = id ∧ id ≠ "" := by
  rw [resolvedIds, ← OrderedSet.mem_def, OrderedSet.mem_ofList, List.mem_filterMap]
  refine exists_congr fun ref => and_congr_right fun _ => ?_
  unfold resolvedId
  rw [truthy_eq_some_iff, resolve_eq_some_iff]
  constructor
  · rintro ⟨⟨target, hdenotes, hid⟩, hne⟩
    exact ⟨target, hdenotes, hid, hne⟩
  · rintro ⟨target, hdenotes, hid, hne⟩
    exact ⟨⟨target, hdenotes, hid⟩, hne⟩

/-- A second pass keeps the lists exactly if the ids that references stand for name themselves. -/
theorem again_iff : (∀ strict results warnings,
      normalizeStructuredTaskDependencies canonicalize strict tasks = .ok (results, warnings) →
      normalizeStructuredTaskDependencies canonicalize strict results = .ok (results, []))
    ↔ ∀ task ∈ tasks, ∀ ref ∈ task.dependencies, ∀ target, Denotes canonicalize tasks ref target →
      target.id ≠ "" → NamesItself canonicalize tasks target.id := by
  have hself : (∀ task ∈ tasks, ∀ ref ∈ task.dependencies, ∀ target, Denotes canonicalize tasks ref target →
      target.id ≠ "" → NamesItself canonicalize tasks target.id)
      ↔ ∀ task ∈ tasks, ∀ id ∈ (resolvedIds canonicalize tasks task.dependencies).members,
        resolvedId canonicalize tasks id = some id := by
    refine forall₂_congr fun task _ => ?_
    constructor
    · intro hnames id hid
      obtain ⟨ref, href, target, hdenotes, rfl, hne⟩ := mem_resolvedIds.mp hid
      exact (resolvedId_self_iff ⟨target, hdenotes.mem, rfl⟩ hne).mpr (hnames ref href target hdenotes hne)
    · intro hids ref href target hdenotes hne
      exact (resolvedId_self_iff ⟨target, hdenotes.mem, rfl⟩ hne).mp
        (hids target.id (mem_resolvedIds.mpr ⟨ref, href, target, hdenotes, rfl, hne⟩))
  rw [hself]
  constructor
  · intro hagain task htask
    have hfirst : normalizeStructuredTaskDependencies canonicalize false tasks
        = .ok (tasks.map (normalized canonicalize tasks), tasks.flatMap (unresolved canonicalize tasks)) :=
      normalize_of_resolved (.inl rfl)
    obtain ⟨hresults, hwarnings⟩ := normalize_eq_ok (hagain false _ _ hfirst)
    have hmem := List.mem_map_of_mem (f := normalized canonicalize tasks) htask
    refine resolvedIds_eq_self_iff.mp ⟨?_, ?_⟩
    · have hnone : unresolved canonicalize (tasks.map (normalized canonicalize tasks))
          (normalized canonicalize tasks task) = [] :=
        List.flatMap_eq_nil_iff.mp hwarnings.symm _ hmem
      intro ref href
      rw [← resolvedId_map_normalized]
      exact unresolved_eq_nil_iff.mp hnone ref href
    · rw [List.map_map] at hresults
      have hsame := congrArg SprintTask.dependencies (List.map_inj_left.mp hresults task htask)
      simp only [Function.comp_apply, normalized, resolvedIds] at hsame
      rw [resolvedId_map_normalized] at hsame
      exact hsame.symm
  · intro hids strict results warnings hok
    obtain ⟨rfl, -⟩ := normalize_eq_ok hok
    have hkept {task : SprintTask} (htask : task ∈ tasks) := resolvedIds_eq_self_iff.mpr (hids task htask)
    have hresolved : ∀ other ∈ tasks.map (normalized canonicalize tasks), ∀ ref ∈ other.dependencies,
        (resolvedId canonicalize (tasks.map (normalized canonicalize tasks)) ref).isSome = true := by
      intro other hother ref href
      obtain ⟨task, htask, rfl⟩ := List.mem_map.mp hother
      rw [resolvedId_map_normalized]
      exact (hkept htask).1 ref href
    rw [normalize_of_resolved (.inr hresolved)]
    congr 2
    · rw [List.map_map]
      refine List.map_congr_left fun task htask => ?_
      have hsame : resolvedIds canonicalize (tasks.map (normalized canonicalize tasks))
          = resolvedIds canonicalize tasks := by
        funext refs
        unfold resolvedIds
        rw [resolvedId_map_normalized]
      have hlist : (resolvedIds canonicalize (tasks.map (normalized canonicalize tasks))
          (resolvedIds canonicalize tasks task.dependencies).members).members
          = (resolvedIds canonicalize tasks task.dependencies).members := by
        rw [hsame]
        exact (hkept htask).2
      exact congrArg (fun ids => { task with dependencies := ids }) hlist
    · exact List.flatMap_eq_nil_iff.mpr fun other hother => unresolved_eq_nil_iff.mpr (hresolved other hother)

/-- References survive the tasks put before them and a second pass exactly where nothing is ambiguous. -/
theorem survives_iff (hfixes : DebtFixes prepended authored) :
    Survives canonicalize prepended authored ↔ Unambiguous canonicalize prepended authored := by
  constructor
  · intro hsurvives
    refine ⟨fun task htask ref href hform => ?_, again_iff.mp hsurvives.again⟩
    exact (hfixes.resolvedId_append_iff hform).mp (hsurvives.same task htask ref href hform)
  · intro hunambiguous
    refine ⟨fun task htask ref href hform => ?_, again_iff.mpr hunambiguous.ids⟩
    exact (hfixes.resolvedId_append_iff hform).mpr (hunambiguous.refs task htask ref href hform)

def asciiCanonicalize (codeUnit : Nat) : Nat :=
  if 0x61 ≤ codeUnit ∧ codeUnit ≤ 0x7A then codeUnit - 0x20 else codeUnit

def lintFix : List SprintTask := [⟨"7-001", "Fix W1-1 lint", [], some true⟩]

def authoredTasks : List SprintTask :=
  [⟨"7-002", "W1-1 Parser", [], none⟩, ⟨"7-003", "W1-2 Lexer", ["W1-1"], none⟩]

theorem lintFix_debtFixes : DebtFixes lintFix authoredTasks where
  isPriorityFix := by decide
  fresh := by decide

theorem survives_iff_authoredTasks : Survives asciiCanonicalize lintFix authoredTasks
    ↔ Unambiguous asciiCanonicalize lintFix authoredTasks :=
  survives_iff lintFix_debtFixes

/-- The label of an authored task stands in the title of a task that fixes it. -/
theorem not_survives : ¬ ∀ (canonicalize : Nat → Nat) (prepended authored : List SprintTask),
    DebtFixes prepended authored → Survives canonicalize prepended authored := by
  intro hall
  have hsame := (hall asciiCanonicalize lintFix authoredTasks lintFix_debtFixes).same
    ⟨"7-003", "W1-2 Lexer", ["W1-1"], none⟩ (by decide) "W1-1" (by decide)
  have hlabel : IsTitleLabel "W1-1" := ⟨⟨by decide +kernel, by decide +kernel⟩, by decide +kernel, by decide +kernel⟩
  exact absurd (hsame (.inr hlabel)) (by decide +kernel)

end Deckent.TaskDependencyRefs
