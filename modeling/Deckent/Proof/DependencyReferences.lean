import Deckent.Proof.ExecutionTopology

/-!
# What declared references resolve to

A reference resolves to the only task with that id or, where there is none, to the only task with that
title. The authored edges are the references that resolve to another task, and the findings about
unresolved references are the references that resolve to nothing.
-/

namespace Deckent.ExecutionTopology

variable {tasks : List Task} {slot other toSlot : Nat} {ref rawRef : String}

def taskAt (tasks : List Task) (slot : Nat) : Option Task :=
  if slot = 0 then none else tasks[slot - 1]?

def OnlySlot (key : Task → String) (tasks : List Task) (ref : String) (slot : Nat) : Prop :=
  ∀ other, (taskAt tasks other).map key = some ref ↔ other = slot

def Resolves (tasks : List Task) (ref : String) (slot : Nat) : Prop :=
  OnlySlot Task.id tasks ref slot
    ∨ (∀ other, ¬ OnlySlot Task.id tasks ref other) ∧ OnlySlot Task.title tasks ref slot

def Declares (tasks : List Task) (slot : Nat) (rawRef : String) : Prop :=
  ∃ task, taskAt tasks slot = some task ∧ rawRef ∈ task.dependencies.getD []

/-! ### Slots by id and by title -/

theorem mem_zipIdx_one {task : Task} : (task, slot) ∈ tasks.zipIdx 1 ↔ taskAt tasks slot = some task := by
  rw [List.mem_zipIdx_iff_le_and_getElem?_sub]
  unfold taskAt
  by_cases hslot : slot = 0
  · subst hslot
    simp
  · have hpos : 1 ≤ slot := Nat.one_le_iff_ne_zero.mpr hslot
    rw [if_neg hslot]
    exact and_iff_right hpos

def slotsWith (key : Task → String) (tasks : List Task) (ref : String) : List Nat :=
  ((tasks.zipIdx 1).filter fun entry => key entry.1 = ref).map Prod.snd

theorem mem_slotsWith {key : Task → String} :
    slot ∈ slotsWith key tasks ref ↔ (taskAt tasks slot).map key = some ref := by
  simp only [slotsWith, List.mem_map, List.mem_filter, decide_eq_true_eq, Prod.exists,
    exists_eq_right, mem_zipIdx_one, Option.map_eq_some_iff]

theorem nodup_slotsWith (key : Task → String) : (slotsWith key tasks ref).Nodup := by
  have hslots : ((tasks.zipIdx 1).map Prod.snd).Nodup := by
    rw [List.zipIdx_map_snd]
    exact List.nodup_range'
  exact hslots.sublist (List.filter_sublist.map Prod.snd)

theorem slotsWith_eq_singleton {key : Task → String} :
    slotsWith key tasks ref = [slot] ↔ OnlySlot key tasks ref slot := by
  have hperm : (slotsWith key tasks ref).Perm [slot] ↔ OnlySlot key tasks ref slot := by
    rw [List.perm_ext_iff_of_nodup (nodup_slotsWith key) (List.nodup_singleton slot)]
    simp only [mem_slotsWith, List.mem_singleton, OnlySlot]
  rw [← hperm, List.perm_singleton]

theorem uniqueSlot_eq_some {key : Task → String} :
    uniqueSlot (slotTable key tasks) ref = some slot ↔ OnlySlot key tasks ref slot := by
  rw [← slotsWith_eq_singleton]
  have hgroup : (slotTable key tasks).get? ref = some [slot] ↔ slotsWith key tasks ref = [slot] := by
    rw [slotTable, OrderedMap.get?_groupBy, slotsWith, eq_comm]
    exact and_iff_left (List.cons_ne_nil slot [])
  rw [← hgroup]
  unfold uniqueSlot
  constructor
  · intro hunique
    split at hunique
    · next found hfound =>
        rw [hfound, Option.some.inj hunique]
    · exact absurd hunique (by simp)
  · intro hfound
    rw [hfound]

/-- The candidate that `resolveDependencySlots` takes for a reference. -/
def candidate (tasks : List Task) (rawRef : String) : Option Nat :=
  (uniqueSlot (slotTable Task.id tasks) (trim rawRef)).or
    (uniqueSlot (slotTable Task.title tasks) (trim rawRef))

theorem candidate_eq_some : candidate tasks rawRef = some slot ↔ Resolves tasks (trim rawRef) slot := by
  rw [candidate, Option.or_eq_some_iff, uniqueSlot_eq_some, uniqueSlot_eq_some,
    Option.eq_none_iff_forall_ne_some]
  simp only [ne_eq, uniqueSlot_eq_some, Resolves]

theorem candidate_eq_none :
    candidate tasks rawRef = none ↔ ∀ other, ¬ Resolves tasks (trim rawRef) other := by
  simp only [Option.eq_none_iff_forall_ne_some, ne_eq, candidate_eq_some]

/-! ### The scan of the references -/

def DependencyScan.Seen (scan : DependencyScan) : Prop :=
  ∀ a b, (a, b) ∈ scan.seen ↔ edgeRel scan.edges a b

def unresolvedFinding (toSlot : Nat) (rawRef : String) : Finding :=
  { code := .unresolvedDependency, slots := [toSlot], ref := some (trim rawRef) }

/-- What one reference adds to a scan. -/
structure DependencyScan.Extends (tasks : List Task) (toSlot : Nat) (refs : List String)
    (before after : DependencyScan) : Prop where
  seen : after.Seen
  edges : ∀ a b, edgeRel after.edges a b ↔ edgeRel before.edges a b
    ∨ b = toSlot ∧ a ≠ toSlot ∧ ∃ rawRef ∈ refs, candidate tasks rawRef = some a
  findings : ∀ finding : Finding, finding.code = .unresolvedDependency →
    (finding ∈ after.findings ↔ finding ∈ before.findings
      ∨ ∃ rawRef ∈ refs, candidate tasks rawRef = none ∧ finding = unresolvedFinding toSlot rawRef)

theorem extends_resolveRef {scan : DependencyScan} (hseen : scan.Seen) :
    scan.Extends tasks toSlot [rawRef]
      (resolveRef (slotTable Task.id tasks) (slotTable Task.title tasks) toSlot scan rawRef) := by
  have hcandidate : (uniqueSlot (slotTable Task.id tasks) (trim rawRef)).or
      (uniqueSlot (slotTable Task.title tasks) (trim rawRef)) = candidate tasks rawRef := rfl
  unfold resolveRef
  dsimp only
  rw [hcandidate]
  cases hresolve : candidate tasks rawRef with
  | none =>
      refine ⟨hseen, fun a b => ?_, fun finding _ => ?_⟩
      · simp [hresolve]
      · simp [hresolve, unresolvedFinding]
  | some fromSlot =>
      dsimp only
      split_ifs with hself hold
      · refine ⟨hseen, fun a b => ?_, fun finding hcode => ?_⟩
        · simp only [List.mem_singleton, exists_eq_left, hresolve, Option.some.injEq, hself]
          constructor
          · exact Or.inl
          · rintro (h | ⟨-, hne, rfl⟩)
            · exact h
            · exact absurd rfl hne
        · have hne : finding
              ≠ { code := .selfDependency, slots := [toSlot], ref := some (trim rawRef) } := by
            rintro rfl
            cases hcode
          simp [hresolve, hne]
      · refine ⟨hseen, fun a b => ?_, fun finding _ => ?_⟩
        · simp only [List.mem_singleton, exists_eq_left, hresolve, Option.some.injEq]
          constructor
          · exact Or.inl
          · rintro (h | ⟨rfl, -, rfl⟩)
            · exact h
            · exact (hseen _ _).mp hold
        · simp [hresolve]
      · refine ⟨fun a b => ?_, fun a b => ?_, fun finding _ => ?_⟩
        · dsimp only
          rw [OrderedSet.mem_add, edgeRel_concat, hseen a b, Prod.mk.injEq, eq_comm (a := a),
            eq_comm (a := b)]
        · dsimp only
          rw [edgeRel_concat]
          simp only [List.mem_singleton, exists_eq_left, hresolve, Option.some.injEq]
          refine or_congr_right ⟨?_, ?_⟩
          · rintro ⟨rfl, rfl⟩
            exact ⟨rfl, hself, rfl⟩
          · rintro ⟨rfl, -, rfl⟩
            exact ⟨rfl, rfl⟩
        · simp [hresolve]

theorem extends_foldl_resolveRef {scan : DependencyScan} (hseen : scan.Seen) (refs : List String) :
    scan.Extends tasks toSlot refs
      (refs.foldl (resolveRef (slotTable Task.id tasks) (slotTable Task.title tasks) toSlot) scan) := by
  induction refs generalizing scan with
  | nil => exact ⟨hseen, by simp, by simp⟩
  | cons rawRef rest ih =>
      have hone : scan.Extends tasks toSlot [rawRef] _ := extends_resolveRef hseen
      have hrest := ih hone.seen
      refine ⟨hrest.seen, fun a b => ?_, fun finding hcode => ?_⟩
      · rw [List.foldl_cons, hrest.edges, hone.edges]
        simp only [List.mem_singleton, exists_eq_left, List.exists_mem_cons_iff]
        tauto
      · rw [List.foldl_cons, hrest.findings finding hcode, hone.findings finding hcode]
        simp only [List.mem_singleton, exists_eq_left, List.exists_mem_cons_iff, or_assoc]

structure DependencyScan.Scanned (tasks : List Task) (entries : List (Task × Nat))
    (before after : DependencyScan) : Prop where
  seen : after.Seen
  edges : ∀ a b, edgeRel after.edges a b ↔ edgeRel before.edges a b
    ∨ a ≠ b ∧ ∃ task, (task, b) ∈ entries
      ∧ ∃ rawRef ∈ task.dependencies.getD [], candidate tasks rawRef = some a
  findings : ∀ finding : Finding, finding.code = .unresolvedDependency →
    (finding ∈ after.findings ↔ finding ∈ before.findings
      ∨ ∃ entry ∈ entries, ∃ rawRef ∈ entry.1.dependencies.getD [],
        candidate tasks rawRef = none ∧ finding = unresolvedFinding entry.2 rawRef)

theorem scanned_foldl {scan : DependencyScan} (hseen : scan.Seen) (entries : List (Task × Nat)) :
    scan.Scanned tasks entries (entries.foldl
      (fun scan entry => (entry.1.dependencies.getD []).foldl
        (resolveRef (slotTable Task.id tasks) (slotTable Task.title tasks) entry.2) scan) scan) := by
  induction entries generalizing scan with
  | nil => exact ⟨hseen, by simp, by simp⟩
  | cons entry rest ih =>
      have hone : scan.Extends tasks entry.2 (entry.1.dependencies.getD []) _ :=
        extends_foldl_resolveRef hseen _
      have hrest := ih hone.seen
      refine ⟨hrest.seen, fun a b => ?_, fun finding hcode => ?_⟩
      · rw [List.foldl_cons, hrest.edges, hone.edges, or_assoc]
        refine or_congr_right ⟨?_, ?_⟩
        · rintro (⟨rfl, hne, hrefs⟩ | ⟨hne, task, htask, hrefs⟩)
          · exact ⟨hne, entry.1, List.mem_cons_self, hrefs⟩
          · exact ⟨hne, task, List.mem_cons_of_mem _ htask, hrefs⟩
        · rintro ⟨hne, task, htask, hrefs⟩
          rcases List.mem_cons.mp htask with rfl | htask
          · exact Or.inl ⟨rfl, hne, hrefs⟩
          · exact Or.inr ⟨hne, task, htask, hrefs⟩
      · rw [List.foldl_cons, hrest.findings finding hcode, hone.findings finding hcode,
          List.exists_mem_cons_iff, or_assoc]

theorem seen_empty {findings : List Finding} :
    ({ seen := ∅, edges := [], findings := findings } : DependencyScan).Seen := by
  simp [DependencyScan.Seen, edgeRel]

/-! ### The authored edges and the unresolved references -/

theorem scanned_resolveDependencySlots (tasks : List Task) :
    ∃ before after : DependencyScan, before.Scanned tasks (tasks.zipIdx 1) after
      ∧ before.edges = [] ∧ (∀ finding ∈ before.findings, finding.code = .duplicateTaskId)
      ∧ resolveDependencySlots tasks = (sortBy compareEdges after.edges, after.findings) := by
  refine ⟨_, _, scanned_foldl seen_empty _, rfl, ?_, rfl⟩
  intro finding hfinding
  obtain ⟨slots, -, rfl⟩ := List.mem_map.mp hfinding
  rfl

theorem edgeRel_authored {a b : Nat} :
    edgeRel (authored tasks) a b
      ↔ a ≠ b ∧ ∃ rawRef, Declares tasks b rawRef ∧ Resolves tasks (trim rawRef) a := by
  obtain ⟨before, after, hscan, hnone, -, hresult⟩ := scanned_resolveDependencySlots tasks
  have hsorted : edgeRel (authored tasks) a b ↔ edgeRel after.edges a b := by
    rw [authored, hresult]
    simp only [edgeRel, mem_sortBy]
  have hempty : ¬ edgeRel before.edges a b := by
    rw [hnone]
    simp [edgeRel]
  rw [hsorted, hscan.edges, or_iff_right hempty]
  refine and_congr_right fun _ => ⟨?_, ?_⟩
  · rintro ⟨task, htask, rawRef, href, hcandidate⟩
    exact ⟨rawRef, ⟨task, mem_zipIdx_one.mp htask, href⟩, candidate_eq_some.mp hcandidate⟩
  · rintro ⟨rawRef, ⟨task, htask, href⟩, hresolves⟩
    exact ⟨task, mem_zipIdx_one.mpr htask, rawRef, href, candidate_eq_some.mpr hresolves⟩

theorem mem_findings_unresolved {finding : Finding} (hcode : finding.code = .unresolvedDependency) :
    finding ∈ (resolveDependencySlots tasks).2
      ↔ ∃ toSlot rawRef, Declares tasks toSlot rawRef ∧ (∀ other, ¬ Resolves tasks (trim rawRef) other)
        ∧ finding = unresolvedFinding toSlot rawRef := by
  obtain ⟨before, after, hscan, -, hbefore, hresult⟩ := scanned_resolveDependencySlots tasks
  have hold : finding ∉ before.findings := by
    intro hmem
    rw [hbefore finding hmem] at hcode
    cases hcode
  rw [hresult]
  dsimp only
  rw [hscan.findings finding hcode, or_iff_right hold]
  constructor
  · rintro ⟨entry, hentry, rawRef, href, hcandidate, heq⟩
    exact ⟨entry.2, rawRef, ⟨entry.1, mem_zipIdx_one.mp hentry, href⟩,
      candidate_eq_none.mp hcandidate, heq⟩
  · rintro ⟨toSlot, rawRef, ⟨task, htask, href⟩, hnone, heq⟩
    exact ⟨(task, toSlot), mem_zipIdx_one.mpr htask, rawRef, href, candidate_eq_none.mpr hnone, heq⟩

theorem code_of_mem_cycleFinding {cycleSlots : List Nat} {finding : Finding}
    (hfinding : finding ∈ cycleFinding cycleSlots) : finding.code = .dependencyCycle := by
  unfold cycleFinding at hfinding
  split at hfinding
  · exact absurd hfinding List.not_mem_nil
  · rw [List.mem_singleton.mp hfinding]

theorem code_of_mem_scanWriters {tables : UnicodeTables} {finding : Finding}
    (hfinding : finding ∈ (scanWriters tables tasks).findings) : finding.code = .invalidWriterPath := by
  unfold scanWriters at hfinding
  refine List.foldlRecOn
    (motive := fun scan : WriterScan => ∀ f ∈ scan.findings, f.code = .invalidWriterPath)
    (tasks.zipIdx 1) _ (by simp) ?_ finding hfinding
  intro scan hscan entry _
  refine List.foldlRecOn
    (motive := fun scan : WriterScan => ∀ f ∈ scan.findings, f.code = .invalidWriterPath) _ _ hscan ?_
  intro scan' hscan' raw _ f hf
  unfold recordWriter at hf
  split at hf
  · rcases List.mem_append.mp hf with hold | hnew
    · exact hscan' f hold
    · rw [List.mem_singleton.mp hnew]
  · exact hscan' f hf

theorem mem_topology_findings {tables : UnicodeTables} {maxWorkers : JsNumber} {finding : Finding}
    (hcode : finding.code = .unresolvedDependency) :
    finding ∈ (deriveExecutionTopology tables tasks maxWorkers).findings
      ↔ finding ∈ (resolveDependencySlots tasks).2 := by
  have hcycle : ∀ slots, finding ∉ cycleFinding slots := by
    intro slots hmem
    rw [code_of_mem_cycleFinding hmem] at hcode
    cases hcode
  have hwriters : finding ∉ (scanWriters tables tasks).findings := by
    intro hmem
    rw [code_of_mem_scanWriters hmem] at hcode
    cases hcode
  have hcollisions : finding ∉ (collisionScan tables tasks).findings := by
    intro hmem
    rw [collisionsOf_scan.findings finding hmem] at hcode
    cases hcode
  have hparts : (deriveExecutionTopology tables tasks maxWorkers).findings
      = sortBy compareFindings ((resolveDependencySlots tasks).2
        ++ cycleFinding (topologicalOrder tasks.length (authored tasks)).2
        ++ (scanWriters tables tasks).findings ++ (collisionScan tables tasks).findings
        ++ if (topologicalOrder tasks.length (authored tasks)).2 = []
          then cycleFinding (topologicalOrder tasks.length (effective tables tasks)).2 else []) := rfl
  rw [hparts, mem_sortBy]
  simp only [List.mem_append, hcycle, hwriters, hcollisions, or_false, or_iff_left_iff_imp]
  intro hlast
  split at hlast
  · exact absurd hlast (hcycle _)
  · exact absurd hlast List.not_mem_nil

end Deckent.ExecutionTopology
