import Deckent.Model.DependencyScheduler
import Deckent.Proof.DependencyReferences
import Deckent.Proof.PortablePath

/-!
# Which tasks a wave lets through

The dependency set of a task holds the ids of the tasks before it and the texts of its unresolved
references. A reference of a task to itself adds nothing to it, an unresolved reference is satisfied by
a finished task whose id is the same text, and an edge at a task with the empty id is passed over. Where
no declared reference of a candidate is one of these, a candidate that is let through has all its
dependencies done.
-/

namespace Deckent.DependencyScheduler

open ExecutionTopology

variable {tables : UnicodeTables} {tasks : List Task} {includeCollisions : Bool}
  {doneTasks : OrderedSet String} {id : String} {slot : Nat} {rawRef : String}

/-! ### The dependency sets -/

section Maps

variable {map : OrderedMap String (OrderedSet String)} {key other member found : String}

def Known (map : OrderedMap String (OrderedSet String)) (key : String) : Prop :=
  ∃ set, map.get? key = some set

def Member (map : OrderedMap String (OrderedSet String)) (key member : String) : Prop :=
  ∃ set, map.get? key = some set ∧ member ∈ set

theorem known_addMember : Known (addMember map other member) key ↔ Known map key := by
  unfold addMember
  cases hget : map.get? other with
  | none => exact Iff.rfl
  | some set =>
      simp only [Known, OrderedMap.get?_set]
      by_cases hkey : key = other
      · simp [hkey, hget]
      · simp [hkey]

theorem member_addMember :
    Member (addMember map other member) key found
      ↔ Member map key found ∨ Known map key ∧ other = key ∧ member = found := by
  unfold addMember
  cases hget : map.get? other with
  | none =>
      refine ⟨Or.inl, ?_⟩
      rintro (hold | ⟨⟨set, hset⟩, rfl, -⟩)
      · exact hold
      · rw [hget] at hset
        cases hset
  | some set =>
      simp only [Member, Known, OrderedMap.get?_set]
      by_cases hkey : key = other
      · subst hkey
        simp [hget, eq_comm]
      · simp [hkey, Ne.symm hkey]

end Maps

theorem taskIdAt_eq (tasks : List Task) (slot : Nat) :
    taskIdAt tasks slot = (taskAt tasks slot).map Task.id := by
  unfold taskIdAt taskAt
  split <;> rfl

theorem get?_foldl_addTask {maps : EdgeMaps} {key : String}
    (hkey : maps.dependencies.get? key = some ∅ ∨ ∃ task ∈ tasks, task.id = key) :
    (tasks.foldl EdgeMaps.addTask maps).dependencies.get? key = some ∅ := by
  induction tasks generalizing maps with
  | nil => simpa using hkey
  | cons task rest ih =>
      refine ih ?_
      rw [EdgeMaps.addTask, OrderedMap.get?_set]
      split
      · exact Or.inl rfl
      · next hne =>
          rcases hkey with hold | ⟨other, hother, hid⟩
          · exact Or.inl hold
          · rcases List.mem_cons.mp hother with rfl | hrest
            · exact absurd hid.symm hne
            · exact Or.inr ⟨other, hrest, hid⟩

def Joins (tasks : List Task) (edge : Edge) (fromId toId : String) : Prop :=
  truthy (taskIdAt tasks edge.fromSlot) = some fromId ∧ truthy (taskIdAt tasks edge.toSlot) = some toId

theorem known_addEdge {maps : EdgeMaps} {edge : Edge} {key : String} :
    Known (maps.addEdge tasks edge).dependencies key ↔ Known maps.dependencies key := by
  unfold EdgeMaps.addEdge
  split
  · exact known_addMember
  · exact Iff.rfl

theorem member_addEdge {maps : EdgeMaps} {edge : Edge} {key found : String} :
    Member (maps.addEdge tasks edge).dependencies key found
      ↔ Member maps.dependencies key found
        ∨ Known maps.dependencies key ∧ Joins tasks edge found key := by
  unfold EdgeMaps.addEdge Joins
  split
  · next fromId toId hfrom hto =>
      rw [hfrom, hto, Option.some.injEq, Option.some.injEq, member_addMember,
        and_comm (a := toId = key)]
  · next hmissing =>
      refine ⟨Or.inl, ?_⟩
      rintro (hold | ⟨-, hfrom, hto⟩)
      · exact hold
      · exact absurd hto (hmissing found key hfrom)

theorem known_foldl_addEdge {maps : EdgeMaps} {edges : List Edge} {key : String} :
    Known (edges.foldl (EdgeMaps.addEdge tasks) maps).dependencies key
      ↔ Known maps.dependencies key := by
  induction edges generalizing maps with
  | nil => exact Iff.rfl
  | cons edge rest ih => rw [List.foldl_cons, ih, known_addEdge]

theorem member_foldl_addEdge {maps : EdgeMaps} {edges : List Edge} {key found : String} :
    Member (edges.foldl (EdgeMaps.addEdge tasks) maps).dependencies key found
      ↔ Member maps.dependencies key found
        ∨ Known maps.dependencies key ∧ ∃ edge ∈ edges, Joins tasks edge found key := by
  induction edges generalizing maps with
  | nil => simp
  | cons edge rest ih =>
      rw [List.foldl_cons, ih, member_addEdge, known_addEdge, List.exists_mem_cons_iff, or_assoc,
        ← and_or_left]

def Names (tasks : List Task) (finding : Finding) (key found : String) : Prop :=
  finding.code = .unresolvedDependency
    ∧ (taskIdAt tasks (finding.slots.head?.getD 1)).getD
      ("slot-" ++ (finding.slots.head?.map toString).getD "?") = key
    ∧ finding.ref.getD "unresolved-dependency" = found

theorem known_addFinding {map : OrderedMap String (OrderedSet String)} {finding : Finding}
    {key : String} : Known (addFinding tasks map finding) key ↔ Known map key := by
  unfold addFinding
  split
  · exact known_addMember
  · exact Iff.rfl

theorem member_addFinding {map : OrderedMap String (OrderedSet String)} {finding : Finding}
    {key found : String} :
    Member (addFinding tasks map finding) key found
      ↔ Member map key found ∨ Known map key ∧ Names tasks finding key found := by
  unfold addFinding Names
  split
  · next hcode => rw [member_addMember, and_iff_right hcode]
  · next hcode => simp [hcode]

theorem member_foldl_addFinding {map : OrderedMap String (OrderedSet String)}
    {findings : List Finding} {key found : String} :
    Member (findings.foldl (addFinding tasks) map) key found
      ↔ Member map key found
        ∨ Known map key ∧ ∃ finding ∈ findings, Names tasks finding key found := by
  induction findings generalizing map with
  | nil => simp
  | cons finding rest ih =>
      rw [List.foldl_cons, ih, member_addFinding, known_addFinding, List.exists_mem_cons_iff, or_assoc,
        ← and_or_left]

/-! ### What a graph holds for a task -/

def selectedEdges (tables : UnicodeTables) (tasks : List Task) (includeCollisions : Bool) : List Edge :=
  if includeCollisions then effective tables tasks else authored tasks

theorem edgeRel_selectedEdges {a b : Nat} :
    edgeRel (selectedEdges tables tasks includeCollisions) a b
      ↔ edgeRel (authored tasks) a b
        ∨ includeCollisions = true ∧ edgeRel (synthetic tables tasks) a b := by
  unfold selectedEdges
  cases includeCollisions with
  | false => simp
  | true => simp [edgeRel_effective]

def WaitsFor (tables : UnicodeTables) (tasks : List Task) (includeCollisions : Bool) (slot : Nat)
    (id fromId : String) : Prop :=
  ∃ fromSlot, edgeRel (selectedEdges tables tasks includeCollisions) fromSlot slot
    ∧ taskIdAt tasks fromSlot = some fromId ∧ fromId ≠ "" ∧ id ≠ ""

theorem taskIdAt_eq_some_iff (honly : OnlySlot Task.id tasks id slot) {other : Nat} :
    taskIdAt tasks other = some id ↔ other = slot := by
  rw [taskIdAt_eq]
  exact honly other

theorem exists_joins_iff (honly : OnlySlot Task.id tasks id slot) {found : String} :
    (∃ edge ∈ selectedEdges tables tasks includeCollisions, Joins tasks edge found id)
      ↔ WaitsFor tables tasks includeCollisions slot id found := by
  simp only [Joins, truthy_eq_some_iff, taskIdAt_eq_some_iff honly]
  constructor
  · rintro ⟨edge, hedge, ⟨hfrom, hfound⟩, hto, hid⟩
    exact ⟨edge.fromSlot, ⟨edge, hedge, rfl, hto⟩, hfrom, hfound, hid⟩
  · rintro ⟨fromSlot, ⟨edge, hedge, rfl, hto⟩, hfrom, hfound, hid⟩
    exact ⟨edge, hedge, ⟨hfrom, hfound⟩, hto, hid⟩

theorem taskIdAt_of_declares (hdeclares : Declares tasks slot rawRef) :
    ∃ task, taskIdAt tasks slot = some task := by
  obtain ⟨task, htask, -⟩ := hdeclares
  exact ⟨task.id, by rw [taskIdAt_eq, htask, Option.map_some]⟩

theorem names_unresolvedFinding (honly : OnlySlot Task.id tasks id slot) {toSlot : Nat}
    (hdeclares : Declares tasks toSlot rawRef) {found : String} :
    Names tasks (unresolvedFinding toSlot rawRef) id found ↔ toSlot = slot ∧ trim rawRef = found := by
  obtain ⟨toId, htoId⟩ := taskIdAt_of_declares hdeclares
  rw [← taskIdAt_eq_some_iff honly, htoId, Option.some.injEq]
  have hname : (taskIdAt tasks toSlot).getD ("slot-" ++ toString toSlot) = toId := by
    rw [htoId, Option.getD_some]
  constructor
  · rintro ⟨-, hkey, href⟩
    exact ⟨hname.symm.trans hkey, href⟩
  · rintro ⟨rfl, href⟩
    exact ⟨rfl, hname, href⟩

theorem exists_names_iff (honly : OnlySlot Task.id tasks id slot) {maxWorkers : JsNumber}
    {found : String} :
    (∃ finding ∈ (deriveExecutionTopology tables tasks maxWorkers).findings,
        Names tasks finding id found)
      ↔ ∃ rawRef, Declares tasks slot rawRef ∧ (∀ other, ¬ Resolves tasks (trim rawRef) other)
        ∧ trim rawRef = found := by
  constructor
  · rintro ⟨finding, hfinding, hnames⟩
    obtain ⟨toSlot, rawRef, hdeclares, hnone, rfl⟩ :=
      (mem_findings_unresolved hnames.1).mp ((mem_topology_findings hnames.1).mp hfinding)
    obtain ⟨rfl, href⟩ := (names_unresolvedFinding honly hdeclares).mp hnames
    exact ⟨rawRef, hdeclares, hnone, href⟩
  · rintro ⟨rawRef, hdeclares, hnone, href⟩
    refine ⟨unresolvedFinding slot rawRef, ?_,
      (names_unresolvedFinding honly hdeclares).mpr ⟨rfl, href⟩⟩
    exact (mem_topology_findings rfl).mpr
      ((mem_findings_unresolved rfl).mpr ⟨slot, rawRef, hdeclares, hnone, rfl⟩)

theorem member_dependencies (honly : OnlySlot Task.id tasks id slot) {found : String} :
    Member (buildDependencyGraph tables tasks includeCollisions).dependencies id found
      ↔ WaitsFor tables tasks includeCollisions slot id found
        ∨ ∃ rawRef, Declares tasks slot rawRef ∧ (∀ other, ¬ Resolves tasks (trim rawRef) other)
          ∧ trim rawRef = found := by
  obtain ⟨task, htask, hid⟩ := Option.map_eq_some_iff.mp ((honly slot).mpr rfl)
  have hmem : task ∈ tasks := List.fst_mem_of_mem_zipIdx (mem_zipIdx_one.mpr htask)
  have hbase : (tasks.foldl EdgeMaps.addTask
      { dependencies := OrderedMap.empty, dependents := OrderedMap.empty }).dependencies.get? id
        = some ∅ := get?_foldl_addTask (Or.inr ⟨task, hmem, hid⟩)
  have hknown : Known (tasks.foldl EdgeMaps.addTask
      { dependencies := OrderedMap.empty, dependents := OrderedMap.empty }).dependencies id :=
    ⟨∅, hbase⟩
  have hempty : ¬ Member (tasks.foldl EdgeMaps.addTask
      { dependencies := OrderedMap.empty, dependents := OrderedMap.empty }).dependencies id found := by
    rintro ⟨set, hset, hfound⟩
    rw [hbase, Option.some.injEq] at hset
    exact OrderedSet.notMem_empty found (hset ▸ hfound)
  have hgraph : (buildDependencyGraph tables tasks includeCollisions).dependencies
      = (deriveExecutionTopology tables tasks (.finite (max 1 tasks.length : Nat))).findings.foldl
        (addFinding tasks)
        ((selectedEdges tables tasks includeCollisions).foldl (EdgeMaps.addEdge tasks)
          (tasks.foldl EdgeMaps.addTask
            { dependencies := OrderedMap.empty, dependents := OrderedMap.empty })).dependencies := rfl
  rw [hgraph, member_foldl_addFinding, member_foldl_addEdge, known_foldl_addEdge, or_iff_right hempty,
    and_iff_right hknown, and_iff_right hknown, exists_joins_iff honly, exists_names_iff honly]

/-! ### Candidates that are let through -/

theorem unresolved_eq_nil {graph : DependencyGraph} :
    graph.unresolved doneTasks id = []
      ↔ ∀ found, Member graph.dependencies id found → found ∈ doneTasks := by
  unfold DependencyGraph.unresolved Member
  cases graph.dependencies.get? id with
  | none =>
      have hempty : (∅ : OrderedSet String).members = [] := rfl
      simp [hempty]
  | some set => simp [OrderedSet.mem_def]

theorem eligible_iff {graph : DependencyGraph} :
    id ∈ (enforceWaveDependency graph [id] doneTasks).eligible
      ↔ ∀ found, Member graph.dependencies id found → found ∈ doneTasks := by
  rw [← unresolved_eq_nil]
  unfold enforceWaveDependency
  rw [List.foldl_cons, List.foldl_nil, enforceOne]
  split
  · next hnil => simp [hnil]
  · next hsome => simp [hsome]

def DependenciesDone (tasks : List Task) (doneTasks : OrderedSet String) (slot : Nat) : Prop :=
  ∀ rawRef, Declares tasks slot rawRef → ∃ fromSlot fromId, Resolves tasks (trim rawRef) fromSlot
    ∧ fromSlot ≠ slot ∧ taskIdAt tasks fromSlot = some fromId ∧ fromId ∈ doneTasks

/-- The references that hold nothing back although they name no other task that is done. -/
inductive PassedOver (tasks : List Task) (doneTasks : OrderedSet String) (id : String) (slot : Nat)
    (rawRef : String) : Prop where
  | itself (hself : Resolves tasks (trim rawRef) slot)
  | sameText (hnone : ∀ other, ¬ Resolves tasks (trim rawRef) other) (hdone : trim rawRef ∈ doneTasks)
  | emptyId (fromSlot : Nat) (fromId : String) (hresolves : Resolves tasks (trim rawRef) fromSlot)
      (hne : fromSlot ≠ slot) (hfrom : taskIdAt tasks fromSlot = some fromId)
      (hdone : fromId ∉ doneTasks) (hempty : id = "" ∨ fromId = "")

/-- The references that keep a task back: what they name is not done. -/
inductive HeldBack (tasks : List Task) (doneTasks : OrderedSet String) (id : String) (slot : Nat)
    (rawRef : String) : Prop where
  | noTask (hnone : ∀ other, ¬ Resolves tasks (trim rawRef) other) (hdone : trim rawRef ∉ doneTasks)
  | notDone (fromSlot : Nat) (fromId : String) (hresolves : Resolves tasks (trim rawRef) fromSlot)
      (hne : fromSlot ≠ slot) (hfrom : taskIdAt tasks fromSlot = some fromId)
      (hdone : fromId ∉ doneTasks) (hid : id ≠ "") (hfromId : fromId ≠ "")

def WriterAhead (tables : UnicodeTables) (tasks : List Task) (doneTasks : OrderedSet String)
    (id : String) (slot : Nat) : Prop :=
  ∃ fromSlot fromId, edgeRel (synthetic tables tasks) fromSlot slot
    ∧ taskIdAt tasks fromSlot = some fromId ∧ fromId ∉ doneTasks ∧ fromId ≠ "" ∧ id ≠ ""

theorem taskIdAt_of_resolves {fromSlot : Nat} (hresolves : Resolves tasks (trim rawRef) fromSlot) :
    ∃ fromId, taskIdAt tasks fromSlot = some fromId := by
  have htask : ∃ task, taskAt tasks fromSlot = some task := by
    rcases hresolves with honly | ⟨-, honly⟩
    · obtain ⟨task, htask, -⟩ := Option.map_eq_some_iff.mp ((honly fromSlot).mpr rfl)
      exact ⟨task, htask⟩
    · obtain ⟨task, htask, -⟩ := Option.map_eq_some_iff.mp ((honly fromSlot).mpr rfl)
      exact ⟨task, htask⟩
  obtain ⟨task, htask⟩ := htask
  exact ⟨task.id, by rw [taskIdAt_eq, htask, Option.map_some]⟩

theorem resolves_unique {a b : Nat} (ha : Resolves tasks (trim rawRef) a)
    (hb : Resolves tasks (trim rawRef) b) : a = b :=
  Option.some.inj ((candidate_eq_some.mpr ha).symm.trans (candidate_eq_some.mpr hb))

theorem names_done_iff (hheld : ¬ HeldBack tasks doneTasks id slot rawRef) :
    (∃ fromSlot fromId, Resolves tasks (trim rawRef) fromSlot ∧ fromSlot ≠ slot
        ∧ taskIdAt tasks fromSlot = some fromId ∧ fromId ∈ doneTasks)
      ↔ ¬ PassedOver tasks doneTasks id slot rawRef := by
  constructor
  · rintro ⟨fromSlot, fromId, hresolves, hne, hfrom, hdone⟩ hpassed
    cases hpassed with
    | itself hself => exact hne (resolves_unique hresolves hself)
    | sameText hnone _ => exact hnone fromSlot hresolves
    | emptyId otherSlot otherId hother _ hotherId hnot _ =>
        obtain rfl := resolves_unique hresolves hother
        rw [hfrom, Option.some.injEq] at hotherId
        exact hnot (hotherId ▸ hdone)
  · intro hpassed
    by_cases hresolved : ∃ fromSlot, Resolves tasks (trim rawRef) fromSlot
    · obtain ⟨fromSlot, hresolves⟩ := hresolved
      obtain ⟨fromId, hfrom⟩ := taskIdAt_of_resolves hresolves
      have hne : fromSlot ≠ slot := fun heq => hpassed (.itself (heq ▸ hresolves))
      refine ⟨fromSlot, fromId, hresolves, hne, hfrom, ?_⟩
      by_contra hnot
      by_cases hempty : id = "" ∨ fromId = ""
      · exact hpassed (.emptyId fromSlot fromId hresolves hne hfrom hnot hempty)
      · rw [not_or] at hempty
        exact hheld (.notDone fromSlot fromId hresolves hne hfrom hnot hempty.1 hempty.2)
    · have hnone : ∀ other, ¬ Resolves tasks (trim rawRef) other := not_exists.mp hresolved
      by_cases hdone : trim rawRef ∈ doneTasks
      · exact absurd (.sameText hnone hdone) hpassed
      · exact absurd (.noTask hnone hdone) hheld

section Candidate

variable (honly : OnlySlot Task.id tasks id slot)

include honly

theorem eligible_buildDependencyGraph_iff :
    id ∈ (enforceWaveDependency (buildDependencyGraph tables tasks includeCollisions) [id]
        doneTasks).eligible
      ↔ (∀ rawRef, Declares tasks slot rawRef → ¬ HeldBack tasks doneTasks id slot rawRef)
        ∧ ¬ (includeCollisions = true ∧ WriterAhead tables tasks doneTasks id slot) := by
  simp only [eligible_iff, member_dependencies honly, WaitsFor, edgeRel_selectedEdges,
    edgeRel_authored]
  constructor
  · intro hdone
    refine ⟨fun rawRef hdeclares hheld => ?_, ?_⟩
    · cases hheld with
      | noTask hnone hnot => exact hnot (hdone _ (Or.inr ⟨rawRef, hdeclares, hnone, rfl⟩))
      | notDone fromSlot fromId hresolves hne hfrom hnot hid hfromId =>
          exact hnot (hdone fromId (Or.inl
            ⟨fromSlot, Or.inl ⟨hne, rawRef, hdeclares, hresolves⟩, hfrom, hfromId, hid⟩))
    · rintro ⟨hincluded, fromSlot, fromId, hedge, hfrom, hnot, hfromId, hid⟩
      exact hnot (hdone fromId (Or.inl
        ⟨fromSlot, Or.inr ⟨hincluded, hedge⟩, hfrom, hfromId, hid⟩))
  · rintro ⟨hrefs, hwriter⟩ found hfound
    by_contra hnot
    rcases hfound with ⟨fromSlot, hedge | ⟨hincluded, hedge⟩, hfrom, hfromId, hid⟩
      | ⟨rawRef, hdeclares, hnone, rfl⟩
    · obtain ⟨hne, rawRef, hdeclares, hresolves⟩ := hedge
      exact hrefs rawRef hdeclares (.notDone fromSlot found hresolves hne hfrom hnot hid hfromId)
    · exact hwriter ⟨hincluded, fromSlot, found, hedge, hfrom, hnot, hfromId, hid⟩
    · exact hrefs rawRef hdeclares (.noTask hnone hnot)

/-- A candidate that is let through has every declared dependency done exactly when no declared
reference is passed over, or something else keeps the candidate back. -/
theorem eligible_dependenciesDone_iff :
    (id ∈ (enforceWaveDependency (buildDependencyGraph tables tasks includeCollisions) [id]
        doneTasks).eligible → DependenciesDone tasks doneTasks slot)
      ↔ (∀ rawRef, Declares tasks slot rawRef → ¬ PassedOver tasks doneTasks id slot rawRef)
        ∨ (∃ rawRef, Declares tasks slot rawRef ∧ HeldBack tasks doneTasks id slot rawRef)
        ∨ includeCollisions = true ∧ WriterAhead tables tasks doneTasks id slot := by
  rw [eligible_buildDependencyGraph_iff honly]
  by_cases hheld : ∃ rawRef, Declares tasks slot rawRef ∧ HeldBack tasks doneTasks id slot rawRef
  · obtain ⟨rawRef, hdeclares, hback⟩ := hheld
    refine iff_of_true ?_ (Or.inr (Or.inl ⟨rawRef, hdeclares, hback⟩))
    intro hfree
    exact absurd hback (hfree.1 rawRef hdeclares)
  · by_cases hwriter : includeCollisions = true ∧ WriterAhead tables tasks doneTasks id slot
    · refine iff_of_true ?_ (Or.inr (Or.inr hwriter))
      intro hfree
      exact absurd hwriter hfree.2
    · have hnoref : ∀ rawRef, Declares tasks slot rawRef →
          ¬ HeldBack tasks doneTasks id slot rawRef := by
        intro rawRef hdeclares hback
        exact hheld ⟨rawRef, hdeclares, hback⟩
      rw [or_iff_left (not_or.mpr ⟨hheld, hwriter⟩), imp_iff_right ⟨hnoref, hwriter⟩]
      unfold DependenciesDone
      exact forall₂_congr fun rawRef hdeclares => names_done_iff (hnoref rawRef hdeclares)

end Candidate

/-! ### A task that names itself -/

def selfNamingTasks : List Task := [{ id := "a", dependencies := some ["a"] }]

def chainedTasks : List Task := [{ id := "a" }, { id := "b", title := "second", dependencies := some ["a"] }]

theorem eligible_dependenciesDone_iff_chained :
    OnlySlot Task.id chainedTasks "b" 2
      ∧ (("b" ∈ (enforceWaveDependency (buildDependencyGraph plainTables chainedTasks true) ["b"]
          (OrderedSet.ofList ["a"])).eligible
            → DependenciesDone chainedTasks (OrderedSet.ofList ["a"]) 2)
        ↔ (∀ rawRef, Declares chainedTasks 2 rawRef →
            ¬ PassedOver chainedTasks (OrderedSet.ofList ["a"]) "b" 2 rawRef)
          ∨ (∃ rawRef, Declares chainedTasks 2 rawRef
            ∧ HeldBack chainedTasks (OrderedSet.ofList ["a"]) "b" 2 rawRef)
          ∨ true = true ∧ WriterAhead plainTables chainedTasks (OrderedSet.ofList ["a"]) "b" 2) := by
  have honly : OnlySlot Task.id chainedTasks "b" 2 := slotsWith_eq_singleton.mp (by decide)
  exact ⟨honly, eligible_dependenciesDone_iff honly⟩

/-- A task whose only reference names itself is let through, with nothing done. -/
theorem eligible_selfNaming :
    OnlySlot Task.id selfNamingTasks "a" 1
      ∧ "a" ∈ (enforceWaveDependency (buildDependencyGraph plainTables selfNamingTasks true) ["a"]
        ∅).eligible
      ∧ ¬ DependenciesDone selfNamingTasks ∅ 1 := by
  refine ⟨slotsWith_eq_singleton.mp (by decide), by decide +kernel, ?_⟩
  intro hdone
  obtain ⟨_, fromId, -, -, -, hmem⟩ := hdone "a" ⟨_, rfl, List.mem_singleton_self "a"⟩
  exact OrderedSet.notMem_empty fromId hmem

end Deckent.DependencyScheduler
