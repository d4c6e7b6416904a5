import Deckent.Lib.Layering
import Deckent.Proof.SkillGraph

/-!
# The order in which skills are installed

Kahn's algorithm counts for each skill the skills of the graph that depend on it, and takes those that nothing
waits for: a skill comes out before what it depends on, and the reversed order installs it after. The graph of
a root that reaches no cycle is acyclic, so everything comes out; the root alone has no dependents, so it comes
out first.
-/

namespace Deckent.SkillDependencies

open Relation

/-! ### Counting dependents -/

def degreeOf (inDegree : InDegree) (node : String) : Int := (inDegree.get? node).getD 0

/-- The skills of the graph that depend on a node. -/
def dependents (graph : DependencyGraph) (node : String) : Finset String :=
  ((graph.entries.filter fun entry => node ∈ entry.2).map Prod.fst).toFinset

variable {graph : DependencyGraph} {inDegree : InDegree} {a b node dep : String}

theorem mem_dependents : a ∈ dependents graph b ↔ ∃ edges, graph.get? a = some edges ∧ b ∈ edges := by
  simp only [dependents, List.mem_toFinset, List.mem_map, List.mem_filter, decide_eq_true_eq, Prod.exists,
    exists_and_right, exists_eq_right, OrderedMap.mem_entries_iff]

theorem card_dependents :
    (dependents graph node).card = (graph.values.filter fun deps => node ∈ deps).length := by
  have hnodup : ((graph.entries.filter fun entry => node ∈ entry.2).map Prod.fst).Nodup :=
    (List.filter_sublist.map Prod.fst).nodup graph.nodupKeys
  rw [dependents, List.toFinset_card_of_nodup hnodup, OrderedMap.values, List.filter_map, List.length_map,
    List.length_map]
  rfl

theorem get?_addNode :
    (addNode inDegree node).get? a
      = if a = node then some (degreeOf inDegree node) else inDegree.get? a := by
  unfold addNode OrderedMap.contains degreeOf
  cases hget : inDegree.get? node with
  | none => simp [OrderedMap.get?_set]
  | some degree =>
      by_cases ha : a = node
      · simp [ha, hget]
      · simp [ha]

@[simp]
theorem degreeOf_addNode : degreeOf (addNode inDegree node) a = degreeOf inDegree a := by
  rw [degreeOf, get?_addNode]
  split
  · next ha => rw [ha, Option.getD_some]
  · rfl

theorem mem_keys_addNode : a ∈ (addNode inDegree node).keys ↔ a ∈ inDegree.keys ∨ a = node := by
  rw [OrderedMap.mem_keys_iff, OrderedMap.mem_keys_iff, get?_addNode]
  by_cases ha : a = node
  · simp [ha]
  · simp [ha]

theorem degreeOf_countDependency :
    degreeOf (countDependency inDegree dep) a = degreeOf inDegree a + if a = dep then 1 else 0 := by
  rw [degreeOf, countDependency, OrderedMap.get?_upsert]
  by_cases ha : a = dep
  · have hsame : degreeOf (addNode inDegree dep) dep = degreeOf inDegree dep := degreeOf_addNode
    rw [if_pos ha, if_pos ha, ha, ← hsame]
    rfl
  · rw [if_neg ha, if_neg ha, add_zero]
    exact degreeOf_addNode

theorem mem_keys_countDependency : a ∈ (countDependency inDegree dep).keys ↔ a ∈ inDegree.keys ∨ a = dep := by
  rw [countDependency, OrderedMap.upsert, OrderedMap.mem_keys_iff, OrderedMap.get?_set]
  by_cases ha : a = dep
  · simp [ha]
  · rw [if_neg ha, ← OrderedMap.mem_keys_iff, mem_keys_addNode]

theorem foldl_countDependency {deps : List String} (hnodup : deps.Nodup) (inDegree : InDegree) :
    degreeOf (deps.foldl countDependency inDegree) a = (degreeOf inDegree a + if a ∈ deps then 1 else 0)
      ∧ (a ∈ (deps.foldl countDependency inDegree).keys ↔ a ∈ inDegree.keys ∨ a ∈ deps) := by
  induction deps generalizing inDegree with
  | nil => simp
  | cons dep rest ih =>
      obtain ⟨hfresh, hrest⟩ := List.nodup_cons.mp hnodup
      obtain ⟨hdegree, hkeys⟩ := ih hrest (countDependency inDegree dep)
      rw [List.foldl_cons, hdegree, hkeys, degreeOf_countDependency, mem_keys_countDependency]
      constructor
      · by_cases ha : a = dep
        · simp [ha, hfresh]
        · simp [ha]
      · rw [List.mem_cons, or_assoc]

theorem foldl_countDependencies (values : List (OrderedSet String)) (inDegree : InDegree) :
    degreeOf (values.foldl (fun inDegree deps => deps.members.foldl countDependency inDegree) inDegree) a
        = degreeOf inDegree a + ((values.filter fun deps => a ∈ deps).length : Int)
      ∧ (a ∈ (values.foldl (fun inDegree deps => deps.members.foldl countDependency inDegree) inDegree).keys
        ↔ a ∈ inDegree.keys ∨ ∃ deps ∈ values, a ∈ deps) := by
  induction values generalizing inDegree with
  | nil => simp
  | cons deps rest ih =>
      obtain ⟨hdegree, hkeys⟩ := ih (deps.members.foldl countDependency inDegree)
      obtain ⟨hfirst, hfirstKeys⟩ := foldl_countDependency (a := a) deps.nodup inDegree
      rw [List.foldl_cons, hdegree, hkeys, hfirst, hfirstKeys, List.filter_cons]
      refine ⟨?_, ?_⟩
      · by_cases ha : a ∈ deps
        · have hmem : a ∈ deps.members := ha
          simp only [ha, hmem, if_true, decide_true, List.length_cons]
          omega
        · have hmem : a ∉ deps.members := ha
          simp [ha, hmem]
      · simp only [List.mem_cons, exists_eq_or_imp, or_assoc]
        rfl

theorem foldl_addNode (nodes : List String) (inDegree : InDegree) :
    degreeOf (nodes.foldl addNode inDegree) a = degreeOf inDegree a
      ∧ (a ∈ (nodes.foldl addNode inDegree).keys ↔ a ∈ inDegree.keys ∨ a ∈ nodes) := by
  induction nodes generalizing inDegree with
  | nil => simp
  | cons node rest ih =>
      obtain ⟨hdegree, hkeys⟩ := ih (addNode inDegree node)
      rw [List.foldl_cons, hdegree, hkeys, degreeOf_addNode, mem_keys_addNode, List.mem_cons, or_assoc]
      exact ⟨rfl, Iff.rfl⟩

theorem degreeOf_inDegreeOf : degreeOf (inDegreeOf graph) a = waitingOn (dependents graph) ∅ a := by
  rw [inDegreeOf, (foldl_countDependencies _ _).1, (foldl_addNode _ _).1, waitingOn, Finset.sdiff_empty,
    card_dependents]
  exact zero_add _

theorem mem_keys_inDegreeOf :
    a ∈ (inDegreeOf graph).keys ↔ a ∈ graph.keys ∨ ∃ deps ∈ graph.values, a ∈ deps := by
  rw [inDegreeOf, (foldl_countDependencies _ _).2, (foldl_addNode _ _).2]
  simp [OrderedMap.empty, OrderedMap.keys]

/-! ### The loop -/

theorem foldl_releaseDependency {deps : List String} (hnodup : deps.Nodup) (state : SortState) :
    (∀ a, degreeOf (deps.foldl releaseDependency state).inDegree a
        = degreeOf state.inDegree a - if a ∈ deps then 1 else 0)
      ∧ (deps.foldl releaseDependency state).queue
        = state.queue ++ deps.filter (fun dep => degreeOf state.inDegree dep = 1)
      ∧ (deps.foldl releaseDependency state).result = state.result := by
  induction deps generalizing state with
  | nil => simp
  | cons dep rest ih =>
      obtain ⟨hfresh, hrest⟩ := List.nodup_cons.mp hnodup
      have hdegree : ∀ a, degreeOf (releaseDependency state dep).inDegree a
          = degreeOf state.inDegree a - if a = dep then 1 else 0 := by
        intro a
        rw [degreeOf, releaseDependency, OrderedMap.get?_set]
        by_cases ha : a = dep
        · rw [if_pos ha, if_pos ha, ha, Option.getD_some, degreeOf]
        · rw [if_neg ha, if_neg ha, sub_zero, degreeOf]
      obtain ⟨hall, hqueue, hresult⟩ := ih hrest (releaseDependency state dep)
      have hsame : rest.filter (fun other => degreeOf (releaseDependency state dep).inDegree other = 1)
          = rest.filter fun other => degreeOf state.inDegree other = 1 := by
        refine List.filter_congr fun other hother => ?_
        have hne : other ≠ dep := fun heq => hfresh (heq ▸ hother)
        rw [hdegree, if_neg hne, sub_zero]
      rw [List.foldl_cons]
      refine ⟨fun a => ?_, ?_, hresult⟩
      · rw [hall, hdegree]
        by_cases ha : a = dep
        · simp [ha, hfresh]
        · simp [ha]
      · have hone : degreeOf state.inDegree dep - 1 = 0 ↔ degreeOf state.inDegree dep = 1 := by omega
        have hnext : (releaseDependency state dep).queue
            = if degreeOf state.inDegree dep - 1 = 0 then state.queue ++ [dep] else state.queue := rfl
        rw [hqueue, hsame, hnext, List.filter_cons]
        by_cases hdep : degreeOf state.inDegree dep = 1
        · simp [hdep]
        · simp [hdep, hone]

def Sorting (graph : DependencyGraph) (state : SortState) : Prop :=
  Peeling (dependents graph) (inDegreeOf graph).keys.toFinset state.result state.queue
    (degreeOf state.inDegree)

theorem sorting_start :
    Sorting graph ⟨inDegreeOf graph,
      (inDegreeOf graph).keys.filter fun node => (inDegreeOf graph).get? node = some 0, []⟩ := by
  refine Peeling.start (fun _ => degreeOf_inDegreeOf) ((inDegreeOf graph).nodupKeys.filter _) fun a => ?_
  simp only [List.mem_filter, decide_eq_true_eq, List.mem_toFinset]
  refine and_congr_right fun ha => ?_
  obtain ⟨degree, hdegree⟩ := (OrderedMap.mem_keys_iff _).mp ha
  rw [degreeOf, hdegree, Option.some.injEq, Option.getD_some]

theorem Sorting.take {state : SortState} (h : Sorting graph state) {queue deps : List String}
    (hqueue : state.queue = node :: queue) (hnodup : deps.Nodup)
    (hdeps : ∀ a, a ∈ deps ↔ node ∈ dependents graph a) :
    Sorting graph (deps.foldl releaseDependency
      { state with queue, result := state.result ++ [node] }) := by
  obtain ⟨hdegree, hnext, hresult⟩ :=
    foldl_releaseDependency hnodup { state with queue, result := state.result ++ [node] }
  have hwithin : ∀ a ∈ deps, a ∈ (inDegreeOf graph).keys.toFinset := by
    intro a ha
    obtain ⟨edges, hget, hmem⟩ := mem_dependents.mp ((hdeps a).mp ha)
    rw [List.mem_toFinset, mem_keys_inDegreeOf]
    exact Or.inr ⟨edges, (OrderedMap.mem_values_iff graph).mpr ⟨node, hget⟩, hmem⟩
  have hperm : state.queue.Perm (node :: queue) := hqueue ▸ List.Perm.refl _
  have htake := Peeling.take h hperm hnodup hdeps hwithin
  unfold Sorting
  rw [hnext, hresult, funext hdegree]
  exact htake

theorem Sorting.sortLoop {fuel : Nat} {state : SortState} (h : Sorting graph state)
    (hfuel : (inDegreeOf graph).keys.length ≤ fuel + state.result.length) :
    Sorting graph (sortLoop graph fuel state) ∧ (sortLoop graph fuel state).queue = [] := by
  have hcard : (inDegreeOf graph).keys.toFinset.card = (inDegreeOf graph).keys.length :=
    List.toFinset_card_of_nodup (inDegreeOf graph).nodupKeys
  induction fuel generalizing state with
  | zero =>
      refine ⟨h, List.eq_nil_iff_forall_not_mem.mpr fun node hnode => ?_⟩
      have hlt := Peeling.length_lt h hnode
      omega
  | succ fuel ih =>
      cases hqueue : state.queue with
      | nil =>
          rw [SkillDependencies.sortLoop, hqueue]
          exact ⟨h, hqueue⟩
      | cons node queue =>
          rw [SkillDependencies.sortLoop, hqueue]
          dsimp only
          cases hget : graph.get? node with
          | none =>
              refine ih (h.take hqueue List.nodup_nil fun a => ?_) ?_
              · simp [mem_dependents, hget]
              · rw [List.length_append, List.length_singleton]
                omega
          | some deps =>
              have htaken : Sorting graph (deps.members.foldl releaseDependency
                  { state with queue, result := state.result ++ [node] }) := by
                refine h.take hqueue deps.nodup fun a => ?_
                rw [mem_dependents, hget]
                simp only [Option.some.injEq, exists_eq_left']
                rfl
              refine ih htaken ?_
              rw [(foldl_releaseDependency deps.nodup _).2.2, List.length_append, List.length_singleton]
              omega

/-! ### Its result -/

variable (hacyclic : Acyclic fun a b => a ∈ dependents graph b)

include hacyclic

theorem reverse_topologicalSort :
    (topologicalSort graph).reverse.Nodup
      ∧ (∀ a, a ∈ (topologicalSort graph).reverse ↔ a ∈ (inDegreeOf graph).keys)
      ∧ IsLayering (fun a b => a ∈ dependents graph b)
        ((topologicalSort graph).reverse.map fun node => [node]) := by
  have hstart : Sorting graph _ := sorting_start
  obtain ⟨h, hqueue⟩ := hstart.sortLoop (Nat.le_add_right _ _)
  unfold Sorting at h
  rw [hqueue] at h
  rw [topologicalSort, List.reverse_reverse]
  refine ⟨h.nodup, fun a => ⟨fun ha => List.mem_toFinset.mp (h.subset a ha), fun ha => ?_⟩, h.layering⟩
  refine h.mem_order hacyclic (fun b c hc => ?_) (List.mem_toFinset.mpr ha)
  obtain ⟨edges, hget, -⟩ := mem_dependents.mp hc
  rw [List.mem_toFinset, mem_keys_inDegreeOf]
  exact Or.inl ((OrderedMap.mem_keys_iff graph).mpr ⟨edges, hget⟩)

theorem mem_before_of_topologicalSort {before after : List String}
    (hsplit : topologicalSort graph = before ++ a :: after) (hb : a ∈ dependents graph b)
    (hin : b ∈ topologicalSort graph) : b ∈ before := by
  obtain ⟨hnodup, -, hlayering⟩ := reverse_topologicalSort hacyclic
  have hlt := hlayering.layerOf_lt (by rw [flatten_map_singleton]; exact List.mem_reverse.mpr hin) hb
  rw [layerOf_map_singleton, layerOf_map_singleton] at hlt
  have hreverse : (topologicalSort graph).reverse = after.reverse ++ a :: before.reverse := by
    simp [hsplit]
  rw [hreverse] at hlt hnodup
  have hfresh : a ∉ after.reverse := fun hmem =>
    (List.nodup_append.mp hnodup).2.2 a hmem a List.mem_cons_self rfl
  have hindex : (after.reverse ++ a :: before.reverse).idxOf a = after.reverse.length := by
    rw [List.idxOf_append_of_notMem hfresh, List.idxOf_cons_self, Nat.add_zero]
  have hcases : b ∈ before ∨ b = a ∨ b ∈ after := by
    rw [hsplit] at hin
    simpa using hin
  rcases hcases with hbefore | rfl | hafter
  · exact hbefore
  · exact absurd hlt (lt_irrefl _)
  · have hmem : b ∈ after.reverse := List.mem_reverse.mpr hafter
    rw [hindex, List.idxOf_append_of_mem hmem] at hlt
    exact absurd (List.idxOf_lt_length_of_mem hmem) (by omega)

omit hacyclic

namespace DependencyResolver

/-- An order in which a skill can be installed: what it needs and nothing else, each dependency before what
needs it, and the skill itself last. -/
structure InstallOrder (resolver : DependencyResolver) (root : String) (order : List String) : Prop where
  nodup : order.Nodup
  mem_iff : ∀ a, a ∈ order ↔ ReflTransGen resolver.Requires root a
  before : ∀ before a after, order = before ++ a :: after → ∀ b, resolver.Requires a b → b ∈ before
  last : order.getLast? = some root

variable {resolver : DependencyResolver} {root : String} {state : BuildState}

theorem Built.mem_dependents_iff (h : Built resolver root [] state) :
    a ∈ dependents state.graph b ↔ a ∈ state.visited ∧ resolver.Requires a b := by
  rw [mem_dependents]
  constructor
  · rintro ⟨edges, hget, hb⟩
    have ha := (h.keys a).mp ⟨edges, hget⟩
    exact ⟨ha, (h.edges a ha List.not_mem_nil edges hget b).mp hb⟩
  · rintro ⟨ha, hb⟩
    obtain ⟨edges, hget⟩ := (h.keys a).mpr ha
    exact ⟨edges, hget, (h.edges a ha List.not_mem_nil edges hget b).mpr hb⟩

theorem Built.acyclic (h : Built resolver root [] state) :
    Acyclic fun a b => a ∈ dependents state.graph b := by
  intro a hcycle
  have hrequires : TransGen resolver.Requires a a :=
    hcycle.lift id fun b c hbc => (h.mem_dependents_iff.mp hbc).2
  obtain ⟨b, hab, -⟩ := TransGen.head'_iff.mp hcycle
  exact h.explored.acyclic a (h.mem_dependents_iff.mp hab).1 List.not_mem_nil hrequires

theorem Built.visited_iff (h : Built resolver root [] state) (hroot : root ∈ state.visited) :
    a ∈ state.visited ↔ ReflTransGen resolver.Requires root a :=
  ⟨h.reached a, fun hreach => (h.explored.left_of_reaches hroot List.not_mem_nil hreach).1⟩

theorem Built.mem_keys_inDegreeOf (h : Built resolver root [] state) :
    a ∈ (inDegreeOf state.graph).keys ↔ a ∈ state.visited := by
  rw [SkillDependencies.mem_keys_inDegreeOf, OrderedMap.mem_keys_iff, h.keys]
  refine ⟨?_, Or.inl⟩
  rintro (ha | ⟨deps, hdeps, ha⟩)
  · exact ha
  · obtain ⟨b, hget⟩ := (OrderedMap.mem_values_iff _).mp hdeps
    obtain ⟨hb, hrequires⟩ := h.mem_dependents_iff.mp (mem_dependents.mpr ⟨deps, hget, ha⟩)
    exact (h.explored.closed b hb List.not_mem_nil a hrequires).1

theorem Built.installOrder (h : Built resolver root [] state) (hroot : root ∈ state.visited) :
    InstallOrder resolver root (topologicalSort state.graph) := by
  obtain ⟨hnodup, hmem, hlayering⟩ := reverse_topologicalSort h.acyclic
  have hin : ∀ a, a ∈ topologicalSort state.graph ↔ ReflTransGen resolver.Requires root a := by
    intro a
    rw [← List.mem_reverse, hmem, h.mem_keys_inDegreeOf, h.visited_iff hroot]
  refine ⟨List.nodup_reverse.mp hnodup, hin, fun before a after hsplit b hb => ?_, ?_⟩
  · have ha := (hin a).mp (by rw [hsplit]; simp)
    exact mem_before_of_topologicalSort h.acyclic hsplit
      (h.mem_dependents_iff.mpr ⟨(h.visited_iff hroot).mpr ha, hb⟩) ((hin b).mpr (ha.tail hb))
  · -- the first skill taken has no dependents, and every skill but the root has one
    rw [← List.head?_reverse]
    cases horder : (topologicalSort state.graph).reverse with
    | nil =>
        have hmemRoot := List.mem_reverse.mpr ((hin root).mpr .refl)
        rw [horder] at hmemRoot
        exact absurd hmemRoot List.not_mem_nil
    | cons first rest =>
        have hfirst := (hin first).mp (List.mem_reverse.mp (horder ▸ List.mem_cons_self))
        rcases ReflTransGen.cases_tail hfirst with rfl | ⟨a, ha, hrequires⟩
        · rfl
        · have hnone := hlayering [] [first] (rest.map fun node => [node]) (by rw [horder]; rfl) first
            (List.mem_singleton_self first) a
            (h.mem_dependents_iff.mpr ⟨(h.visited_iff hroot).mpr ha, hrequires⟩)
          exact absurd hnone List.not_mem_nil

/-- `resolve` throws exactly when the root reaches a cycle, as does `detectCircular` find one, and otherwise
it answers an install order of the root. -/
theorem resolve_installs (resolver : DependencyResolver) (root : String) :
    ((∃ error, resolver.resolve root = .error error) ↔ resolver.ReachesCycle root)
      ∧ ((resolver.detectCircular root).isSome ↔ resolver.ReachesCycle root)
      ∧ ∀ result, resolver.resolve root = .ok result →
        InstallOrder resolver root (result.ordered.map (·.name)) := by
  refine ⟨?_, isSome_detectCircular, ?_⟩
  · cases hbuild : resolver.buildGraph resolver.fuel root [] ⟨.empty, .empty, ∅⟩ with
    | error error =>
        have hcycle := reachesCycle_of_buildGraph hbuild
        exact iff_of_true ⟨error, by rw [resolve, hbuild]; rfl⟩ hcycle
    | ok state =>
        obtain ⟨hbuilt, hroot⟩ := built_of_buildGraph hbuild
        refine iff_of_false ?_ (hbuilt.explored.not_reachesCycle hroot)
        rintro ⟨error, herror⟩
        rw [resolve, hbuild] at herror
        cases herror
  · intro result hresult
    rw [resolve] at hresult
    obtain ⟨state, hbuild, hresult⟩ := bind_eq_ok.mp hresult
    obtain ⟨hbuilt, hroot⟩ := built_of_buildGraph hbuild
    cases hresult
    have hnames : ((topologicalSort state.graph).map fun name =>
        (⟨name, (state.versions.get? name).getD "unknown"⟩ : ResolvedDependency)).map (·.name)
        = topologicalSort state.graph := by
      rw [List.map_map]
      exact List.map_id _
    rw [hnames]
    exact hbuilt.installOrder hroot

end DependencyResolver

end Deckent.SkillDependencies
