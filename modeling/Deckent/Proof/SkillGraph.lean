import Deckent.Lib.CycleCheck
import Deckent.Lib.Fallible
import Deckent.Model.DependencyResolver

/-!
# The graph of a skill

`buildGraph` and `dfs` are searches of one graph, in which a skill is followed by the names its manifest
depends on. A skill is left when its call returns, and then all it needs has been left as well. One of them
tells by its ancestors and the other by its stack whether it comes back to its own path, so both fail exactly
where the root reaches a cycle.
-/

namespace Deckent.SkillDependencies.DependencyResolver

open Relation

variable (resolver : DependencyResolver)

def Requires (a b : String) : Prop := b ∈ resolver.dependencyNames a

def ReachesCycle (root : String) : Prop := Deckent.ReachesCycle resolver.Requires root

variable {resolver}

theorem mem_names {a b : String} (h : resolver.Requires a b) : b ∈ resolver.names := by
  unfold Requires dependencyNames getManifest at h
  rw [names, List.mem_append, List.mem_flatMap, List.mem_flatMap]
  split at h
  · cases hmanifest : resolver.registryLookup.get? a with
    | none =>
        rw [hmanifest] at h
        exact absurd h List.not_mem_nil
    | some manifest =>
        rw [hmanifest] at h
        exact Or.inl ⟨manifest, (OrderedMap.mem_values_iff _).mpr ⟨a, hmanifest⟩, h⟩
  · cases hfile : resolver.files.get? (resolver.manifestPath a) with
    | none =>
        rw [hfile] at h
        exact absurd h List.not_mem_nil
    | some content =>
        cases content with
        | none =>
            rw [hfile] at h
            exact absurd h List.not_mem_nil
        | some manifest =>
            rw [hfile] at h
            refine Or.inr ⟨manifest, List.mem_filterMap.mpr ⟨some manifest, ?_, rfl⟩, h⟩
            exact (OrderedMap.mem_values_iff _).mpr ⟨_, hfile⟩

theorem mem_root_names {root a : String} (h : ReflTransGen resolver.Requires root a) :
    a ∈ root :: resolver.names := by
  induction h with
  | refl => exact List.mem_cons_self
  | tail _ hrequires _ => exact List.mem_cons_of_mem _ (mem_names hrequires)

theorem fuel_ne_zero {root a : String} {path : List String} {fuel : Nat}
    (hpath : PathTo resolver.dependencyNames root path a) (hfuel : resolver.fuel = fuel + path.length) :
    fuel ≠ 0 := by
  have hlength := hpath.length_le fun b hb => mem_root_names hb
  rw [List.length_cons] at hlength
  unfold DependencyResolver.fuel at hfuel
  omega

/-! ### Building the graph -/

structure Built (resolver : DependencyResolver) (root : String) (path : List String) (state : BuildState) :
    Prop where
  explored : Explored resolver.dependencyNames {a | a ∈ state.visited} path
  reached : ∀ a ∈ state.visited, ReflTransGen resolver.Requires root a
  keys : ∀ a, (∃ edges, state.graph.get? a = some edges) ↔ a ∈ state.visited
  edges : ∀ a ∈ state.visited, a ∉ path → ∀ edges, state.graph.get? a = some edges →
    ∀ b, b ∈ edges ↔ resolver.Requires a b

structure Extends (path : List String) (before after : BuildState) : Prop where
  visited : ∀ a ∈ before.visited, a ∈ after.visited
  graph : ∀ a ∈ path, after.graph.get? a = before.graph.get? a

variable {root name : String} {path : List String} {state before after later : BuildState}

theorem Extends.refl : Extends path state state := ⟨fun _ h => h, fun _ _ => rfl⟩

theorem Extends.trans (h : Extends path before after) (h' : Extends path after later) :
    Extends path before later :=
  ⟨fun a ha => h'.visited a (h.visited a ha), fun a ha => (h'.graph a ha).trans (h.graph a ha)⟩

theorem get?_addSkill (a : String) :
    (state.addSkill name).graph.get? a
      = if a = name then some ((state.graph.get? name).getD ∅) else state.graph.get? a := by
  unfold BuildState.addSkill OrderedMap.contains
  cases hget : state.graph.get? name with
  | none => simp [OrderedMap.get?_set]
  | some edges =>
      by_cases ha : a = name
      · simp [ha, hget]
      · simp [ha]

@[simp]
theorem visited_addSkill : (state.addSkill name).visited = state.visited := rfl

@[simp]
theorem visited_addEdge {dep : String} : (state.addEdge name dep).visited = state.visited := by
  unfold BuildState.addEdge
  split <;> rfl

theorem get?_addEdge {edges : OrderedSet String} (hget : state.graph.get? name = some edges)
    (dep a : String) :
    (state.addEdge name dep).graph.get? a
      = if a = name then some (edges.add dep) else state.graph.get? a := by
  unfold BuildState.addEdge
  rw [hget]
  exact OrderedMap.get?_set _ _ _ _

theorem Built.enter (h : Built resolver root path state)
    (hpath : PathTo resolver.dependencyNames root path name) (hnew : name ∉ state.visited) (entered : BuildState)
    (hvisited : entered.visited = state.visited.add name)
    (hgraph : ∀ a, entered.graph.get? a
      = if a = name then some ((state.graph.get? name).getD ∅) else state.graph.get? a) :
    Built resolver root (path ++ [name]) entered ∧ entered.graph.get? name = some ∅
      ∧ Extends path state entered := by
  have hnone : state.graph.get? name = none := by
    rw [Option.eq_none_iff_forall_ne_some]
    exact fun edges hget => hnew ((h.keys name).mp ⟨edges, hget⟩)
  have hset : {a | a ∈ entered.visited} = insert name {a | a ∈ state.visited} := by
    ext a
    simp [hvisited, or_comm]
  refine ⟨⟨?_, ?_, ?_, ?_⟩, by rw [hgraph, if_pos rfl, hnone]; rfl, ?_, ?_⟩
  · rw [hset]
    exact h.explored.enter hnew
  · intro a ha
    rw [hvisited, OrderedSet.mem_add] at ha
    rcases ha with ha | rfl
    · exact h.reached a ha
    · exact hpath.reaches
  · intro a
    rw [hgraph, hvisited, OrderedSet.mem_add]
    by_cases ha : a = name
    · simp [ha]
    · simp [ha, h.keys a]
  · intro a ha hout
    simp only [List.mem_append, List.mem_singleton, not_or] at hout
    rw [hvisited, OrderedSet.mem_add] at ha
    rw [hgraph, if_neg hout.2]
    exact h.edges a (ha.resolve_right hout.2) hout.1
  · intro a ha
    rw [hvisited]
    exact OrderedSet.mem_add.mpr (Or.inl ha)
  · intro a ha
    have hne : a ≠ name := fun heq => hnew (heq ▸ h.explored.onPath a ha)
    rw [hgraph, if_neg hne]

structure Expanding (resolver : DependencyResolver) (root : String) (path : List String) (name : String)
    (done : List String) (state : BuildState) : Prop extends Built resolver root (path ++ [name]) state where
  edgesSoFar : ∃ edges, state.graph.get? name = some edges ∧ ∀ b, b ∈ edges ↔ b ∈ done
  left : ∀ b ∈ done, b ∈ state.visited ∧ b ∉ path ++ [name]

theorem Expanding.leave (h : Expanding resolver root path name (resolver.dependencyNames name) state) :
    Built resolver root path state where
  explored := h.explored.leave h.left
  reached := h.reached
  keys := h.keys
  edges a ha hout edges hget := by
    by_cases hname : a = name
    · obtain ⟨edges', hget', hmem⟩ := h.edgesSoFar
      rw [hname, hget'] at hget
      rw [← Option.some.inj hget, hname]
      exact hmem
    · exact h.edges a ha (by simp [hout, hname]) edges hget

theorem Expanding.addEdge {done : List String} (h : Expanding resolver root path name done state)
    (hnew : name ∉ path) (dep : String) :
    Built resolver root (path ++ [name]) (state.addEdge name dep)
      ∧ (∃ edges, (state.addEdge name dep).graph.get? name = some edges
        ∧ ∀ b, b ∈ edges ↔ b ∈ done ++ [dep])
      ∧ Extends path state (state.addEdge name dep) := by
  obtain ⟨edges, hget, hmem⟩ := h.edgesSoFar
  have hgraph := get?_addEdge hget dep
  have hvisited : name ∈ state.visited := (h.keys name).mp ⟨edges, hget⟩
  refine ⟨⟨?_, ?_, ?_, ?_⟩, ⟨edges.add dep, by rw [hgraph, if_pos rfl], ?_⟩, ?_, ?_⟩
  · rw [visited_addEdge]
    exact h.explored
  · rw [visited_addEdge]
    exact h.reached
  · intro a
    rw [hgraph, visited_addEdge]
    by_cases ha : a = name
    · simp [ha, hvisited]
    · simp [ha, h.keys a]
  · intro a ha hout
    have hne : a ≠ name := fun heq => hout (by simp [heq])
    rw [visited_addEdge] at ha
    rw [hgraph, if_neg hne]
    exact h.edges a ha hout
  · intro b
    simp [hmem]
  · rw [visited_addEdge]
    exact fun _ ha => ha
  · intro a ha
    have hne : a ≠ name := fun heq => hnew (heq ▸ ha)
    rw [hgraph, if_neg hne]

structure Outcome (resolver : DependencyResolver) (root name : String) (path : List String)
    (state : BuildState) (result : Except CircularDependencyError BuildState) : Prop where
  error : ∀ error, result = .error error → resolver.ReachesCycle root
  ok : ∀ after, result = .ok after → Built resolver root path after ∧ Extends path state after
    ∧ name ∈ after.visited ∧ name ∉ path

/-- The loop over the dependencies that are left. -/
theorem Expanding.loop (visit : String → BuildState → Except CircularDependencyError BuildState)
    (hnew : name ∉ path)
    (hvisit : ∀ dep state, resolver.Requires name dep → Built resolver root (path ++ [name]) state →
      Outcome resolver root dep (path ++ [name]) state (visit dep state))
    (rest : List String) {done : List String} (h : Expanding resolver root path name done state)
    (hrest : ∀ dep ∈ rest, resolver.Requires name dep) :
    (∀ error, rest.foldlM (fun state dep => visit dep (state.addEdge name dep)) state = .error error →
        resolver.ReachesCycle root)
      ∧ ∀ after, rest.foldlM (fun state dep => visit dep (state.addEdge name dep)) state = .ok after →
        Expanding resolver root path name (done ++ rest) after ∧ Extends path state after := by
  induction rest generalizing done state with
  | nil =>
      refine ⟨fun error herror => ?_, fun after hafter => ?_⟩
      · cases herror
      · cases hafter
        rw [List.append_nil]
        exact ⟨h, .refl⟩
  | cons dep rest ih =>
      obtain ⟨hbuilt, ⟨edges, hget, hmem⟩, hextends⟩ := h.addEdge hnew dep
      have houtcome := hvisit dep _ (hrest dep List.mem_cons_self) hbuilt
      rw [List.foldlM_cons]
      cases hcall : visit dep (state.addEdge name dep) with
      | error e =>
          refine ⟨fun _ _ => houtcome.error e hcall, fun after hafter => ?_⟩
          cases hafter
      | ok next =>
          obtain ⟨hnext, hgrown, hin, hout⟩ := houtcome.ok next hcall
          have hexpanding : Expanding resolver root path name (done ++ [dep]) next := by
            refine ⟨hnext, ⟨edges, ?_, hmem⟩, fun b hb => ?_⟩
            · rw [hgrown.graph name (by simp), hget]
            · rcases List.mem_append.mp hb with hb | hb
              · obtain ⟨hvisited, hoff⟩ := h.left b hb
                exact ⟨hgrown.visited b (hextends.visited b hvisited), hoff⟩
              · rw [List.mem_singleton.mp hb]
                exact ⟨hin, hout⟩
          have hshorter : Extends path (state.addEdge name dep) next :=
            ⟨hgrown.visited, fun a ha => hgrown.graph a (List.mem_append_left _ ha)⟩
          obtain ⟨herror, hok⟩ := ih hexpanding fun b hb => hrest b (List.mem_cons_of_mem _ hb)
          refine ⟨herror, fun after hafter => ?_⟩
          obtain ⟨hlast, hmore⟩ := hok after hafter
          rw [List.append_assoc, List.singleton_append] at hlast
          exact ⟨hlast, (hextends.trans hshorter).trans hmore⟩

theorem dependencyNames_of_none (hmanifest : resolver.getManifest name = none) :
    resolver.dependencyNames name = [] := by
  simp [dependencyNames, hmanifest]

theorem dependencyNames_of_some {manifest : SkillManifestDeps}
    (hmanifest : resolver.getManifest name = some manifest) :
    resolver.dependencyNames name = manifest.dependencyNames := by
  simp [dependencyNames, hmanifest]

/-- A call fails only where the root reaches a cycle, and otherwise it leaves its skill. -/
theorem buildGraph_outcome {fuel : Nat} (hfuel : resolver.fuel = fuel + path.length)
    (hpath : PathTo resolver.dependencyNames root path name) (h : Built resolver root path state) :
    Outcome resolver root name path state (resolver.buildGraph fuel name path state) := by
  induction fuel generalizing name path state with
  | zero => exact absurd rfl (fuel_ne_zero hpath hfuel)
  | succ fuel ih =>
      rw [buildGraph]
      by_cases hback : name ∈ path
      · rw [if_pos hback]
        refine ⟨fun _ _ => hpath.reachesCycle hback, fun after hafter => ?_⟩
        cases hafter
      rw [if_neg hback]
      by_cases hvisited : name ∈ state.visited
      · rw [if_pos hvisited]
        refine ⟨fun error herror => ?_, fun after hafter => ?_⟩
        · cases herror
        · cases hafter
          exact ⟨h, .refl, hvisited, hback⟩
      rw [if_neg hvisited]
      have hleave : ∀ {after : BuildState},
          Expanding resolver root path name (resolver.dependencyNames name) after →
          Extends path state after → Built resolver root path after ∧ Extends path state after
            ∧ name ∈ after.visited ∧ name ∉ path := by
        intro after hafter hextends
        exact ⟨hafter.leave, hextends, hafter.explored.onPath name (by simp), hback⟩
      cases hmanifest : resolver.getManifest name with
      | none =>
          dsimp only
          obtain ⟨hbuilt, hget, hextends⟩ :=
            h.enter hpath hvisited (state.enterUnknown name) rfl get?_addSkill
          refine ⟨fun error herror => ?_, fun after hafter => ?_⟩
          · cases herror
          · cases hafter
            refine hleave ⟨hbuilt, ⟨∅, hget, ?_⟩, ?_⟩ hextends
            · simp [dependencyNames_of_none hmanifest]
            · simp [dependencyNames_of_none hmanifest]
      | some manifest =>
          dsimp only
          obtain ⟨hbuilt, hget, hextends⟩ :=
            h.enter hpath hvisited (state.enter name manifest.version) rfl get?_addSkill
          have hdeps := dependencyNames_of_some hmanifest
          have hstart : Expanding resolver root path name [] (state.enter name manifest.version) :=
            ⟨hbuilt, ⟨∅, hget, by simp⟩, by simp⟩
          obtain ⟨herror, hok⟩ := hstart.loop
            (fun dep state => resolver.buildGraph fuel dep (path ++ [name]) state) hback
            (fun dep state hdep hstate => ih (by rw [hfuel, List.length_append, List.length_singleton]; omega)
              (hpath.extend hback hdep) hstate)
            manifest.dependencyNames (fun dep hdep => by rw [Requires, hdeps]; exact hdep)
          refine ⟨herror, fun after hafter => ?_⟩
          obtain ⟨hlast, hmore⟩ := hok after hafter
          rw [List.nil_append, ← hdeps] at hlast
          exact hleave hlast (hextends.trans hmore)

theorem built_start : Built resolver root [] ⟨.empty, .empty, ∅⟩ := by
  refine ⟨?_, ?_, ?_, ?_⟩
  · have hempty : {a | a ∈ (∅ : OrderedSet String)} = ∅ := by
      ext a
      simp
    exact hempty ▸ explored_start
  all_goals simp

theorem reachesCycle_of_buildGraph {error : CircularDependencyError}
    (hbuild : resolver.buildGraph resolver.fuel root [] ⟨.empty, .empty, ∅⟩ = .error error) :
    resolver.ReachesCycle root :=
  (buildGraph_outcome rfl pathTo_root built_start).error error hbuild

theorem built_of_buildGraph
    (hbuild : resolver.buildGraph resolver.fuel root [] ⟨.empty, .empty, ∅⟩ = .ok state) :
    Built resolver root [] state ∧ root ∈ state.visited := by
  obtain ⟨hbuilt, -, hin, -⟩ := (buildGraph_outcome rfl pathTo_root built_start).ok state hbuild
  exact ⟨hbuilt, hin⟩

/-! ### Looking for a cycle -/

structure Searching (resolver : DependencyResolver) (path : List String) (state : DfsState) : Prop where
  explored : Explored resolver.dependencyNames {a | a ∈ state.visited} path
  stack : state.stack.members = path
  path : state.path = path

structure Visited (resolver : DependencyResolver) (root node : String) (path : List String)
    (before : DfsState) (result : Bool × DfsState) : Prop where
  found : result.1 = true → resolver.ReachesCycle root
  left : result.1 = false → Searching resolver path result.2
    ∧ (∀ a ∈ before.visited, a ∈ result.2.visited) ∧ node ∈ result.2.visited

variable {node : String} {search : DfsState}

theorem Searching.push (h : Searching resolver path search) (hnew : node ∉ search.visited) :
    Searching resolver (path ++ [node]) (search.push node) where
  explored := by
    have hset : {a | a ∈ (search.push node).visited} = insert node {a | a ∈ search.visited} := by
      ext a
      simp [DfsState.push, or_comm]
    rw [hset]
    exact h.explored.enter hnew
  stack := by
    have hstack : node ∉ search.stack.members := by
      rw [h.stack]
      exact fun hmem => hnew (h.explored.onPath node hmem)
    have hadd : (search.stack.add node).members = search.stack.members ++ [node] := by
      rw [OrderedSet.add, dif_neg hstack]
    rw [DfsState.push, hadd, h.stack]
  path := by rw [DfsState.push, h.path]

theorem Searching.pop (h : Searching resolver (path ++ [node]) search) (hnew : node ∉ path)
    (hleft : ∀ b ∈ resolver.dependencyNames node, b ∈ search.visited ∧ b ∉ path ++ [node]) :
    Searching resolver path (search.pop node) where
  explored := h.explored.leave hleft
  stack := by
    have herase : (path ++ [node]).erase node = path := by
      rw [List.erase_append_right _ hnew, List.erase_cons_head, List.append_nil]
    rw [DfsState.pop, OrderedSet.delete]
    exact (congrArg (List.erase · node) h.stack).trans herase
  path := by rw [DfsState.pop, h.path, List.dropLast_concat]

/-- The loop over the dependencies that are left: those that are done have been left by the search. -/
theorem visitDependencies_spec {visit : String → DfsState → Bool × DfsState}
    (hpath : PathTo resolver.dependencyNames root path node) (hnew : node ∉ path)
    (hvisit : ∀ dep search, resolver.Requires node dep → dep ∉ search.visited →
      Searching resolver (path ++ [node]) search →
      Visited resolver root dep (path ++ [node]) search (visit dep search))
    (rest : List String) {done : List String} (h : Searching resolver (path ++ [node]) search)
    (hdone : ∀ b ∈ done, b ∈ search.visited ∧ b ∉ path ++ [node])
    (hrest : ∀ dep ∈ rest, resolver.Requires node dep) :
    ((visitDependencies visit rest search).1 = true → resolver.ReachesCycle root)
      ∧ ((visitDependencies visit rest search).1 = false →
        Searching resolver (path ++ [node]) (visitDependencies visit rest search).2
          ∧ (∀ a ∈ search.visited, a ∈ (visitDependencies visit rest search).2.visited)
          ∧ ∀ b ∈ done ++ rest,
            b ∈ (visitDependencies visit rest search).2.visited ∧ b ∉ path ++ [node]) := by
  induction rest generalizing search done with
  | nil =>
      rw [visitDependencies, List.append_nil]
      exact ⟨fun hfound => absurd hfound Bool.false_ne_true, fun _ => ⟨h, fun _ ha => ha, hdone⟩⟩
  | cons dep rest ih =>
      have hdep := hrest dep List.mem_cons_self
      have hrest' : ∀ b ∈ rest, resolver.Requires node b := fun b hb => hrest b (List.mem_cons_of_mem _ hb)
      have happend : done ++ dep :: rest = (done ++ [dep]) ++ rest := by simp
      rw [visitDependencies, happend]
      by_cases hseen : dep ∈ search.visited
      · rw [if_neg (not_not_intro hseen)]
        by_cases hstack : dep ∈ search.stack
        · rw [if_pos hstack]
          have hback : dep ∈ path ++ [node] := by
            rw [← h.stack]
            exact hstack
          exact ⟨fun _ => (hpath.extend hnew hdep).reachesCycle hback, fun hleft => absurd hleft.symm (by simp)⟩
        · rw [if_neg hstack]
          have hoff : dep ∉ path ++ [node] := by
            rw [← h.stack]
            exact hstack
          refine ih h (fun b hb => ?_) hrest'
          rcases List.mem_append.mp hb with hb | hb
          · exact hdone b hb
          · rw [List.mem_singleton.mp hb]
            exact ⟨hseen, hoff⟩
      · rw [if_pos hseen]
        have hvisited := hvisit dep search hdep hseen h
        have hoff : dep ∉ path ++ [node] := fun hmem => hseen (h.explored.onPath dep hmem)
        dsimp only
        cases hfound : (visit dep search).1 with
        | true => exact ⟨fun _ => hvisited.found hfound, fun hleft => absurd hleft.symm (by simp)⟩
        | false =>
            obtain ⟨hnext, hgrown, hin⟩ := hvisited.left hfound
            have hdone' : ∀ b ∈ done ++ [dep],
                b ∈ (visit dep search).2.visited ∧ b ∉ path ++ [node] := by
              intro b hb
              rcases List.mem_append.mp hb with hb | hb
              · exact ⟨hgrown b (hdone b hb).1, (hdone b hb).2⟩
              · rw [List.mem_singleton.mp hb]
                exact ⟨hin, hoff⟩
            obtain ⟨hcycle, hleft⟩ := ih hnext hdone' hrest'
            refine ⟨hcycle, fun hout => ?_⟩
            obtain ⟨hsearching, hmore, hall⟩ := hleft hout
            exact ⟨hsearching, fun a ha => hmore a (hgrown a ha), hall⟩

theorem dfs_visited {fuel : Nat} (hfuel : resolver.fuel = fuel + path.length)
    (hpath : PathTo resolver.dependencyNames root path node) (h : Searching resolver path search)
    (hnew : node ∉ search.visited) :
    Visited resolver root node path search (resolver.dfs fuel node search) := by
  induction fuel generalizing node path search with
  | zero => exact absurd rfl (fuel_ne_zero hpath hfuel)
  | succ fuel ih =>
      have hoff : node ∉ path := fun hmem => hnew (h.explored.onPath node hmem)
      obtain ⟨hcycle, hleft⟩ := visitDependencies_spec hpath hoff
        (fun dep search hdep hseen hsearch =>
          ih (by rw [hfuel, List.length_append, List.length_singleton]; omega) (hpath.extend hoff hdep)
            hsearch hseen)
        (resolver.dependencyNames node) (h.push hnew) (List.forall_mem_nil _) fun _ hdep => hdep
      rw [dfs]
      dsimp only
      cases hfound : (visitDependencies (resolver.dfs fuel) (resolver.dependencyNames node)
          (search.push node)).1 with
      | true => exact ⟨fun _ => hcycle hfound, fun hout => absurd hout.symm (by simp)⟩
      | false =>
          obtain ⟨hsearching, hgrown, hall⟩ := hleft hfound
          refine ⟨fun hout => absurd hout (by simp), fun _ => ⟨hsearching.pop hoff hall, ?_, ?_⟩⟩
          · exact fun a ha => hgrown a (OrderedSet.mem_add.mpr (Or.inl ha))
          · exact hgrown node (OrderedSet.mem_add.mpr (Or.inr rfl))

theorem isSome_detectCircular {root : String} :
    (resolver.detectCircular root).isSome ↔ resolver.ReachesCycle root := by
  have hstart : Searching resolver [] ⟨∅, ∅, []⟩ := by
    refine ⟨?_, rfl, rfl⟩
    have hempty : {a | a ∈ (∅ : OrderedSet String)} = ∅ := by
      ext a
      simp
    exact hempty ▸ explored_start
  have hvisited := dfs_visited rfl pathTo_root hstart (OrderedSet.notMem_empty root)
  rw [detectCircular]
  dsimp only
  cases hfound : (resolver.dfs resolver.fuel root ⟨∅, ∅, []⟩).1 with
  | true => simpa using hvisited.found hfound
  | false =>
      obtain ⟨hsearching, -, hin⟩ := hvisited.left hfound
      have hnone : ¬ resolver.ReachesCycle root := hsearching.explored.not_reachesCycle hin
      simpa using hnone

end Deckent.SkillDependencies.DependencyResolver
