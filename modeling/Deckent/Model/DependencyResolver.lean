import Deckent.Lib.OrderedMap

/-!
# The dependency resolver of the skill marketplace

A skill's manifest names the skills it depends on. It comes from the registry, or else from the file under the
skills directory. `resolve` builds the graph of what a skill needs and sorts it with Kahn's algorithm;
`detectCircular` looks for a cycle on its own.

The recursions carry fuel. Their paths hold the root and names of dependencies only, and none of them twice.
-/

namespace Deckent.SkillDependencies

/-- `dependencies` lists its members in the order of `Object.keys`. -/
structure SkillManifestDeps where
  version : String
  dependencies : Option (OrderedMap String String)

def SkillManifestDeps.dependencyNames (manifest : SkillManifestDeps) : List String :=
  (manifest.dependencies.getD .empty).keys

structure ResolvedDependency where
  name : String
  version : String
  deriving DecidableEq

structure ResolveResult where
  ordered : List ResolvedDependency
  resolved : OrderedMap String String

structure CircularDependencyError where
  cycle : List String
  deriving DecidableEq

def CircularDependencyError.message (error : CircularDependencyError) : String :=
  "Circular dependency detected: " ++ String.intercalate " -> " error.cycle

/-- `manifestPath` is `join(skillsDir, skillName, 'manifest.json')`, which may be the same for several names.
A file that cannot be read or parsed holds nothing. -/
structure DependencyResolver where
  registryLookup : OrderedMap String SkillManifestDeps
  manifestPath : String → String
  files : OrderedMap String (Option SkillManifestDeps)

/-! ### Kahn's algorithm -/

abbrev DependencyGraph := OrderedMap String (OrderedSet String)

abbrev InDegree := OrderedMap String Int

def addNode (inDegree : InDegree) (node : String) : InDegree :=
  if inDegree.contains node then inDegree else inDegree.set node 0

def countDependency (inDegree : InDegree) (dep : String) : InDegree :=
  (addNode inDegree dep).upsert dep fun degree => degree.getD 0 + 1

def inDegreeOf (graph : DependencyGraph) : InDegree :=
  graph.values.foldl (fun inDegree deps => deps.members.foldl countDependency inDegree)
    (graph.keys.foldl addNode .empty)

structure SortState where
  inDegree : InDegree
  queue : List String
  result : List String

def releaseDependency (state : SortState) (dep : String) : SortState :=
  let newDegree := (state.inDegree.get? dep).getD 0 - 1
  { state with
    inDegree := state.inDegree.set dep newDegree
    queue := if newDegree = 0 then state.queue ++ [dep] else state.queue }

/-- `while (queue.length > 0)`. -/
def sortLoop (graph : DependencyGraph) : Nat → SortState → SortState
  | 0, state => state
  | fuel + 1, state =>
      match state.queue with
      | [] => state
      | node :: queue =>
          let taken := { state with queue, result := state.result ++ [node] }
          match graph.get? node with
          | some deps => sortLoop graph fuel (deps.members.foldl releaseDependency taken)
          | none => sortLoop graph fuel taken

def topologicalSort (graph : DependencyGraph) : List String :=
  let inDegree := inDegreeOf graph
  let queue := inDegree.keys.filter fun node => inDegree.get? node = some 0
  (sortLoop graph inDegree.keys.length { inDegree, queue, result := [] }).result.reverse

namespace DependencyResolver

variable (resolver : DependencyResolver)

def getManifest (skillName : String) : Option SkillManifestDeps :=
  if resolver.registryLookup.contains skillName then resolver.registryLookup.get? skillName
  else (resolver.files.get? (resolver.manifestPath skillName)).getD none

def dependencyNames (skillName : String) : List String :=
  ((resolver.getManifest skillName).map (·.dependencyNames)).getD []

def names : List String :=
  resolver.registryLookup.values.flatMap (·.dependencyNames)
    ++ (resolver.files.values.filterMap id).flatMap (·.dependencyNames)

/-! ### The graph of a skill -/

structure BuildState where
  graph : DependencyGraph
  versions : OrderedMap String String
  visited : OrderedSet String

namespace BuildState

def addSkill (state : BuildState) (skillName : String) : BuildState :=
  { state with
    graph := if state.graph.contains skillName then state.graph else state.graph.set skillName ∅ }

def enter (state : BuildState) (skillName version : String) : BuildState :=
  { state with
    visited := state.visited.add skillName
    versions := state.versions.set skillName version }.addSkill skillName

def enterUnknown (state : BuildState) (skillName : String) : BuildState :=
  { state with
    visited := state.visited.add skillName
    versions := if state.versions.contains skillName then state.versions
      else state.versions.set skillName "unknown" }.addSkill skillName

def addEdge (state : BuildState) (skillName depName : String) : BuildState :=
  match state.graph.get? skillName with
  | some edges => { state with graph := state.graph.set skillName (edges.add depName) }
  | none => state

end BuildState

def buildGraph : Nat → String → List String → BuildState → Except CircularDependencyError BuildState
  | 0, _, _, state => .ok state
  | fuel + 1, skillName, ancestors, state =>
      if skillName ∈ ancestors then .error ⟨ancestors ++ [skillName]⟩
      else if skillName ∈ state.visited then .ok state
      else
        match resolver.getManifest skillName with
        | none => .ok (state.enterUnknown skillName)
        | some manifest =>
            manifest.dependencyNames.foldlM
              (fun state depName =>
                buildGraph fuel depName (ancestors ++ [skillName]) (state.addEdge skillName depName))
              (state.enter skillName manifest.version)

def fuel : Nat := resolver.names.length + 2

def resolve (skillName : String) : Except CircularDependencyError ResolveResult := do
  let state ← resolver.buildGraph resolver.fuel skillName [] ⟨.empty, .empty, ∅⟩
  let ordered := topologicalSort state.graph
  return {
    ordered := ordered.map fun name => ⟨name, (state.versions.get? name).getD "unknown"⟩
    resolved := state.versions }

/-! ### Looking for a cycle -/

structure DfsState where
  visited : OrderedSet String
  stack : OrderedSet String
  path : List String

namespace DfsState

def push (state : DfsState) (node : String) : DfsState where
  visited := state.visited.add node
  stack := state.stack.add node
  path := state.path ++ [node]

def pop (state : DfsState) (node : String) : DfsState :=
  { state with stack := state.stack.delete node, path := state.path.dropLast }

end DfsState

def visitDependencies (visit : String → DfsState → Bool × DfsState) :
    List String → DfsState → Bool × DfsState
  | [], state => (false, state)
  | dep :: rest, state =>
      if dep ∉ state.visited then
        let (found, state) := visit dep state
        if found then (true, state) else visitDependencies visit rest state
      else if dep ∈ state.stack then (true, { state with path := state.path ++ [dep] })
      else visitDependencies visit rest state

def dfs : Nat → String → DfsState → Bool × DfsState
  | 0, _, state => (false, state)
  | fuel + 1, node, state =>
      let (found, state) := visitDependencies (dfs fuel) (resolver.dependencyNames node) (state.push node)
      if found then (true, state) else (false, state.pop node)

def detectCircular (skillName : String) : Option (List String) :=
  let (hasCycle, state) := resolver.dfs resolver.fuel skillName ⟨∅, ∅, []⟩
  if hasCycle then some state.path else none

end DependencyResolver

end Deckent.SkillDependencies
