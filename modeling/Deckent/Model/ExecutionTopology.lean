import Deckent.Lib.Digraph
import Deckent.Lib.OrderedMap
import Deckent.Lib.OrderedSet
import Deckent.Model.Task

/-!
# Execution topology

`deriveExecutionTopology` numbers the tasks of a plan by slot (from one), resolves their declared
dependencies to authored edges, finds the tasks that write the same portable path, orders the writers
of each such path by the authored topological order with synthetic edges, and cuts the resulting graph
into waves of at most `maxWorkers` slots.

An edge key is the pair of its two slots: the text `from:to` determines both.
-/

namespace Deckent.ExecutionTopology

inductive FindingCode where
  | duplicateTaskId
  | invalidWriterPath
  | unresolvedDependency
  | selfDependency
  | dependencyCycle
  | undeclaredWriterCollision
  deriving DecidableEq

def FindingCode.text : FindingCode → String
  | duplicateTaskId => "duplicate-task-id"
  | invalidWriterPath => "invalid-writer-path"
  | unresolvedDependency => "unresolved-dependency"
  | selfDependency => "self-dependency"
  | dependencyCycle => "dependency-cycle"
  | undeclaredWriterCollision => "undeclared-writer-collision"

/-- A finding; its severity is always `block`. -/
structure Finding where
  code : FindingCode
  slots : List Nat
  path : Option String := none
  ref : Option String := none
  deriving DecidableEq

inductive EdgeSource where
  | authored
  | collision
  deriving DecidableEq

/-- The dependent slot `toSlot` waits for the prerequisite slot `fromSlot`. -/
structure Edge where
  fromSlot : Nat
  toSlot : Nat
  source : EdgeSource
  paths : Option (List String) := none
  deriving DecidableEq

structure Collision where
  path : String
  key : String
  writerSlots : List Nat
  declared : Bool
  deriving DecidableEq

structure Wave where
  wave : Nat
  slots : List Nat
  deriving DecidableEq

inductive Verdict where
  | pass
  | block
  deriving DecidableEq

structure Topology where
  configuredMaxWorkers : Nat
  effectiveConcurrency : Nat
  taskSlots : List Nat
  collisions : List Collision
  authoredEdges : List Edge
  syntheticEdges : List Edge
  effectiveEdges : List Edge
  waves : List Wave
  findings : List Finding
  verdict : Verdict
  deriving DecidableEq

/-! ### Portable writer paths -/

structure PortableWriterPath where
  path : String
  collisionKey : String
  deriving DecidableEq

/-- Keep ordinary segments, drop empty ones and `.`, let `..` remove the segment before it. -/
def normalizeSegments : List (List Char) → List (List Char) → Option (List (List Char))
  | segments, [] => some segments
  | segments, segment :: rest =>
      if segment = [] ∨ segment = ['.'] then normalizeSegments segments rest
      else if segment = ['.', '.'] then
        if segments = [] then none else normalizeSegments segments.dropLast rest
      else if Char.ofNat 0 ∈ segment ∨ ':' ∈ segment then none
      else normalizeSegments (segments ++ [segment]) rest

def hasDrivePrefix : List Char → Bool
  | letter :: ':' :: rest => letter.isAlpha && (rest.isEmpty || rest.head? = some '/')
  | _ => false

def normalizePortableWriterPath (tables : UnicodeTables) (raw : String) :
    Option PortableWriterPath :=
  let input := (tables.nfc (trim raw)).toList.map fun c => if c = '\\' then '/' else c
  if input.isEmpty || input.head? = some '/' || hasDrivePrefix input then none
  else
    match normalizeSegments [] (input.splitOn '/') with
    | none => none
    | some [] => none
    | some segments =>
        let path := String.ofList (List.intercalate ['/'] segments)
        some { path := path, collisionKey := tables.toLowerCase path }

/-! ### Declared dependencies -/

def slotTable (key : Task → String) (tasks : List Task) : OrderedMap String (List Nat) :=
  OrderedMap.groupBy (fun entry : Task × Nat => key entry.1) Prod.snd (tasks.zipIdx 1)

def uniqueSlot (table : OrderedMap String (List Nat)) (ref : String) : Option Nat :=
  match table.get? ref with
  | some [slot] => some slot
  | _ => none

structure DependencyScan where
  seen : OrderedSet (Nat × Nat)
  edges : List Edge
  findings : List Finding

def resolveRef (idToSlots titleToSlots : OrderedMap String (List Nat)) (toSlot : Nat)
    (scan : DependencyScan) (rawRef : String) : DependencyScan :=
  let ref := trim rawRef
  match (uniqueSlot idToSlots ref).or (uniqueSlot titleToSlots ref) with
  | none =>
      { scan with findings := scan.findings
          ++ [{ code := .unresolvedDependency, slots := [toSlot], ref := some ref }] }
  | some fromSlot =>
      if fromSlot = toSlot then
        { scan with findings := scan.findings
            ++ [{ code := .selfDependency, slots := [toSlot], ref := some ref }] }
      else if (fromSlot, toSlot) ∈ scan.seen then scan
      else
        { scan with
          seen := scan.seen.add (fromSlot, toSlot)
          edges := scan.edges ++ [{ fromSlot := fromSlot, toSlot := toSlot, source := .authored }] }

def compareEdges (a b : Edge) : Int :=
  thenBy (compareNumber a.fromSlot b.fromSlot) (compareNumber a.toSlot b.toSlot)

def resolveDependencySlots (tasks : List Task) : List Edge × List Finding :=
  let idToSlots := slotTable Task.id tasks
  let titleToSlots := slotTable Task.title tasks
  let duplicates := (idToSlots.values.filter fun slots => slots.length > 1).map fun slots =>
    { code := .duplicateTaskId, slots := sortBy compareNumber slots }
  let scan := (tasks.zipIdx 1).foldl
    (fun scan entry => (entry.1.dependencies.getD []).foldl
      (resolveRef idToSlots titleToSlots entry.2) scan)
    { seen := ∅, edges := [], findings := duplicates }
  (sortBy compareEdges scan.edges, scan.findings)

/-! ### Reachability, topological order and waves -/

structure Adjacency where
  outgoing : Nat → OrderedSet Nat
  incoming : Nat → Int

def Adjacency.addEdge (adjacency : Adjacency) (edge : Edge) : Adjacency :=
  if edge.toSlot ∈ adjacency.outgoing edge.fromSlot then adjacency
  else
    { outgoing := Function.update adjacency.outgoing edge.fromSlot
        ((adjacency.outgoing edge.fromSlot).add edge.toSlot)
      incoming := Function.update adjacency.incoming edge.toSlot
        (adjacency.incoming edge.toSlot + 1) }

def adjacencyOf (edges : List Edge) : Adjacency :=
  edges.foldl Adjacency.addEdge { outgoing := fun _ => ∅, incoming := fun _ => 0 }

def buildReachability (edges : List Edge) (slot : Nat) : Finset Nat :=
  let outgoing := (adjacencyOf edges).outgoing
  search (fun a => (outgoing a).members) (2 * edges.length)
    (sortBy compareNumber (outgoing slot).members) ∅

def slotsOf (taskCount : Nat) : List Nat := List.range' 1 taskCount

def releaseOne (state : (Nat → Int) × List Nat) (dependent : Nat) : (Nat → Int) × List Nat :=
  let incoming := Function.update state.1 dependent (state.1 dependent - 1)
  (incoming, if incoming dependent = 0 then state.2 ++ [dependent] else state.2)

structure OrderState where
  incoming : Nat → Int
  ready : List Nat
  order : List Nat

def orderLoop (outgoing : Nat → OrderedSet Nat) : Nat → OrderState → OrderState
  | 0, state => state
  | fuel + 1, state =>
      match sortBy compareNumber state.ready with
      | [] => state
      | slot :: ready =>
          let released := (sortBy compareNumber (outgoing slot).members).foldl releaseOne
            (state.incoming, ready)
          orderLoop outgoing fuel
            { incoming := released.1, ready := released.2, order := state.order ++ [slot] }

def topologicalOrder (taskCount : Nat) (edges : List Edge) : List Nat × List Nat :=
  let adjacency := adjacencyOf edges
  let final := orderLoop adjacency.outgoing taskCount
    { incoming := adjacency.incoming
      ready := (slotsOf taskCount).filter fun slot => adjacency.incoming slot = 0
      order := [] }
  (final.order, (slotsOf taskCount).filter fun slot => slot ∉ final.order)

/-- `ready.slice(offset, offset + maxWorkers)` for `offset = 0, maxWorkers, …`. -/
def chunks (maxWorkers : Nat) : Nat → List Nat → List (List Nat)
  | 0, _ => []
  | _ + 1, [] => []
  | fuel + 1, ready => ready.take maxWorkers :: chunks maxWorkers fuel (ready.drop maxWorkers)

structure WaveState where
  incoming : Nat → Int
  resolved : OrderedSet Nat
  waves : List Wave

def pushWave (waves : List Wave) (slots : List Nat) : List Wave :=
  waves ++ [{ wave := waves.length + 1, slots := slots }]

def resolveSlot (outgoing : Nat → OrderedSet Nat) (state : (Nat → Int) × OrderedSet Nat)
    (slot : Nat) : (Nat → Int) × OrderedSet Nat :=
  ((outgoing slot).members.foldl
      (fun incoming dependent => Function.update incoming dependent (incoming dependent - 1)) state.1,
    state.2.add slot)

def waveLoop (taskCount maxWorkers : Nat) (outgoing : Nat → OrderedSet Nat) :
    Nat → WaveState → WaveState
  | 0, state => state
  | fuel + 1, state =>
      if state.resolved.size < taskCount then
        let ready := (slotsOf taskCount).filter fun slot =>
          slot ∉ state.resolved ∧ state.incoming slot = 0
        if ready = [] then state
        else
          let sorted := sortBy compareNumber ready
          let resolved := sorted.foldl (resolveSlot outgoing) (state.incoming, state.resolved)
          waveLoop taskCount maxWorkers outgoing fuel
            { incoming := resolved.1
              resolved := resolved.2
              waves := (chunks maxWorkers sorted.length sorted).foldl pushWave state.waves }
      else state

def buildWaves (taskCount : Nat) (edges : List Edge) (maxWorkers : Nat) : List Wave :=
  let adjacency := adjacencyOf edges
  (waveLoop taskCount maxWorkers adjacency.outgoing taskCount
    { incoming := adjacency.incoming, resolved := ∅, waves := [] }).waves

/-! ### Writer collisions -/

structure WriterEntry where
  path : String
  slots : OrderedSet Nat

structure WriterScan where
  writers : OrderedMap String WriterEntry
  findings : List Finding

def recordWriter (tables : UnicodeTables) (slot : Nat) (scan : WriterScan) (rawPath : String) :
    WriterScan :=
  match normalizePortableWriterPath tables rawPath with
  | none =>
      { scan with findings := scan.findings
          ++ [{ code := .invalidWriterPath, slots := [slot], path := some rawPath }] }
  | some normalized =>
      { scan with
        writers := scan.writers.upsert normalized.collisionKey fun existing =>
          let current := existing.getD { path := normalized.path, slots := ∅ }
          { path := if compareCodePoint normalized.path current.path < 0 then normalized.path
              else current.path
            slots := current.slots.add slot } }

def scanWriters (tables : UnicodeTables) (tasks : List Task) : WriterScan :=
  (tasks.zipIdx 1).foldl
    (fun scan entry => ((entry.1.scope.bind TaskScope.filesWrite).getD []).foldl
      (recordWriter tables entry.2) scan)
    { writers := OrderedMap.empty, findings := [] }

def orderIndex (order : List Nat) (slot : Nat) : Nat :=
  if slot ∈ order then order.idxOf slot else slot

def compareWriters (order : List Nat) (a b : Nat) : Int :=
  thenBy (compareNumber (orderIndex order a) (orderIndex order b)) (compareNumber a b)

structure CollisionScan where
  syntheticByKey : OrderedMap (Nat × Nat) (OrderedSet String)
  collisions : List Collision
  findings : List Finding

def addSynthetic (reachability : Nat → Finset Nat) (path : String)
    (synthetic : OrderedMap (Nat × Nat) (OrderedSet String)) (pair : Nat × Nat) :
    OrderedMap (Nat × Nat) (OrderedSet String) :=
  if pair.2 ∈ reachability pair.1 then synthetic
  else synthetic.upsert pair fun paths => (paths.getD ∅).add path

def recordCollision (reachability : Nat → Finset Nat) (order : List Nat) (scan : CollisionScan)
    (entry : String × WriterEntry) : CollisionScan :=
  if entry.2.slots.size < 2 then scan
  else
    let writerSlots := sortBy (compareWriters order) entry.2.slots.members
    let declared := decide (writerSlots.Pairwise fun a b =>
      b ∈ reachability a ∨ a ∈ reachability b)
    { syntheticByKey := (writerSlots.zip writerSlots.tail).foldl
        (addSynthetic reachability entry.2.path) scan.syntheticByKey
      collisions := scan.collisions
        ++ [{ path := entry.2.path, key := entry.1, writerSlots := writerSlots, declared := declared }]
      findings := if declared then scan.findings
        else scan.findings ++ [{ code := .undeclaredWriterCollision
                                 slots := writerSlots
                                 path := some entry.2.path }] }

/-! ### The topology -/

def configuredMaxWorkers : JsNumber → Nat
  | .finite value => (max 1 ⌊value⌋).toNat
  | _ => 1

def mergeEdge (effective : OrderedMap (Nat × Nat) Edge) (edge : Edge) :
    OrderedMap (Nat × Nat) Edge :=
  match effective.get? (edge.fromSlot, edge.toSlot) with
  | none => effective.set (edge.fromSlot, edge.toSlot) edge
  | some existing =>
      if existing.source = .collision then effective.set (edge.fromSlot, edge.toSlot) edge
      else effective

def syntheticEdgeOf (entry : (Nat × Nat) × OrderedSet String) : Edge :=
  { fromSlot := entry.1.1, toSlot := entry.1.2, source := .collision
    paths := some (sortBy compareCodePoint entry.2.members) }

def compareFindings (a b : Finding) : Int :=
  thenBy (compareCodePoint a.code.text b.code.text)
    (thenBy (compareNumber (a.slots.head?.getD 0) (b.slots.head?.getD 0))
      (thenBy (compareCodePoint (a.path.getD "") (b.path.getD ""))
        (compareCodePoint (a.ref.getD "") (b.ref.getD ""))))

def cycleFinding (cycleSlots : List Nat) : List Finding :=
  if cycleSlots = [] then [] else [{ code := .dependencyCycle, slots := cycleSlots }]

def deriveExecutionTopology (tables : UnicodeTables) (tasks : List Task) (maxWorkers : JsNumber) :
    Topology :=
  let configured := configuredMaxWorkers maxWorkers
  let dependency := resolveDependencySlots tasks
  let authoredReachability := buildReachability dependency.1
  let authoredOrder := topologicalOrder tasks.length dependency.1
  let scan := scanWriters tables tasks
  let sortedWriters := sortBy (fun a b => compareCodePoint a.1 b.1) scan.writers.entries
  let collision := sortedWriters.foldl (recordCollision authoredReachability authoredOrder.1)
    { syntheticByKey := OrderedMap.empty, collisions := [], findings := [] }
  let syntheticEdges := sortBy compareEdges (collision.syntheticByKey.entries.map syntheticEdgeOf)
  let effectiveEdges := sortBy compareEdges
    ((dependency.1 ++ syntheticEdges).foldl mergeEdge OrderedMap.empty).values
  let effectiveOrder := topologicalOrder tasks.length effectiveEdges
  let waves := buildWaves tasks.length effectiveEdges configured
  let findings := sortBy compareFindings
    (dependency.2 ++ cycleFinding authoredOrder.2 ++ scan.findings ++ collision.findings
      ++ if authoredOrder.2 = [] then cycleFinding effectiveOrder.2 else [])
  { configuredMaxWorkers := configured
    effectiveConcurrency := waves.foldl (fun most wave => max most wave.slots.length) 0
    taskSlots := slotsOf tasks.length
    collisions := collision.collisions
    authoredEdges := dependency.1
    syntheticEdges := syntheticEdges
    effectiveEdges := effectiveEdges
    waves := waves
    findings := findings
    verdict := if findings = [] then .pass else .block }

end Deckent.ExecutionTopology
