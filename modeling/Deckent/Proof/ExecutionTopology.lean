import Deckent.Proof.Waves
import Deckent.Proof.WriterOrder

/-!
# The derived topology

When the authored edges are acyclic, the position in the authored order rises along every authored edge
and along every synthetic edge, so the effective edges are acyclic too. The effective order then finds
no cycle, the waves hold every slot once, and two writers of one path, being joined by a path of
effective edges, are never in one wave.
-/

namespace Deckent.ExecutionTopology

open Relation

section Parts

variable (tables : UnicodeTables) (tasks : List Task)

def authored : List Edge := (resolveDependencySlots tasks).1

def authoredOrder : List Nat := (topologicalOrder tasks.length (authored tasks)).1

def sortedWriters : List (String × WriterEntry) :=
  sortBy (fun a b => compareCodePoint a.1 b.1) (scanWriters tables tasks).writers.entries

def collisionScan : CollisionScan :=
  (sortedWriters tables tasks).foldl
    (recordCollision (buildReachability (authored tasks)) (authoredOrder tasks))
    { syntheticByKey := OrderedMap.empty, collisions := [], findings := [] }

def synthetic : List Edge :=
  sortBy compareEdges ((collisionScan tables tasks).syntheticByKey.entries.map syntheticEdgeOf)

def effective : List Edge :=
  sortBy compareEdges ((authored tasks ++ synthetic tables tasks).foldl mergeEdge OrderedMap.empty).values

theorem collisions_eq (maxWorkers : JsNumber) :
    (deriveExecutionTopology tables tasks maxWorkers).collisions
      = (collisionScan tables tasks).collisions := rfl

theorem effectiveEdges_eq (maxWorkers : JsNumber) :
    (deriveExecutionTopology tables tasks maxWorkers).effectiveEdges = effective tables tasks := rfl

theorem waves_eq (maxWorkers : JsNumber) :
    (deriveExecutionTopology tables tasks maxWorkers).waves
      = buildWaves tasks.length (effective tables tasks) (configuredMaxWorkers maxWorkers) := rfl

end Parts

variable {tables : UnicodeTables} {tasks : List Task}

theorem mem_sortedWriters {key : String} {entry : WriterEntry} :
    (key, entry) ∈ sortedWriters tables tasks
      ↔ (scanWriters tables tasks).writers.get? key = some entry := by
  rw [sortedWriters, mem_sortBy, OrderedMap.mem_entries_iff]

theorem mem_writerSlots {order : List Nat} {entry : WriterEntry} {slot : Nat} :
    slot ∈ writerSlots order entry ↔ slot ∈ entry.slots :=
  mem_sortBy

theorem collisionsOf_scan : CollisionsOf (buildReachability (authored tasks)) (authoredOrder tasks)
    (sortedWriters tables tasks) (collisionScan tables tasks) :=
  collisionsOf_foldl _

theorem edgeRel_synthetic {a b : Nat} :
    edgeRel (synthetic tables tasks) a b
      ↔ IsUnordered (buildReachability (authored tasks)) (authoredOrder tasks)
        (sortedWriters tables tasks) (a, b) := by
  rw [← collisionsOf_scan.keyed]
  simp only [edgeRel, synthetic, mem_sortBy, List.mem_map, Keyed]
  constructor
  · rintro ⟨_, ⟨⟨⟨c, d⟩, paths⟩, hentry, rfl⟩, hfrom, hto⟩
    obtain rfl : c = a := hfrom
    obtain rfl : d = b := hto
    exact ⟨paths, (OrderedMap.mem_entries_iff _).mp hentry⟩
  · rintro ⟨paths, hpaths⟩
    exact ⟨_, ⟨((a, b), paths), (OrderedMap.mem_entries_iff _).mpr hpaths, rfl⟩, rfl, rfl⟩

theorem edgeRel_effective {a b : Nat} :
    edgeRel (effective tables tasks) a b
      ↔ edgeRel (authored tasks) a b ∨ edgeRel (synthetic tables tasks) a b := by
  rw [effective, edgeRel_merged]
  simp only [edgeRel, List.mem_append, or_and_right, exists_or]

theorem writer_mem_slotsOf {key : String} {entry : WriterEntry} {slot : Nat}
    (hentry : (key, entry) ∈ sortedWriters tables tasks) (hslot : slot ∈ entry.slots) :
    slot ∈ slotsOf tasks.length := by
  have hwrites : WritesKey tables tasks key slot :=
    recorded_scanWriters.mp ⟨entry, mem_sortedWriters.mp hentry, hslot⟩
  obtain ⟨task, htask, -⟩ := hwrites
  exact slot_mem_slotsOf htask

variable (tables) in
theorem effective_within : EdgesWithin tasks.length (effective tables tasks) := by
  intro edge hedge
  have hrel : edgeRel (effective tables tasks) edge.fromSlot edge.toSlot := ⟨edge, hedge, rfl, rfl⟩
  rcases edgeRel_effective.mp hrel with ⟨old, hold, hfrom, hto⟩ | hsynthetic
  · rw [← hfrom, ← hto]
    exact authoredEdges_within tasks old hold
  · obtain ⟨entry, hentry, -, hpair, -⟩ := edgeRel_synthetic.mp hsynthetic
    obtain ⟨hfirst, hsecond⟩ := List.of_mem_zip hpair
    exact ⟨writer_mem_slotsOf hentry (mem_writerSlots.mp hfirst),
      writer_mem_slotsOf hentry (mem_writerSlots.mp (List.mem_of_mem_tail hsecond))⟩

section Acyclic

variable (hacyclic : Acyclic (edgeRel (authored tasks)))

include hacyclic

theorem orderIndex_lt_of_neighbours {key : String} {entry : WriterEntry} {pair : Nat × Nat}
    (hentry : (key, entry) ∈ sortedWriters tables tasks)
    (hpair : pair ∈ (writerSlots (authoredOrder tasks) entry).zip
      (writerSlots (authoredOrder tasks) entry).tail) :
    orderIndex (authoredOrder tasks) pair.1 < orderIndex (authoredOrder tasks) pair.2 := by
  have hordered : ∀ slot ∈ writerSlots (authoredOrder tasks) entry, slot ∈ authoredOrder tasks :=
    fun slot hslot => mem_topologicalOrder (authoredEdges_within tasks) hacyclic
      (writer_mem_slotsOf hentry (mem_writerSlots.mp hslot))
  have hnodup : (writerSlots (authoredOrder tasks) entry).Nodup :=
    nodup_sortBy.mpr entry.slots.nodup
  have hsorted := (consistent_compareWriters (authoredOrder tasks)).pairwise_sortBy
    entry.slots.members
  have hchain := (hnodup.and hsorted).isChain
  obtain ⟨hne, hle⟩ := isChain_iff_forall_mem_zip_tail.mp hchain pair hpair
  obtain ⟨hfirst, hsecond⟩ := List.of_mem_zip hpair
  have hfirstOrder := hordered _ hfirst
  have hsecondOrder := hordered _ (List.mem_of_mem_tail hsecond)
  have hindex : orderIndex (authoredOrder tasks) pair.1 ≠ orderIndex (authoredOrder tasks) pair.2 := by
    rw [orderIndex, orderIndex, if_pos hfirstOrder, if_pos hsecondOrder]
    exact fun heq => hne ((List.idxOf_inj hfirstOrder).mp heq)
  simp only [compareWriters, thenBy_nonpos, compareNumber] at hle
  omega

theorem orderIndex_lt_of_effective {a b : Nat} (hedge : edgeRel (effective tables tasks) a b) :
    orderIndex (authoredOrder tasks) a < orderIndex (authoredOrder tasks) b := by
  rcases edgeRel_effective.mp hedge with hauthored | hsynthetic
  · exact orderIndex_lt (authoredEdges_within tasks) hacyclic hauthored
  · obtain ⟨entry, hentry, -, hpair, -⟩ := edgeRel_synthetic.mp hsynthetic
    exact orderIndex_lt_of_neighbours hacyclic hentry hpair

theorem effective_acyclic : Acyclic (edgeRel (effective tables tasks)) :=
  acyclic_of_rank (orderIndex (authoredOrder tasks)) fun _ _ hedge =>
    orderIndex_lt_of_effective hacyclic hedge

theorem ordered_iff_neighbours {key : String} {entry : WriterEntry}
    (hentry : (key, entry) ∈ sortedWriters tables tasks) :
    Ordered (buildReachability (authored tasks)) (writerSlots (authoredOrder tasks) entry)
      ↔ ∀ pair ∈ (writerSlots (authoredOrder tasks) entry).zip
          (writerSlots (authoredOrder tasks) entry).tail,
        pair.2 ∈ buildReachability (authored tasks) pair.1 := by
  constructor
  · intro hordered pair hpair
    have hchain := List.Pairwise.isChain hordered
    rcases isChain_iff_forall_mem_zip_tail.mp hchain pair hpair with hforward | hbackward
    · exact hforward
    · have hrise := orderIndex_lt_of_neighbours hacyclic hentry hpair
      have hfall := rank_lt_of_transGen
        (fun _ _ hedge => orderIndex_lt (authoredEdges_within tasks) hacyclic hedge)
        (mem_buildReachability.mp hbackward)
      exact absurd (hrise.trans hfall) (lt_irrefl _)
  · intro hneighbours
    have hchain : (writerSlots (authoredOrder tasks) entry).IsChain
        (TransGen (edgeRel (authored tasks))) :=
      isChain_iff_forall_mem_zip_tail.mpr fun pair hpair =>
        mem_buildReachability.mp (hneighbours pair hpair)
    exact (List.isChain_iff_pairwise.mp hchain).imp fun h => Or.inl (mem_buildReachability.mpr h)

theorem synthetic_eq_nil_iff :
    synthetic tables tasks = []
      ↔ ∀ collision ∈ (collisionScan tables tasks).collisions, collision.declared = true := by
  constructor
  · intro hempty collision hcollision
    obtain ⟨⟨key, entry⟩, hentry, hsize, -, -, hslots, hdeclared⟩ :=
      collisionsOf_scan.sound collision hcollision
    rw [hdeclared, hslots, ordered_iff_neighbours hacyclic hentry]
    intro pair hpair
    by_contra hout
    obtain ⟨edge, hedge, -⟩ : edgeRel (synthetic tables tasks) pair.1 pair.2 :=
      edgeRel_synthetic.mpr ⟨(key, entry), hentry, hsize, hpair, hout⟩
    rw [hempty] at hedge
    exact List.not_mem_nil hedge
  · intro hall
    refine List.eq_nil_iff_forall_not_mem.mpr fun edge hedge => ?_
    obtain ⟨⟨key, entry⟩, hentry, hsize, hpair, hout⟩ :=
      edgeRel_synthetic.mp ⟨edge, hedge, rfl, rfl⟩
    obtain ⟨collision, hcollision, hslots, hdeclared⟩ :=
      collisionsOf_scan.complete (key, entry) hentry hsize
    have hordered := hdeclared.mp (hall collision hcollision)
    rw [hslots, ordered_iff_neighbours hacyclic hentry] at hordered
    exact hout (hordered _ hpair)

end Acyclic

theorem writers_pairwise {key : String} {entry : WriterEntry}
    (hentry : (key, entry) ∈ sortedWriters tables tasks) (hsize : 2 ≤ entry.slots.size) :
    (writerSlots (authoredOrder tasks) entry).Pairwise
      (TransGen (edgeRel (effective tables tasks))) := by
  refine List.isChain_iff_pairwise.mp (isChain_iff_forall_mem_zip_tail.mpr fun pair hpair => ?_)
  by_cases hreach : pair.2 ∈ buildReachability (authored tasks) pair.1
  · exact TransGen.mono (fun a b hedge => edgeRel_effective.mpr (Or.inl hedge)) _ _
      (mem_buildReachability.mp hreach)
  · refine TransGen.single (edgeRel_effective.mpr (Or.inr ?_))
    exact edgeRel_synthetic.mpr ⟨(key, entry), hentry, hsize, hpair, hreach⟩

theorem writers_comparable {key : String} {a b : Nat} (ha : WritesKey tables tasks key a)
    (hb : WritesKey tables tasks key b) (hne : a ≠ b) :
    TransGen (edgeRel (effective tables tasks)) a b
      ∨ TransGen (edgeRel (effective tables tasks)) b a := by
  obtain ⟨entry, hentry, hina⟩ := recorded_scanWriters.mpr ha
  obtain ⟨entry', hentry', hinb⟩ := recorded_scanWriters.mpr hb
  obtain rfl : entry = entry' := Option.some.inj (hentry.symm.trans hentry')
  have hsize : 2 ≤ entry.slots.size := by
    have hpair : [a, b].Subperm entry.slots.members :=
      List.subperm_of_subset (by simp [hne]) (by simpa using ⟨hina, hinb⟩)
    exact hpair.length_le
  have hsymm : Std.Symm fun x y => TransGen (edgeRel (effective tables tasks)) x y
      ∨ TransGen (edgeRel (effective tables tasks)) y x := ⟨fun _ _ => Or.symm⟩
  have hcomparable : (writerSlots (authoredOrder tasks) entry).Pairwise fun x y =>
      TransGen (edgeRel (effective tables tasks)) x y
        ∨ TransGen (edgeRel (effective tables tasks)) y x :=
    (writers_pairwise (mem_sortedWriters.mpr hentry) hsize).imp Or.inl
  exact hcomparable.forall (mem_writerSlots.mpr hina) (mem_writerSlots.mpr hinb) hne

/-! ### The findings -/

theorem resolveDependencySlots_findings (tasks : List Task) :
    ∀ finding ∈ (resolveDependencySlots tasks).2, finding.code ≠ .dependencyCycle := by
  unfold resolveDependencySlots
  intro finding hfinding
  refine List.foldlRecOn (motive := fun scan : DependencyScan =>
      ∀ finding ∈ scan.findings, finding.code ≠ .dependencyCycle)
    (tasks.zipIdx 1) _ ?_ ?_ finding hfinding
  · intro finding hfinding
    obtain ⟨slots, -, rfl⟩ := List.mem_map.mp hfinding
    exact nofun
  · intro scan hscan entry _
    refine List.foldlRecOn (motive := fun scan : DependencyScan =>
      ∀ finding ∈ scan.findings, finding.code ≠ .dependencyCycle) _ _ hscan ?_
    intro scan hscan ref _ finding hfinding
    unfold resolveRef at hfinding
    dsimp only at hfinding
    split at hfinding
    · rcases List.mem_append.mp hfinding with hold | hnew
      · exact hscan finding hold
      · rw [List.mem_singleton.mp hnew]
        exact nofun
    · split at hfinding
      · rcases List.mem_append.mp hfinding with hold | hnew
        · exact hscan finding hold
        · rw [List.mem_singleton.mp hnew]
          exact nofun
      · split at hfinding <;> exact hscan finding hfinding

theorem scanWriters_findings (tables : UnicodeTables) (tasks : List Task) :
    ∀ finding ∈ (scanWriters tables tasks).findings, finding.code = .invalidWriterPath := by
  unfold scanWriters
  refine List.foldlRecOn (motive := fun scan : WriterScan =>
      ∀ finding ∈ scan.findings, finding.code = .invalidWriterPath) (tasks.zipIdx 1) _ (by simp) ?_
  intro scan hscan entry _
  refine List.foldlRecOn (motive := fun scan : WriterScan =>
    ∀ finding ∈ scan.findings, finding.code = .invalidWriterPath) _ _ hscan ?_
  intro scan hscan raw _ finding hfinding
  unfold recordWriter at hfinding
  split at hfinding
  · rcases List.mem_append.mp hfinding with hold | hnew
    · exact hscan finding hold
    · rw [List.mem_singleton.mp hnew]
  · exact hscan finding hfinding

theorem findings_acyclic (hacyclic : Acyclic (edgeRel (authored tasks))) (maxWorkers : JsNumber) :
    ∀ finding ∈ (deriveExecutionTopology tables tasks maxWorkers).findings,
      finding.code ≠ .dependencyCycle := by
  intro finding hfinding
  have hauthored : (topologicalOrder tasks.length (authored tasks)).2 = [] :=
    topologicalOrder_cycleSlots (authoredEdges_within tasks) hacyclic
  have heffective : (topologicalOrder tasks.length (effective tables tasks)).2 = [] :=
    topologicalOrder_cycleSlots (effective_within tables) (effective_acyclic hacyclic)
  have hmem : finding ∈ (resolveDependencySlots tasks).2
      ++ cycleFinding (topologicalOrder tasks.length (authored tasks)).2
      ++ (scanWriters tables tasks).findings ++ (collisionScan tables tasks).findings
      ++ if (topologicalOrder tasks.length (authored tasks)).2 = [] then
          cycleFinding (topologicalOrder tasks.length (effective tables tasks)).2 else [] :=
    mem_sortBy.mp hfinding
  rw [hauthored, heffective] at hmem
  simp only [cycleFinding, if_true, List.append_nil, List.mem_append] at hmem
  rcases hmem with (hdependency | hwriters) | hcollisions
  · exact resolveDependencySlots_findings tasks finding hdependency
  · rw [scanWriters_findings tables tasks finding hwriters]
    exact nofun
  · rw [collisionsOf_scan.findings finding hcollisions]
    exact nofun

/-! ### The schedule -/

theorem one_le_configuredMaxWorkers (maxWorkers : JsNumber) : 1 ≤ configuredMaxWorkers maxWorkers := by
  unfold configuredMaxWorkers
  split
  · omega
  · exact le_rfl

/-- What a plan without dependency cycles may rely on in its topology. -/
structure SoundSchedule (tables : UnicodeTables) (tasks : List Task) (topology : Topology) : Prop where
  acyclic : Acyclic (edgeRel topology.effectiveEdges)
  noCycleFinding : ∀ finding ∈ topology.findings, finding.code ≠ .dependencyCycle
  oneWave : ∀ slot ∈ topology.taskSlots, ∃! wave, wave ∈ topology.waves ∧ slot ∈ wave.slots
  onceInAll : (topology.waves.map Wave.slots).flatten.Perm topology.taskSlots
  width : ∀ wave ∈ topology.waves, wave.slots.length ≤ topology.configuredMaxWorkers
  edgesRise : ∀ edge ∈ topology.effectiveEdges, ∀ source ∈ topology.waves, ∀ target ∈ topology.waves,
    edge.fromSlot ∈ source.slots → edge.toSlot ∈ target.slots → source.wave < target.wave
  writersComparable : ∀ key a b, WritesKey tables tasks key a → WritesKey tables tasks key b → a ≠ b →
    TransGen (edgeRel topology.effectiveEdges) a b ∨ TransGen (edgeRel topology.effectiveEdges) b a
  writersApart : ∀ key a b, WritesKey tables tasks key a → WritesKey tables tasks key b → a ≠ b →
    ∀ wave ∈ topology.waves, ¬ (a ∈ wave.slots ∧ b ∈ wave.slots)
  declared : topology.syntheticEdges = []
    ↔ ∀ collision ∈ topology.collisions, collision.declared = true

/-- A plan whose authored edges are acyclic gets a sound schedule. -/
theorem deriveExecutionTopology_sound (tables : UnicodeTables) (tasks : List Task)
    (maxWorkers : JsNumber)
    (hacyclic : Acyclic (edgeRel (deriveExecutionTopology tables tasks maxWorkers).authoredEdges)) :
    SoundSchedule tables tasks (deriveExecutionTopology tables tasks maxWorkers) := by
  obtain ⟨hlayering, hperm, hwidth, hnumbered⟩ := buildWaves_invariant (effective_within tables)
    (effective_acyclic hacyclic) (one_le_configuredMaxWorkers maxWorkers)
  rw [← waves_eq] at hlayering hperm hwidth hnumbered
  have hnodup : ((deriveExecutionTopology tables tasks maxWorkers).waves.map Wave.slots).flatten.Nodup :=
    hperm.nodup_iff.mpr (nodup_slotsOf tasks.length)
  have hnumber : ∀ wave ∈ (deriveExecutionTopology tables tasks maxWorkers).waves,
      ∀ slot ∈ wave.slots, wave.wave
        = layerOf ((deriveExecutionTopology tables tasks maxWorkers).waves.map Wave.slots) slot + 1 :=
    fun wave hwave slot hslot => wave_eq_layerOf hnumbered hnodup hwave hslot
  have hrise : ∀ a b, edgeRel (effective tables tasks) a b →
      layerOf ((deriveExecutionTopology tables tasks maxWorkers).waves.map Wave.slots) a
        < layerOf ((deriveExecutionTopology tables tasks maxWorkers).waves.map Wave.slots) b := by
    intro a b hedge
    refine hlayering.layerOf_lt (hperm.mem_iff.mpr ?_) hedge
    obtain ⟨edge, hmem, -, rfl⟩ := hedge
    exact (effective_within tables edge hmem).2
  refine ⟨effective_acyclic hacyclic, findings_acyclic hacyclic maxWorkers, ?_, hperm, hwidth, ?_,
    fun key a b => writers_comparable, ?_, synthetic_eq_nil_iff hacyclic⟩
  · intro slot hslot
    obtain ⟨slots, hslots, hin⟩ := List.mem_flatten.mp (hperm.mem_iff.mpr hslot)
    obtain ⟨wave, hwave, rfl⟩ := List.mem_map.mp hslots
    refine ⟨wave, ⟨hwave, hin⟩, ?_⟩
    rintro other ⟨hother, hin'⟩
    have hdistinct : ((deriveExecutionTopology tables tasks maxWorkers).waves.map Wave.wave).Nodup := by
      rw [hnumbered]
      exact List.nodup_range'
    refine List.inj_on_of_nodup_map hdistinct hother hwave ?_
    rw [hnumber other hother slot hin', hnumber wave hwave slot hin]
  · intro edge hedge source hsource target htarget hfrom hto
    rw [hnumber source hsource _ hfrom, hnumber target htarget _ hto]
    exact Nat.succ_lt_succ (hrise _ _ ⟨edge, hedge, rfl, rfl⟩)
  · rintro key a b ha hb hne wave hwave ⟨hina, hinb⟩
    have hsame := (hnumber wave hwave a hina).symm.trans (hnumber wave hwave b hinb)
    rcases writers_comparable ha hb hne with hpath | hpath
    · have := rank_lt_of_transGen hrise hpath
      omega
    · have := rank_lt_of_transGen hrise hpath
      omega

def asciiTables : UnicodeTables := { nfc := id, toLowerCase := String.toLower }

def twoWriters : List Task :=
  [{ id := "api", scope := some { filesWrite := some ["src/App.ts"] } },
    { id := "ui", scope := some { filesWrite := some ["./src/app.ts"] } },
    { id := "docs", dependencies := some ["ui"] }]

theorem deriveExecutionTopology_sound_twoWriters :
    SoundSchedule asciiTables twoWriters (deriveExecutionTopology asciiTables twoWriters 2) := by
  have hforward : ∀ edge ∈ (deriveExecutionTopology asciiTables twoWriters 2).authoredEdges,
      edge.fromSlot < edge.toSlot := by decide
  refine deriveExecutionTopology_sound asciiTables twoWriters 2 (acyclic_of_rank id ?_)
  rintro _ _ ⟨edge, hedge, rfl, rfl⟩
  exact hforward edge hedge

end Deckent.ExecutionTopology
