import Deckent.Proof.ExecutionTopology

/-!
# Cycles of a plan, and plans in order

The order takes every slot that no cycle leads to and no other, so the finding about a cycle names what
has to be repaired and all that waits for it. In a plan whose declared dependencies lead forward the
order is the authored one, and the writers of a path are put in that order as well.
-/

namespace Deckent.ExecutionTopology

open Relation

variable {edges : List Edge} {taskCount : Nat}

/-! ### What a cycle holds back -/

theorem mem_cycleSlots_iff (hwithin : EdgesWithin taskCount edges) {slot : Nat} :
    slot ∈ (topologicalOrder taskCount edges).2
      ↔ slot ∈ slotsOf taskCount ∧ BehindCycle (edgeRel edges) slot := by
  have hleft : ∀ {slot}, slot ∈ (topologicalOrder taskCount edges).2
      ↔ slot ∈ slotsOf taskCount ∧ slot ∉ (topologicalOrder taskCount edges).1 := by
    simp [topologicalOrder]
  obtain ⟨h, hready⟩ :=
    (OrderInvariant.initial edges taskCount).orderLoop hwithin (Nat.le_add_right taskCount _)
  constructor
  · intro hslot
    refine ⟨(hleft.mp hslot).1, ?_⟩
    by_contra hbehind
    obtain ⟨b, hb, hsource⟩ :=
      exists_source_of_not_behindCycle (List.mem_toFinset.mpr hslot) hbehind
    obtain ⟨hin, hout⟩ := hleft.mp (List.mem_toFinset.mp hb)
    have hzero := (h.waiting b).trans (waitingOn_eq_zero_iff.mpr fun pred hpred => by
      by_contra hnot
      refine hsource pred (List.mem_toFinset.mpr (hleft.mpr
        ⟨List.mem_toFinset.mp (predecessors_subset hwithin b hpred), ?_⟩)) (mem_predecessors.mp hpred)
      exact fun hmem => hnot (List.mem_toFinset.mpr hmem))
    have hmem := (h.mem_ready b).mpr ⟨hin, hout, hzero⟩
    rw [hready] at hmem
    exact List.not_mem_nil hmem
  · rintro ⟨hin, hbehind⟩
    refine hleft.mpr ⟨hin, fun hmem => ?_⟩
    -- The first slot of the order that is behind a cycle has a predecessor behind one, which comes earlier.
    have hlayering := topologicalOrder_layering hwithin
    rw [← flatten_map_singleton (topologicalOrder taskCount edges).1] at hmem
    induction hrank : layerOf ((topologicalOrder taskCount edges).1.map fun slot => [slot]) slot
      using Nat.strong_induction_on generalizing slot with
    | _ rank ih =>
        obtain ⟨pred, hedge, hbehind⟩ := hbehind.exists_pred
        obtain ⟨edge, hedge', rfl, -⟩ := id hedge
        exact ih _ (hrank ▸ hlayering.layerOf_lt hmem hedge) (hwithin edge hedge').1 hbehind
          (hlayering.pred_mem hmem hedge) rfl

theorem cycleSlots_eq_nil_iff (hwithin : EdgesWithin taskCount edges) :
    (topologicalOrder taskCount edges).2 = [] ↔ Acyclic (edgeRel edges) := by
  refine ⟨fun hnil origin hcycle => ?_, topologicalOrder_cycleSlots hwithin⟩
  obtain ⟨_, ⟨edge, hedge, rfl, -⟩, -⟩ := TransGen.head'_iff.mp hcycle
  have hmem := (mem_cycleSlots_iff hwithin).mpr ⟨(hwithin edge hedge).1, _, hcycle, .refl⟩
  rw [hnil] at hmem
  exact List.not_mem_nil hmem

variable {tables : UnicodeTables} {tasks : List Task} {maxWorkers : JsNumber}

theorem mem_findings_cycle_iff {finding : Finding} (hcode : finding.code = .dependencyCycle) :
    finding ∈ (deriveExecutionTopology tables tasks maxWorkers).findings
      ↔ finding ∈ cycleFinding (topologicalOrder tasks.length (authored tasks)).2 := by
  have hmem : finding ∈ (deriveExecutionTopology tables tasks maxWorkers).findings
      ↔ finding ∈ (resolveDependencySlots tasks).2
        ++ cycleFinding (topologicalOrder tasks.length (authored tasks)).2
        ++ (scanWriters tables tasks).findings ++ (collisionScan tables tasks).findings
        ++ if (topologicalOrder tasks.length (authored tasks)).2 = [] then
            cycleFinding (topologicalOrder tasks.length (effective tables tasks)).2 else [] :=
    mem_sortBy
  constructor
  · intro hfinding
    by_cases hnil : (topologicalOrder tasks.length (authored tasks)).2 = []
    · have hacyclic := (cycleSlots_eq_nil_iff (authoredEdges_within tasks)).mp hnil
      exact absurd hcode (findings_acyclic hacyclic maxWorkers finding hfinding)
    · rw [hmem, if_neg hnil, List.append_nil] at hfinding
      simp only [List.mem_append] at hfinding
      rcases hfinding with ((hdependency | hcycle) | hwriters) | hcollisions
      · exact absurd hcode (resolveDependencySlots_findings tasks finding hdependency)
      · exact hcycle
      · rw [scanWriters_findings tables tasks finding hwriters] at hcode
        exact nomatch hcode
      · rw [collisionsOf_scan.findings finding hcollisions] at hcode
        exact nomatch hcode
  · intro hcycle
    rw [hmem]
    simp only [List.mem_append]
    exact .inl (.inl (.inl (.inr hcycle)))

/-- A plan has a finding about a cycle exactly when its declared dependencies have a cycle, and the
finding names the tasks on a cycle and all that wait for one. -/
theorem deriveExecutionTopology_cycles (tables : UnicodeTables) (tasks : List Task)
    (maxWorkers : JsNumber) :
    ((∃ finding ∈ (deriveExecutionTopology tables tasks maxWorkers).findings,
          finding.code = .dependencyCycle)
        ↔ ¬ Acyclic (edgeRel (deriveExecutionTopology tables tasks maxWorkers).authoredEdges))
      ∧ ∀ finding ∈ (deriveExecutionTopology tables tasks maxWorkers).findings,
        finding.code = .dependencyCycle → ∀ slot, slot ∈ finding.slots
          ↔ slot ∈ (deriveExecutionTopology tables tasks maxWorkers).taskSlots
            ∧ BehindCycle (edgeRel (deriveExecutionTopology tables tasks maxWorkers).authoredEdges)
              slot := by
  change (_ ↔ ¬ Acyclic (edgeRel (authored tasks))) ∧ ∀ finding ∈ _, _ → ∀ slot, _
    ↔ slot ∈ slotsOf tasks.length ∧ BehindCycle (edgeRel (authored tasks)) slot
  have hwithin : EdgesWithin tasks.length (authored tasks) := authoredEdges_within tasks
  rw [← cycleSlots_eq_nil_iff hwithin]
  refine ⟨⟨?_, ?_⟩, ?_⟩
  · rintro ⟨finding, hfinding, hcode⟩ hnil
    rw [mem_findings_cycle_iff hcode, cycleFinding, if_pos hnil] at hfinding
    exact List.not_mem_nil hfinding
  · intro hcyclic
    have hmem : (⟨.dependencyCycle, (topologicalOrder tasks.length (authored tasks)).2, none, none⟩
        : Finding) ∈ cycleFinding (topologicalOrder tasks.length (authored tasks)).2 := by
      rw [cycleFinding, if_neg hcyclic]
      exact List.mem_singleton_self _
    exact ⟨_, (mem_findings_cycle_iff rfl).mpr hmem, rfl⟩
  · intro finding hfinding hcode slot
    rw [mem_findings_cycle_iff hcode, cycleFinding] at hfinding
    split at hfinding
    · exact absurd hfinding List.not_mem_nil
    · obtain rfl := List.mem_singleton.mp hfinding
      exact mem_cycleSlots_iff (authoredEdges_within tasks)

/-! ### Plans in order -/

theorem orderLoop_forward (hwithin : EdgesWithin taskCount edges)
    (hforward : ∀ edge ∈ edges, edge.fromSlot < edge.toSlot) {fuel count : Nat} {state : OrderState}
    (h : OrderInvariant edges taskCount state) (horder : state.order = slotsOf count) :
    ∃ final, (orderLoop (adjacencyOf edges).outgoing fuel state).order = slotsOf final := by
  induction fuel generalizing state count with
  | zero => exact ⟨count, horder⟩
  | succ fuel ih =>
      cases hready : sortBy compareNumber state.ready with
      | nil =>
          simp only [orderLoop, hready]
          exact ⟨count, horder⟩
      | cons slot ready =>
          simp only [orderLoop, hready]
          have hnext : slot = count + 1 := by
            have hmem : ∀ x, x ∈ slot :: ready ↔ x ∈ state.ready := fun x => by
              rw [← hready, mem_sortBy]
            have hsorted := signed_compareNumber.consistent.pairwise_sortBy state.ready
            rw [hready] at hsorted
            obtain ⟨hin, hout, -⟩ := (h.mem_ready slot).mp ((hmem slot).mp List.mem_cons_self)
            rw [horder, mem_slotsOf] at hout
            rw [mem_slotsOf] at hin
            have hfound : count + 1 ∈ state.ready := by
              rw [h.mem_ready, h.waiting, waitingOn_eq_zero_iff, horder, mem_slotsOf, mem_slotsOf]
              refine ⟨by omega, by omega, fun pred hpred => ?_⟩
              obtain ⟨edge, hedge, rfl, hto⟩ := mem_predecessors.mp hpred
              have hless := hforward edge hedge
              have hfrom := mem_slotsOf.mp (hwithin edge hedge).1
              rw [List.mem_toFinset, mem_slotsOf]
              omega
            rcases List.mem_cons.mp ((hmem _).mpr hfound) with heq | hrest
            · exact heq.symm
            · have hle := (List.pairwise_cons.mp hsorted).1 _ hrest
              unfold compareNumber at hle
              omega
          refine ih (h.step hwithin hready (nodup_sortBy.mpr (OrderedSet.nodup _)) fun x =>
            mem_sortBy.trans mem_outgoing) (?_ : _ = slotsOf (count + 1))
          rw [horder, hnext, slotsOf, slotsOf, List.range'_concat, Nat.one_mul, Nat.add_comm 1 count]

theorem authoredOrder_forward (hforward : ∀ edge ∈ authored tasks, edge.fromSlot < edge.toSlot)
    (hacyclic : Acyclic (edgeRel (authored tasks))) : authoredOrder tasks = slotsOf tasks.length := by
  have hwithin : EdgesWithin tasks.length (authored tasks) := authoredEdges_within tasks
  have hstart := OrderInvariant.initial (authored tasks) tasks.length
  have hfinal := (hstart.orderLoop hwithin (Nat.le_add_right _ _)).1
  obtain ⟨count, horder⟩ : ∃ count, authoredOrder tasks = slotsOf count :=
    @orderLoop_forward _ _ hwithin hforward _ 0 _ hstart rfl
  have hall : ∀ slot ∈ slotsOf tasks.length, slot ∈ authoredOrder tasks :=
    fun slot hslot => mem_topologicalOrder hwithin hacyclic hslot
  have hle := (List.subperm_of_subset hfinal.nodup hfinal.subset).length_le
  have hge := (List.subperm_of_subset (nodup_slotsOf tasks.length) hall).length_le
  change (authoredOrder tasks).length ≤ _ at hle
  rw [horder, length_slotsOf, length_slotsOf] at hle hge
  rw [horder, Nat.le_antisymm hle hge]

theorem idxOf_slotsOf {slot : Nat} (hslot : slot ∈ slotsOf taskCount) :
    (slotsOf taskCount).idxOf slot + 1 = slot := by
  have hfound := List.getElem_idxOf (List.idxOf_lt_length_of_mem hslot)
  simp only [slotsOf, List.getElem_range'] at hfound ⊢
  omega

/-- Where every declared dependency leads to a task further down, every edge does: the writers of a path
wait for each other in the order of the plan. -/
theorem deriveExecutionTopology_forward (tables : UnicodeTables) (tasks : List Task)
    (maxWorkers : JsNumber)
    (hforward : ∀ edge ∈ (deriveExecutionTopology tables tasks maxWorkers).authoredEdges,
      edge.fromSlot < edge.toSlot) :
    ∀ edge ∈ (deriveExecutionTopology tables tasks maxWorkers).effectiveEdges,
      edge.fromSlot < edge.toSlot := by
  intro edge hedge
  have hacyclic : Acyclic (edgeRel (authored tasks)) :=
    acyclic_of_rank id fun _ _ ⟨edge, hedge, hfrom, hto⟩ => hfrom ▸ hto ▸ hforward edge hedge
  have hindex := orderIndex_lt_of_effective hacyclic ⟨edge, hedge, rfl, rfl⟩
  obtain ⟨hfrom, hto⟩ := effective_within tables edge hedge
  rw [authoredOrder_forward hforward hacyclic, orderIndex, orderIndex, if_pos hfrom, if_pos hto] at hindex
  have := idxOf_slotsOf hfrom
  have := idxOf_slotsOf hto
  omega

theorem deriveExecutionTopology_forward_twoWriters :
    ((deriveExecutionTopology asciiTables twoWriters 2).effectiveEdges.all
      fun edge => edge.fromSlot < edge.toSlot) = true := by
  refine List.all_eq_true.mpr fun edge hedge => decide_eq_true ?_
  exact deriveExecutionTopology_forward asciiTables twoWriters 2 (by decide) edge hedge

end Deckent.ExecutionTopology
