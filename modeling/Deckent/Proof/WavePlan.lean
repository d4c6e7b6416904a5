import Deckent.Proof.ExecutionTopology
import Mathlib.Algebra.Order.BigOperators.Group.List

/-!
# How long a plan of waves is

A round takes every slot that is ready, so after as many rounds as another plan has waves every slot of
that plan is placed. The rounds are cut into waves, and only the last wave of a round may have room
left. So no plan of waves of the same width is much shorter, and none is shorter at all where the width
holds every task.
-/

namespace Deckent.ExecutionTopology

open Relation

variable {edges : List Edge} {taskCount maxWorkers : Nat} {plan : List (List Nat)}

theorem layerOf_lt_length {slot : Nat} (hslot : slot ∈ plan.flatten) :
    layerOf plan slot < plan.length := by
  simpa using layerOf_append_of_mem [] hslot

theorem mul_length_chunks_le (hmax : 1 ≤ maxWorkers) (fuel : Nat) (ready : List Nat) :
    maxWorkers * (chunks maxWorkers fuel ready).length ≤ ready.length + (maxWorkers - 1) := by
  induction fuel generalizing ready with
  | zero => simp [chunks]
  | succ fuel ih =>
      cases hready : ready with
      | nil => simp [chunks]
      | cons slot rest =>
          rw [← hready]
          have hpos : 1 ≤ ready.length := by simp [hready]
          have hsplit : chunks maxWorkers (fuel + 1) ready
              = ready.take maxWorkers :: chunks maxWorkers fuel (ready.drop maxWorkers) := by
            rw [chunks]
            simp [hready]
          rw [hsplit, List.length_cons, Nat.mul_succ]
          by_cases hlast : ready.length ≤ maxWorkers
          · have hnil : chunks maxWorkers fuel (ready.drop maxWorkers) = [] := by
              rw [List.drop_eq_nil_of_le hlast]
              cases fuel <;> rfl
            rw [hnil, List.length_nil]
            omega
          · have hrest := ih (ready.drop maxWorkers)
            rw [List.length_drop] at hrest
            omega

structure Rounds (plan : List (List Nat)) (taskCount maxWorkers rounds : Nat) (state : WaveState) :
    Prop where
  placed : ∀ slot ∈ slotsOf taskCount, layerOf plan slot < rounds → slot ∈ state.resolved
  cut : maxWorkers * state.waves.length ≤ state.resolved.size + rounds * (maxWorkers - 1)
  behind : rounds ≤ plan.length

theorem Rounds.bound {rounds : Nat} {state : WaveState}
    (hrounds : Rounds plan taskCount maxWorkers rounds state)
    (h : WaveInvariant edges taskCount maxWorkers state) :
    maxWorkers * state.waves.length ≤ taskCount + plan.length * (maxWorkers - 1) := by
  have hsize : state.resolved.size ≤ taskCount := by
    have hle := (List.subperm_of_subset state.resolved.nodup h.subset).length_le
    rwa [length_slotsOf] at hle
  have hcut := Nat.mul_le_mul_right (maxWorkers - 1) hrounds.behind
  have := hrounds.cut
  omega

theorem Rounds.ready {rounds : Nat} {state : WaveState}
    (hrounds : Rounds plan taskCount maxWorkers rounds state)
    (h : WaveInvariant edges taskCount maxWorkers state) (hwithin : EdgesWithin taskCount edges)
    (hplan : IsLayering (edgeRel edges) plan) {slot : Nat} (hslot : slot ∈ plan.flatten)
    (hlayer : layerOf plan slot < rounds + 1) : state.incoming slot = 0 := by
  rw [h.waiting, waitingOn_eq_zero_iff]
  intro pred hpred
  have hedge := mem_predecessors.mp hpred
  have hearlier := hplan.layerOf_lt hslot hedge
  obtain ⟨edge, hmem, rfl, -⟩ := hedge
  exact List.mem_toFinset.mpr (hrounds.placed _ (hwithin edge hmem).1 (by omega))

theorem Rounds.waveLoop {fuel rounds : Nat} {state : WaveState}
    (hrounds : Rounds plan taskCount maxWorkers rounds state) (hwithin : EdgesWithin taskCount edges)
    (hmax : 1 ≤ maxWorkers) (hplan : IsLayering (edgeRel edges) plan)
    (hall : ∀ slot ∈ slotsOf taskCount, slot ∈ plan.flatten)
    (h : WaveInvariant edges taskCount maxWorkers state) :
    maxWorkers
        * (waveLoop taskCount maxWorkers (adjacencyOf edges).outgoing fuel state).waves.length
      ≤ taskCount + plan.length * (maxWorkers - 1) := by
  induction fuel generalizing state rounds with
  | zero => exact hrounds.bound h
  | succ fuel ih =>
      unfold ExecutionTopology.waveLoop
      split
      · dsimp only
        split
        · exact hrounds.bound h
        · rename_i hready
          obtain ⟨found, hfound⟩ := List.exists_mem_of_ne_nil _ hready
          generalize hlist : sortBy compareNumber ((slotsOf taskCount).filter
            (fun slot => slot ∉ state.resolved ∧ state.incoming slot = 0)) = sorted
          have hmem : ∀ x, x ∈ sorted
              ↔ x ∈ slotsOf taskCount ∧ x ∉ state.resolved ∧ state.incoming x = 0 := by
            simp [← hlist, mem_sortBy]
          have hnodup : sorted.Nodup := by
            rw [← hlist]
            exact nodup_sortBy.mpr ((nodup_slotsOf taskCount).filter _)
          have hgrow := (foldl_resolveSlot hnodup (fun x hx => ((hmem x).mp hx).2.1) h.waiting).1
          obtain ⟨hin, hout, -⟩ := (hmem found).mp (hlist ▸ mem_sortBy.mpr hfound)
          refine @ih (rounds + 1) _ ⟨?_, ?_, ?_⟩ (h.round hmax hnodup fun x hx => (hmem x).mp hx)
          · intro slot hslot hlayer
            rw [OrderedSet.mem_def, hgrow, List.mem_append]
            by_cases hdone : slot ∈ state.resolved
            · exact .inl hdone
            · exact .inr ((hmem slot).mpr
                ⟨hslot, hdone, hrounds.ready h hwithin hplan (hall slot hslot) hlayer⟩)
          · have hcut := hrounds.cut
            have hchunks := mul_length_chunks_le hmax sorted.length sorted
            have hlength := congrArg List.length
              (map_slots_foldl_pushWave (chunks maxWorkers sorted.length sorted) state.waves)
            simp only [List.length_append, List.length_map] at hlength
            rw [hlength, OrderedSet.size, hgrow, List.length_append, Nat.mul_add, Nat.succ_mul]
            unfold OrderedSet.size at hcut
            omega
          · have hlate : ¬ layerOf plan found < rounds := fun hlt => hout (hrounds.placed found hin hlt)
            have := layerOf_lt_length (hall found hin)
            omega
      · exact hrounds.bound h

theorem mul_length_buildWaves_le (hwithin : EdgesWithin taskCount edges) (hmax : 1 ≤ maxWorkers)
    (hplan : IsLayering (edgeRel edges) plan)
    (hall : ∀ slot ∈ slotsOf taskCount, slot ∈ plan.flatten) :
    maxWorkers * (buildWaves taskCount edges maxWorkers).length
      ≤ taskCount + plan.length * (maxWorkers - 1) := by
  have hstart : Rounds plan taskCount maxWorkers 0
      { incoming := (adjacencyOf edges).incoming, resolved := ∅, waves := [] } :=
    ⟨fun _ _ hlt => absurd hlt (Nat.not_lt_zero _), by simp, Nat.zero_le _⟩
  exact hstart.waveLoop hwithin hmax hplan hall (.initial edges taskCount maxWorkers)

theorem length_flatten_le {width : Nat} (hwidth : ∀ layer ∈ plan, layer.length ≤ width) :
    plan.flatten.length ≤ width * plan.length := by
  rw [List.length_flatten, Nat.mul_comm]
  simpa using List.sum_le_card_nsmul (plan.map List.length) width (by simpa using hwidth)

/-- Against every plan of the same width that respects the effective edges, the waves are at most
`2 - 1/m` times as many; and where a wave has room for every task, no plan has fewer. -/
theorem deriveExecutionTopology_nearShortest (tables : UnicodeTables) (tasks : List Task)
    (maxWorkers : JsNumber)
    (hplan : IsLayering (edgeRel (deriveExecutionTopology tables tasks maxWorkers).effectiveEdges) plan)
    (hall : ∀ slot ∈ (deriveExecutionTopology tables tasks maxWorkers).taskSlots, slot ∈ plan.flatten)
    (hwidth : ∀ layer ∈ plan,
      layer.length ≤ (deriveExecutionTopology tables tasks maxWorkers).configuredMaxWorkers) :
    (deriveExecutionTopology tables tasks maxWorkers).configuredMaxWorkers
          * (deriveExecutionTopology tables tasks maxWorkers).waves.length
        ≤ (2 * (deriveExecutionTopology tables tasks maxWorkers).configuredMaxWorkers - 1) * plan.length
      ∧ (tasks.length ≤ (deriveExecutionTopology tables tasks maxWorkers).configuredMaxWorkers →
        (deriveExecutionTopology tables tasks maxWorkers).waves.length ≤ plan.length) := by
  have hmax := one_le_configuredMaxWorkers maxWorkers
  have hbound := mul_length_buildWaves_le (effective_within tables) hmax hplan hall
  rw [← waves_eq] at hbound
  change ∀ layer ∈ plan, layer.length ≤ configuredMaxWorkers maxWorkers at hwidth
  change configuredMaxWorkers maxWorkers * _ ≤ (2 * configuredMaxWorkers maxWorkers - 1) * _
    ∧ (_ ≤ configuredMaxWorkers maxWorkers → _)
  generalize (deriveExecutionTopology tables tasks maxWorkers).waves.length = waves at hbound ⊢
  generalize configuredMaxWorkers maxWorkers = workers at hmax hbound hwidth ⊢
  obtain ⟨room, rfl⟩ := Nat.exists_eq_add_of_le' hmax
  have htasks : tasks.length ≤ (room + 1) * plan.length := by
    have hsubperm := List.subperm_of_subset (nodup_slotsOf tasks.length) hall
    calc tasks.length = (slotsOf tasks.length).length := (length_slotsOf _).symm
      _ ≤ plan.flatten.length := hsubperm.length_le
      _ ≤ (room + 1) * plan.length := length_flatten_le hwidth
  have hroom : 2 * (room + 1) - 1 = room + 1 + room := by omega
  rw [Nat.add_sub_cancel] at hbound
  refine ⟨?_, ?_⟩
  · calc (room + 1) * waves ≤ tasks.length + plan.length * room := hbound
      _ ≤ (room + 1) * plan.length + plan.length * room := Nat.add_le_add_right htasks _
      _ = (2 * (room + 1) - 1) * plan.length := by rw [hroom]; ring
  · intro hfits
    rcases Nat.eq_zero_or_pos plan.length with hnone | hsome
    · rw [hnone, Nat.mul_zero] at htasks
      rw [hnone, Nat.zero_mul, Nat.le_zero.mp htasks] at hbound
      rw [hnone]
      exact Nat.le_of_mul_le_mul_left (by simpa using hbound) (Nat.succ_pos room)
    · have hlt : (room + 1) * waves < (room + 1) * (plan.length + 1) := by
        calc (room + 1) * waves ≤ tasks.length + plan.length * room := hbound
          _ < (room + 1) + plan.length + plan.length * room := by omega
          _ = (room + 1) * (plan.length + 1) := by ring
      exact Nat.lt_succ_iff.mp (Nat.lt_of_mul_lt_mul_left hlt)

def threeTasks : List Task :=
  [{ id := "api" }, { id := "ui" }, { id := "docs", dependencies := some ["ui"] }]

theorem deriveExecutionTopology_nearShortest_threeTasks :
    2 * (deriveExecutionTopology asciiTables threeTasks 2).waves.length ≤ 3 * 3 := by
  have horder : (topologicalOrder threeTasks.length (effective asciiTables threeTasks)).1 = [1, 2, 3] := by
    decide +kernel
  have hwithin : EdgesWithin threeTasks.length (effective asciiTables threeTasks) :=
    effective_within asciiTables
  have hlayering := topologicalOrder_layering hwithin
  rw [horder] at hlayering
  have hbound := deriveExecutionTopology_nearShortest asciiTables threeTasks 2 hlayering (by decide)
    (by decide)
  exact hbound.1

end Deckent.ExecutionTopology
