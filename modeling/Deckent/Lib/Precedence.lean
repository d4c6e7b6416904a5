import Deckent.Lib.Digraph

/-!
# Running the vertices of a graph

Workers take the vertices of a graph in any interleaving: a vertex is started once all its predecessors
are done, and a started vertex is later done or has failed. Whatever the order, a run that cannot go on
has done every vertex but those held back by a cycle, by a failure or by a predecessor that is no vertex.
-/

namespace Deckent

open Relation

variable {α : Type*}

structure Workers (α : Type*) where
  running : List α
  done : List α
  failed : List α

namespace Workers

def idle : Workers α := { running := [], done := [], failed := [] }

def started (workers : Workers α) : List α := workers.running ++ (workers.done ++ workers.failed)

section Steps

variable [DecidableEq α]

/-- Only the start of a vertex is restricted, by `ready`. -/
inductive Step (ready : Workers α → α → Prop) : Workers α → Workers α → Prop
  | start {workers : Workers α} {a : α} (hready : ready workers a) :
      Step ready workers { workers with running := a :: workers.running }
  | finish {workers : Workers α} {a : α} (hrunning : a ∈ workers.running) :
      Step ready workers
        { workers with running := workers.running.erase a, done := workers.done ++ [a] }
  | fail {workers : Workers α} {a : α} (hrunning : a ∈ workers.running) :
      Step ready workers
        { workers with running := workers.running.erase a, failed := workers.failed ++ [a] }

def Reachable (ready : Workers α → α → Prop) : Workers α → Prop := ReflTransGen (Step ready) idle

end Steps

structure Quiescent (ready : Workers α → α → Prop) (workers : Workers α) : Prop where
  idle : workers.running = []
  stuck : ∀ a, ¬ ready workers a

def Held (r : α → α → Prop) (lost : α → Prop) (a : α) : Prop :=
  ∃ origin, (lost origin ∨ TransGen r origin origin) ∧ ReflTransGen r origin a

def Gated (vertices : Finset α) (r : α → α → Prop) (ready : Workers α → α → Prop) : Prop :=
  ∀ workers a, ready workers a
    ↔ a ∈ vertices ∧ a ∉ workers.started ∧ ∀ b, r b a → b ∈ workers.done

variable {vertices : Finset α} {r : α → α → Prop} {ready : Workers α → α → Prop}
  {workers next : Workers α} {a b : α}

structure Consistent (vertices : Finset α) (r : α → α → Prop) (workers : Workers α) : Prop where
  once : workers.started.Nodup
  within : ∀ a ∈ workers.started, a ∈ vertices
  earlier : ∀ a ∈ workers.started, ∀ b, r b a → b ∈ workers.done
  acyclic : ∀ a ∈ workers.done, ¬ TransGen r a a

theorem mem_started : a ∈ workers.started
    ↔ a ∈ workers.running ∨ a ∈ workers.done ∨ a ∈ workers.failed := by
  simp [started]

theorem Consistent.idle : Consistent vertices r idle :=
  ⟨List.nodup_nil, nofun, nofun, nofun⟩

theorem Consistent.done_of_reflTransGen (h : Consistent vertices r workers)
    (hpath : ReflTransGen r b a) (hdone : a ∈ workers.done) : b ∈ workers.done := by
  induction hpath using ReflTransGen.head_induction_on with
  | refl => exact hdone
  | head hedge _ ih => exact h.earlier _ (mem_started.mpr (.inr (.inl ih))) _ hedge

theorem Consistent.done_of_transGen (h : Consistent vertices r workers) (hpath : TransGen r b a)
    (hstarted : a ∈ workers.started) : b ∈ workers.done := by
  obtain ⟨c, hbefore, hedge⟩ := TransGen.tail'_iff.mp hpath
  exact h.done_of_reflTransGen hbefore (h.earlier a hstarted c hedge)

theorem Consistent.not_done_of_running (h : Consistent vertices r workers)
    (hrunning : a ∈ workers.running) : a ∉ workers.done := fun hdone =>
  List.disjoint_of_nodup_append h.once hrunning (List.mem_append_left _ hdone)

theorem Consistent.not_done_of_failed (h : Consistent vertices r workers)
    (hfailed : a ∈ workers.failed) : a ∉ workers.done := fun hdone =>
  List.disjoint_of_nodup_append (List.nodup_append.mp h.once).2.1 hdone hfailed

theorem Consistent.not_both_running (h : Consistent vertices r workers) (hpath : TransGen r a b)
    (ha : a ∈ workers.running) : b ∉ workers.running := fun hb =>
  h.not_done_of_running ha (h.done_of_transGen hpath (mem_started.mpr (.inl hb)))

section Runs

variable [DecidableEq α]

theorem Consistent.step (hgated : Gated vertices r ready) (h : Consistent vertices r workers)
    (hstep : Step ready workers next) : Consistent vertices r next := by
  cases hstep with
  | @start a hready =>
      obtain ⟨hvertex, hnew, hpreds⟩ := (hgated workers a).mp hready
      refine ⟨List.nodup_cons.mpr ⟨hnew, h.once⟩, ?_, ?_, h.acyclic⟩
      · rintro b (_ | ⟨_, hb⟩)
        · exact hvertex
        · exact h.within b hb
      · rintro b (_ | ⟨_, hb⟩)
        · exact hpreds
        · exact h.earlier b hb
  | @finish a hrunning =>
      have hperm : List.Perm
          (workers.running.erase a ++ ((workers.done ++ [a]) ++ workers.failed)) workers.started := by
        refine List.Perm.trans ?_ ((List.perm_cons_erase hrunning).symm.append_right _)
        rw [List.append_assoc, List.cons_append]
        exact (List.perm_middle.append_left _).trans List.perm_middle
      refine ⟨hperm.nodup_iff.mpr h.once, fun b hb => h.within b (hperm.mem_iff.mp hb),
        fun b hb c hedge => List.mem_append_left _ (h.earlier b (hperm.mem_iff.mp hb) c hedge), ?_⟩
      intro b hb hcycle
      rcases List.mem_append.mp hb with hold | hnew
      · exact h.acyclic b hold hcycle
      · obtain rfl := List.mem_singleton.mp hnew
        exact h.not_done_of_running hrunning
          (h.done_of_transGen hcycle (mem_started.mpr (.inl hrunning)))
  | @fail a hrunning =>
      have hperm : List.Perm
          (workers.running.erase a ++ (workers.done ++ (workers.failed ++ [a]))) workers.started := by
        refine List.Perm.trans ?_ ((List.perm_cons_erase hrunning).symm.append_right _)
        rw [← List.append_assoc, ← List.append_assoc, List.append_assoc _ workers.done]
        exact List.perm_append_singleton a _
      exact ⟨hperm.nodup_iff.mpr h.once, fun b hb => h.within b (hperm.mem_iff.mp hb),
        fun b hb => h.earlier b (hperm.mem_iff.mp hb), h.acyclic⟩

theorem Reachable.consistent (hgated : Gated vertices r ready) (h : Reachable ready workers) :
    Consistent vertices r workers := by
  induction h with
  | refl => exact Consistent.idle
  | tail _ hstep ih => exact ih.step hgated hstep

/-- A run that cannot go on has done all but the vertices that are held back. -/
theorem Reachable.mem_done_iff (hgated : Gated vertices r ready) (h : Reachable ready workers)
    (hquiescent : Quiescent ready workers) (ha : a ∈ vertices) :
    a ∈ workers.done ↔ ¬ Held r (fun b => b ∉ vertices ∨ b ∈ workers.failed) a := by
  classical
  have hcons := h.consistent hgated
  constructor
  · rintro hdone ⟨origin, hheld, hpath⟩
    have horigin := hcons.done_of_reflTransGen hpath hdone
    rcases hheld with (hout | hfailed) | hcycle
    · exact hout (hcons.within origin (mem_started.mpr (.inr (.inl horigin))))
    · exact hcons.not_done_of_failed hfailed horigin
    · exact hcons.acyclic origin horigin hcycle
  · intro hfree
    by_contra hnot
    -- Among the vertices that lead here and are not done, one has all its predecessors done.
    obtain ⟨waiting, hwaiting⟩ : ∃ waiting : Finset α, ∀ b, b ∈ waiting
        ↔ b ∈ vertices ∧ b ∉ workers.done ∧ ReflTransGen r b a :=
      ⟨vertices.filter fun b => b ∉ workers.done ∧ ReflTransGen r b a, fun b => Finset.mem_filter⟩
    have hbehind : ¬ BehindCycle r a := fun ⟨origin, hcycle, hpath⟩ =>
      hfree ⟨origin, .inr hcycle, hpath⟩
    obtain ⟨b, hb, hsource⟩ :=
      exists_source_of_not_behindCycle ((hwaiting a).mpr ⟨ha, hnot, .refl⟩) hbehind
    obtain ⟨hvertex, hundone, hpath⟩ := (hwaiting b).mp hb
    refine hquiescent.stuck b ((hgated workers b).mpr ⟨hvertex, ?_, fun c hedge => ?_⟩)
    · rw [mem_started, hquiescent.idle]
      rintro (hrunning | hdone | hfailed)
      · exact List.not_mem_nil hrunning
      · exact hundone hdone
      · exact hfree ⟨b, .inl (.inr hfailed), hpath⟩
    · by_contra hpred
      by_cases hin : c ∈ vertices
      · exact hsource c ((hwaiting c).mpr ⟨hin, hpred, .head hedge hpath⟩) hedge
      · exact hfree ⟨c, .inl (.inl hin), .head hedge hpath⟩

/-- Every run comes to an end: from every state a state is reached in which nothing can be done. -/
theorem Reachable.exists_quiescent (hgated : Gated vertices r ready) (h : Reachable ready workers) :
    ∃ final, ReflTransGen (Step ready) workers final ∧ Quiescent ready final := by
  induction hwork : 2 * (vertices.card - workers.started.length) + workers.running.length
    using Nat.strong_induction_on generalizing workers with
  | _ work ih =>
      by_cases hstep : ∃ next, Step ready workers next
          ∧ 2 * (vertices.card - next.started.length) + next.running.length < work
      · obtain ⟨next, hstep, hless⟩ := hstep
        obtain ⟨final, hrun, hquiescent⟩ := ih _ hless (ReflTransGen.tail h hstep) rfl
        exact ⟨final, .head hstep hrun, hquiescent⟩
      · refine ⟨workers, .refl, List.eq_nil_iff_forall_not_mem.mpr fun a hrunning => ?_, fun a hready => ?_⟩
        · refine hstep ⟨_, .finish hrunning, ?_⟩
          have hpos := List.length_pos_of_mem hrunning
          simp only [started, List.length_append, List.length_erase_of_mem hrunning,
            List.length_singleton] at hwork ⊢
          omega
        · refine hstep ⟨_, .start hready, ?_⟩
          have hcons := (h.consistent hgated).step hgated (.start hready)
          have hle := Finset.card_le_card fun b hb => hcons.within b (List.mem_toFinset.mp hb)
          rw [List.toFinset_card_of_nodup hcons.once] at hle
          simp only [started, List.length_append, List.length_cons] at hle hwork ⊢
          omega

end Runs

end Workers

end Deckent
