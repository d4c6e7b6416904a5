import Deckent.Lib.EventLog
import Mathlib.Logic.Function.Basic
import Mathlib.Logic.Relation

/-!
# Processes over one shared state

Processes with private memories take turns at one shared state. A step is taken by one process and is
atomic: it reads and writes the shared state and the memory of that process. An invariant of the shared
state and of each memory is proved by rely and guarantee: a step keeps the invariant of the process
that takes it and changes the shared state in a way that the invariant of every other process endures.
-/

namespace Deckent

universe u v w x

variable {ι : Type u} {σ : Type v} {μ : Type w} {α : Type x}

/-- A shared state and the memory of every process. -/
structure Processes (ι : Type u) (σ : Type v) (μ : Type w) where
  shared : σ
  memory : ι → μ

variable [DecidableEq ι]

/-- One process takes one action, if the action is enabled. -/
def Processes.act (step : α → σ → μ → Option (σ × μ)) (processes : Processes ι σ μ) (turn : ι × α) :
    Except Unit (Processes ι σ μ) :=
  match step turn.2 processes.shared (processes.memory turn.1) with
  | some (shared, memory) =>
      .ok {
        shared := shared
        memory := Function.update processes.memory turn.1 memory }
  | none => .error ()

variable {step : α → σ → μ → Option (σ × μ)} {processes next : Processes ι σ μ} {turn : ι × α}

theorem Processes.act_ok :
    processes.act step turn = .ok next
      ↔ ∃ memory, step turn.2 processes.shared (processes.memory turn.1) = some (next.shared, memory)
        ∧ next.memory = Function.update processes.memory turn.1 memory := by
  unfold act
  cases hstep : step turn.2 processes.shared (processes.memory turn.1) with
  | none => simp
  | some result =>
      obtain ⟨shared, memory⟩ := result
      constructor
      · intro hnext
        obtain rfl := Except.ok.inj hnext
        exact ⟨memory, rfl, rfl⟩
      · rintro ⟨memory', hresult, hmemory⟩
        cases hresult
        cases next
        simp_all

/-- Rely and guarantee: what a step keeps of its own process and what every other process endures holds
along every run. -/
theorem Processes.rely_guarantee (guarantee : σ → σ → Prop) {invariant : σ → Prop}
    {own : σ → μ → Prop} {start : Processes ι σ μ}
    (hstart : invariant start.shared ∧ ∀ i, own start.shared (start.memory i))
    (hstep : ∀ action shared memory shared' memory', step action shared memory = some (shared', memory') →
      invariant shared → own shared memory →
      invariant shared' ∧ own shared' memory' ∧ guarantee shared shared')
    (hstable : ∀ shared shared' memory, guarantee shared shared' → own shared memory →
      own shared' memory)
    {turns : List (ι × α)} (hrun : replay (Processes.act step) start turns = .ok processes) :
    invariant processes.shared ∧ ∀ i, own processes.shared (processes.memory i) := by
  apply replay_induction _ _ hrun
  · exact hstart
  · intro _ current turn next _ hcurrent hact
    obtain ⟨hinvariant, hown⟩ := hcurrent
    obtain ⟨memory, hturn, hmemory⟩ := Processes.act_ok.mp hact
    obtain ⟨hinvariant', hown', hguarantee⟩ := hstep _ _ _ _ _ hturn hinvariant (hown turn.1)
    refine ⟨hinvariant', ?_⟩
    intro i
    rw [hmemory]
    by_cases hi : i = turn.1
    · subst hi
      rwa [Function.update_self]
    · rw [Function.update_of_ne hi]
      exact hstable _ _ _ hguarantee (hown i)

/-! ### Processes that know who they are -/

section Turns

variable {act : ι → α → σ → μ → Option (σ × μ)} {allowed : ι → α → σ → μ → Prop}
  {start later : Processes ι σ μ}

/-- The process `i` takes an allowed action. -/
inductive Processes.Turn (act : ι → α → σ → μ → Option (σ × μ)) (allowed : ι → α → σ → μ → Prop)
    (processes : Processes ι σ μ) : Processes ι σ μ → Prop where
  | turn (i : ι) (action : α) (shared : σ) (memory : μ)
      (hallowed : allowed i action processes.shared (processes.memory i))
      (hact : act i action processes.shared (processes.memory i) = some (shared, memory)) :
      Turn act allowed processes ⟨shared, Function.update processes.memory i memory⟩

def Processes.Leads (act : ι → α → σ → μ → Option (σ × μ)) (allowed : ι → α → σ → μ → Prop) :
    Processes ι σ μ → Processes ι σ μ → Prop :=
  Relation.ReflTransGen (Processes.Turn act allowed)

theorem Processes.leads_induction (invariant : σ → Prop) (own : ι → σ → μ → Prop)
    (hstart : invariant start.shared ∧ ∀ i, own i start.shared (start.memory i))
    (hact : ∀ i action shared memory shared' memory', allowed i action shared memory →
      act i action shared memory = some (shared', memory') → invariant shared → own i shared memory →
      invariant shared' ∧ own i shared' memory'
        ∧ ∀ j other, j ≠ i → own j shared other → own j shared' other)
    (hleads : Processes.Leads act allowed start later) :
    invariant later.shared ∧ ∀ i, own i later.shared (later.memory i) := by
  induction hleads with
  | refl => exact hstart
  | tail _ hturn ih =>
      obtain ⟨hinvariant, hown⟩ := ih
      obtain ⟨i, action, shared, memory, hallowed, hturn⟩ := hturn
      obtain ⟨hinvariant', hmine, hothers⟩ := hact i action _ _ _ _ hallowed hturn hinvariant (hown i)
      refine ⟨hinvariant', ?_⟩
      intro j
      by_cases hj : j = i
      · subst hj
        simpa using hmine
      · simpa [Function.update_of_ne hj] using hothers j _ hj (hown j)

def Processes.takeTurns (act : ι → α → σ → μ → Option (σ × μ)) (check : ι → α → σ → μ → Bool) :
    Processes ι σ μ → List (ι × α) → Option (Processes ι σ μ)
  | processes, [] => some processes
  | processes, (i, action) :: rest =>
      if check i action processes.shared (processes.memory i) then
        match act i action processes.shared (processes.memory i) with
        | some (shared, memory) =>
            takeTurns act check ⟨shared, Function.update processes.memory i memory⟩ rest
        | none => none
      else none

theorem Processes.leads_of_takeTurns {check : ι → α → σ → μ → Bool}
    (hcheck : ∀ i action shared memory, check i action shared memory = true →
      allowed i action shared memory)
    {turns : List (ι × α)} (hturns : Processes.takeTurns act check start turns = some later) :
    Processes.Leads act allowed start later := by
  induction turns generalizing start with
  | nil =>
      obtain rfl := Option.some.inj hturns
      exact .refl
  | cons turn rest ih =>
      obtain ⟨i, action⟩ := turn
      unfold Processes.takeTurns at hturns
      split at hturns
      · rename_i hpass
        cases hact : act i action start.shared (start.memory i) with
        | none => simp [hact] at hturns
        | some result =>
            obtain ⟨shared, memory⟩ := result
            simp only [hact] at hturns
            exact .head (.turn i action shared memory (hcheck _ _ _ _ hpass) hact) (ih hturns)
      · cases hturns

end Turns

end Deckent
