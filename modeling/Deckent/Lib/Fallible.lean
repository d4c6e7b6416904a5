import Mathlib.Data.List.Basic

/-!
# Computations that may fail

A computation in `Except` succeeds where each of its parts does, so what a program has done when it
succeeds is read off part by part.
-/

namespace Deckent

universe u v

variable {ε : Type u} {α β : Type v}

theorem bind_eq_ok {computation : Except ε α} {rest : α → Except ε β} {b : β} :
    (computation >>= rest) = .ok b ↔ ∃ a, computation = .ok a ∧ rest a = .ok b := by
  cases computation with
  | error _ => simp [bind, Except.bind]
  | ok a => simp [bind, Except.bind]

theorem map_eq_ok {computation : Except ε α} {f : α → β} {b : β} :
    (f <$> computation) = .ok b ↔ ∃ a, computation = .ok a ∧ f a = b := by
  cases computation with
  | error _ => simp [Functor.map, Except.map]
  | ok a => simp [Functor.map, Except.map]

@[simp]
theorem pure_eq_ok {a b : α} : (pure a : Except ε α) = .ok b ↔ a = b := by
  simp [pure, Except.pure]

@[simp]
theorem throw_ne_ok {error : ε} {a : α} : (throw error : Except ε α) ≠ .ok a := by
  simp [throw, throwThe, MonadExceptOf.throw]

theorem ite_throw_eq_ok {condition : Prop} [Decidable condition] {error : ε} {rest : PUnit → Except ε α}
    {a : α} : (if condition then throw error >>= rest else rest ⟨⟩) = .ok a
      ↔ ¬ condition ∧ rest ⟨⟩ = .ok a := by
  split
  · next hcondition => simp [hcondition, bind, Except.bind, throw, throwThe, MonadExceptOf.throw]
  · next hcondition => simp [hcondition]

theorem rest_of_ite_check {condition : Prop} [Decidable condition] {check : Except ε PUnit}
    {rest : PUnit → Except ε α} {a : α}
    (hok : (if condition then check >>= rest else rest ⟨⟩) = .ok a) : rest ⟨⟩ = .ok a := by
  split at hok
  · obtain ⟨_, -, hrest⟩ := bind_eq_ok.mp hok
    exact hrest
  · exact hok

theorem exceptMap_eq_ok {computation : Except ε α} {f : α → β} {b : β} :
    computation.map f = .ok b ↔ ∃ a, computation = .ok a ∧ f a = b :=
  map_eq_ok

@[simp]
theorem toOption_eq_some {computation : Except ε α} {a : α} :
    computation.toOption = some a ↔ computation = .ok a := by
  cases computation with
  | ok value => simp [Except.toOption]
  | error error => simp [Except.toOption]

theorem mapError_eq_ok {δ : Type u} {computation : Except ε α} {f : ε → δ} {a : α} :
    computation.mapError f = .ok a ↔ computation = .ok a := by
  cases computation with
  | error _ => simp [Except.mapError]
  | ok _ => simp [Except.mapError]

theorem check_of_forIn {body : α → PUnit → Except ε (ForInStep PUnit)} {list : List α} {result : PUnit}
    (hyield : ∀ a, ∀ step, body a ⟨⟩ = .ok step → step = .yield ⟨⟩)
    (hloop : forIn list ⟨⟩ body = .ok result) : ∀ a ∈ list, body a ⟨⟩ = .ok (.yield ⟨⟩) := by
  induction list with
  | nil => simp
  | cons a rest ih =>
      rw [List.forIn_cons] at hloop
      obtain ⟨step, hstep, hrest⟩ := bind_eq_ok.mp hloop
      obtain rfl := hyield a step hstep
      intro b hb
      obtain rfl | hb := List.mem_cons.mp hb
      · exact hstep
      · exact ih hrest b hb

theorem mapM_eq_ok_iff {step : α → Except ε β} {f : α → β} {list : List α} {results : List β}
    (hstep : ∀ a ∈ list, ∀ b, step a = .ok b → b = f a) :
    list.mapM step = .ok results ↔ results = list.map f ∧ ∀ a ∈ list, step a = .ok (f a) := by
  induction list generalizing results with
  | nil => simp [pure, Except.pure, eq_comm]
  | cons a rest ih =>
      have hrest := fun b hb => hstep b (List.mem_cons_of_mem _ hb)
      rw [List.mapM_cons, bind_eq_ok, List.map_cons, List.forall_mem_cons]
      constructor
      · rintro ⟨result, hresult, htail⟩
        obtain ⟨others, hothers, hresults⟩ := bind_eq_ok.mp htail
        obtain rfl := hstep a List.mem_cons_self result hresult
        obtain ⟨rfl, hall⟩ := (ih hrest).mp hothers
        exact ⟨(pure_eq_ok.mp hresults).symm, hresult, hall⟩
      · rintro ⟨rfl, hresult, hall⟩
        exact ⟨f a, hresult, bind_eq_ok.mpr ⟨rest.map f, (ih hrest).mpr ⟨rfl, hall⟩, rfl⟩⟩

section Parse

variable {parse : α → Except ε α} {rows parsed : List α}

/-- A parser that leaves what it accepts leaves the whole list. -/
theorem mapM_parse_eq_ok (hparse : ∀ row result, parse row = .ok result → result = row) :
    rows.mapM parse = .ok parsed ↔ parsed = rows ∧ ∀ row ∈ rows, parse row = .ok row := by
  induction rows generalizing parsed with
  | nil => simp [pure, Except.pure, eq_comm]
  | cons row rest ih =>
      rw [List.mapM_cons, bind_eq_ok]
      constructor
      · rintro ⟨result, hrow, hrest⟩
        obtain ⟨results, hresults, hparsed⟩ := bind_eq_ok.mp hrest
        obtain rfl := hparse row result hrow
        obtain ⟨rfl, hall⟩ := ih.mp hresults
        rw [pure_eq_ok] at hparsed
        refine ⟨hparsed.symm, ?_⟩
        intro other hother
        rcases List.mem_cons.mp hother with rfl | hother
        · exact hrow
        · exact hall other hother
      · rintro ⟨rfl, hall⟩
        refine ⟨row, hall row List.mem_cons_self, bind_eq_ok.mpr ⟨rest, ?_, rfl⟩⟩
        exact ih.mpr ⟨rfl, fun other hother => hall other (List.mem_cons_of_mem _ hother)⟩

end Parse

end Deckent
