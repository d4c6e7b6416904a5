/-!
# Replaying a log of events

A state machine is a function that takes a state and an event to the next state or to an error. A log
replays from a state when every event of it is accepted in turn. Facts about reachable states are
proved along the log that leads to them, so that they may speak of the events that occurred.
-/

namespace Deckent

universe u v w

variable {σ : Type u} {ε : Type v} {χ : Type w}

/-- Apply the events in turn until one is refused. -/
def replay (reduce : σ → ε → Except χ σ) : σ → List ε → Except χ σ
  | state, [] => .ok state
  | state, event :: rest =>
      match reduce state event with
      | .ok next => replay reduce next rest
      | .error error => .error error

variable {reduce : σ → ε → Except χ σ}

@[simp]
theorem replay_nil (state : σ) : replay reduce state [] = .ok state := rfl

theorem replay_cons_ok {state final : σ} {event : ε} {rest : List ε} :
    replay reduce state (event :: rest) = .ok final
      ↔ ∃ next, reduce state event = .ok next ∧ replay reduce next rest = .ok final := by
  rw [replay]
  cases hstep : reduce state event with
  | ok next => simp
  | error error => simp

theorem replay_append_ok {state final : σ} {before after : List ε} :
    replay reduce state (before ++ after) = .ok final
      ↔ ∃ middle, replay reduce state before = .ok middle
        ∧ replay reduce middle after = .ok final := by
  induction before generalizing state with
  | nil => simp
  | cons event rest ih =>
      rw [List.cons_append, replay_cons_ok]
      constructor
      · rintro ⟨next, hstep, hrest⟩
        obtain ⟨middle, hmiddle, hfinal⟩ := ih.mp hrest
        exact ⟨middle, replay_cons_ok.mpr ⟨next, hstep, hmiddle⟩, hfinal⟩
      · rintro ⟨middle, hmiddle, hfinal⟩
        obtain ⟨next, hstep, hrest⟩ := replay_cons_ok.mp hmiddle
        exact ⟨next, hstep, ih.mpr ⟨middle, hrest, hfinal⟩⟩

theorem replay_concat_ok {state final : σ} {events : List ε} {event : ε} :
    replay reduce state (events ++ [event]) = .ok final
      ↔ ∃ middle, replay reduce state events = .ok middle ∧ reduce middle event = .ok final := by
  rw [replay_append_ok]
  apply exists_congr
  intro middle
  rw [replay_cons_ok]
  simp

theorem replay_of_append {state final : σ} {before after : List ε}
    (hreplay : replay reduce state (before ++ after) = .ok final) :
    ∃ middle, replay reduce state before = .ok middle := by
  obtain ⟨middle, hmiddle, -⟩ := replay_append_ok.mp hreplay
  exact ⟨middle, hmiddle⟩

/-- What holds of the empty log and is kept by every accepted event holds of every log that replays. -/
theorem replay_induction {start : σ} {motive : List ε → σ → Prop} (hstart : motive [] start)
    (hstep : ∀ events state event next, replay reduce start events = .ok state →
      motive events state → reduce state event = .ok next → motive (events ++ [event]) next)
    {events : List ε} {state : σ} (hreplay : replay reduce start events = .ok state) :
    motive events state := by
  suffices hgeneral : ∀ rest done middle, replay reduce start done = .ok middle →
      motive done middle → replay reduce middle rest = .ok state → motive (done ++ rest) state by
    exact hgeneral events [] start rfl hstart hreplay
  intro rest
  induction rest with
  | nil =>
      intro done middle _ hmotive hrest
      obtain rfl : middle = state := by simpa using hrest
      rwa [List.append_nil]
  | cons event rest ih =>
      intro done middle hdone hmotive hrest
      obtain ⟨next, hevent, hrest⟩ := replay_cons_ok.mp hrest
      have hnext := ih (done ++ [event]) next (replay_concat_ok.mpr ⟨middle, hdone, hevent⟩)
        (hstep done middle event next hdone hmotive hevent) hrest
      rwa [List.append_assoc, List.singleton_append] at hnext

/-! ### Replicas of a log -/

structure FoldsTo (reduce : σ → ε → Except χ σ) (start : σ) (log : List ε) (count : Nat)
    (state : σ) : Prop where
  le_length : count ≤ log.length
  replay_take : replay reduce start (log.take count) = .ok state

section Replica

variable {start state next : σ} {log more : List ε} {count : Nat}

theorem foldsTo_zero : FoldsTo reduce start log 0 start :=
  ⟨Nat.zero_le _, rfl⟩

theorem FoldsTo.mono (hfolds : FoldsTo reduce start log count state) :
    FoldsTo reduce start (log ++ more) count state := by
  constructor
  · rw [List.length_append]
    exact Nat.le_trans hfolds.le_length (Nat.le_add_right _ _)
  · rw [List.take_append_of_le_length hfolds.le_length]
    exact hfolds.replay_take

theorem FoldsTo.advance (hfolds : FoldsTo reduce start log count state) (hmore : more <+: log.drop count)
    (hreplay : replay reduce state more = .ok next) :
    FoldsTo reduce start log (count + more.length) next := by
  have hlength := hmore.length_le
  rw [List.length_drop] at hlength
  have hle := hfolds.le_length
  constructor
  · omega
  · have htake : log.take (count + more.length) = log.take count ++ more := by
      rw [List.take_add, List.prefix_iff_eq_take.mp hmore, List.length_take, List.length_drop,
        Nat.min_eq_left hlength]
    rw [htake, replay_append_ok]
    exact ⟨state, hfolds.replay_take, hreplay⟩

theorem FoldsTo.replay_append (hfolds : FoldsTo reduce start log log.length state)
    (hreplay : replay reduce state more = .ok next) :
    replay reduce start (log ++ more) = .ok next := by
  apply replay_append_ok.mpr
  refine ⟨state, ?_, hreplay⟩
  simpa using hfolds.replay_take

theorem FoldsTo.accepts (hfolds : FoldsTo reduce start log count state)
    (hreplays : ∃ final, replay reduce start log = .ok final) {event : ε} {rest : List ε}
    (hrest : log.drop count = event :: rest) : ∃ next, reduce state event = .ok next := by
  obtain ⟨final, hfinal⟩ := hreplays
  rw [← List.take_append_drop count log, hrest, replay_append_ok] at hfinal
  obtain ⟨middle, hmiddle, hafter⟩ := hfinal
  obtain rfl : middle = state := by simpa [hfolds.replay_take] using hmiddle.symm
  obtain ⟨next, hstep, -⟩ := replay_cons_ok.mp hafter
  exact ⟨next, hstep⟩

theorem FoldsTo.eq_length (hfolds : FoldsTo reduce start log count state)
    (hreplays : ∃ final, replay reduce start log = .ok final)
    (hstuck : ∀ event next, reduce state event ≠ .ok next) : count = log.length := by
  cases hrest : log.drop count with
  | nil =>
      have hlength := congrArg List.length hrest
      rw [List.length_drop, List.length_nil] at hlength
      have hle := hfolds.le_length
      omega
  | cons event rest =>
      obtain ⟨next, hstep⟩ := hfolds.accepts hreplays hrest
      exact absurd hstep (hstuck event next)

end Replica

/-! ### Conditions along a log -/

def Along (reduce : σ → ε → Except χ σ) (condition : σ → ε → Prop) : σ → List ε → Prop
  | _, [] => True
  | state, event :: rest =>
      condition state event
        ∧ match reduce state event with
          | .ok next => Along reduce condition next rest
          | .error _ => True

variable {condition : σ → ε → Prop}

instance decidableAlong [∀ state event, Decidable (condition state event)] :
    ∀ state events, Decidable (Along reduce condition state events)
  | _, [] => isTrue trivial
  | state, event :: rest =>
      have : Decidable (match reduce state event with
          | .ok next => Along reduce condition next rest
          | .error _ => True) :=
        match reduce state event with
        | .ok next => decidableAlong next rest
        | .error _ => isTrue trivial
      inferInstanceAs (Decidable (condition state event ∧ _))

theorem along_cons {state : σ} {event : ε} {rest : List ε} :
    Along reduce condition state (event :: rest)
      ↔ condition state event
        ∧ ∀ next, reduce state event = .ok next → Along reduce condition next rest := by
  rw [Along]
  cases hstep : reduce state event with
  | ok next => simp
  | error error => simp

theorem along_concat {state : σ} {events : List ε} {event : ε} :
    Along reduce condition state (events ++ [event])
      ↔ Along reduce condition state events
        ∧ ∀ middle, replay reduce state events = .ok middle → condition middle event := by
  induction events generalizing state with
  | nil => simp [along_cons, Along]
  | cons first rest ih =>
      rw [List.cons_append, along_cons, along_cons, and_assoc]
      apply and_congr_right
      intro _
      simp only [ih, replay_cons_ok]
      constructor
      · intro hrest
        constructor
        · intro next hstep
          exact (hrest next hstep).1
        · rintro middle ⟨next, hstep, hmiddle⟩
          exact (hrest next hstep).2 middle hmiddle
      · rintro ⟨halong, hevent⟩ next hstep
        exact ⟨halong next hstep, fun middle hmiddle => hevent middle ⟨next, hstep, hmiddle⟩⟩

/-! ### Heads -/

theorem le_foldl_max {list : List Nat} {x start : Nat} (hx : x ∈ list ∨ x ≤ start) :
    x ≤ list.foldl max start := by
  induction list generalizing start with
  | nil => exact hx.resolve_left List.not_mem_nil
  | cons y rest ih =>
      apply ih
      rcases hx with hmem | hstart
      · rcases List.mem_cons.mp hmem with rfl | hrest
        · exact .inr (Nat.le_max_right start x)
        · exact .inl hrest
      · exact .inr (Nat.le_trans hstart (Nat.le_max_left start y))

/-! ### What each event owes to the ones before it -/

section Owes

variable {owes : List ε → ε → Prop} {log : List ε} {event : ε}

def EachOwes (owes : List ε → ε → Prop) (log : List ε) : Prop :=
  ∀ earlier event later, log = earlier ++ event :: later → owes earlier event

theorem concat_eq_append_cons {list before rest : List ε} {last x : ε}
    (heq : list ++ [last] = before ++ x :: rest) :
    (rest = [] ∧ x = last ∧ before = list) ∨ ∃ others, rest = others ++ [last]
      ∧ list = before ++ x :: others := by
  rcases List.eq_nil_or_concat rest with rfl | ⟨others, final, rfl⟩
  · obtain ⟨rfl, hlast⟩ := List.append_inj' heq rfl
    exact .inl ⟨rfl, (List.singleton_inj.mp hlast).symm, rfl⟩
  · rw [List.concat_eq_append] at heq ⊢
    rw [← List.cons_append, ← List.append_assoc] at heq
    obtain ⟨hlist, hlast⟩ := List.append_inj' heq rfl
    obtain rfl := List.singleton_inj.mp hlast
    exact .inr ⟨others, rfl, hlist⟩

theorem eachOwes_nil : EachOwes owes [] := by
  intro earlier event later heq
  cases earlier <;> cases heq

theorem EachOwes.concat (hlog : EachOwes owes log) (hevent : owes log event) :
    EachOwes owes (log ++ [event]) := by
  intro earlier other later heq
  rcases concat_eq_append_cons heq with ⟨-, rfl, rfl⟩ | ⟨others, -, hsplit⟩
  · exact hevent
  · exact hlog earlier other others hsplit

end Owes

end Deckent
