import Deckent.Proof.FlowScheduler

/-!
# What a run of ticks fires

The scheduler keeps when a flow fired last, and a tick looks for the first minute to run behind it. No
tick leaves such a minute at or before its own time, so a tick fires exactly the flows that have fallen
due since the tick before it, with the earliest of their minutes, however long the ticks stayed away.
-/

namespace Deckent.ScheduledFlow

variable {formatter : String → Except String (Int → LocalDateTime)} {flow other : Flow}
  {flows : List Flow} {check : Int → Bool} {scheduler next : FlowScheduler} {now previous t : Int}

def FlowScheduler.lastRun (scheduler : FlowScheduler) (flow : Flow) : Int :=
  (scheduler.lastRunAt.get? flow.id).getD 0

/-- The ticks at these times, one after another. -/
def FlowScheduler.ticks (formatter : String → Except String (Int → LocalDateTime)) (flows : List Flow) :
    List Int → FlowScheduler → List (Except String (List DueFlow))
  | [], _ => []
  | now :: rest, scheduler =>
      let (due, scheduler) := scheduler.tick formatter flows now
      due :: scheduler.ticks formatter flows rest

/-! ### One tick -/

inductive Visited (check : Int → Bool) (scheduler : FlowScheduler) (now : Int) (flow : Flow)
    (found : Option Int) (next : FlowScheduler) : Prop
  | fired (t : Int) (hfirst : IsFirst check (nextMinute (scheduler.lastRun flow)) now t)
      (hfound : found = some t) (hlast : next.lastRun flow = now)
  | waits (hnone : ∀ t, ¬ IsFirst check (nextMinute (scheduler.lastRun flow)) now t)
      (hfound : found = none) (hlast : next.lastRun flow = scheduler.lastRun flow)

theorem FlowScheduler.visit_other (hother : other.id ≠ flow.id) {found : Option DueFlow}
    (hvisit : scheduler.visit formatter now other = .ok (found, next)) :
    next.lastRun flow = scheduler.lastRun flow ∧ ∀ due ∈ found, due.flow ≠ flow := by
  unfold FlowScheduler.visit at hvisit
  split at hvisit
  · cases hvisit
    exact ⟨rfl, by simp⟩
  · obtain ⟨occurrence, -, hrest⟩ := bind_eq_ok.mp hvisit
    split at hrest
    · cases hrest
      refine ⟨?_, ?_⟩
      · rw [FlowScheduler.lastRun, OrderedMap.get?_set, if_neg (Ne.symm hother)]
        rfl
      · rintro _ ⟨⟩ rfl
        exact hother rfl
    · cases hrest
      exact ⟨rfl, by simp⟩

theorem FlowScheduler.visit_self (hschedule : IsScheduleOf formatter flow check)
    (henabled : flow.enabled = true) (hlast : HasNext (scheduler.lastRun flow))
    {found : Option DueFlow} (hvisit : scheduler.visit formatter now flow = .ok (found, next)) :
    ∃ t, found = t.map (fun t => { flow := flow, nextRun := some t })
      ∧ Visited check scheduler now flow t next := by
  rw [FlowScheduler.visit, henabled] at hvisit
  obtain ⟨occurrence, hoccurrence, hrest⟩ := bind_eq_ok.mp hvisit
  obtain ⟨t, rfl, hfirst⟩ := hschedule.nextRun_isFirst hlast hoccurrence
  split at hrest
  · rename_i hdue
    cases hrest
    simp only [atOrBefore, Option.any_some, decide_eq_true_eq] at hdue
    refine ⟨some t, rfl, .fired t { hfirst with le_last := hdue } rfl ?_⟩
    rw [FlowScheduler.lastRun, OrderedMap.get?_set, if_pos rfl, Option.getD_some]
  · rename_i hlate
    cases hrest
    simp only [atOrBefore, Option.any_some, decide_eq_true_eq, not_le] at hlate
    refine ⟨none, rfl, .waits (fun m hm => ?_) rfl rfl⟩
    obtain rfl := hm.unique hfirst
    exact absurd hm.le_last (not_le.mpr hlate)

theorem FlowScheduler.tickFrom_absent (habsent : flow.id ∉ flows.map Flow.id)
    {due fired : List DueFlow}
    (htick : scheduler.tickFrom formatter now due flows = (.ok fired, next)) :
    next.lastRun flow = scheduler.lastRun flow
      ∧ ∀ occurrence, ({ flow := flow, nextRun := occurrence } : DueFlow) ∈ fired
        ↔ { flow := flow, nextRun := occurrence } ∈ due := by
  induction flows generalizing scheduler due with
  | nil =>
      cases htick
      exact ⟨rfl, fun occurrence => mem_sortBy⟩
  | cons first rest ih =>
      rw [List.map_cons, List.mem_cons, not_or] at habsent
      rw [FlowScheduler.tickFrom] at htick
      split at htick
      · cases htick
      · rename_i found after hvisit
        obtain ⟨hlast, hfound⟩ := FlowScheduler.visit_other (Ne.symm habsent.1) hvisit
        obtain ⟨hrest, hmem⟩ := ih habsent.2 htick
        refine ⟨hrest.trans hlast, fun occurrence => ?_⟩
        rw [hmem, List.mem_append, or_iff_left]
        exact fun hin => hfound _ (Option.mem_toList.mp hin) rfl

theorem FlowScheduler.tickFrom_present (hids : (flows.map Flow.id).Nodup) (hflow : flow ∈ flows)
    (hschedule : IsScheduleOf formatter flow check) (henabled : flow.enabled = true)
    (hlast : HasNext (scheduler.lastRun flow)) {due fired : List DueFlow}
    (hdue : ∀ occurrence, ({ flow := flow, nextRun := occurrence } : DueFlow) ∉ due)
    (htick : scheduler.tickFrom formatter now due flows = (.ok fired, next)) :
    ∃ found, Visited check scheduler now flow found next
      ∧ ∀ t, ({ flow := flow, nextRun := some t } : DueFlow) ∈ fired ↔ found = some t := by
  induction flows generalizing scheduler due with
  | nil => exact absurd hflow List.not_mem_nil
  | cons first rest ih =>
      obtain ⟨hfresh, hids⟩ := List.nodup_cons.mp hids
      rw [FlowScheduler.tickFrom] at htick
      split at htick
      · cases htick
      · rename_i found after hvisit
        rcases List.mem_cons.mp hflow with rfl | hrest
        · obtain ⟨t, rfl, hvisited⟩ := FlowScheduler.visit_self hschedule henabled hlast hvisit
          obtain ⟨hafter, hmem⟩ := FlowScheduler.tickFrom_absent hfresh htick
          refine ⟨t, ?_, fun m => ?_⟩
          · cases hvisited with
            | fired t hfirst hfound hset => exact .fired t hfirst hfound (hafter.trans hset)
            | waits hnone hfound hkept => exact .waits hnone hfound (hafter.trans hkept)
          · rw [hmem, List.mem_append, or_iff_right (hdue _)]
            cases t <;> simp [eq_comm]
        · have hne : first.id ≠ flow.id := by
            rintro heq
            exact hfresh (heq ▸ List.mem_map_of_mem hrest)
          obtain ⟨hkept, hfound⟩ := FlowScheduler.visit_other hne hvisit
          obtain ⟨answer, hvisited, hmem⟩ := ih hids hrest (hkept ▸ hlast) (fun occurrence hin => by
            rcases List.mem_append.mp hin with hold | hnew
            · exact hdue occurrence hold
            · exact hfound _ (Option.mem_toList.mp hnew) rfl) htick
          refine ⟨answer, ?_, hmem⟩
          cases hvisited with
          | fired t hfirst hanswer hset => exact .fired t (hkept ▸ hfirst) hanswer hset
          | waits hnone hanswer hlater => exact .waits (hkept ▸ hnone) hanswer (hlater.trans hkept)

/-! ### Ticks one after another -/

structure CaughtUp (check : Int → Bool) (last previous : Int) : Prop where
  le : last ≤ previous
  none : ∀ m, last < m → m ≤ previous → IsMinute m → check m = false

theorem CaughtUp.isFirst_iff {last : Int} (h : CaughtUp check last previous) :
    IsFirst check (nextMinute last) now t ↔ IsFirst check (nextMinute previous) now t := by
  constructor
  · intro hfirst
    have hlater : previous < t := by
      by_contra hnot
      have := h.none t ((nextMinute_le_iff hfirst.isMinute).mp hfirst.le) (not_lt.mp hnot) hfirst.isMinute
      rw [hfirst.holds] at this
      exact nomatch this
    refine { hfirst with le := (nextMinute_le_iff hfirst.isMinute).mpr hlater, first := ?_ }
    intro earlier hle hlt hminute
    exact hfirst.first earlier ((nextMinute_le_iff hminute).mpr
      (h.le.trans_lt ((nextMinute_le_iff hminute).mp hle))) hlt hminute
  · intro hfirst
    have hlater := (nextMinute_le_iff hfirst.isMinute).mp hfirst.le
    refine { hfirst with le := (nextMinute_le_iff hfirst.isMinute).mpr (h.le.trans_lt hlater), first := ?_ }
    intro earlier hle hlt hminute
    rcases lt_or_ge previous earlier with hbehind | hbefore
    · exact hfirst.first earlier ((nextMinute_le_iff hminute).mpr hbehind) hlt hminute
    · exact h.none earlier ((nextMinute_le_iff hminute).mp hle) hbefore hminute

theorem Visited.caughtUp {found : Option Int} (h : Visited check scheduler now flow found next)
    (hle : scheduler.lastRun flow ≤ now) : CaughtUp check (next.lastRun flow) now := by
  cases h with
  | fired t _ _ hlast =>
      rw [hlast]
      exact ⟨le_rfl, fun m hlt hle => absurd hlt (not_lt.mpr hle)⟩
  | waits hnone _ hlast =>
      rw [hlast]
      refine ⟨hle, fun m hlt hlate hminute => Bool.eq_false_iff.mpr fun hcheck => ?_⟩
      obtain ⟨t, hfirst, -⟩ := exists_isFirst check (isMinute_nextMinute _)
        ((nextMinute_le_iff hminute).mpr hlt) hlate hminute hcheck
      exact hnone t hfirst

theorem Visited.found_iff {found : Option Int} (h : Visited check scheduler now flow found next) :
    found = some t ↔ IsFirst check (nextMinute (scheduler.lastRun flow)) now t := by
  cases h with
  | fired first hfirst hfound _ =>
      rw [hfound, Option.some.injEq]
      exact ⟨fun heq => heq ▸ hfirst, fun hother => hfirst.unique hother⟩
  | waits hnone hfound _ => simp [hfound, hnone]

theorem CaughtUp.ticks (hids : (flows.map Flow.id).Nodup) (hflow : flow ∈ flows)
    (hschedule : IsScheduleOf formatter flow check) (henabled : flow.enabled = true) {start : Int}
    {times : List Int} (hsorted : (start :: times).Pairwise (· ≤ ·))
    (hrange : ∀ now ∈ times, nextMinute now ≤ maxTime) (hlast : HasNext (scheduler.lastRun flow))
    (hstart : 0 ≤ start) (hcaught : CaughtUp check (scheduler.lastRun flow) start)
    {fired : List (List DueFlow)} (hok : scheduler.ticks formatter flows times = fired.map .ok)
    {i : Nat} {due : List DueFlow} (hprevious : (start :: times)[i]? = some previous)
    (hnow : times[i]? = some now) (hdue : fired[i]? = some due) :
    ({ flow := flow, nextRun := some t } : DueFlow) ∈ due
      ↔ IsFirst check (nextMinute previous) now t := by
  induction times generalizing scheduler start fired i with
  | nil => exact absurd hnow (by simp)
  | cons first rest ih =>
      obtain ⟨hle, hsorted⟩ := List.pairwise_cons.mp hsorted
      have hfirst := hle first List.mem_cons_self
      cases fired with
      | nil => exact absurd hdue (by simp)
      | cons answer later =>
          rw [List.map_cons, FlowScheduler.ticks] at hok
          obtain ⟨htick, hrest⟩ := List.cons.inj hok
          obtain ⟨found, hvisited, hmem⟩ := FlowScheduler.tickFrom_present hids hflow hschedule henabled
            hlast (fun _ => List.not_mem_nil) (Prod.ext htick rfl)
          cases i with
          | zero =>
              obtain rfl := Option.some.inj hprevious
              obtain rfl := Option.some.inj hnow
              obtain rfl := Option.some.inj hdue
              rw [hmem, hvisited.found_iff, hcaught.isFirst_iff]
          | succ i =>
              have hnext : HasNext first := by
                have hfits := hrange first List.mem_cons_self
                refine ⟨⟨?_, ?_⟩, hfits⟩ <;>
                  simp only [nextMinute, maxTime, msPerMinute] at * <;> omega
              refine ih hsorted (fun now hin => hrange now (List.mem_cons_of_mem _ hin)) ?_
                (hstart.trans hfirst) (hvisited.caughtUp (hcaught.le.trans hfirst)) hrest hprevious hnow
                hdue
              cases hvisited with
              | fired _ _ _ hset =>
                  rw [hset]
                  exact hnext
              | waits _ _ hkept =>
                  rw [hkept]
                  exact hlast

/-- In a run of ticks that all return, each tick fires a flow exactly when a minute to run has come since
the tick before it, and it does so with the earliest one. -/
theorem ticks_exact (hids : (flows.map Flow.id).Nodup) (hflow : flow ∈ flows)
    (hschedule : IsScheduleOf formatter flow check) (henabled : flow.enabled = true)
    {times : List Int} (hsorted : (0 :: times).Pairwise (· ≤ ·))
    (hrange : ∀ now ∈ times, nextMinute now ≤ maxTime) {fired : List (List DueFlow)}
    (hok : FlowScheduler.ticks formatter flows times {} = fired.map .ok) {i : Nat} {due : List DueFlow}
    (hprevious : (0 :: times)[i]? = some previous) (hnow : times[i]? = some now)
    (hdue : fired[i]? = some due) :
    ({ flow := flow, nextRun := some t } : DueFlow) ∈ due
      ↔ IsFirst check (nextMinute previous) now t := by
  have hepoch : HasNext 0 := ⟨⟨by decide, by decide⟩, by decide⟩
  have hcaught : CaughtUp check 0 0 := ⟨le_rfl, fun m hlt hle => absurd hlt (not_lt.mpr hle)⟩
  exact @CaughtUp.ticks _ _ _ check {} _ _ t hids hflow hschedule henabled 0 times hsorted hrange hepoch
    le_rfl hcaught _ hok _ _ hprevious hnow hdue

/-- Ticks after seven, fifty and fifty-five minutes: of the three quarters that have come at the second
tick it fires the first, and the third tick fires nothing. -/
theorem ticks_exact_quarters : IsFirst (matchesUtc quarters) (nextMinute 420000) 3000000 900000 := by
  have hok : FlowScheduler.ticks utcOnly [quarterFlow] [420000, 3000000, 3300000] {}
      = [[], [{ flow := quarterFlow, nextRun := some 900000 }], []].map .ok := by decide +kernel
  have hids : ([quarterFlow].map Flow.id).Nodup := by decide
  exact (ticks_exact hids (List.mem_singleton_self quarterFlow)
    quarterFlow_schedule rfl (by decide) (by decide) hok (i := 1) rfl rfl rfl).mp
      (List.mem_singleton_self _)

end Deckent.ScheduledFlow
