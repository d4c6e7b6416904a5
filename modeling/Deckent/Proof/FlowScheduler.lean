import Deckent.Model.FlowScheduler
import Deckent.Proof.ScheduledFlow

/-!
# No occurrence is missed

Each occurrence that a catch-up finds is the first one behind the occurrence before it, so nothing is
left out between them, and the cursor of a consumer goes from one occurrence to the next. However often
the consumer dies, the occurrences that moved its cursor are all there were, each once and in order.
-/

namespace Deckent.ScheduledFlow

variable {formatter : String → Except String (Int → LocalDateTime)} {flow : Flow} {check : Int → Bool}
  {after now : Int}

/-- The minutes at which a flow is to run, by its fields in UTC or in its time zone. -/
def IsScheduleOf (formatter : String → Except String (Int → LocalDateTime)) (flow : Flow)
    (check : Int → Bool) : Prop :=
  ∃ parsed, parseCronExpr flow.cronExpr = .ok parsed
    ∧ match flow.timezone with
      | none => check = matchesUtc parsed
      | some timezone => ∃ localDateTime, formatter timezone = .ok localDateTime
          ∧ check = fun m => parsed.matchesLocal (localDateTime m)

def HasNext (cursor : Int) : Prop := IsDate cursor ∧ nextMinute cursor ≤ maxTime

theorem IsScheduleOf.nextRun_isFirst (hschedule : IsScheduleOf formatter flow check) {cursor : Int}
    (hcursor : HasNext cursor) {found : Option Int}
    (hfound : nextRun formatter flow.cronExpr (some cursor) flow.timezone = .ok found) :
    ∃ t, found = some t ∧ IsFirst check (nextMinute cursor) maxTime t := by
  obtain ⟨parsed, hparse, hzone⟩ := hschedule
  cases htimezone : flow.timezone with
  | none =>
      rw [htimezone] at hzone hfound
      subst hzone
      exact isFirst_of_nextRun hcursor.1 hparse hcursor.2 hfound
  | some timezone =>
      rw [htimezone] at hzone hfound
      obtain ⟨localDateTime, hformatter, rfl⟩ := hzone
      obtain ⟨t, rfl, -, hfirst⟩ := (nextRun_timezone_iff hcursor.1 hparse hformatter).mp hfound
      exact ⟨t, rfl, hfirst⟩

/-! ### Occurrences one after another -/

def Consecutive (check : Int → Bool) : Int → List Int → Prop
  | _, [] => True
  | cursor, t :: rest => IsFirst check (nextMinute cursor) maxTime t ∧ Consecutive check t rest

theorem getLast?_cons_getD {cursor t : Int} {rest : List Int} :
    (t :: rest).getLast?.getD cursor = rest.getLast?.getD t := by
  cases rest with
  | nil => rfl
  | cons _ _ => simp [List.getLast?_cons]

theorem consecutive_append {cursor : Int} {times more : List Int} :
    Consecutive check cursor (times ++ more)
      ↔ Consecutive check cursor times ∧ Consecutive check (times.getLast?.getD cursor) more := by
  induction times generalizing cursor with
  | nil => simp [Consecutive]
  | cons t rest ih =>
      rw [List.cons_append, Consecutive, Consecutive, ih, and_assoc, getLast?_cons_getD]

theorem Consecutive.exact {cursor : Int} {times : List Int} (h : Consecutive check cursor times) :
    cursor ≤ times.getLast?.getD cursor ∧ times.Pairwise (· < ·)
      ∧ ∀ m, m ∈ times
        ↔ cursor < m ∧ m ≤ times.getLast?.getD cursor ∧ IsMinute m ∧ check m = true := by
  induction times generalizing cursor with
  | nil =>
      refine ⟨le_rfl, List.Pairwise.nil, fun m => ⟨fun hm => absurd hm List.not_mem_nil, ?_⟩⟩
      rintro ⟨hlt, hle, -⟩
      exact absurd hlt (not_lt.mpr hle)
  | cons t rest ih =>
      obtain ⟨hfirst, hrest⟩ := h
      obtain ⟨hlast, hsorted, hmem⟩ := ih hrest
      have hlt : cursor < t := (nextMinute_le_iff hfirst.isMinute).mp hfirst.le
      rw [getLast?_cons_getD]
      refine ⟨hlt.le.trans hlast, List.pairwise_cons.mpr ⟨fun m hm => ((hmem m).mp hm).1, hsorted⟩,
        fun m => ?_⟩
      rw [List.mem_cons, hmem]
      constructor
      · rintro (rfl | ⟨hbehind, hrest⟩)
        · exact ⟨hlt, hlast, hfirst.isMinute, hfirst.holds⟩
        · exact ⟨hlt.trans hbehind, hrest⟩
      · rintro ⟨hbehind, hle, hminute, hcheck⟩
        rcases lt_trichotomy m t with hbefore | rfl | hafter
        · have hnot := hfirst.first m ((nextMinute_le_iff hminute).mpr hbehind) hbefore hminute
          rw [hcheck] at hnot
          exact nomatch hnot
        · exact .inl rfl
        · exact .inr ⟨hafter, hle, hminute, hcheck⟩

theorem HasNext.of_isFirst {cursor t : Int} (hcursor : HasNext cursor) (hnow : nextMinute now ≤ maxTime)
    (hfirst : IsFirst check (nextMinute cursor) maxTime t) (hle : t ≤ now) : HasNext t := by
  have hlow := (neg_maxTime_le_nextMinute hcursor.1).trans hfirst.le
  refine ⟨⟨hlow, hfirst.le_last⟩, le_trans ?_ hnow⟩
  simp only [nextMinute, msPerMinute]
  omega

theorem Consecutive.hasNext {cursor : Int} {times : List Int} (h : Consecutive check cursor times)
    (hcursor : HasNext cursor) (hnow : nextMinute now ≤ maxTime) (hbefore : ∀ t ∈ times, t ≤ now) :
    HasNext (times.getLast?.getD cursor) := by
  induction times generalizing cursor with
  | nil => exact hcursor
  | cons t rest ih =>
      rw [getLast?_cons_getD]
      obtain ⟨hle, hrest⟩ := List.forall_mem_cons.mp hbefore
      exact ih h.2 (hcursor.of_isFirst hnow h.1 hle) hrest

theorem IsScheduleOf.missedFrom (hschedule : IsScheduleOf formatter flow check)
    (hnow : nextMinute now ≤ maxTime) {maxOccurrences turns : Nat} {cursor : Int}
    (hcursor : HasNext cursor) {due : List DueFlow}
    (hok : missedFrom formatter flow now maxOccurrences turns (some cursor) = .ok due) :
    ∃ times : List Int, due = times.map (fun t => { flow := flow, nextRun := some t })
      ∧ times.length ≤ turns ∧ Consecutive check cursor times ∧ (∀ t ∈ times, t ≤ now)
      ∧ ∀ m, times.getLast?.getD cursor < m → m ≤ now → IsMinute m → check m = false := by
  have hnone {cursor t : Int} (hfirst : IsFirst check (nextMinute cursor) maxTime t) (hlate : now < t)
      {m : Int} (hlt : cursor < m) (hle : m ≤ now) (hminute : IsMinute m) : check m = false :=
    hfirst.first m ((nextMinute_le_iff hminute).mpr hlt) (hle.trans_lt hlate) hminute
  induction turns generalizing cursor due with
  | zero =>
      obtain ⟨found, hfound, hrest⟩ := bind_eq_ok.mp hok
      obtain ⟨t, rfl, hfirst⟩ := hschedule.nextRun_isFirst hcursor hfound
      split at hrest
      · exact nomatch hrest
      · rename_i hlate
        obtain rfl := Except.ok.inj hrest
        simp only [atOrBefore, Option.any_some, decide_eq_true_eq, not_le] at hlate
        exact ⟨[], rfl, le_rfl, trivial, nofun, fun m hlt hle hminute => hnone hfirst hlate hlt hle hminute⟩
  | succ turns ih =>
      obtain ⟨found, hfound, hrest⟩ := bind_eq_ok.mp hok
      obtain ⟨t, rfl, hfirst⟩ := hschedule.nextRun_isFirst hcursor hfound
      split at hrest
      · rename_i hlate
        obtain rfl := Except.ok.inj hrest
        simp only [isAfter, Option.any_some, decide_eq_true_eq] at hlate
        exact ⟨[], rfl, Nat.zero_le _, trivial, nofun,
          fun m hlt hle hminute => hnone hfirst hlate hlt hle hminute⟩
      · rename_i hdue
        simp only [isAfter, Option.any_some, decide_eq_true_eq, not_lt] at hdue
        obtain ⟨later, hlater, hdone⟩ := bind_eq_ok.mp hrest
        obtain rfl := Except.ok.inj hdone
        obtain ⟨times, rfl, hlength, hconsecutive, hbefore, hmissing⟩ :=
          ih (hcursor.of_isFirst hnow hfirst hdue) hlater
        refine ⟨t :: times, rfl, Nat.succ_le_succ hlength, ⟨hfirst, hconsecutive⟩, ?_, ?_⟩
        · simpa using ⟨hdue, hbefore⟩
        · rwa [getLast?_cons_getD]

theorem IsScheduleOf.missedOccurrences (hschedule : IsScheduleOf formatter flow check)
    (hnow : nextMinute now ≤ maxTime) {maxOccurrences : Nat} (hafter : HasNext after)
    {due : List DueFlow} (hok : missedOccurrences formatter flow after now maxOccurrences = .ok due) :
    ∃ times : List Int, due = times.map (fun t => { flow := flow, nextRun := some t })
      ∧ times.length ≤ maxOccurrences ∧ Consecutive check after times ∧ (∀ t ∈ times, t ≤ now)
      ∧ (flow.enabled = true → ∀ m, times.getLast?.getD after < m → m ≤ now → IsMinute m → check m = false) := by
  unfold ScheduledFlow.missedOccurrences at hok
  split at hok
  · rename_i hdisabled
    obtain rfl := Except.ok.inj hok
    exact ⟨[], rfl, Nat.zero_le _, trivial, nofun, fun henabled => by simp [henabled] at hdisabled⟩
  · split at hok
    · exact nomatch hok
    · obtain ⟨times, hdue, hlength, hconsecutive, hbefore, hmissing⟩ :=
        hschedule.missedFrom hnow hafter hok
      exact ⟨times, hdue, hlength, hconsecutive, hbefore, fun _ => hmissing⟩

/-- A catch-up that returns has found every minute to run behind the cursor and up to now, in order and none twice;
it never leaves one out to stay within its limit. -/
theorem missedOccurrences_exact (hschedule : IsScheduleOf formatter flow check)
    (henabled : flow.enabled = true) (hafter : HasNext after) (hnow : nextMinute now ≤ maxTime)
    {maxOccurrences : Nat} {due : List DueFlow}
    (hok : missedOccurrences formatter flow after now maxOccurrences = .ok due) :
    ∃ times : List Int, due = times.map (fun t => { flow := flow, nextRun := some t })
      ∧ times.Pairwise (· < ·) ∧ times.length ≤ maxOccurrences
      ∧ ∀ m, m ∈ times ↔ after < m ∧ m ≤ now ∧ IsMinute m ∧ check m = true := by
  obtain ⟨times, hdue, hlength, hconsecutive, hbefore, hmissing⟩ :=
    hschedule.missedOccurrences hnow hafter hok
  obtain ⟨-, hsorted, hmem⟩ := hconsecutive.exact
  refine ⟨times, hdue, hsorted, hlength, fun m => ⟨fun hm => ?_, ?_⟩⟩
  · obtain ⟨hlt, -, hrun⟩ := (hmem m).mp hm
    exact ⟨hlt, hbefore m hm, hrun⟩
  · rintro ⟨hlt, hle, hminute, hcheck⟩
    refine (hmem m).mpr ⟨hlt, ?_, hminute, hcheck⟩
    by_contra hlate
    have hnot := hmissing henabled m (not_le.mp hlate) hle hminute
    rw [hcheck] at hnot
    exact nomatch hnot

/-! ### A consumer that dies -/

variable {createdAt : Int}

/-- The cursor stands at the last of the occurrences that moved it, and none was left out. -/
structure WatchFlow.Sound (check : Int → Bool) (createdAt : Int) (watch : WatchFlow) : Prop where
  consecutive : Consecutive check createdAt watch.settled
  cursor : watch.cursor = watch.settled.getLast?
  next : HasNext (watch.cursor.getD createdAt)

theorem WatchFlow.foldl_settle (watch : WatchFlow) (flow : Flow) (times : List Int) :
    (times.map fun t => ({ flow := flow, nextRun := some t } : DueFlow)).foldl
        (fun watch occurrence => watch.settle occurrence.nextRun) watch
      = { cursor := times.getLast?.or watch.cursor, settled := watch.settled ++ times } := by
  induction times generalizing watch with
  | nil => simp
  | cons t rest ih =>
      rw [List.map_cons, List.foldl_cons, ih]
      cases rest with
      | nil => simp [WatchFlow.settle]
      | cons _ _ => simp [WatchFlow.settle, List.getLast?_cons]

theorem WatchFlow.Sound.runWatchFlow {watch : WatchFlow} (h : watch.Sound check createdAt)
    (hschedule : IsScheduleOf formatter flow check) (hnow : nextMinute now ≤ maxTime) (worked : Nat) :
    (runWatchFlow formatter flow createdAt now worked watch).Sound check createdAt := by
  unfold ScheduledFlow.runWatchFlow
  cases hok : ScheduledFlow.missedOccurrences formatter flow (watch.cursor.getD createdAt) now 10000 with
  | error _ => exact h
  | ok due =>
      obtain ⟨times, rfl, -, hconsecutive, hbefore, -⟩ := hschedule.missedOccurrences hnow h.next hok
      have hworked : Consecutive check (watch.cursor.getD createdAt) (times.take worked) := by
        rw [← List.take_append_drop worked times] at hconsecutive
        exact (consecutive_append.mp hconsecutive).1
      dsimp only
      rw [← List.map_take, WatchFlow.foldl_settle]
      refine ⟨consecutive_append.mpr ⟨h.consecutive, h.cursor ▸ hworked⟩,
        by rw [h.cursor, List.getLast?_append], ?_⟩
      have hnext := hworked.hasNext h.next hnow fun t ht => hbefore t (List.mem_of_mem_take ht)
      cases hlast : (times.take worked).getLast? with
      | none => exact h.next
      | some t => rwa [hlast] at hnext

/-- However often the consumer runs and wherever it dies, the occurrences that moved its cursor are exactly the minutes
to run from its creation up to the cursor, each once and in order. -/
theorem watchFlow_settles (hschedule : IsScheduleOf formatter flow check) (hcreated : HasNext createdAt)
    {runs : List (Int × Nat)} (hruns : ∀ run ∈ runs, nextMinute run.1 ≤ maxTime) {watch : WatchFlow}
    (hwatch : watch = runs.foldl
      (fun watch run => runWatchFlow formatter flow createdAt run.1 run.2 watch) {}) :
    watch.settled.Pairwise (· < ·) ∧ ∀ m, m ∈ watch.settled
      ↔ createdAt < m ∧ m ≤ watch.cursor.getD createdAt ∧ IsMinute m ∧ check m = true := by
  have hsound : watch.Sound check createdAt := by
    subst hwatch
    refine List.foldlRecOn runs _ ⟨trivial, rfl, hcreated⟩ ?_
    intro watch h run hrun
    exact h.runWatchFlow hschedule (hruns run hrun) run.2
  rw [hsound.cursor]
  exact hsound.consecutive.exact.2

def quarterFlow : Flow := { id := "f", cronExpr := "*/15 * * * *", enabled := true }

def quarters : ParsedCronExpr := ⟨"*/15".toList, "*".toList, "*".toList, "*".toList, "*".toList⟩

theorem quarterFlow_schedule : IsScheduleOf utcOnly quarterFlow (matchesUtc quarters) :=
  ⟨quarters, by decide +kernel, rfl⟩

theorem missedOccurrences_exact_quarters : ∃ times : List Int,
    times.length = 2 ∧ ∀ m, m ∈ times ↔ 1740787200000 < m ∧ m ≤ 1740789000000 ∧ IsMinute m
      ∧ matchesUtc quarters m = true := by
  have hok : missedOccurrences utcOnly quarterFlow 1740787200000 1740789000000 5
      = .ok [{ flow := quarterFlow, nextRun := some 1740788100000 },
        { flow := quarterFlow, nextRun := some 1740789000000 }] := by decide +kernel
  obtain ⟨times, hdue, -, -, hmem⟩ := missedOccurrences_exact quarterFlow_schedule rfl
    ⟨⟨by decide, by decide⟩, by decide⟩ (by decide) hok
  exact ⟨times, by simpa using (congrArg List.length hdue).symm, hmem⟩

/-- The consumer dies after the first of two occurrences and runs again. -/
theorem watchFlow_settles_quarters : ∃ watch : WatchFlow, watch.settled = [1740788100000, 1740789000000]
    ∧ ∀ m, m ∈ watch.settled ↔ 1740787200000 < m ∧ m ≤ 1740789000000 ∧ IsMinute m
      ∧ matchesUtc quarters m = true := by
  have hruns : ∀ run ∈ [((1740789000000 : Int), 1), (1740789000000, 5)], nextMinute run.1 ≤ maxTime := by
    decide
  have hsettled : ([((1740789000000 : Int), 1), (1740789000000, 5)].foldl (fun watch run =>
      runWatchFlow utcOnly quarterFlow 1740787200000 run.1 run.2 watch) {})
        = { cursor := some 1740789000000, settled := [1740788100000, 1740789000000] } := by
    decide +kernel
  obtain ⟨-, hmem⟩ := watchFlow_settles quarterFlow_schedule ⟨⟨by decide, by decide⟩, by decide⟩ hruns
    hsettled.symm
  exact ⟨_, rfl, hmem⟩

end Deckent.ScheduledFlow
