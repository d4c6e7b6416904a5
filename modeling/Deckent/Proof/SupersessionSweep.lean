import Deckent.Proof.SupersessionGate

/-!
# The sweep spares the flows that left the gate

A flow that stopped waiting for its approval before the sweep could abort it is not aborted by the
sweep, and the report lists it among the failures. Between the last look at a flow and the append of
its abort this rests on the other coordinators: an approval committed there is overrun, since an abort is
accepted in every state that is not terminal. A command of another coordinator under the id of the sweep
turns the abort into a no-op that the report counts as retired.
-/

namespace Deckent.RunFlow

variable {hashPayload : List RunFlowEvent → String} {store store' : RunFlowStore}
  {flows : FlowCache} {coordinator coordinator' : Coordinator} {action : Action}

/-! ### What a sweep has done so far -/

structure Accounts (store : RunFlowStore) (superseded pending : List SupersededFlowEntry)
    (retired : List String) (failures : List SupersededRetireFailure) : Prop where
  swept : ∀ flowId ∈ retired, Swept flowId (store.log flowId)
  covered : ∀ entry ∈ superseded, entry ∈ pending ∨ entry.flowId ∈ retired
    ∨ ∃ failure ∈ failures, failure.flowId = entry.flowId

theorem Accounts.mono {superseded pending : List SupersededFlowEntry} {retired : List String}
    {failures : List SupersededRetireFailure}
    (haccounts : Accounts store superseded pending retired failures)
    (hextends : Extends store store') : Accounts store' superseded pending retired failures where
  swept := fun flowId hflowId => (haccounts.swept flowId hflowId).mono (hextends flowId)
  covered := haccounts.covered

def Activity.SweepSound (store : RunFlowStore) : Activity → Prop
  | .calling (.recheck sweep entry) call =>
      Accounts store sweep.superseded (entry :: sweep.rest) sweep.retired sweep.failures
        ∧ call.Rechecks entry.flowId (Parked (store.log entry.flowId))
  | .calling (.retire sweep entry) call =>
      Accounts store sweep.superseded (entry :: sweep.rest) sweep.retired sweep.failures
        ∧ call.Retires store entry
  | .idle (some (.report report)) =>
      report.applied = true → Accounts store report.superseded [] report.retired report.failures
  | _ => True

theorem sweepSound_nextEntry {sweep : Sweep}
    (haccounts : Accounts store sweep.superseded sweep.rest sweep.retired sweep.failures) :
    (nextEntry flows sweep).SweepSound store := by
  unfold nextEntry
  split
  · next hrest =>
    intro _
    rwa [hrest] at haccounts
  · next entry rest hrest =>
    rw [hrest] at haccounts
    exact ⟨haccounts, rechecks_beginGetFlow⟩

theorem sweepSound_nextScan (scan : Scan) : (nextScan flows scan).SweepSound store := by
  unfold nextScan
  split
  · trivial
  · simp only
    split
    · apply sweepSound_nextEntry
      exact ⟨by simp, fun entry hentry => .inl hentry⟩
    · intro happlied
      simp at happlied

theorem Accounts.fail {sweep : Sweep} {entry : SupersededFlowEntry}
    (haccounts : Accounts store sweep.superseded (entry :: sweep.rest) sweep.retired sweep.failures)
    (detail : String) :
    Accounts store sweep.superseded sweep.rest sweep.retired (sweep.fail entry detail).failures where
  swept := haccounts.swept
  covered := by
    intro other hother
    unfold Sweep.fail
    rcases haccounts.covered other hother with hpending | hretired | ⟨failure, hfailure, hflowId⟩
    · rcases List.mem_cons.mp hpending with rfl | hrest
      · exact .inr (.inr ⟨_, List.mem_append_right _ List.mem_cons_self, rfl⟩)
      · exact .inl hrest
    · exact .inr (.inl hretired)
    · exact .inr (.inr ⟨failure, List.mem_append_left _ hfailure, hflowId⟩)

theorem Accounts.retire {sweep : Sweep} {entry : SupersededFlowEntry}
    (haccounts : Accounts store sweep.superseded (entry :: sweep.rest) sweep.retired sweep.failures)
    (hswept : Swept entry.flowId (store.log entry.flowId)) :
    Accounts store sweep.superseded sweep.rest (sweep.retire entry).retired sweep.failures where
  swept := by
    intro flowId hflowId
    unfold Sweep.retire at hflowId
    rcases List.mem_append.mp hflowId with hold | hnew
    · exact haccounts.swept flowId hold
    · rwa [List.mem_singleton.mp hnew]
  covered := by
    intro other hother
    unfold Sweep.retire
    rcases haccounts.covered other hother with hpending | hretired | hfailed
    · rcases List.mem_cons.mp hpending with rfl | hrest
      · exact .inr (.inl (List.mem_append_right _ List.mem_cons_self))
      · exact .inl hrest
    · exact .inr (.inl (List.mem_append_left _ hretired))
    · exact .inr (.inr hfailed)

theorem sweepSound_resume {caller : Caller} {outcome : Outcome}
    (hsound : (Activity.calling caller (.ended outcome)).SweepSound store) :
    (resume flows outcome caller).SweepSound store := by
  cases caller with
  | client => trivial
  | scan scan flowId =>
      rw [resume]
      split
      · split
        · trivial
        · apply sweepSound_nextScan
      · apply sweepSound_nextScan
  | recheck sweep entry =>
      obtain ⟨haccounts, hrechecks⟩ := hsound
      rw [resume]
      split
      · next current hcurrent =>
        split
        · next hstate => exact ⟨haccounts, retires_beginCommand (hrechecks current hcurrent hstate)⟩
        · exact sweepSound_nextEntry (haccounts.fail _)
      · exact sweepSound_nextEntry (haccounts.fail _)
  | retire sweep entry =>
      obtain ⟨haccounts, hretires⟩ := hsound
      rw [resume]
      split
      · next context hcontext =>
        exact sweepSound_nextEntry (haccounts.retire (hretires.claims context hcontext))
      · exact sweepSound_nextEntry (haccounts.fail _)

theorem sweepSound_step
    (hstep : CoordinatorStep hashPayload store coordinator action store' coordinator')
    (hstore : store.Consistent) (hsound : coordinator.Sound store)
    (hsweep : coordinator.activity.SweepSound store) : coordinator'.activity.SweepSound store' := by
  have hextends := (sound_coordinator_step hstep hstore hsound).2.2
  cases hstep with
  | invoke operation last _ => cases operation <;> trivial
  | restart => trivial
  | call answer caller call call' _ flows' hcalling hended hcall =>
      have hactivity := hsound.2
      rw [hcalling] at hsweep hactivity
      cases caller with
      | client => trivial
      | scan scan flowId => trivial
      | recheck sweep entry =>
          exact ⟨hsweep.1.mono hextends, rechecks_step hstore hsound.1 hactivity hsweep.2 hcall⟩
      | retire sweep entry =>
          refine ⟨hsweep.1.mono hextends, retires_step hstore hsound.1 hactivity hsweep.2 ?_ hcall⟩
          rintro outcome rfl
          simp [Call.hasEnded] at hended
  | resume answer caller outcome hcalling =>
      rw [hcalling] at hsweep
      exact sweepSound_resume hsweep
  | listingFailed => trivial
  | listing answer apply scan _ => exact sweepSound_nextScan scan
  | keying answer scan scan' _ _ _ => exact sweepSound_nextScan scan'

/-! ### What the others may not do -/

def Activity.guarded : Activity → Option String
  | .calling (.recheck _ entry) (.loaded _ flow _) =>
      if flow.context.state = supersedableState then some entry.flowId else none
  | .calling (.recheck _ entry) (.ended outcome) =>
      match outcome.result with
      | .ok context => if context.state = supersedableState then some entry.flowId else none
      | .error _ => none
  | .calling (.retire _ entry) call => if call.hasEnded then none else some entry.flowId
  | _ => none

def Activity.retiring : Activity → Option String
  | .calling (.retire _ entry) _ => some entry.flowId
  | _ => none

theorem SweepSound.mono {activity : Activity} (hsweep : activity.SweepSound store)
    (hextends : Extends store store')
    (hguarded : ∀ flowId, activity.guarded = some flowId → Parked (store.log flowId) →
      Parked (store'.log flowId)) : activity.SweepSound store' := by
  cases activity with
  | calling caller call =>
      cases caller with
      | client => trivial
      | scan scan flowId => trivial
      | recheck sweep entry =>
          refine ⟨hsweep.1.mono hextends, ?_⟩
          have hrechecks := hsweep.2
          cases call with
          | loaded target flow goal =>
              refine ⟨hrechecks.1, hrechecks.2.1, ?_⟩
              intro hstate
              exact hguarded _ (if_pos hstate) (hrechecks.2.2 hstate)
          | ended outcome =>
              intro context hcontext hstate
              apply hguarded _ _ (hrechecks context hcontext hstate)
              simp [Activity.guarded, hcontext, hstate]
          | _ => exact hrechecks
      | retire sweep entry =>
          refine ⟨hsweep.1.mono hextends, hsweep.2.runs, ?_, ?_⟩
          · exact hsweep.2.claims.imp fun hswept => hswept.mono (hextends _)
          · intro hended
            apply hguarded _ _ (hsweep.2.parked hended)
            cases call with
            | ended outcome => exact absurd rfl (hended outcome)
            | _ => rfl
  | idle last =>
      cases last with
      | none => trivial
      | some result =>
          cases result with
          | call outcome => trivial
          | report report => exact fun happlied => (hsweep happlied).mono hextends
  | listing apply => trivial
  | keying scan flowId context => trivial

/-! ### Turns -/

section Turns

variable {ι : Type} [DecidableEq ι] {turns : List (ι × Action)} {turn : ι × Action}
  {system next : Processes ι RunFlowStore Coordinator} {i : ι}

variable (hashPayload) in
def committedBy (system : Processes ι RunFlowStore Coordinator) (turn : ι × Action) :
    List RunFlowEvent :=
  match (system.memory turn.1).activity.call? with
  | some (.append job _ _ _ _) =>
      match system.act (Coordinator.step hashPayload) turn with
      | .ok next =>
          (next.shared.log job.command.flowId).drop (system.shared.log job.command.flowId).length
      | .error _ => []
  | _ => []

variable (hashPayload) in
/-- No other coordinator approves a flow that the sweep is about to abort, and nothing but the sweep
commits under the ids of the sweep. -/
def Undisturbed (i : ι) (system : Processes ι RunFlowStore Coordinator) (turn : ι × Action) : Prop :=
  ∀ event ∈ committedBy hashPayload system turn,
    (isSweepEvent event.flowId event = true →
        turn.1 = i ∧ (system.memory i).activity.retiring = some event.flowId)
      ∧ (event.payload.isApproval = true → turn.1 ≠ i →
        (system.memory i).activity.guarded ≠ some event.flowId)

instance (i : ι) (system : Processes ι RunFlowStore Coordinator) (turn : ι × Action) :
    Decidable (Undisturbed hashPayload i system turn) :=
  inferInstanceAs (Decidable (∀ event ∈ committedBy hashPayload system turn, _))

theorem log_of_turn (hstep : system.act (Coordinator.step hashPayload) turn = .ok next)
    (hsound : system.shared.Consistent ∧ ∀ i, (system.memory i).Sound system.shared)
    (flowId : String) :
    ∃ more, next.shared.log flowId = system.shared.log flowId ++ more
      ∧ ∀ event ∈ more, event ∈ committedBy hashPayload system turn ∧ event.flowId = flowId := by
  obtain ⟨memory, hturn, -⟩ := Processes.act_ok.mp hstep
  generalize hshared : next.shared = shared at hturn
  generalize haction : turn.2 = action at hturn
  cases coordinatorStep_of_step hturn with
  | call answer caller call call' _ flows' hcalling hended hcall =>
      have hactivity := (hsound.2 turn.1).2
      rw [hcalling] at hactivity
      rcases log_of_callStep hsound.1 (hsound.2 turn.1).1 hactivity hcall with
        hsame | ⟨job, retried, flow, now, context, rfl, happends⟩
      · exact ⟨[], by rw [List.append_nil, hsame], by simp⟩
      · by_cases hflowId : flowId = job.command.flowId
        · subst hflowId
          refine ⟨_, happends.log, ?_⟩
          intro event hevent
          constructor
          · unfold committedBy
            rw [hcalling, hstep]
            simp only [Activity.call?]
            rw [hshared, happends.log, List.drop_left]
            exact hevent
          · obtain ⟨original, horiginal, sequence, rfl⟩ := exists_of_mem_assigned hevent
            exact (commandId_of_mem_buildEvents horiginal).1
        · exact ⟨[], by rw [List.append_nil, happends.others flowId hflowId], by simp⟩
  | invoke | restart | resume | listingFailed | listing | keying =>
      exact ⟨[], by rw [List.append_nil], by simp⟩

/-! ### Runs -/

def Gated (store : RunFlowStore) : Prop :=
  ∀ flowId before event after, store.log flowId = before ++ event :: after →
    isSweepEvent flowId event = true → Waits before

structure SweepInvariant (i : ι) (system : Processes ι RunFlowStore Coordinator) : Prop where
  gated : Gated system.shared
  sweep : (system.memory i).activity.SweepSound system.shared

theorem split_of_append {log more before after : List RunFlowEvent} {event : RunFlowEvent}
    (hsplit : log ++ more = before ++ event :: after) :
    (∃ rest, log = before ++ event :: rest) ∨ ∃ first, before = log ++ first
      ∧ more = first ++ event :: after := by
  rcases List.append_eq_append_iff.mp hsplit with ⟨first, hbefore, hmore⟩ | ⟨rest, hlog, hafter⟩
  · exact .inr ⟨first, hbefore, hmore⟩
  · cases rest with
    | nil => exact .inr ⟨[], by simpa using hlog.symm, by simpa using hafter.symm⟩
    | cons first rest =>
        obtain ⟨rfl, -⟩ := List.cons.inj hafter
        exact .inl ⟨rest, hlog⟩

theorem gated_turn (hstep : system.act (Coordinator.step hashPayload) turn = .ok next)
    (hsound : system.shared.Consistent ∧ ∀ i, (system.memory i).Sound system.shared)
    (hinvariant : SweepInvariant i system) (hundisturbed : Undisturbed hashPayload i system turn) :
    Gated next.shared := by
  intro flowId before event after hsplit hmark
  obtain ⟨more, hlog, hmore⟩ := log_of_turn hstep hsound flowId
  rw [hlog] at hsplit
  rcases split_of_append hsplit with ⟨rest, hold⟩ | ⟨first, rfl, rfl⟩
  · exact hinvariant.gated flowId before event rest hold hmark
  · obtain ⟨hcommitted, rfl⟩ := hmore event (by simp)
    obtain ⟨hi, hretiring⟩ := (hundisturbed event hcommitted).1 hmark
    obtain ⟨memory, hturn, -⟩ := Processes.act_ok.mp hstep
    rw [hi] at hturn
    generalize hshared : next.shared = shared at hturn hlog
    generalize haction : turn.2 = action at hturn
    have hsweep := hinvariant.sweep
    have hgrew : shared.log event.flowId ≠ system.shared.log event.flowId := by
      rw [hlog]
      simp
    cases coordinatorStep_of_step hturn with
    | call answer caller call call' _ flows' hcalling hended hcall =>
        have hactivity := (hsound.2 i).2
        rw [hcalling] at hactivity hsweep hretiring
        cases caller with
        | retire sweep entry =>
            obtain hentry : entry.flowId = event.flowId := Option.some.inj hretiring
            rw [← hentry] at hgrew hlog ⊢
            obtain ⟨hwaits, only, honly⟩ :=
              waits_of_retires hsound.1 (hsound.2 i).1 hactivity hsweep.2 hcall hgrew
            have hsingle : first ++ event :: after = [only] :=
              List.append_cancel_left (hlog.symm.trans honly)
            have hnil : first = [] := by
              cases first with
              | nil => rfl
              | cons _ _ => simp at hsingle
            rwa [hnil, List.append_nil]
        | _ => simp [Activity.retiring] at hretiring
    | invoke | restart | resume | listingFailed | listing | keying => exact absurd rfl hgrew

theorem sweepInvariant_turn (hstep : system.act (Coordinator.step hashPayload) turn = .ok next)
    (hsound : system.shared.Consistent ∧ ∀ i, (system.memory i).Sound system.shared)
    (hinvariant : SweepInvariant i system) (hundisturbed : Undisturbed hashPayload i system turn) :
    SweepInvariant i next := by
  refine ⟨gated_turn hstep hsound hinvariant hundisturbed, ?_⟩
  have hextends := extends_of_step hstep hsound
  obtain ⟨memory, hturn, hmemory⟩ := Processes.act_ok.mp hstep
  rw [hmemory]
  by_cases hi : turn.1 = i
  · subst hi
    rw [Function.update_self]
    exact sweepSound_step (coordinatorStep_of_step hturn) hsound.1 (hsound.2 _) hinvariant.sweep
  · rw [Function.update_of_ne (Ne.symm hi)]
    apply SweepSound.mono hinvariant.sweep hextends
    intro flowId hguarded hparked
    obtain ⟨more, hlog, hmore⟩ := log_of_turn hstep hsound flowId
    have hconsistent := (sound_coordinator_step (coordinatorStep_of_step hturn) hsound.1
      (hsound.2 turn.1)).1
    have hreplays := (hconsistent flowId).replays
    change Replays (next.shared.log flowId) at hreplays
    rw [hlog] at hreplays ⊢
    apply hparked.append hreplays
    intro event hevent
    obtain ⟨hcommitted, rfl⟩ := hmore event hevent
    by_contra happroval
    exact (hundisturbed event hcommitted).2 (by simpa using happroval) hi hguarded

def LeftOtherwise (flowId : String) (log : List RunFlowEvent) : Prop :=
  ∃ before event after, log = before ++ event :: after ∧ Waits before
    ∧ isSweepEvent flowId event = false

theorem leftOtherwise_of_getElem? {flowId : String} {log : List RunFlowEvent} {event : RunFlowEvent}
    {n : Nat} (hevent : log[n]? = some event) (hwaits : Waits (log.take n))
    (hother : isSweepEvent flowId event = false) : LeftOtherwise flowId log := by
  refine ⟨log.take n, event, log.drop (n + 1), ?_, hwaits, hother⟩
  obtain ⟨hlength, rfl⟩ := List.getElem?_eq_some_iff.mp hevent
  rw [← List.drop_eq_getElem_cons hlength, List.take_append_drop]

/-- What the sweep of a coordinator promises of the flows that left the gate without it. -/
structure SparesLeft (i : ι) (system : Processes ι RunFlowStore Coordinator) : Prop where
  untouched : ∀ flowId, LeftOtherwise flowId (system.shared.log flowId) →
    ¬ Swept flowId (system.shared.log flowId)
  reported : ∀ report, (system.memory i).activity = .idle (some (.report report)) →
    report.applied = true → ∀ entry ∈ report.superseded,
      LeftOtherwise entry.flowId (system.shared.log entry.flowId) →
      entry.flowId ∉ report.retired ∧ ∃ failure ∈ report.failures, failure.flowId = entry.flowId

theorem waits_once {log before before' after after' : List RunFlowEvent} {event event' : RunFlowEvent}
    (hreplays : Replays log) (hsplit : log = before ++ event :: after) (hwaits : Waits before)
    (hsplit' : log = before' ++ event' :: after') (hwaits' : Waits before') : event = event' := by
  have hlater : ∀ {first second : List RunFlowEvent} {middle : RunFlowEvent},
      Replays (first ++ middle :: second) → Waits first → ¬ Waits (first ++ middle :: second) := by
    rintro first second middle ⟨final, hfinal⟩ ⟨context, hcontext, hstate⟩ ⟨found, hfound, hwaiting⟩
    obtain rfl : final = found := Except.ok.inj (hfinal.symm.trans hfound)
    obtain ⟨start, hstart, hrest⟩ := replay_append_ok.mp hfinal
    obtain rfl : start = context := Except.ok.inj (hstart.symm.trans hcontext)
    obtain ⟨next, hreduce, hrest⟩ := replay_cons_ok.mp hrest
    have hdecided := isDecided_of_replay (awaiting_of_reduce hstate hreduce).1 hrest
    simp [hwaiting, RunFlowState.isDecided] at hdecided
  rw [hsplit] at hsplit'
  rcases List.append_eq_append_iff.mp hsplit' with ⟨rest, hbefore', hrest⟩ | ⟨rest, hbefore, hrest⟩
  · cases rest with
    | nil => exact (List.cons.inj hrest).1
    | cons middle rest =>
        obtain ⟨rfl, -⟩ := List.cons.inj hrest
        rw [hbefore'] at hwaits'
        have hprefix : Replays (before ++ event :: rest) := by
          obtain ⟨final, hfinal⟩ := hreplays
          rw [hsplit, hsplit', hbefore'] at hfinal
          exact replay_of_append hfinal
        exact absurd hwaits' (hlater hprefix hwaits)
  · cases rest with
    | nil => exact (List.cons.inj hrest).1.symm
    | cons middle rest =>
        obtain ⟨rfl, -⟩ := List.cons.inj hrest
        rw [hbefore] at hwaits
        have hprefix : Replays (before' ++ event' :: rest) := by
          obtain ⟨final, hfinal⟩ := hreplays
          rw [hsplit, hbefore] at hfinal
          exact replay_of_append hfinal
        exact absurd hwaits (hlater hprefix hwaits')

omit [DecidableEq ι] in
theorem sparesLeft_of_invariant (hconsistent : system.shared.Consistent)
    (hinvariant : SweepInvariant i system) : SparesLeft i system := by
  have huntouched : ∀ flowId, LeftOtherwise flowId (system.shared.log flowId) →
      ¬ Swept flowId (system.shared.log flowId) := by
    rintro flowId ⟨before, event, after, hsplit, hwaits, hother⟩ ⟨mark, hmark, hswept⟩
    obtain ⟨before', after', hsplit'⟩ := List.append_of_mem hmark
    have hwaits' := hinvariant.gated flowId before' mark after' hsplit' hswept
    obtain rfl := waits_once (hconsistent flowId).replays hsplit hwaits hsplit' hwaits'
    simp [hswept] at hother
  refine ⟨huntouched, ?_⟩
  intro report hreport happlied entry hentry hleft
  have hsweep := hinvariant.sweep
  rw [hreport] at hsweep
  have haccounts := hsweep happlied
  have hnotRetired : entry.flowId ∉ report.retired :=
    fun hretired => huntouched _ hleft (haccounts.swept _ hretired)
  refine ⟨hnotRetired, ?_⟩
  rcases haccounts.covered entry hentry with hpending | hretired | hfailed
  · simp at hpending
  · exact absurd hretired hnotRetired
  · exact hfailed

/-- In a run in which no other coordinator approves a flow under the sweep's hands or uses its command
ids, the sweep spares every flow that left the gate without it. -/
theorem sparesLeft_of_run
    (hrun : replay (Processes.act (Coordinator.step hashPayload)) (initialSystem ι) turns
      = .ok system)
    (hundisturbed : Along (Processes.act (Coordinator.step hashPayload)) (Undisturbed hashPayload i)
      (initialSystem ι) turns) :
    SparesLeft i system := by
  suffices hinvariant : Along (Processes.act (Coordinator.step hashPayload))
      (Undisturbed hashPayload i) (initialSystem ι) turns → SweepInvariant i system by
    exact sparesLeft_of_invariant (sound_of_run hrun).1 (hinvariant hundisturbed)
  apply replay_induction _ _ hrun
  · intro _
    refine ⟨?_, trivial⟩
    intro flowId before event after hsplit
    simp [initialSystem, RunFlowStore.empty, RunFlowStore.log, FlowTable.log] at hsplit
  · intro before current turn next hbefore hinvariant hstep halong
    obtain ⟨halong, hturn⟩ := along_concat.mp halong
    exact sweepInvariant_turn hstep (sound_of_run hbefore) (hinvariant halong) (hturn current hbefore)

end Turns

/-! ### A flow that is approved, or rejected, between the second look and the abort -/

def proposePending (flowId : String) : RunFlowCommand :=
  .proposeFlow {
    flowId := flowId
    tenant := "local"
    project := "p"
    actor := { id := "operator" }
    origin := .cli
    revision := 1
    intentSummary := "ship" } none

def previewPending (flowId : String) : RunFlowCommand :=
  .recordPreview { flowId := flowId, revision := 1, planDigest := "d" } none

/-- A command of one coordinator, from its start to its return. -/
def perform (i : Bool) (command : RunFlowCommand) (answer : Answer) : List (Bool × Action) :=
  (i, .invoke (.command command)) :: List.replicate 5 (i, .proceed answer)

def sweepAnswer : Answer := { flowIds := ["f", "g"], sourceKey := some "k" }

/-- One coordinator sweeps two flows of one source; the other decides the older flow just before the
sweep aborts it. -/
def sweptTurns (decision : RunFlowCommand) (steps : Nat) : List (Bool × Action) :=
  perform true (proposePending "f") {} ++ perform true (previewPending "f") {}
    ++ perform true (proposePending "g") { now := fun _ => "later" }
    ++ perform true (previewPending "g") { now := fun _ => "later" }
    ++ (true, .invoke (.retireSupersededFlows true)) :: List.replicate 15 (true, .proceed sweepAnswer)
    ++ perform false decision {} ++ List.replicate steps (true, .proceed sweepAnswer)

def rejectPending : RunFlowCommand := .rejectApproval "f" 1 none none

def approvePending : RunFlowCommand := .grantApproval "f" 1 "d" { id := "operator" } none

def committedLog (commands : List RunFlowCommand) : List RunFlowEvent :=
  (assignSequences 0 (commands.flatMap fun command => command.buildEvents fun _ => "")).map
    EventRow.event

theorem sparesLeft_of_run_rejected :
    ∃ system report entry,
      replay (Processes.act (Coordinator.step fun _ => "")) (initialSystem Bool)
          (sweptTurns rejectPending 7) = .ok system
        ∧ (system.memory true).activity = .idle (some (.report report))
        ∧ entry ∈ report.superseded ∧ entry.flowId = "f"
        ∧ entry.flowId ∉ report.retired ∧ ∃ failure ∈ report.failures, failure.flowId = entry.flowId := by
  obtain ⟨system, report, entry, hrun, hreport, happlied, hentry, hflowId, hlog⟩ :
      ∃ system report entry,
        replay (Processes.act (Coordinator.step fun _ => "")) (initialSystem Bool)
            (sweptTurns rejectPending 7) = .ok system
          ∧ (system.memory true).activity = .idle (some (.report report))
          ∧ report.applied = true ∧ entry ∈ report.superseded ∧ entry.flowId = "f"
          ∧ system.shared.log "f"
            = committedLog [proposePending "f", previewPending "f", rejectPending] :=
    ⟨_, _, _, rfl, rfl, rfl, List.mem_cons_self, rfl, rfl⟩
  have hleft : LeftOtherwise entry.flowId (system.shared.log entry.flowId) := by
    rw [hflowId, hlog]
    exact leftOtherwise_of_getElem? (n := 3) rfl ⟨_, rfl, rfl⟩ rfl
  have hspares := sparesLeft_of_run (i := true) hrun (by decide +kernel)
  obtain ⟨hretired, hfailure⟩ := hspares.reported report hreport happlied entry hentry hleft
  exact ⟨system, report, entry, hrun, hreport, hentry, hflowId, hretired, hfailure⟩

/-- The flow that was approved after the second look is aborted, and reported as retired. -/
theorem not_sparesLeft_approved :
    ∃ system,
      replay (Processes.act (Coordinator.step fun _ => "")) (initialSystem Bool)
          (sweptTurns approvePending 10) = .ok system
        ∧ LeftOtherwise "f" (system.shared.log "f") ∧ ¬ SparesLeft true system := by
  obtain ⟨system, hrun, hlog⟩ : ∃ system,
      replay (Processes.act (Coordinator.step fun _ => "")) (initialSystem Bool)
          (sweptTurns approvePending 10) = .ok system
        ∧ system.shared.log "f" = committedLog [proposePending "f", previewPending "f",
          approvePending, .abortFlow (supersedeCommand ⟨"f", "g", "k", none⟩)] :=
    ⟨_, rfl, rfl⟩
  have hleft : LeftOtherwise "f" (system.shared.log "f") := by
    rw [hlog]
    exact leftOtherwise_of_getElem? (n := 3) rfl ⟨_, rfl, rfl⟩ rfl
  have hswept : Swept "f" (system.shared.log "f") := by
    rw [hlog]
    exact ⟨_, List.mem_of_getLast? rfl, by decide +kernel⟩
  refine ⟨system, hrun, hleft, ?_⟩
  intro hspares
  exact hspares.untouched "f" hleft hswept

end Deckent.RunFlow
