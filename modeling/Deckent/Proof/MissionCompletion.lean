import Deckent.Proof.SchedulerStep

/-!
# Missions that have ended

A completion check writes a mission whose items have all ended, whatever the status of the mission is, and
calls the listener. Where each check of this kind finds the mission live, the scheduler writes no mission
that has ended, and the listener hears of a mission once.
-/

namespace Deckent.Mission

variable {host : SchedulerHost} {opts : MissionSchedulerOptions} {now : Int} {db : MissionDb}
  {state middle next : SchedulerState} {missionId : String}

/-! ### A check -/

/-- What a check does, unless the lease is lost. -/
inductive CheckStep (opts : MissionSchedulerOptions) (now : Int) (missionId : String)
    (state : SchedulerState) : SchedulerState → Prop
  | refused : CheckStep opts now missionId state state
  | incomplete (hincomplete : (state.db.completionCheck missionId).isComplete = false) :
      CheckStep opts now missionId state
        { state with checks := state.checks ++ [state.db.completionCheck missionId] }
  | complete {db : MissionDb} {notices : List String}
      (hcomplete : (state.db.completionCheck missionId).isComplete = true)
      (hdb : db = state.db.completeMission now missionId (state.db.completionCheck missionId).statuses)
      (hnotices : notices = [] ∨ notices = [missionId] ∧ (db.mission? missionId).isSome = true) :
      CheckStep opts now missionId state
        { state with
          checks := state.checks ++ [state.db.completionCheck missionId]
          db := db
          notices := state.notices ++ notices }

theorem checkStep (state : SchedulerState) (missionId : String) :
    CheckStep opts now missionId state (state.checkMissionComplete opts now missionId).1 := by
  unfold SchedulerState.checkMissionComplete
  split
  · exact .refused
  · dsimp only
    split
    · next hincomplete => exact .incomplete (by simpa using hincomplete)
    · next hcomplete =>
        refine .complete (by simpa using hcomplete) rfl ?_
        split
        · next hnotice =>
            rw [Bool.and_eq_true] at hnotice
            exact .inr ⟨rfl, hnotice.2⟩
        · exact .inl rfl

def MissionDb.hasEnded (db : MissionDb) (missionId : String) : Prop :=
  ∃ mission, db.mission? missionId = some mission ∧ mission.status.isFinal = true

theorem mission?_congr {next : MissionDb} (hmissions : next.missions = db.missions) (id : String) :
    next.mission? id = db.mission? id := by
  unfold MissionDb.mission?
  rw [hmissions]

theorem mission?_map {next : MissionDb} {set : MissionRow → MissionRow}
    (hmissions : next.missions = db.missions.map set) (hset : ∀ mission, (set mission).id = mission.id)
    (id : String) : next.mission? id = (db.mission? id).map set := by
  unfold MissionDb.mission?
  rw [hmissions, List.find?_map]
  simp only [Function.comp_def, hset]

theorem completeMission_missions (now : Int) (db : MissionDb) (missionId : String)
    (statuses : List WorkItemStatus) :
    ∃ set : MissionRow → MissionRow,
      (db.completeMission now missionId statuses).missions = db.missions.map set
        ∧ (∀ mission, (set mission).id = mission.id)
        ∧ (∀ mission, mission.id ≠ missionId → set mission = mission)
        ∧ ∀ mission, mission.id = missionId → (set mission).status.isFinal = true := by
  refine ⟨_, List.map_map, ?_, ?_, ?_⟩
  · intro mission
    simp only [Function.comp_apply]
    split
    · split <;> rfl
    · rfl
  · intro mission hother
    simp [hother]
  · rintro mission rfl
    simp only [Function.comp_apply, if_true]
    split <;> rfl

theorem mission?_completeMission_of_ne (statuses : List WorkItemStatus) {id : String}
    (hother : id ≠ missionId) :
    (db.completeMission now missionId statuses).mission? id = db.mission? id := by
  obtain ⟨set, hmissions, hid, hsame, -⟩ := completeMission_missions now db missionId statuses
  rw [mission?_map hmissions hid]
  cases hmission : db.mission? id with
  | none => rfl
  | some mission =>
      have hmissionId : mission.id = id := by simpa using List.find?_some hmission
      rw [Option.map_some, hsame mission (hmissionId ▸ hother)]

theorem hasEnded_completeMission (statuses : List WorkItemStatus)
    (hsome : ((db.completeMission now missionId statuses).mission? missionId).isSome = true) :
    (db.completeMission now missionId statuses).hasEnded missionId := by
  obtain ⟨set, hmissions, hid, -, hfinal⟩ := completeMission_missions now db missionId statuses
  obtain ⟨ended, hended⟩ := Option.isSome_iff_exists.mp hsome
  refine ⟨ended, hended, ?_⟩
  rw [mission?_map hmissions hid] at hended
  obtain ⟨mission, hmission, rfl⟩ := Option.map_eq_some_iff.mp hended
  exact hfinal mission (by simpa using List.find?_some hmission)

/-! ### Runs -/

theorem checks_of_not_own {move : SchedulerMove} (hown : move.isOwn = false)
    (hmove : state.move? host opts move = some next) :
    next.checks = state.checks ∧ next.notices = state.notices := by
  cases move with
  | coordinate timed =>
      simp only [SchedulerState.move?] at hmove
      split at hmove
      · obtain rfl := Option.some.inj hmove
        exact ⟨rfl, rfl⟩
      · cases hmove
  | foreign timed =>
      obtain rfl := Option.some.inj hmove
      exact ⟨rfl, rfl⟩
  | _ => cases hown

theorem ChecksOnce.checks_isPrefix (hchecks : ChecksOnce opts state next) :
    state.checks <+: next.checks := by
  cases hchecks with
  | none hquiet => rw [hquiet.checks]
  | once middle now missionId hbefore hafter =>
      rw [hafter.checks, ← hbefore.checks]
      generalize hchecked : (middle.checkMissionComplete opts now missionId).1 = checked
      have hstep : CheckStep opts now missionId middle checked := hchecked ▸ checkStep middle missionId
      cases hstep with
      | refused => exact List.prefix_refl _
      | incomplete => exact List.prefix_append _ _
      | complete => exact List.prefix_append _ _

theorem checks_isPrefix_of_move {move : SchedulerMove} (hmove : state.move? host opts move = some next) :
    state.checks <+: next.checks := by
  cases hown : move.isOwn with
  | true => exact (checksOnce_move hown hmove).checks_isPrefix
  | false => rw [(checks_of_not_own hown hmove).1]

theorem checks_isPrefix_of_replay {moves : List SchedulerMove} {last : SchedulerState}
    (hreplay : replay (SchedulerState.move host opts) state moves = .ok last) :
    state.checks <+: last.checks := by
  induction moves generalizing state with
  | nil =>
      obtain rfl : state = last := by simpa using hreplay
      exact List.prefix_refl _
  | cons move rest ih =>
      obtain ⟨next, hmove, hrest⟩ := replay_cons_ok.mp hreplay
      exact (checks_isPrefix_of_move (move_eq_ok.mp hmove)).trans (ih hrest)

/-! ### Missions that are live when they are checked -/

def ChecksLive (state : SchedulerState) : Prop :=
  ∀ check ∈ state.checks, check.isComplete = true →
    ∀ status, check.status = some status → status.isFinal = false

theorem ChecksLive.of_isPrefix (hlive : ChecksLive next) (hprefixes : state.checks <+: next.checks) :
    ChecksLive state := fun check hcheck => hlive check (hprefixes.subset hcheck)

theorem ChecksLive.not_hasEnded (hlive : ChecksLive next)
    (hmem : state.db.completionCheck missionId ∈ next.checks)
    (hcomplete : (state.db.completionCheck missionId).isComplete = true) :
    ¬ state.db.hasEnded missionId := by
  rintro ⟨mission, hmission, hfinal⟩
  have hstatus : (state.db.completionCheck missionId).status = some mission.status := by
    simp [MissionDb.completionCheck, hmission]
  rw [hlive _ hmem hcomplete _ hstatus] at hfinal
  cases hfinal

theorem CheckStep.kept (hstep : CheckStep opts now missionId state next) (hlive : ChecksLive next)
    {id : String} {mission : MissionRow} (hmission : state.db.mission? id = some mission)
    (hfinal : mission.status.isFinal = true) : next.db.mission? id = some mission := by
  cases hstep with
  | refused => exact hmission
  | incomplete => exact hmission
  | complete hcomplete hdb hnotices =>
      subst hdb
      have hother : id ≠ missionId := by
        rintro rfl
        exact hlive.not_hasEnded (by simp) hcomplete ⟨mission, hmission, hfinal⟩
      exact (mission?_completeMission_of_ne _ hother).trans hmission

theorem ChecksOnce.kept (hchecks : ChecksOnce opts state next) (hlive : ChecksLive next) {id : String}
    {mission : MissionRow} (hmission : state.db.mission? id = some mission)
    (hfinal : mission.status.isFinal = true) : next.db.mission? id = some mission := by
  cases hchecks with
  | none hquiet => rwa [mission?_congr hquiet.proceeds.missions]
  | once middle now missionId hbefore hafter =>
      rw [mission?_congr hafter.proceeds.missions]
      rw [← mission?_congr hbefore.proceeds.missions] at hmission
      refine (checkStep middle missionId).kept ?_ hmission hfinal
      exact hlive.of_isPrefix (by rw [hafter.checks])

structure Notified (missionId : String) (state : SchedulerState) : Prop where
  once : state.notices.count missionId ≤ 1
  ended : missionId ∈ state.notices → state.db.hasEnded missionId

theorem Notified.of_eq (hnotified : Notified missionId state)
    (hnotices : next.notices = state.notices)
    (hended : state.db.hasEnded missionId → next.db.hasEnded missionId) : Notified missionId next where
  once := by
    rw [hnotices]
    exact hnotified.once
  ended := by
    rw [hnotices]
    exact fun hmem => hended (hnotified.ended hmem)

theorem CheckStep.notified {checkedId : String} (hstep : CheckStep opts now checkedId state next)
    (hlive : ChecksLive next) (hnotified : Notified missionId state) : Notified missionId next := by
  have hended : state.db.hasEnded missionId → next.db.hasEnded missionId := by
    rintro ⟨mission, hmission, hfinal⟩
    exact ⟨mission, hstep.kept hlive hmission hfinal, hfinal⟩
  cases hstep with
  | refused => exact hnotified
  | incomplete => exact hnotified.of_eq rfl hended
  | complete hcomplete hdb hnotices =>
      obtain rfl | ⟨rfl, hsome⟩ := hnotices
      · exact hnotified.of_eq (List.append_nil _) hended
      · obtain rfl | hother := eq_or_ne checkedId missionId
        · subst hdb
          -- the mission is live, so the listener has not heard of it
          have hfresh : checkedId ∉ state.notices := fun hmem =>
            hlive.not_hasEnded (by simp) hcomplete (hnotified.ended hmem)
          constructor
          · simp [List.count_append, List.count_eq_zero_of_not_mem hfresh]
          · intro _
            exact hasEnded_completeMission _ hsome
        · constructor
          · simpa [List.count_append, List.count_singleton, hother] using hnotified.once
          · intro hmem
            refine hended (hnotified.ended ?_)
            simpa [Ne.symm hother] using hmem

theorem ChecksOnce.notified (hchecks : ChecksOnce opts state next) (hlive : ChecksLive next)
    (hnotified : Notified missionId state) : Notified missionId next := by
  have hquiet {before after : SchedulerState} (hstep : Quiet before after)
      (hbefore : Notified missionId before) : Notified missionId after := by
    refine hbefore.of_eq hstep.notices ?_
    unfold MissionDb.hasEnded
    rw [mission?_congr hstep.proceeds.missions]
    exact id
  cases hchecks with
  | none hstep => exact hquiet hstep hnotified
  | once middle now checkedId hbefore hafter =>
      refine hquiet hafter ((checkStep middle checkedId).notified ?_ (hquiet hbefore hnotified))
      exact hlive.of_isPrefix (by rw [hafter.checks])

/-! ### The contract -/

/-- No other process takes the mission back from its end. -/
def NeverReopened (host : SchedulerHost) (opts : MissionSchedulerOptions) (db : MissionDb)
    (moves : List SchedulerMove) (missionId : String) : Prop :=
  ∀ before timed after state,
    moves = before ++ .foreign timed :: after ∨ moves = before ++ .coordinate timed :: after →
      SchedulerRun host opts db before state → state.db.hasEnded missionId →
        (state.db.perform host.runtime host.contract timed).hasEnded missionId

theorem NeverReopened.of_append {moves rest : List SchedulerMove}
    (hnever : NeverReopened host opts db (moves ++ rest) missionId) :
    NeverReopened host opts db moves missionId := by
  intro before timed after state hmoves hrun hended
  refine hnever before timed (after ++ rest) state ?_ hrun hended
  rcases hmoves with rfl | rfl
  · exact .inl (List.append_assoc _ _ _)
  · exact .inr (List.append_assoc _ _ _)

/-- What the completion checks of a run promise. -/
structure CompletionContract (host : SchedulerHost) (opts : MissionSchedulerOptions) (db : MissionDb)
    (moves : List SchedulerMove) (state : SchedulerState) : Prop where
  once : ∀ missionId, NeverReopened host opts db moves missionId → state.notices.count missionId ≤ 1
  kept : ∀ before move after earlier later, moves = before ++ move :: after → move.isOwn = true →
    SchedulerRun host opts db before earlier → earlier.move host opts move = .ok later →
      ∀ missionId mission, earlier.db.mission? missionId = some mission →
        mission.status.isFinal = true → later.db.mission? missionId = some mission

theorem notified_of_run {moves : List SchedulerMove} (hrun : SchedulerRun host opts db moves state)
    (hlive : ChecksLive state) (hnever : NeverReopened host opts db moves missionId) :
    Notified missionId state := by
  refine replay_induction
    (motive := fun moves state => NeverReopened host opts db moves missionId → ChecksLive state →
      Notified missionId state) ?_ ?_ hrun hnever hlive
  · intro _ _
    exact ⟨by simp [SchedulerState.start], fun hmem => absurd hmem (by simp [SchedulerState.start])⟩
  · intro before earlier move later hbefore ih hmove hnever hlive
    have hmove := move_eq_ok.mp hmove
    have hnotified := ih hnever.of_append (hlive.of_isPrefix (checks_isPrefix_of_move hmove))
    cases hown : move.isOwn with
    | true => exact (checksOnce_move hown hmove).notified hlive hnotified
    | false =>
        refine hnotified.of_eq (checks_of_not_own hown hmove).2 fun hended => ?_
        cases move with
        | coordinate timed =>
            simp only [SchedulerState.move?] at hmove
            split at hmove
            · obtain rfl := Option.some.inj hmove
              exact hnever before timed [] earlier (.inr rfl) hbefore hended
            · cases hmove
        | foreign timed =>
            obtain rfl := Option.some.inj hmove
            exact hnever before timed [] earlier (.inl rfl) hbefore hended
        | _ => cases hown

def sampleMoves : List SchedulerMove := sampleAdvances 8 ++ List.replicate 3 (sampleCallback 0)

theorem sampleMoves_run :
    (replay (SchedulerState.move sampleHost sampleOptions) (.start (sampleTables ["a"]))
      sampleMoves).map (fun state => (state.checks, state.notices))
        = .ok ([⟨"m", [.done], some .pending⟩], ["m"]) := by
  decide +kernel

def pairMoves : List SchedulerMove :=
  sampleAdvances 10 ++ [0, 1, 0, 1, 0, 1].map sampleCallback

def cancelledMoves : List SchedulerMove :=
  sampleAdvances 8 ++ .foreign ⟨1, .updateMissionStatus "m" .cancelled none⟩
    :: List.replicate 3 (sampleCallback 0)

theorem neverReopened_of_own {moves : List SchedulerMove} (hown : moves.all (·.isOwn) = true) :
    NeverReopened host opts db moves missionId := by
  rintro before timed after state (rfl | rfl)
  · simp [SchedulerMove.isOwn] at hown
  · simp [SchedulerMove.isOwn] at hown

theorem pairMoves_run :
    (replay (SchedulerState.move sampleHost sampleOptions) (.start (sampleTables ["a", "b"]))
      pairMoves).map (·.notices) = .ok ["m", "m"] := by
  decide +kernel

theorem cancelledMoves_run :
    (replay (SchedulerState.move sampleHost sampleOptions) (.start (sampleTables ["a"]))
      cancelledMoves).map (fun state => (state.db.mission? "m").map (·.status))
        = .ok (some .completed) := by
  decide +kernel

end Deckent.Mission
