import Mathlib.Data.List.SplitOn
import Deckent.Model.EventStream

/-!
# Suppressed events

The text that the process keeps for a task is decided by the last call about it, whether or not the write of that
call has passed. A suppressed event therefore repeats the text of a streak of calls, and what it says has been
written exactly where the first call of the streak has, and where the text stands for one set of dependencies.
-/

namespace Deckent.EventStream

/-! ### What a call says about a task -/

inductive TaskEffect where
  | reset
  | blocked (deps : List String) (passes : Bool)

def TaskEffect.text : TaskEffect → Option String
  | reset => none
  | blocked deps _ => some (hashUnresolvedDeps deps)

def payloadEffect (payload : JsValue) (passes : Bool) (taskId : String) : Option TaskEffect :=
  (dependencyBlockedPayload payload).bind fun blocked =>
    if blocked.taskId = taskId then
      some (if blocked.unresolvedDeps = [] then .reset else .blocked blocked.unresolvedDeps passes)
    else none

/-- What the call says about the task of the sprint. -/
def Call.effect (sprintId taskId : String) : Call → Option TaskEffect
  | write sprint channel payload passes =>
      if sprint = sprintId ∧ channel = dependencyBlocked then payloadEffect payload passes taskId else none
  | clear none _ => some .reset
  | clear (some sprint) none => if sprint = sprintId then some .reset else none
  | clear (some sprint) (some task) => if sprint = sprintId ∧ task = taskId then some .reset else none

/-! ### The texts that are kept -/

section Texts

variable {state : BlockedState} {sprintId taskId sprint task : String}

theorem text?_setText (text : String) : (state.setText sprint task text).text? sprintId taskId
    = if sprint = sprintId ∧ task = taskId then some text else state.text? sprintId taskId := by
  unfold BlockedState.text? BlockedState.setText
  rw [OrderedMap.get?_set]
  by_cases hsprint : sprint = sprintId
  · subst hsprint
    rw [if_pos rfl, Option.bind_some, OrderedMap.get?_set]
    by_cases htask : task = taskId
    · simp [htask]
    · rw [if_neg (Ne.symm htask), if_neg fun hboth => htask hboth.2]
      cases state.get? sprint <;> rfl
  · rw [if_neg (Ne.symm hsprint), if_neg fun hboth => hsprint hboth.1]

theorem text?_clearTask : (state.clearTask sprint task).text? sprintId taskId
    = if sprint = sprintId ∧ task = taskId then none else state.text? sprintId taskId := by
  unfold BlockedState.clearTask
  cases hsprintMap : state.get? sprint with
  | none =>
      by_cases hboth : sprint = sprintId ∧ task = taskId
      · rw [if_pos hboth, BlockedState.text?, ← hboth.1, hsprintMap]
        rfl
      · rw [if_neg hboth]
  | some sprintMap =>
      have hdeleted := OrderedMap.get?_delete sprintMap task taskId
      dsimp only
      by_cases hempty : (sprintMap.delete task).entries = []
      · rw [if_pos hempty, BlockedState.text?, OrderedMap.get?_delete]
        by_cases hsprint : sprintId = sprint
        · subst hsprint
          rw [if_pos rfl, Option.bind_none, BlockedState.text?, hsprintMap, Option.bind_some]
          have hgone : (sprintMap.delete task).get? taskId = none := by
            rw [OrderedMap.get?, hempty]
            rfl
          rw [hdeleted] at hgone
          by_cases htask : taskId = task
          · simp [htask]
          · rw [if_neg htask] at hgone
            simp [Ne.symm htask, hgone]
        · rw [if_neg hsprint, if_neg fun hboth => hsprint hboth.1.symm]
          rfl
      · rw [if_neg hempty, BlockedState.text?, OrderedMap.get?_set]
        by_cases hsprint : sprintId = sprint
        · subst hsprint
          rw [if_pos rfl, Option.bind_some, hdeleted, BlockedState.text?, hsprintMap, Option.bind_some]
          simp [eq_comm]
        · rw [if_neg hsprint, if_neg fun hboth => hsprint hboth.1.symm]
          rfl

/-- An update of the text that a task has after it. -/
def after (effect : Option TaskEffect) (text : Option String) : Option String :=
  match effect with
  | none => text
  | some effect => effect.text

theorem text?_dedupe (payload : JsValue) (passes : Bool) :
    (state.dedupe sprint payload).2.text? sprintId taskId
      = after (if sprint = sprintId then payloadEffect payload passes taskId else none)
        (state.text? sprintId taskId) := by
  unfold BlockedState.dedupe payloadEffect
  cases hpayload : dependencyBlockedPayload payload with
  | none => simp [after]
  | some blocked =>
      dsimp only
      by_cases hempty : blocked.unresolvedDeps = []
      · rw [if_pos hempty, text?_clearTask]
        by_cases hsprint : sprint = sprintId
        · by_cases htask : blocked.taskId = taskId <;> simp [hsprint, htask, hempty, after, TaskEffect.text]
        · simp [hsprint, after]
      · rw [if_neg hempty]
        by_cases hsame : ((state.get? sprint).getD .empty).get? blocked.taskId
            = some (hashUnresolvedDeps blocked.unresolvedDeps)
        · rw [if_pos hsame]
          by_cases hsprint : sprint = sprintId
          · subst hsprint
            by_cases htask : blocked.taskId = taskId
            · subst htask
              have htext : state.text? sprint blocked.taskId
                  = some (hashUnresolvedDeps blocked.unresolvedDeps) := by
                unfold BlockedState.text?
                cases hmap : state.get? sprint with
                | none =>
                    rw [hmap] at hsame
                    cases hsame
                | some sprintMap =>
                    rw [hmap] at hsame
                    exact hsame
              simp [after, hempty, TaskEffect.text, htext]
            · simp [after, htask]
          · simp [after, hsprint]
        · rw [if_neg hsame, text?_setText]
          by_cases hsprint : sprint = sprintId
          · by_cases htask : blocked.taskId = taskId <;> simp [hsprint, htask, hempty, after, TaskEffect.text]
          · simp [hsprint, after]

theorem text?_run (call : Call) :
    (call.run state).text? sprintId taskId = after (call.effect sprintId taskId) (state.text? sprintId taskId) := by
  cases call with
  | write sprint channel payload passes =>
      have hstate : (Call.write sprint channel payload passes).run state
          = if channel = dependencyBlocked then (state.dedupe sprint payload).2 else state := by
        change (writeEventDetailed state sprint channel payload passes).2 = _
        unfold writeEventDetailed
        by_cases hchannel : channel = dependencyBlocked
        · rw [if_pos hchannel, if_pos hchannel]
          dsimp only
          split <;> rfl
        · rw [if_neg hchannel, if_neg hchannel]
          rfl
      rw [hstate]
      by_cases hchannel : channel = dependencyBlocked
      · rw [if_pos hchannel, text?_dedupe payload passes]
        simp [Call.effect, hchannel]
      · simp [Call.effect, hchannel, after]
  | clear sprint task =>
      cases sprint with
      | none => rfl
      | some sprint =>
          cases task with
          | none =>
              unfold Call.run BlockedState.clear Call.effect BlockedState.text?
              rw [OrderedMap.get?_delete]
              by_cases hsprint : sprint = sprintId
              · simp [hsprint, after, TaskEffect.text]
              · simp [hsprint, Ne.symm hsprint, after]
          | some task =>
              unfold Call.run BlockedState.clear Call.effect
              rw [text?_clearTask]
              by_cases hboth : sprint = sprintId ∧ task = taskId
              · simp [hboth, after, TaskEffect.text]
              · simp [hboth, after]

theorem text?_stateAfter_concat (before : List Call) (call : Call) :
    (stateAfter (before ++ [call])).text? sprintId taskId
      = after (call.effect sprintId taskId) ((stateAfter before).text? sprintId taskId) := by
  rw [stateAfter, List.foldl_append, List.foldl_cons, List.foldl_nil, text?_run]
  rfl

end Texts

/-! ### Suppressed events -/

def SameDeps (deps other : List String) : Prop := ∀ id, id ∈ deps ↔ id ∈ other

def Written (before : List Call) (sprintId taskId : String) (deps : List String) : Prop :=
  ∃ earlier payload passes later deps₀,
    before = earlier ++ Call.write sprintId dependencyBlocked payload passes :: later
      ∧ answer earlier sprintId dependencyBlocked payload passes
        = .written ⟨sprintId, dependencyBlocked, payload⟩
      ∧ dependencyBlockedPayload payload = some ⟨taskId, deps₀⟩ ∧ SameDeps deps₀ deps
      ∧ ∀ call ∈ later, ∀ effect, call.effect sprintId taskId = some effect →
        ∃ deps' passes', effect = .blocked deps' passes' ∧ SameDeps deps' deps

/-- Every event that is suppressed in the run says what an event before it says that was written. -/
def HidesNothing (calls : List Call) : Prop :=
  ∀ before sprintId channel payload passes after,
    calls = before ++ Call.write sprintId channel payload passes :: after →
    answer before sprintId channel payload passes = .suppressed →
      channel = dependencyBlocked ∧ ∃ taskId deps, dependencyBlockedPayload payload = some ⟨taskId, deps⟩
        ∧ Written before sprintId taskId deps

def EndsElsewhere (calls : List Call) (sprintId taskId text : String) : Prop :=
  ∀ before call after effect, calls = before ++ call :: after → call.effect sprintId taskId = some effect →
    (∀ other ∈ after, other.effect sprintId taskId = none) → effect.text ≠ some text

/-- Where calls about a task follow one another with one text, the first of them has passed, and they have one set
of dependencies. -/
def StreaksPass (calls : List Call) : Prop :=
  ∀ sprintId taskId earlier first between call after deps₀ passes₀ deps passes,
    calls = earlier ++ first :: (between ++ call :: after) →
    first.effect sprintId taskId = some (.blocked deps₀ passes₀) →
    call.effect sprintId taskId = some (.blocked deps passes) →
    hashUnresolvedDeps deps₀ = hashUnresolvedDeps deps →
    (∀ other ∈ between, ∀ effect, other.effect sprintId taskId = some effect →
      effect.text = some (hashUnresolvedDeps deps)) →
    EndsElsewhere earlier sprintId taskId (hashUnresolvedDeps deps) →
      passes₀ = true ∧ SameDeps deps₀ deps

section Runs

variable {before : List Call} {sprintId taskId channel : String} {payload : JsValue} {passes : Bool}

theorem answer_suppressed (hanswer : answer before sprintId channel payload passes = .suppressed) :
    channel = dependencyBlocked ∧ ∃ taskId deps, dependencyBlockedPayload payload = some ⟨taskId, deps⟩ ∧ deps ≠ []
      ∧ (stateAfter before).text? sprintId taskId = some (hashUnresolvedDeps deps) := by
  unfold answer writeEventDetailed at hanswer
  by_cases hchannel : channel = dependencyBlocked
  · rw [if_pos hchannel] at hanswer
    unfold BlockedState.dedupe at hanswer
    cases hpayload : dependencyBlockedPayload payload with
    | none =>
        rw [hpayload] at hanswer
        cases passes <;> cases hanswer
    | some blocked =>
        rw [hpayload] at hanswer
        dsimp only at hanswer
        by_cases hempty : blocked.unresolvedDeps = []
        · rw [if_pos hempty] at hanswer
          cases passes <;> cases hanswer
        · rw [if_neg hempty] at hanswer
          by_cases hsame : (((stateAfter before).get? sprintId).getD .empty).get? blocked.taskId
              = some (hashUnresolvedDeps blocked.unresolvedDeps)
          · refine ⟨hchannel, blocked.taskId, blocked.unresolvedDeps, rfl, hempty, ?_⟩
            unfold BlockedState.text?
            cases hmap : (stateAfter before).get? sprintId with
            | none =>
                rw [hmap] at hsame
                cases hsame
            | some sprintMap =>
                rw [hmap] at hsame
                exact hsame
          · rw [if_neg hsame] at hanswer
            cases passes <;> cases hanswer
  · rw [if_neg hchannel] at hanswer
    cases passes <;> cases hanswer

theorem answer_written {deps : List String} (hpayload : dependencyBlockedPayload payload = some ⟨taskId, deps⟩)
    (hfresh : (stateAfter before).text? sprintId taskId ≠ some (hashUnresolvedDeps deps)) :
    answer before sprintId dependencyBlocked payload true = .written ⟨sprintId, dependencyBlocked, payload⟩ := by
  have hemitted : ((stateAfter before).dedupe sprintId payload).1 = true := by
    unfold BlockedState.dedupe
    rw [hpayload]
    dsimp only
    split
    · rfl
    · split
      · next hsame =>
          refine absurd ?_ hfresh
          unfold BlockedState.text?
          cases hmap : (stateAfter before).get? sprintId with
          | none =>
              rw [hmap] at hsame
              cases hsame
          | some sprintMap =>
              rw [hmap] at hsame
              exact hsame
      · rfl
  unfold answer writeEventDetailed
  rw [if_pos rfl]
  dsimp only
  rw [if_pos hemitted, if_pos rfl]

theorem effect_eq_blocked {call : Call} {deps : List String}
    (heffect : call.effect sprintId taskId = some (.blocked deps passes)) :
    ∃ payload, call = .write sprintId dependencyBlocked payload passes
      ∧ dependencyBlockedPayload payload = some ⟨taskId, deps⟩ := by
  cases call with
  | write sprint channel payload passes' =>
      rw [Call.effect, payloadEffect] at heffect
      split at heffect
      · next hwhere =>
          obtain ⟨rfl, rfl⟩ := hwhere
          obtain ⟨blocked, hpayload, hblocked⟩ := Option.bind_eq_some_iff.mp heffect
          split at hblocked
          · next htask =>
              subst htask
              split at hblocked
              · cases hblocked
              · cases hblocked
                exact ⟨payload, rfl, hpayload⟩
          · cases hblocked
      · cases heffect
  | clear sprint task =>
      cases sprint with
      | none => cases heffect
      | some sprint =>
          cases task with
          | none =>
              rw [Call.effect] at heffect
              split at heffect <;> cases heffect
          | some task =>
              rw [Call.effect] at heffect
              split at heffect <;> cases heffect

theorem exists_streak {text : String} (htext : (stateAfter before).text? sprintId taskId = some text) :
    ∃ earlier first later deps passes, before = earlier ++ first :: later
      ∧ first.effect sprintId taskId = some (.blocked deps passes) ∧ hashUnresolvedDeps deps = text
      ∧ (∀ other ∈ later, ∀ effect, other.effect sprintId taskId = some effect → effect.text = some text)
      ∧ (stateAfter earlier).text? sprintId taskId ≠ some text := by
  induction before using List.reverseRecOn with
  | nil => cases htext
  | append_singleton before call ih =>
      rw [text?_stateAfter_concat] at htext
      have hextend (hbefore : (stateAfter before).text? sprintId taskId = some text)
          (hcall : ∀ effect, call.effect sprintId taskId = some effect → effect.text = some text) :
          ∃ earlier first later deps passes, before ++ [call] = earlier ++ first :: later
            ∧ first.effect sprintId taskId = some (.blocked deps passes) ∧ hashUnresolvedDeps deps = text
            ∧ (∀ other ∈ later, ∀ effect, other.effect sprintId taskId = some effect → effect.text = some text)
            ∧ (stateAfter earlier).text? sprintId taskId ≠ some text := by
        obtain ⟨earlier, first, later, deps, passes, rfl, hfirst, hhash, hlater, hfresh⟩ := ih hbefore
        refine ⟨earlier, first, later ++ [call], deps, passes, by simp, hfirst, hhash, ?_, hfresh⟩
        intro other hother effect heffect
        rcases List.mem_append.mp hother with hold | hlast
        · exact hlater other hold effect heffect
        · exact hcall effect (List.mem_singleton.mp hlast ▸ heffect)
      cases heffect : call.effect sprintId taskId with
      | none =>
          rw [heffect] at htext
          exact hextend htext fun effect hsome => by rw [heffect] at hsome; cases hsome
      | some effect =>
          rw [heffect] at htext
          cases effect with
          | reset => cases htext
          | blocked deps passes =>
              by_cases hbefore : (stateAfter before).text? sprintId taskId = some text
              · refine hextend hbefore fun other hother => ?_
                rw [heffect] at hother
                exact Option.some.inj hother ▸ htext
              · exact ⟨before, call, [], deps, passes, rfl, heffect, Option.some.inj htext, by simp, hbefore⟩

theorem endsElsewhere_of_text? {calls : List Call} {text : String}
    (hfresh : (stateAfter calls).text? sprintId taskId ≠ some text) :
    EndsElsewhere calls sprintId taskId text := by
  rintro before call rest effect rfl heffect hrest htext
  refine hfresh ?_
  have hlast (rest : List Call) (hrest : ∀ other ∈ rest, other.effect sprintId taskId = none) :
      (stateAfter (before ++ call :: rest)).text? sprintId taskId = effect.text := by
    induction rest using List.reverseRecOn with
    | nil =>
        rw [text?_stateAfter_concat, heffect]
        rfl
    | append_singleton rest other ih =>
        have hsplit : before ++ call :: (rest ++ [other]) = (before ++ call :: rest) ++ [other] := by simp
        rw [hsplit, text?_stateAfter_concat, hrest other (by simp)]
        exact ih fun other hother => hrest other (List.mem_append_left _ hother)
  rw [hlast rest hrest, htext]

/-- Where streaks pass, nothing is hidden. -/
theorem hidesNothing_of_streaksPass (calls : List Call) (hpass : StreaksPass calls) : HidesNothing calls := by
  rintro before sprintId channel payload passes rest rfl hanswer
  obtain ⟨rfl, taskId, deps, hpayload, hne, htext⟩ := answer_suppressed hanswer
  refine ⟨rfl, taskId, deps, hpayload, ?_⟩
  have heffect : (Call.write sprintId dependencyBlocked payload passes).effect sprintId taskId
      = some (.blocked deps passes) := by
    simp [Call.effect, payloadEffect, hpayload, hne]
  obtain ⟨earlier, first, later, deps₀, passes₀, rfl, hfirst, hhash, hlater, hfresh⟩ := exists_streak htext
  have hends := endsElsewhere_of_text? hfresh
  obtain ⟨rfl, hsame⟩ := hpass sprintId taskId earlier first later _ rest deps₀ passes₀ deps passes
    (by simp) hfirst heffect hhash hlater hends
  obtain ⟨payload₀, rfl, hpayload₀⟩ := effect_eq_blocked hfirst
  refine ⟨earlier, payload₀, true, later, deps₀, rfl, answer_written hpayload₀ (hhash ▸ hfresh), hpayload₀, hsame, ?_⟩
  -- Each call since is one of the streak, so its dependencies are those of the first call too.
  intro call hcall effect hcallEffect
  have hcallText := hlater call hcall effect hcallEffect
  cases effect with
  | reset => cases hcallText
  | blocked deps' passes' =>
      obtain ⟨between, others, rfl⟩ := List.append_of_mem hcall
      have hhash' : hashUnresolvedDeps deps' = hashUnresolvedDeps deps := Option.some.inj hcallText
      obtain ⟨-, hsame'⟩ := hpass sprintId taskId earlier _ between call
        (others ++ Call.write sprintId dependencyBlocked payload passes :: rest) deps₀ true deps' passes'
        (by simp) hfirst hcallEffect (hhash.trans hhash'.symm)
        (fun other hother effect heffect => hhash' ▸ hlater other (List.mem_append_left _ hother) effect heffect)
        (hhash' ▸ hends)
      exact ⟨deps', passes', rfl, fun id => (hsame' id).symm.trans (hsame id)⟩

/-! ### Runs in which streaks pass -/

theorem toList_hashUnresolvedDeps (deps : List String) : (hashUnresolvedDeps deps).toList
    = [','].intercalate ((sortBy compareCodePoint deps).map String.toList) := by
  rw [hashUnresolvedDeps, String.toList_intercalate]
  rfl

theorem sameDeps_of_hash {deps₀ deps : List String} (hne₀ : deps₀ ≠ []) (hne : deps ≠ [])
    (hplain₀ : ∀ id ∈ deps₀, ',' ∉ id.toList) (hplain : ∀ id ∈ deps, ',' ∉ id.toList)
    (hhash : hashUnresolvedDeps deps₀ = hashUnresolvedDeps deps) : SameDeps deps₀ deps := by
  have hpieces (ids : List String) (hids : ids ≠ []) (hfree : ∀ id ∈ ids, ',' ∉ id.toList) :
      (hashUnresolvedDeps ids).toList.splitOn ',' = (sortBy compareCodePoint ids).map String.toList := by
    rw [toList_hashUnresolvedDeps]
    refine List.splitOn_intercalate ',' (fun piece hpiece => ?_) fun hnil => hids ?_
    · obtain ⟨id, hid, rfl⟩ := List.mem_map.mp hpiece
      exact hfree id (mem_sortBy.mp hid)
    · rw [List.map_eq_nil_iff] at hnil
      exact List.length_eq_zero_iff.mp ((length_sortBy compareCodePoint ids).symm.trans (by rw [hnil]; rfl))
  have hsorted : (sortBy compareCodePoint deps₀).map String.toList
      = (sortBy compareCodePoint deps).map String.toList := by
    rw [← hpieces deps₀ hne₀ hplain₀, ← hpieces deps hne hplain, hhash]
  have hlists := (List.map_injective_iff.mpr fun _ _ => String.toList_inj.mp) hsorted
  intro id
  have hmem (ids : List String) : id ∈ sortBy compareCodePoint ids ↔ id ∈ ids := mem_sortBy
  rw [← hmem deps₀, hlists, hmem deps]

theorem ne_nil_of_effect {call : Call} {deps : List String}
    (heffect : call.effect sprintId taskId = some (.blocked deps passes)) : deps ≠ [] := by
  obtain ⟨payload, rfl, hpayload⟩ := effect_eq_blocked heffect
  rintro rfl
  simp [Call.effect, payloadEffect, hpayload] at heffect

theorem streaksPass_of_plain {calls : List Call}
    (hcalls : ∀ call ∈ calls, ∀ sprintId taskId deps passes,
      call.effect sprintId taskId = some (.blocked deps passes) →
        passes = true ∧ ∀ id ∈ deps, ',' ∉ id.toList) : StreaksPass calls := by
  rintro sprintId taskId earlier first between call rest deps₀ passes₀ deps passes rfl hfirst hcall hhash - -
  obtain ⟨hpasses, hplain₀⟩ := hcalls first (by simp) sprintId taskId deps₀ passes₀ hfirst
  obtain ⟨-, hplain⟩ := hcalls call (by simp) sprintId taskId deps passes hcall
  exact ⟨hpasses, sameDeps_of_hash (ne_nil_of_effect hfirst) (ne_nil_of_effect hcall) hplain₀ hplain hhash⟩

end Runs

def blockedBy (deps : List String) : JsValue :=
  .object [("taskId", .string "t"), ("unresolvedDeps", .array (deps.map .string))]

def blockedCall (deps : List String) (passes : Bool) : Call :=
  .write "s" dependencyBlocked (blockedBy deps) passes

def clearedRun : List Call :=
  [blockedCall ["a"] true, blockedCall ["a"] true, .clear (some "s") (some "t"), blockedCall ["a"] true]

theorem hidesNothing_of_streaksPass_clearedRun : HidesNothing clearedRun := by
  refine hidesNothing_of_streaksPass clearedRun (streaksPass_of_plain fun call hcall sprintId taskId deps passes
    heffect => ?_)
  obtain ⟨payload, rfl, hpayload⟩ := effect_eq_blocked heffect
  have hsame : sprintId = "s" ∧ payload = blockedBy ["a"] ∧ passes = true := by
    simpa [clearedRun, blockedCall] using hcall
  obtain ⟨-, rfl, rfl⟩ := hsame
  obtain rfl : deps = ["a"] := by
    cases hpayload
    rfl
  exact ⟨rfl, by decide⟩

/-- An event that was not written, or whose text stands for other dependencies too, hides the next one. -/
theorem not_hidesNothing : ¬ HidesNothing [blockedCall ["a"] false, blockedCall ["a"] true]
    ∧ ¬ HidesNothing [blockedCall ["a,b"] true, blockedCall ["a", "b"] true] := by
  have hwritten (deps deps' : List String) (passes : Bool)
      (hwritten : Written [blockedCall deps passes] "s" "t" deps') :
      answer [] "s" dependencyBlocked (blockedBy deps) passes = .written ⟨"s", dependencyBlocked, blockedBy deps⟩
        ∧ ∃ deps₀, dependencyBlockedPayload (blockedBy deps) = some ⟨"t", deps₀⟩ ∧ SameDeps deps₀ deps' := by
    obtain ⟨earlier, payload, passes', later, deps₀, hsplit, hanswer, hpayload, hsame, -⟩ := hwritten
    cases earlier with
    | nil =>
        obtain ⟨hcall, -⟩ := List.cons.inj hsplit
        obtain ⟨-, -, rfl, rfl⟩ := Call.write.inj hcall
        exact ⟨hanswer, deps₀, hpayload, hsame⟩
    | cons call earlier => exact absurd (List.cons.inj hsplit).2 (by simp)
  constructor
  · intro hhides
    obtain ⟨-, taskId, deps, hpayload, hevent⟩ := hhides [blockedCall ["a"] false] "s" dependencyBlocked
      (blockedBy ["a"]) true [] rfl rfl
    cases hpayload
    obtain ⟨hanswer, -⟩ := hwritten _ _ _ hevent
    have hfailed : answer [] "s" dependencyBlocked (blockedBy ["a"]) false = .failed := rfl
    cases hfailed.symm.trans hanswer
  · intro hhides
    obtain ⟨-, taskId, deps, hpayload, hevent⟩ := hhides [blockedCall ["a,b"] true] "s" dependencyBlocked
      (blockedBy ["a", "b"]) true [] rfl rfl
    cases hpayload
    obtain ⟨-, deps₀, hpayload₀, hsame⟩ := hwritten _ _ _ hevent
    cases hpayload₀
    exact absurd ((hsame "a").mpr (by decide)) (by decide)

end Deckent.EventStream
