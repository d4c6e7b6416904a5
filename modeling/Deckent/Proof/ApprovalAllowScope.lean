import Deckent.Model.ApprovalAllowScope
import Mathlib.Tactic.SplitIfs

/-!
# Grants and revocations of instances that share a file

Where every call finds the copy of its instance to be what the file holds, the instances behave as one
store: a revoked grant is gone, and a grant that stands is found by every instance.
-/

namespace Deckent.ApprovalAllowScope

variable {ι : Type} {shared next : AllowScopeShared ι}
  {rules after : List ApprovalAllowScopeRule} {file : AllowScopeFile} {rule : ApprovalAllowScopeRule}
  {request : ApprovalAllowScopeMatchInput} {now : Int} {id : String}

def CopyCurrent (_instanceId : ι) (_action : AllowScopeAction) (shared : AllowScopeShared ι)
    (rules : Option (List ApprovalAllowScopeRule)) : Prop :=
  ∀ copy, rules = some copy → copy = loadAllowScopeFile shared.file

/-! ### One call -/

@[simp]
theorem loadAllowScopeFile_persist (rules : List ApprovalAllowScopeRule) :
    loadAllowScopeFile (persist rules) = rules := by
  simp [loadAllowScopeFile, persist, List.filterMap_map]

theorem grantAllow_eq_some {input : ApprovalAllowScopeGrantInput}
    (hgrant : grantAllow rules input id now = some (rule, file, after)) :
    rule.id = id ∧ file = persist (rules ++ [rule]) ∧ after = rules ++ [rule] := by
  simp only [grantAllow, Option.bind_eq_bind, Option.bind_eq_some_iff, Option.pure_def,
    Option.some.injEq, Prod.mk.injEq] at hgrant
  obtain ⟨scope, -, maxRisk, -, expiresAt, -, granted, hparse, rfl, rfl, rfl⟩ := hgrant
  unfold AllowScopeFields.parse at hparse
  split_ifs at hparse
  obtain rfl := Option.some.inj hparse
  exact ⟨rfl, rfl, rfl⟩

theorem revokeAllow_eq_true :
    (revokeAllow file rules id).1 = true ↔ ∃ rule ∈ rules, rule.id = id := by
  simp [revokeAllow]

theorem load_revokeAllow (hcopy : rules = loadAllowScopeFile file) :
    loadAllowScopeFile (revokeAllow file rules id).2.1 = rules.filter (·.id ≠ id) := by
  unfold revokeAllow
  simp only
  split_ifs with hrevoked
  · exact loadAllowScopeFile_persist _
  · rw [← hcopy]
    symm
    rw [not_not, List.length_filter_eq_length_iff] at hrevoked
    exact List.filter_eq_self.mpr hrevoked

theorem load_matchesAllow (hcopy : rules = loadAllowScopeFile file) :
    loadAllowScopeFile (matchesAllow file rules request now).2.1 = rules.filter (now < ·.expiresAt) := by
  unfold matchesAllow
  simp only
  split_ifs with hpurged
  · exact loadAllowScopeFile_persist _
  · rw [← hcopy]
    symm
    rw [not_not, List.length_filter_eq_length_iff] at hpurged
    exact List.filter_eq_self.mpr hpurged

theorem grantable_iff :
    request.grantable = true
      ↔ ∃ tier, approvalRiskTierFor request.risk request.riskTier = some tier ∧ tier ≠ .critical := by
  unfold ApprovalAllowScopeMatchInput.grantable
  cases htier : approvalRiskTierFor request.risk request.riskTier with
  | none => simp
  | some tier => cases tier <;> simp

theorem risk_ne_critical_of_grantable (hgrantable : request.grantable = true) :
    request.risk ≠ .critical := by
  obtain ⟨tier, htier, hcritical⟩ := grantable_iff.mp hgrantable
  intro hrisk
  unfold approvalRiskTierFor at htier
  rw [hrisk] at htier
  match hnamed : request.riskTier with
  | none =>
      rw [hnamed] at htier
      exact hcritical (Option.some.inj htier).symm
  | some none =>
      rw [hnamed] at htier
      cases htier
  | some (some named) =>
      rw [hnamed] at htier
      cases named <;> simp [isApprovalRiskTierAtLeast, mapLegacyApprovalRisk, ApprovalRiskTier.rank]
        at htier
      exact hcritical htier.symm

theorem matchesAllow_eq_some (hmatch : (matchesAllow file rules request now).1 = some rule) :
    rule ∈ rules ∧ now < rule.expiresAt ∧ rule.covers request = true ∧ request.grantable = true := by
  unfold matchesAllow at hmatch
  simp only at hmatch
  split_ifs at hmatch with hgrantable
  have hlive := List.mem_filter.mp (List.mem_of_find?_eq_some hmatch)
  have hcovers := (List.find?_eq_some_iff_append.mp hmatch).1
  exact ⟨hlive.1, by simpa using hlive.2, hcovers, hgrantable⟩

theorem isSome_matchesAllow (hmem : rule ∈ rules) (hlive : now < rule.expiresAt)
    (hcovers : rule.covers request = true) (hgrantable : request.grantable = true) :
    (matchesAllow file rules request now).1.isSome = true := by
  unfold matchesAllow
  simp only
  rw [if_pos hgrantable, List.find?_isSome]
  exact ⟨rule, List.mem_filter.mpr ⟨hmem, by simpa using hlive⟩, hcovers⟩

/-! ### The contract of a log -/

structure Standing (rule : ApprovalAllowScopeRule) (log : List (AllowScopeEvent ι)) : Prop where
  unrevoked : .revoked rule.id true ∉ log
  unexpired : ∀ instanceId request now result, .matched instanceId request now result ∈ log →
    now < rule.expiresAt

/-- What an event owes to the ones before it. -/
structure EventContract (earlier : List (AllowScopeEvent ι)) (event : AllowScopeEvent ι) : Prop where
  /-- A revoked grant is not returned and not listed. -/
  revoked : ∀ id, .revoked id true ∈ earlier →
    (∀ instanceId request now rule, event = .matched instanceId request now (some rule) → rule.id ≠ id)
      ∧ ∀ instanceId rules, event = .created instanceId rules → ∀ rule ∈ rules, rule.id ≠ id
  /-- A grant that stands is listed, and a request that it covers is matched. -/
  standing : ∀ before rule rest, earlier = before ++ .granted rule :: rest → Standing rule rest →
    (∀ instanceId rules, event = .created instanceId rules → rule ∈ rules)
      ∧ ∀ instanceId request now result, event = .matched instanceId request now result →
        now < rule.expiresAt → rule.covers request = true → request.grantable = true →
        result.isSome = true
  /-- A lookup returns a grant in force, for the request's own scope and no higher risk. -/
  exact : ∀ instanceId request now rule, event = .matched instanceId request now (some rule) →
    now < rule.expiresAt ∧ rule.scopeId = request.scopeId ∧ rule.scope = request.scope
      ∧ request.risk.rank ≤ rule.maxRisk.rank ∧ request.risk ≠ .critical
      ∧ ∃ tier, approvalRiskTierFor request.risk request.riskTier = some tier ∧ tier ≠ .critical

def AllowScopeContract (log : List (AllowScopeEvent ι)) : Prop :=
  ∀ earlier event later, log = earlier ++ event :: later → EventContract earlier event

/-! ### Runs -/

/-- What the file and the log of current instances satisfy. -/
structure Consistent (shared : AllowScopeShared ι) : Prop where
  contract : AllowScopeContract shared.log
  drawn : ∀ rule ∈ loadAllowScopeFile shared.file, rule.id ∈ shared.drawn
  revoked : ∀ id, .revoked id true ∈ shared.log →
    id ∈ shared.drawn ∧ ∀ rule ∈ loadAllowScopeFile shared.file, rule.id ≠ id
  standing : ∀ before rule rest, shared.log = before ++ .granted rule :: rest → Standing rule rest →
    rule ∈ loadAllowScopeFile shared.file

theorem consistent_initial (file : AllowScopeFile) :
    Consistent (AllowScopeProcesses.initial file : Processes ι _ _).shared where
  contract := eachOwes_nil
  drawn := fun rule hrule => List.mem_map_of_mem hrule
  revoked := by
    intro id hrevoked
    cases hrevoked
  standing := by
    intro before rule rest heq
    cases before <;> cases heq

theorem Standing.of_concat {log : List (AllowScopeEvent ι)} {event : AllowScopeEvent ι}
    (hstanding : Standing rule (log ++ [event])) : Standing rule log where
  unrevoked := fun hmem => hstanding.unrevoked (List.mem_append_left _ hmem)
  unexpired := fun instanceId request now result hmem =>
    hstanding.unexpired instanceId request now result (List.mem_append_left _ hmem)

/-- A call that adds an event keeps what is consistent, if the event is owed nothing more and the file
loses only what is revoked or expired by it. -/
theorem Consistent.log (event : AllowScopeEvent ι) (hconsistent : Consistent shared)
    (hevent : EventContract shared.log event) (hlog : next.log = shared.log ++ [event])
    (hdrawn : ∀ id ∈ shared.drawn, id ∈ next.drawn)
    (hnew : ∀ rule ∈ loadAllowScopeFile next.file, rule ∈ loadAllowScopeFile shared.file
      ∨ (rule.id ∈ next.drawn ∧ rule.id ∉ shared.drawn))
    (hrevoked : ∀ id, event = .revoked id true →
      id ∈ shared.drawn ∧ ∀ rule ∈ loadAllowScopeFile next.file, rule.id ≠ id)
    (hkept : ∀ rule ∈ loadAllowScopeFile shared.file, Standing rule [event] →
      rule ∈ loadAllowScopeFile next.file)
    (hgranted : ∀ rule, event = .granted rule → rule ∈ loadAllowScopeFile next.file) :
    Consistent next where
  contract := by
    rw [hlog]
    exact EachOwes.concat hconsistent.contract hevent
  drawn := by
    intro rule hrule
    rcases hnew rule hrule with hold | ⟨hdraw, -⟩
    · exact hdrawn _ (hconsistent.drawn rule hold)
    · exact hdraw
  revoked := by
    intro id hmem
    rw [hlog] at hmem
    rcases List.mem_append.mp hmem with hold | hlast
    · obtain ⟨hid, hgone⟩ := hconsistent.revoked id hold
      refine ⟨hdrawn id hid, ?_⟩
      intro rule hrule
      rcases hnew rule hrule with hthere | ⟨-, hfresh⟩
      · exact hgone rule hthere
      · intro heq
        exact hfresh (heq ▸ hid)
    · obtain ⟨hid, hgone⟩ := hrevoked id (List.mem_singleton.mp hlast).symm
      exact ⟨hdrawn id hid, hgone⟩
  standing := by
    intro before rule rest heq hstanding
    rw [hlog] at heq
    rcases concat_eq_append_cons heq with ⟨-, hlast, -⟩ | ⟨others, rfl, hsplit⟩
    · exact hgranted rule hlast.symm
    · refine hkept rule (hconsistent.standing before rule others hsplit hstanding.of_concat) ⟨?_, ?_⟩
      · exact fun hmem => hstanding.unrevoked (List.mem_append_right _ hmem)
      · exact fun instanceId request now result hmem =>
          hstanding.unexpired instanceId request now result (List.mem_append_right _ hmem)

theorem Consistent.draw (hconsistent : Consistent shared) (id : String) :
    Consistent { shared with drawn := shared.drawn ++ [id] } where
  contract := hconsistent.contract
  drawn := fun rule hrule => List.mem_append_left _ (hconsistent.drawn rule hrule)
  revoked := by
    intro revoked hmem
    obtain ⟨hid, hgone⟩ := hconsistent.revoked revoked hmem
    exact ⟨List.mem_append_left _ hid, hgone⟩
  standing := hconsistent.standing

theorem Consistent.create (hconsistent : Consistent shared) (instanceId : ι) :
    Consistent {
      shared with
      log := shared.log ++ [.created instanceId (loadAllowScopeFile shared.file)] } := by
  refine hconsistent.log (.created instanceId (loadAllowScopeFile shared.file)) ?_ rfl
    (fun _ hid => hid) (fun _ hrule => .inl hrule) ?_ (fun _ hrule _ => hrule) ?_
  · constructor
    · intro id hrevoked
      refine ⟨by simp, ?_⟩
      intro other rules heq rule hrule
      cases heq
      exact (hconsistent.revoked id hrevoked).2 rule hrule
    · intro before rule rest heq hstanding
      refine ⟨?_, by simp⟩
      intro other rules hevent
      cases hevent
      exact hconsistent.standing before rule rest heq hstanding
    · simp
  · simp
  · simp

theorem Consistent.grant (hconsistent : Consistent shared) (hid : rule.id = id)
    (hfresh : id ∉ shared.drawn) :
    Consistent ({
      file := persist (loadAllowScopeFile shared.file ++ [rule])
      drawn := shared.drawn ++ [id]
      log := shared.log ++ [.granted rule] } : AllowScopeShared ι) := by
  refine hconsistent.log (.granted rule) ?_ rfl
    (fun _ hdrawn => List.mem_append_left _ hdrawn) ?_ ?_ ?_ ?_
  · constructor <;> simp
  · intro other hother
    rw [loadAllowScopeFile_persist] at hother
    rcases List.mem_append.mp hother with hold | hlast
    · exact .inl hold
    · obtain rfl := List.mem_singleton.mp hlast
      exact .inr (by simp [hid, hfresh])
  · simp
  · intro other hother _
    rw [loadAllowScopeFile_persist]
    exact List.mem_append_left _ hother
  · intro other heq
    cases heq
    simp

theorem Consistent.revoke (hconsistent : Consistent shared) (id : String) :
    Consistent {
      shared with
      file := (revokeAllow shared.file (loadAllowScopeFile shared.file) id).2.1
      log := shared.log
        ++ [.revoked id (revokeAllow shared.file (loadAllowScopeFile shared.file) id).1] } := by
  refine hconsistent.log (.revoked id _) ?_ rfl (fun _ hid => hid) ?_ ?_ ?_ ?_
  · constructor <;> simp
  · intro rule hrule
    rw [load_revokeAllow rfl] at hrule
    exact .inl (List.mem_filter.mp hrule).1
  · intro other heq
    obtain ⟨rfl, hresult⟩ := AllowScopeEvent.revoked.inj heq
    constructor
    · obtain ⟨rule, hrule, rfl⟩ := revokeAllow_eq_true.mp hresult
      exact hconsistent.drawn rule hrule
    · intro rule hrule
      rw [load_revokeAllow rfl] at hrule
      simpa using (List.mem_filter.mp hrule).2
  · intro rule hrule hstanding
    rw [load_revokeAllow rfl]
    refine List.mem_filter.mpr ⟨hrule, decide_eq_true ?_⟩
    rintro rfl
    apply hstanding.unrevoked
    rw [revokeAllow_eq_true.mpr ⟨rule, hrule, rfl⟩]
    exact List.mem_singleton_self _
  · simp

theorem Consistent.lookup (hconsistent : Consistent shared) (instanceId : ι)
    (request : ApprovalAllowScopeMatchInput) (now : Int) :
    Consistent {
      shared with
      file := (matchesAllow shared.file (loadAllowScopeFile shared.file) request now).2.1
      log := shared.log
        ++ [.matched instanceId request now
          (matchesAllow shared.file (loadAllowScopeFile shared.file) request now).1] } := by
  refine hconsistent.log (.matched instanceId request now _) ?_ rfl (fun _ hid => hid)
    ?_ ?_ ?_ ?_
  · constructor
    · intro id hrevoked
      refine ⟨?_, by simp⟩
      intro other request' now' rule heq
      obtain ⟨-, -, -, hresult⟩ := AllowScopeEvent.matched.inj heq
      exact (hconsistent.revoked id hrevoked).2 rule (matchesAllow_eq_some hresult).1
    · intro before rule rest heq hstanding
      refine ⟨by simp, ?_⟩
      intro other request' now' result hevent hlive hcovers hgrantable
      obtain ⟨-, rfl, rfl, rfl⟩ := AllowScopeEvent.matched.inj hevent
      exact isSome_matchesAllow (hconsistent.standing before rule rest heq hstanding) hlive hcovers
        hgrantable
    · intro other request' now' rule heq
      obtain ⟨-, rfl, rfl, hresult⟩ := AllowScopeEvent.matched.inj heq
      obtain ⟨-, hlive, hcovers, hgrantable⟩ := matchesAllow_eq_some hresult
      simp only [ApprovalAllowScopeRule.covers, Bool.and_eq_true, decide_eq_true_eq] at hcovers
      obtain ⟨⟨hscopeId, hscope⟩, hrisk⟩ := hcovers
      exact ⟨hlive, hscopeId, hscope, hrisk, risk_ne_critical_of_grantable hgrantable,
        grantable_iff.mp hgrantable⟩
  · intro rule hrule
    rw [load_matchesAllow rfl] at hrule
    exact .inl (List.mem_filter.mp hrule).1
  · simp
  · intro rule hrule hstanding
    rw [load_matchesAllow rfl]
    refine List.mem_filter.mpr ⟨hrule, decide_eq_true ?_⟩
    exact hstanding.unexpired instanceId request now _ (List.mem_singleton_self _)
  · simp

theorem Consistent.allowScopeStep {instanceId : ι} {action : AllowScopeAction}
    {copy copy' : Option (List ApprovalAllowScopeRule)} (hconsistent : Consistent shared)
    (hcurrent : CopyCurrent instanceId action shared copy)
    (hstep : allowScopeStep instanceId action shared copy = some (next, copy')) : Consistent next := by
  cases copy with
  | none =>
      cases action with
      | create =>
          cases hstep
          exact hconsistent.create instanceId
      | grantAllow input id now => cases hstep
      | revokeAllow id => cases hstep
      | matchesAllow request now => cases hstep
  | some rules =>
      obtain rfl := hcurrent rules rfl
      cases action with
      | create => cases hstep
      | grantAllow input id now =>
          simp only [ApprovalAllowScope.allowScopeStep] at hstep
          split_ifs at hstep with hdrawn
          cases hgrant : grantAllow (loadAllowScopeFile shared.file) input id now with
          | none =>
              rw [hgrant] at hstep
              cases hstep
              exact hconsistent.draw id
          | some result =>
              obtain ⟨rule, file, after⟩ := result
              rw [hgrant] at hstep
              cases hstep
              obtain ⟨hid, rfl, rfl⟩ := grantAllow_eq_some hgrant
              exact hconsistent.grant hid hdrawn
      | revokeAllow id =>
          cases hstep
          exact hconsistent.revoke id
      | matchesAllow request now =>
          cases hstep
          exact hconsistent.lookup instanceId request now

/-- Where every call finds the copy of its instance to be what the file holds, revocations are final and
grants stand until they expire. -/
theorem allowScope_consistent [DecidableEq ι] {file : AllowScopeFile}
    {processes : Processes ι (AllowScopeShared ι) (Option (List ApprovalAllowScopeRule))}
    (hleads : Processes.Leads allowScopeStep CopyCurrent (AllowScopeProcesses.initial file) processes) :
    AllowScopeContract processes.shared.log := by
  have hrun := Processes.leads_induction Consistent (fun _ _ _ => True)
    ⟨consistent_initial file, fun _ => trivial⟩ ?_ hleads
  · exact hrun.1.contract
  · intro i action shared copy next copy' hcurrent hstep hconsistent _
    exact ⟨hconsistent.allowScopeStep hcurrent hstep, trivial, fun _ _ _ _ => trivial⟩

/-! ### Runs on an empty file -/

def sampleGrant : ApprovalAllowScopeGrantInput where
  scopeId := "npm test"
  scope := some .shellExec
  maxRisk := some .medium
  expiresAt := some 100
  grantedBy := "operator"
  reason := none

def sampleRequest : ApprovalAllowScopeMatchInput where
  scopeId := "npm test"
  scope := .shellExec
  risk := .low
  riskTier := none

/-- What is granted at the instant 0 under the id "g". -/
def sampleRule : ApprovalAllowScopeRule where
  id := "g"
  scopeId := "npm test"
  scope := .shellExec
  maxRisk := .medium
  expiresAt := 100
  grantedBy := "operator"
  grantedAt := 0
  reason := ""
  wellFormed := by decide +kernel

def copyIsCurrent (_instanceId : Nat) (_action : AllowScopeAction) (shared : AllowScopeShared Nat)
    (rules : Option (List ApprovalAllowScopeRule)) : Bool :=
  rules = none || rules = some (loadAllowScopeFile shared.file)

theorem copyCurrent_of_copyIsCurrent {instanceId : Nat} {action : AllowScopeAction}
    {shared : AllowScopeShared Nat} {copy : Option (List ApprovalAllowScopeRule)}
    (hcheck : copyIsCurrent instanceId action shared copy = true) :
    CopyCurrent instanceId action shared copy := by
  rintro rules rfl
  simpa [copyIsCurrent] using hcheck

/-- The second instance finds the grant of the first one and revokes it; the third one is created
without it. -/
theorem allowScope_consistent_revoked :
    ∃ processes : Processes Nat (AllowScopeShared Nat) (Option (List ApprovalAllowScopeRule)),
      processes.shared.log = [
        .created 0 [],
        .granted sampleRule,
        .created 1 [sampleRule],
        .matched 1 sampleRequest 50 (some sampleRule),
        .revoked "g" true,
        .created 2 []]
      ∧ AllowScopeContract processes.shared.log := by
  have hrun : (Processes.takeTurns allowScopeStep copyIsCurrent (AllowScopeProcesses.initial none)
      [(0, .create), (0, .grantAllow sampleGrant "g" 0), (1, .create),
        (1, .matchesAllow sampleRequest 50), (1, .revokeAllow "g"), (2, .create)]).map (·.shared.log)
      = some [
        .created 0 [],
        .granted sampleRule,
        .created 1 [sampleRule],
        .matched 1 sampleRequest 50 (some sampleRule),
        .revoked "g" true,
        .created 2 []] := by decide +kernel
  obtain ⟨processes, hturns, hlog⟩ := Option.map_eq_some_iff.mp hrun
  exact ⟨processes, hlog, allowScope_consistent
    (Processes.leads_of_takeTurns (fun _ _ _ _ => copyCurrent_of_copyIsCurrent) hturns)⟩

/-- The second instance still finds the grant that the first one has revoked. -/
theorem not_allowScopeContract_stale :
    ∃ processes : Processes Nat (AllowScopeShared Nat) (Option (List ApprovalAllowScopeRule)),
      Processes.Leads allowScopeStep (fun _ _ _ _ => True) (AllowScopeProcesses.initial none) processes
        ∧ ¬ AllowScopeContract processes.shared.log := by
  have hrun : (Processes.takeTurns allowScopeStep (fun _ _ _ _ => true)
      (AllowScopeProcesses.initial none)
      [(0, .create), (0, .grantAllow sampleGrant "g" 0), (1, .create), (0, .revokeAllow "g"),
        (1, .matchesAllow sampleRequest 50)]).map (·.shared.log)
      = some ([
        .created 0 [],
        .granted sampleRule,
        .created 1 [sampleRule],
        .revoked "g" true]
        ++ .matched 1 sampleRequest 50 (some sampleRule) :: []) := by decide +kernel
  obtain ⟨processes, hturns, hlog⟩ := Option.map_eq_some_iff.mp hrun
  refine ⟨processes, Processes.leads_of_takeTurns (fun _ _ _ _ _ => trivial) hturns, ?_⟩
  intro hcontract
  have hgone := ((hcontract _ _ _ hlog).revoked "g" (by simp)).1 1 sampleRequest 50 sampleRule rfl
  exact hgone rfl

end Deckent.ApprovalAllowScope
