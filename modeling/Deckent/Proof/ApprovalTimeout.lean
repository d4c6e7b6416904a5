import Deckent.Model.ApprovalTimeout
import Deckent.Proof.ApprovalLifecycle

/-!
# What a timeout decides

The allowlist of request kinds is empty, so a timeout denies or parks, and which of the two follows from
the profile, the tier and the default action under the policy in force.
-/

namespace Deckent.ApprovalLifecycle

open ApprovalAllowScope (ApprovalRiskTier mapLegacyApprovalRisk)

section Policy

variable (policy : ResolvedApprovalLifecycleConfig) (request : ApprovalRequest)

def timeoutOrigin : ApprovalLifecycleOrigin :=
  (request.lifecycle.map AuthoredLifecycle.origin).getD .brokerNative

def timeoutProfile : ResolvedApprovalLifecycleProfile :=
  match request.lifecycle with
  | none => policy.profiles .brokerNative
  | some lifecycle => lifecycle.lifecycleProfile.tightenedBy (policy.profiles lifecycle.origin)

def timeoutRiskTier : ApprovalRiskTier :=
  match request.lifecycle with
  | none => maxApprovalRiskTier (timeoutProfile policy request).riskTier [mapLegacyApprovalRisk request.risk]
  | some lifecycle => maxApprovalRiskTier lifecycle.riskTier [(timeoutProfile policy request).riskTier]

def MeetsFloor : Prop :=
  (defaultProfiles (timeoutOrigin request)).timeoutDisposition.rank
      ≤ (timeoutProfile policy request).timeoutDisposition.rank
    ∧ (defaultProfiles (timeoutOrigin request)).blocking.rank
      ≤ (timeoutProfile policy request).blocking.rank

/-- A timeout of the request denies it: by its profile, or by default where the tier is critical or the
default action is to allow or to deny. -/
def TimeoutDenies : Prop :=
  (timeoutProfile policy request).timeoutDisposition = .denyExpire
    ∨ (timeoutProfile policy request).timeoutDisposition = .requestDefault
      ∧ (timeoutRiskTier policy request = .critical ∨ request.defaultAction = .allow
        ∨ request.defaultAction = .deny)

instance : Decidable (TimeoutDenies policy request) := inferInstanceAs (Decidable (_ ∨ _))

end Policy

variable {profileDigest : ApprovalLifecycleOrigin → ResolvedApprovalLifecycleProfile → String}
  {policy : ResolvedApprovalLifecycleConfig} {request : ApprovalRequest} {now : Int}
  {settled : ApprovalTimeoutSettlement}

/-- The receipt says what the decision decides. -/
structure Agrees (receipt : ApprovalTimeoutReceipt) (decision : ApprovalDecision) : Prop where
  proceedWarn : receipt.action = .proceedWarn ↔ decision.decision = .allow
  deny : receipt.action = .deny ↔ decision.decision = .deny
  park : receipt.action = .park ↔ decision.decision = .defer

theorem agrees_timeoutDecision {receipt : ApprovalTimeoutReceipt} {action : TimeoutAction} :
    Agrees receipt (timeoutDecision request now action) ↔ receipt.action = action := by
  constructor
  · intro hagrees
    cases action with
    | park => exact hagrees.park.mpr rfl
    | deny => exact hagrees.deny.mpr rfl
    | proceedWarn => exact hagrees.proceedWarn.mpr rfl
  · rintro rfl
    cases haction : receipt.action <;> constructor <;> simp [haction, timeoutDecision, TimeoutAction.decision]

section Resolve

variable {origin : ApprovalLifecycleOrigin} {profile : ResolvedApprovalLifecycleProfile}
  {riskTier : ApprovalRiskTier} {action : ApprovalAction} {kind : Option String}

theorem resolveApprovalTimeout_cases :
    (∃ message, resolveApprovalTimeout origin profile riskTier action kind = .error message
        ∧ (profile.timeoutDisposition.rank < (defaultProfiles origin).timeoutDisposition.rank
          ∨ profile.blocking.rank < (defaultProfiles origin).blocking.rank))
      ∨ ∃ timeout, resolveApprovalTimeout origin profile riskTier action kind = .ok timeout
        ∧ ((defaultProfiles origin).timeoutDisposition.rank ≤ profile.timeoutDisposition.rank
          ∧ (defaultProfiles origin).blocking.rank ≤ profile.blocking.rank)
        ∧ timeout.action = if profile.timeoutDisposition = .denyExpire
            ∨ profile.timeoutDisposition = .requestDefault
              ∧ (riskTier = .critical ∨ action = .allow ∨ action = .deny)
          then .deny else .park := by
  unfold resolveApprovalTimeout
  dsimp only
  split
  · next hweak => exact Or.inl ⟨_, rfl, hweak⟩
  · next hstrong =>
      rw [not_or, not_lt, not_lt] at hstrong
      refine Or.inr ?_
      cases hdisposition : profile.timeoutDisposition with
      | parkUndecidable => exact ⟨_, rfl, hdisposition ▸ hstrong, by simp⟩
      | parkAlert => exact ⟨_, rfl, hdisposition ▸ hstrong, by simp⟩
      | denyExpire => exact ⟨_, rfl, hdisposition ▸ hstrong, by simp⟩
      | requestDefault =>
          rw [hdisposition] at hstrong
          dsimp only
          split
          · next hcritical => exact ⟨_, rfl, hstrong, by simp [hcritical]⟩
          · next hbelow =>
              cases action with
              | allow =>
                  have hkind : kind.any brokerProceedWarnRequestKindAllowlist.contains = false := by
                    cases kind <;> rfl
                  simp only [hkind, Bool.false_eq_true, and_false, if_false]
                  exact ⟨_, rfl, hstrong, by simp⟩
              | deny => exact ⟨_, rfl, hstrong, by simp⟩
              | defer => exact ⟨_, rfl, hstrong, by simp [hbelow]⟩
              | escalate => exact ⟨_, rfl, hstrong, by simp [hbelow]⟩

end Resolve

structure SettlesTimeout (policy : ResolvedApprovalLifecycleConfig) (request : ApprovalRequest) (now : Int)
    (settled : ApprovalTimeoutSettlement) : Prop where
  decision : settled.decision = timeoutDecision request now settled.receipt.action
  action : settled.receipt.action = if TimeoutDenies policy request then .deny else .park
  requestId : settled.receipt.requestId = request.id

def IsSettleable (request : ApprovalRequest) (now : Int) : Prop :=
  isLookupId request.id = true ∧ ApprovalAllowScope.isIsoDateTime now = true

theorem isStoredDecision_timeoutDecision {action : TimeoutAction} :
    isStoredDecision (timeoutDecision request now action) = true ↔ IsSettleable request now := by
  simp [isStoredDecision, timeoutDecision, IsSettleable]

variable (profileDigest) in
theorem timeout_inputs (policy : ResolvedApprovalLifecycleConfig) (request : ApprovalRequest) :
    (((appliedLifecycleView profileDigest request policy).map (·.origin)).getD .brokerNative
        = timeoutOrigin request)
      ∧ ((appliedLifecycleView profileDigest request policy).map (·.appliedProfile)).getD
          (policy.profiles .brokerNative) = timeoutProfile policy request
      ∧ ((appliedLifecycleView profileDigest request policy).map (·.riskTier)).getD
          (maxApprovalRiskTier (timeoutProfile policy request).riskTier
            [mapLegacyApprovalRisk request.risk]) = timeoutRiskTier policy request := by
  unfold appliedLifecycleView timeoutRiskTier timeoutProfile timeoutOrigin
  cases request.lifecycle with
  | none => exact ⟨rfl, rfl, rfl⟩
  | some lifecycle => exact ⟨rfl, rfl, rfl⟩

theorem buildApprovalTimeoutSettlement_cases :
    (∃ message, buildApprovalTimeoutSettlement profileDigest request now policy = .error message
        ∧ ¬ (MeetsFloor policy request ∧ IsSettleable request now))
      ∨ ∃ settled, buildApprovalTimeoutSettlement profileDigest request now policy = .ok settled
        ∧ (MeetsFloor policy request ∧ IsSettleable request now)
        ∧ SettlesTimeout policy request now settled := by
  obtain ⟨horigin, hprofile, hrisk⟩ := timeout_inputs profileDigest policy request
  unfold buildApprovalTimeoutSettlement
  dsimp only
  rw [horigin, hprofile, hrisk]
  rcases resolveApprovalTimeout_cases with ⟨message, hresolved, hweak⟩ | ⟨timeout, hresolved, hfloor, haction⟩
  · refine Or.inl ⟨message, ?_, ?_⟩
    · rw [hresolved]
      rfl
    · rintro ⟨⟨hdisposition, hblocking⟩, -⟩
      rcases hweak with hweak | hweak
      · exact absurd hdisposition (not_le.mpr hweak)
      · exact absurd hblocking (not_le.mpr hweak)
  · rw [hresolved]
    by_cases hstored : isStoredDecision (timeoutDecision request now timeout.action) = true
    · refine Or.inr ⟨_, if_pos hstored, ⟨hfloor, isStoredDecision_timeoutDecision.mp hstored⟩, ?_⟩
      exact ⟨rfl, haction, rfl⟩
    · refine Or.inl ⟨_, if_neg hstored, ?_⟩
      rintro ⟨-, hsettleable⟩
      exact hstored (isStoredDecision_timeoutDecision.mpr hsettleable)

theorem settles_of_eq_ok
    (hsettled : buildApprovalTimeoutSettlement profileDigest request now policy = .ok settled) :
    (MeetsFloor policy request ∧ IsSettleable request now) ∧ SettlesTimeout policy request now settled := by
  rcases buildApprovalTimeoutSettlement_cases with ⟨message, herror, -⟩ | ⟨other, hother, hsettles⟩
  · rw [herror] at hsettled
    cases hsettled
  · rw [hother, Except.ok.injEq] at hsettled
    exact hsettled ▸ hsettles

variable (profileDigest) in
theorem exists_settlement (hfloor : MeetsFloor policy request) (hsettleable : IsSettleable request now) :
    ∃ settled, buildApprovalTimeoutSettlement profileDigest request now policy = .ok settled := by
  rcases buildApprovalTimeoutSettlement_cases with ⟨message, -, hrefused⟩ | ⟨settled, hsettled, -⟩
  · exact absurd ⟨hfloor, hsettleable⟩ hrefused
  · exact ⟨settled, hsettled⟩

end Deckent.ApprovalLifecycle
