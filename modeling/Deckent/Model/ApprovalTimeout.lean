import Deckent.Model.ApprovalLifecycle

/-!
# What becomes of an approval that nobody decides

A stored request is of the first contract, or carries the lifecycle profile under which it was authored.
A policy is applied to a request by tightening that profile; from the profile, the risk and the default
action follows what a timeout does, and the decision and the receipt that are stored for it.

Instants are milliseconds, and the digest of a profile is a parameter. Of the members of a request those
are kept that the store reads.
-/

namespace Deckent.ApprovalLifecycle

open ApprovalAllowScope (ApprovalRisk ApprovalRiskTier mapLegacyApprovalRisk isApprovalRiskTierAtLeast
  isIsoDateTime)

/-! ### Stored records -/

inductive ApprovalAction where
  | allow
  | deny
  | defer
  | escalate
  deriving DecidableEq

structure AuthoredLifecycle where
  origin : ApprovalLifecycleOrigin
  riskTier : ApprovalRiskTier
  blocking : ApprovalLifecycleBlockingScope
  lifecycleProfile : ResolvedApprovalLifecycleProfile
  policySnapshotDigest : String
  sourceReference : String
  lifecycleGeneration : String
  deriving DecidableEq

structure ApprovalRequest where
  id : String
  tenantId : String
  scopeId : String
  risk : ApprovalRisk
  defaultAction : ApprovalAction
  createdAt : Int
  expiresAt : Int
  /-- `details.kind`, if that is a string. -/
  requestKind : Option String
  lifecycle : Option AuthoredLifecycle
  deriving DecidableEq

/-- The closure reason is `expired` or absent, and the authorization is kept as a text. -/
structure ApprovalDecision where
  requestId : String
  decision : ApprovalAction
  decidedBy : String
  channel : String
  decidedAt : Int
  reason : String
  isExpiryClosure : Bool
  authorization : Option String
  deriving DecidableEq

inductive TimeoutAction where
  | park
  | deny
  | proceedWarn
  deriving DecidableEq

inductive TimeoutTerminalState where
  | undecidable
  | expired
  deriving DecidableEq

structure ApprovalTimeoutReceipt where
  requestId : String
  tenantId : String
  scopeId : String
  sourceReference : String
  origin : ApprovalLifecycleOrigin
  lifecycleGeneration : String
  action : TimeoutAction
  terminalState : TimeoutTerminalState
  riskTier : ApprovalRiskTier
  expiresAt : Int
  decidedAt : Int
  authoredPolicyDigest : String
  appliedPolicyDigest : String
  deriving DecidableEq

/-! ### The contracts of stored records -/

def isWindowsReservedDevice (id : String) : Bool :=
  let stem := (id.toList.takeWhile (· ≠ '.')).map Char.toLower
  ["con", "prn", "aux", "nul"].any (fun name => stem = name.toList)
    || ["com", "lpt"].any fun name => "123456789".toList.any fun digit => stem = name.toList ++ [digit]

/-- `approvalLookupIdSchema`. -/
def isLookupId (id : String) : Bool :=
  1 ≤ (utf16 id).length && (utf16 id).length ≤ 128 && id ≠ "." && id ≠ ".."
    && id.toList.all (fun c => 0x20 ≤ c.toNat && !"<>:\"/\\|?*".toList.contains c)
    && id.toList.getLast?.all (fun c => c ≠ '.' && c ≠ ' ')
    && !isWindowsReservedDevice id

def isStoredProfile (profile : ResolvedApprovalLifecycleProfile) : Bool :=
  0 < profile.slaMs.first && profile.slaMs.first < profile.slaMs.second
    && profile.slaMs.second < profile.slaMs.third && profile.slaMs.third < profile.ttlMs
    && profile.ttlMs < 2 ^ 53

/-- The checks of `storedApprovalRequestV2Schema` on what it adds to a request. -/
def isStoredLifecycle (profileDigest : ApprovalLifecycleOrigin → ResolvedApprovalLifecycleProfile → String)
    (request : ApprovalRequest) (lifecycle : AuthoredLifecycle) : Bool :=
  isStoredProfile lifecycle.lifecycleProfile && lifecycle.sourceReference ≠ ""
    && lifecycle.lifecycleGeneration ≠ "" && (utf16 lifecycle.lifecycleGeneration).length ≤ 128
    && lifecycle.blocking = lifecycle.lifecycleProfile.blocking
    && isApprovalRiskTierAtLeast lifecycle.riskTier lifecycle.lifecycleProfile.riskTier
    && isApprovalRiskTierAtLeast lifecycle.riskTier (mapLegacyApprovalRisk request.risk)
    && request.expiresAt ≤ request.createdAt + lifecycle.lifecycleProfile.ttlMs
    && lifecycle.policySnapshotDigest = profileDigest lifecycle.origin lifecycle.lifecycleProfile

/-- `validateStoredApprovalRequest`. -/
def isStoredRequest (profileDigest : ApprovalLifecycleOrigin → ResolvedApprovalLifecycleProfile → String)
    (request : ApprovalRequest) : Bool :=
  isLookupId request.id && request.tenantId ≠ "" && request.scopeId ≠ ""
    && isIsoDateTime request.createdAt && isIsoDateTime request.expiresAt
    && request.createdAt < request.expiresAt
    && request.lifecycle.all (isStoredLifecycle profileDigest request)

def isStoredDecision (decision : ApprovalDecision) : Bool :=
  isLookupId decision.requestId && decision.decidedBy ≠ "" && decision.channel ≠ ""
    && isIsoDateTime decision.decidedAt

/-! ### The disposition of a timeout -/

def maxApprovalRiskTier (first : ApprovalRiskTier) (tiers : List ApprovalRiskTier) : ApprovalRiskTier :=
  tiers.foldl (fun highest tier => if isApprovalRiskTierAtLeast tier highest then tier else highest) first

def brokerProceedWarnRequestKindAllowlist : List String := []

inductive TimeoutReason where
  | profileTimeout
  | criticalFailClosed
  | requestDefaultNotAllowlisted
  | requestDefault
  deriving DecidableEq

structure ResolvedApprovalTimeout where
  action : TimeoutAction
  terminalState : TimeoutTerminalState
  alert : Bool
  blocking : ApprovalLifecycleBlockingScope
  reason : TimeoutReason
  deriving DecidableEq

def resolveApprovalTimeout (origin : ApprovalLifecycleOrigin) (profile : ResolvedApprovalLifecycleProfile)
    (riskTier : ApprovalRiskTier) (requestDefaultAction : ApprovalAction) (requestKind : Option String) :
    Except String ResolvedApprovalTimeout :=
  let originFloor := defaultProfiles origin
  let resolved := fun action terminalState alert reason =>
    Except.ok { action, terminalState, alert, blocking := profile.blocking, reason }
  if profile.timeoutDisposition.rank < originFloor.timeoutDisposition.rank
      ∨ profile.blocking.rank < originFloor.blocking.rank then
    .error ("timeout profile weakens the " ++ origin.text ++ " origin safety floor")
  else
    match profile.timeoutDisposition with
    | .parkUndecidable => resolved .park .undecidable true .profileTimeout
    | .parkAlert => resolved .park .expired true .profileTimeout
    | .denyExpire => resolved .deny .expired false .profileTimeout
    | .requestDefault =>
        if riskTier = .critical then resolved .deny .expired true .criticalFailClosed
        else
          match requestDefaultAction with
          | .allow =>
              if riskTier = .routine
                  ∧ requestKind.any brokerProceedWarnRequestKindAllowlist.contains = true then
                resolved .proceedWarn .expired true .requestDefault
              else resolved .deny .expired true .requestDefaultNotAllowlisted
          | .deny => resolved .deny .expired false .requestDefault
          | .defer | .escalate => resolved .park .expired true .requestDefault

/-! ### A policy applied to a request -/

structure ApprovalAppliedLifecycleView where
  origin : ApprovalLifecycleOrigin
  lifecycleGeneration : String
  effectiveExpiresAt : Int
  riskTier : ApprovalRiskTier
  authoredPolicyDigest : String
  appliedPolicyDigest : String
  appliedProfile : ResolvedApprovalLifecycleProfile
  policyTransitionChanged : Bool
  weakeningIgnored : Bool
  deriving DecidableEq

section Policy

variable (profileDigest : ApprovalLifecycleOrigin → ResolvedApprovalLifecycleProfile → String)

def appliedLifecycleView (request : ApprovalRequest) (currentPolicy : ResolvedApprovalLifecycleConfig) :
    Option ApprovalAppliedLifecycleView :=
  request.lifecycle.map fun lifecycle =>
    let transition := applyApprovalLifecycleProfileTransition lifecycle.lifecycleProfile
      (currentPolicy.profiles lifecycle.origin)
    let profile := transition.profile
    { origin := lifecycle.origin
      lifecycleGeneration := lifecycle.lifecycleGeneration
      effectiveExpiresAt := min request.expiresAt (request.createdAt + profile.ttlMs)
      riskTier := maxApprovalRiskTier lifecycle.riskTier [profile.riskTier]
      authoredPolicyDigest := lifecycle.policySnapshotDigest
      appliedPolicyDigest := profileDigest lifecycle.origin profile
      appliedProfile := profile
      policyTransitionChanged := transition.transitionChanged
      weakeningIgnored := transition.weakeningIgnored }

structure ApprovalTimeoutSettlement where
  decision : ApprovalDecision
  receipt : ApprovalTimeoutReceipt
  deriving DecidableEq

def TimeoutAction.decision : TimeoutAction → ApprovalAction
  | proceedWarn => .allow
  | deny => .deny
  | park => .defer

/-- The decision that a timeout stores. -/
def timeoutDecision (request : ApprovalRequest) (now : Int) (action : TimeoutAction) : ApprovalDecision :=
  { requestId := request.id
    decision := action.decision
    decidedBy := "system:expiry"
    channel := "ttl-expire"
    decidedAt := now
    reason := ""
    isExpiryClosure := true
    authorization := none }

/-- The request of the first contract takes the profile of the broker. -/
def buildApprovalTimeoutSettlement (request : ApprovalRequest) (now : Int)
    (lifecycle : ResolvedApprovalLifecycleConfig) : Except String ApprovalTimeoutSettlement := do
  let applied := appliedLifecycleView profileDigest request lifecycle
  let origin := (applied.map (·.origin)).getD .brokerNative
  let profile := (applied.map (·.appliedProfile)).getD (lifecycle.profiles .brokerNative)
  let riskTier := (applied.map (·.riskTier)).getD
    (maxApprovalRiskTier profile.riskTier [mapLegacyApprovalRisk request.risk])
  let timeout ← resolveApprovalTimeout origin profile riskTier request.defaultAction request.requestKind
  let decision := timeoutDecision request now timeout.action
  if isStoredDecision decision then
    return {
      decision := decision
      receipt := {
        requestId := request.id
        tenantId := request.tenantId
        scopeId := request.scopeId
        sourceReference := (request.lifecycle.map (·.sourceReference)).getD
          ("approval-request:" ++ request.id)
        origin := origin
        lifecycleGeneration := (applied.map (·.lifecycleGeneration)).getD "legacy-v1"
        action := timeout.action
        terminalState := timeout.terminalState
        riskTier := riskTier
        expiresAt := (applied.map (·.effectiveExpiresAt)).getD request.expiresAt
        decidedAt := now
        authoredPolicyDigest := (applied.map (·.authoredPolicyDigest)).getD
          (profileDigest .brokerNative profile)
        appliedPolicyDigest := (applied.map (·.appliedPolicyDigest)).getD
          (profileDigest .brokerNative profile) } }
  else .error "invalid timeout decision"

end Policy

end Deckent.ApprovalLifecycle
