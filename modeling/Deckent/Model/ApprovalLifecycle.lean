import Deckent.Model.ApprovalAllowScope
import Deckent.Model.JsValue

/-!
# The lifecycle of approvals

A profile says, for the requests of one origin, how long they live, when they are brought up again, and
what becomes of them when nobody decides. A configuration may only tighten the profiles of its parent. A
change that would weaken a profile is rejected where it is configured, and left out where it is applied to
a request that is under way.

Times are natural numbers of milliseconds.
-/

namespace Deckent.ApprovalLifecycle

open ApprovalAllowScope (ApprovalRisk ApprovalRiskTier mapLegacyApprovalRisk isApprovalRiskTierAtLeast)
open JsValue (Record member asRecord)

/-! ### Names -/

inductive ApprovalLifecycleOrigin where
  | confirmation
  | autonomousTrigger
  | gatewayPairing
  | brokerNative
  deriving DecidableEq

inductive ApprovalTimeoutDisposition where
  | requestDefault
  | parkAlert
  | parkUndecidable
  | denyExpire
  deriving DecidableEq

inductive ApprovalLifecycleBlockingScope where
  | request
  | trigger
  | run
  | security
  deriving DecidableEq

def ApprovalLifecycleOrigin.text : ApprovalLifecycleOrigin → String
  | confirmation => "confirmation"
  | autonomousTrigger => "autonomous-trigger"
  | gatewayPairing => "gateway-pairing"
  | brokerNative => "broker-native"

def riskTierText : ApprovalRiskTier → String
  | .routine => "routine"
  | .elevated => "elevated"
  | .critical => "critical"

def ApprovalTimeoutDisposition.text : ApprovalTimeoutDisposition → String
  | requestDefault => "request-default"
  | parkAlert => "park-alert"
  | parkUndecidable => "park-undecidable"
  | denyExpire => "deny-expire"

/-- `TIMEOUT_RANK`. -/
def ApprovalTimeoutDisposition.rank : ApprovalTimeoutDisposition → Nat
  | requestDefault => 0
  | parkAlert => 1
  | parkUndecidable => 2
  | denyExpire => 3

def ApprovalLifecycleBlockingScope.text : ApprovalLifecycleBlockingScope → String
  | request => "request"
  | trigger => "trigger"
  | run => "run"
  | security => "security"

/-- `BLOCKING_RANK`. -/
def ApprovalLifecycleBlockingScope.rank : ApprovalLifecycleBlockingScope → Nat
  | request => 0
  | trigger => 1
  | run => 2
  | security => 3

def approvalLifecycleOrigins : List ApprovalLifecycleOrigin :=
  [.confirmation, .autonomousTrigger, .gatewayPairing, .brokerNative]

def approvalRiskTiers : List ApprovalRiskTier := [.routine, .elevated, .critical]

def approvalTimeoutDispositions : List ApprovalTimeoutDisposition :=
  [.requestDefault, .parkAlert, .parkUndecidable, .denyExpire]

def approvalLifecycleBlockingScopes : List ApprovalLifecycleBlockingScope :=
  [.request, .trigger, .run, .security]

/-! ### Profiles -/

/-- The offsets at which a request is brought up again. -/
structure SlaOffsets where
  first : Nat
  second : Nat
  third : Nat
  deriving DecidableEq

structure ResolvedApprovalLifecycleProfile where
  ttlMs : Nat
  slaMs : SlaOffsets
  riskTier : ApprovalRiskTier
  timeoutDisposition : ApprovalTimeoutDisposition
  blocking : ApprovalLifecycleBlockingScope
  deriving DecidableEq

structure ResolvedApprovalLifecycleConfig where
  enabled : Bool
  profiles : ApprovalLifecycleOrigin → ResolvedApprovalLifecycleProfile

def defaultProfiles : ApprovalLifecycleOrigin → ResolvedApprovalLifecycleProfile
  | .confirmation => ⟨28800000, ⟨300000, 1800000, 7200000⟩, .elevated, .parkUndecidable, .run⟩
  | .autonomousTrigger => ⟨3600000, ⟨120000, 600000, 1800000⟩, .elevated, .parkAlert, .trigger⟩
  | .gatewayPairing => ⟨600000, ⟨60000, 180000, 420000⟩, .critical, .denyExpire, .security⟩
  | .brokerNative => ⟨1800000, ⟨120000, 600000, 1200000⟩, .routine, .requestDefault, .request⟩

def defaultApprovalLifecyclePolicy : ResolvedApprovalLifecycleConfig := ⟨false, defaultProfiles⟩

def ResolvedApprovalLifecycleProfile.toJs (profile : ResolvedApprovalLifecycleProfile) : JsValue :=
  .object [
    ("ttlMs", .number (.finite profile.ttlMs)),
    ("slaMs", .array [.number (.finite profile.slaMs.first), .number (.finite profile.slaMs.second),
      .number (.finite profile.slaMs.third)]),
    ("riskTier", .string (riskTierText profile.riskTier)),
    ("timeoutDisposition", .string profile.timeoutDisposition.text),
    ("blocking", .string profile.blocking.text)]

/-! ### Configured profiles -/

def requirePolicy (condition : Bool) (message : String) : Except String Unit :=
  if condition then .ok () else .error message

def rejectUnknownKeys (value : Record) (allowed : List String) (path : String) : Except String Unit :=
  let unknown := (value.map Prod.fst).filter fun key => !allowed.contains key
  requirePolicy unknown.isEmpty (path ++ " contains unsupported field(s): " ++ ", ".intercalate unknown)

def requirePositiveInteger (value : JsValue) (path : String) : Except String Nat :=
  match value with
  | .number number =>
      match number.toPositive? with
      | some n => .ok n
      | none => .error (path ++ " must be a positive safe integer")
  | _ => .error (path ++ " must be a positive safe integer")

def parseTtl (path : String) (value : JsValue) (base : Nat) : Except String Nat := do
  let ttlMs ← if value.isUndefined then .ok base else requirePositiveInteger value (path ++ ".ttlMs")
  requirePolicy (ttlMs ≤ base) (path ++ ".ttlMs may only shorten the parent ceiling")
  return ttlMs

def parseSla (path : String) (value : JsValue) (base : SlaOffsets) : Except String SlaOffsets :=
  match value with
  | .undefined => .ok base
  | .array [first, second, third] => do
      let first ← requirePositiveInteger first (path ++ ".slaMs.0")
      let second ← requirePositiveInteger second (path ++ ".slaMs.1")
      let third ← requirePositiveInteger third (path ++ ".slaMs.2")
      requirePolicy (first < second && second < third) (path ++ ".slaMs must be strictly increasing")
      requirePolicy (first ≤ base.first && second ≤ base.second && third ≤ base.third)
        (path ++ ".slaMs may only advance parent stages")
      return ⟨first, second, third⟩
  | _ => .error (path ++ ".slaMs must contain exactly three due offsets")

def parseRanked {α : Type} (choices : List α) (text : α → String) (rank : α → Nat) (value : JsValue)
    (base : α) (invalid weaker : String) : Except String α :=
  if value.isUndefined then .ok base
  else
    match choices.find? fun choice => value.isText (text choice) with
    | none => .error invalid
    | some choice => do
        requirePolicy (rank base ≤ rank choice) weaker
        return choice

def profileFields : List String := ["ttlMs", "slaMs", "riskTier", "timeoutDisposition", "blocking"]

def profilePath (origin : ApprovalLifecycleOrigin) : String :=
  "approval.lifecycle.profiles." ++ origin.text

def parseProfileRecord (path : String) (value : Record) (base : ResolvedApprovalLifecycleProfile) :
    Except String ResolvedApprovalLifecycleProfile := do
  rejectUnknownKeys value profileFields path
  let ttlMs ← parseTtl path (member value "ttlMs") base.ttlMs
  let slaMs ← parseSla path (member value "slaMs") base.slaMs
  requirePolicy (slaMs.third < ttlMs) (path ++ ".slaMs entries must be earlier than ttlMs")
  let riskTier ← parseRanked approvalRiskTiers riskTierText ApprovalRiskTier.rank
    (member value "riskTier") base.riskTier (path ++ ".riskTier is invalid")
    (path ++ ".riskTier may not lower the parent floor")
  let timeoutDisposition ← parseRanked approvalTimeoutDispositions ApprovalTimeoutDisposition.text
    ApprovalTimeoutDisposition.rank (member value "timeoutDisposition") base.timeoutDisposition
    (path ++ ".timeoutDisposition is invalid")
    (path ++ ".timeoutDisposition may not weaken the parent disposition")
  let blocking ← parseRanked approvalLifecycleBlockingScopes ApprovalLifecycleBlockingScope.text
    ApprovalLifecycleBlockingScope.rank (member value "blocking") base.blocking
    (path ++ ".blocking is invalid") (path ++ ".blocking may not weaken the parent boundary")
  return ⟨ttlMs, slaMs, riskTier, timeoutDisposition, blocking⟩

def parseProfileOverride (origin : ApprovalLifecycleOrigin) (value : JsValue)
    (base : ResolvedApprovalLifecycleProfile) : Except String ResolvedApprovalLifecycleProfile :=
  match asRecord value with
  | none => .error (profilePath origin ++ " must be an object")
  | some record => parseProfileRecord (profilePath origin) record base

def tightenApprovalLifecycleProfile (origin : ApprovalLifecycleOrigin)
    (authored candidate : ResolvedApprovalLifecycleProfile) :
    Except String ResolvedApprovalLifecycleProfile :=
  parseProfileOverride origin candidate.toJs authored

/-! ### Applied profiles -/

structure ApprovalLifecycleProfileTransition where
  profile : ResolvedApprovalLifecycleProfile
  transitionChanged : Bool
  weakeningIgnored : Bool
  deriving DecidableEq

def stricterValue {α : Type} (rank : α → Nat) (authored candidate : α) : α :=
  if rank authored < rank candidate then candidate else authored

/-- Weakening an authored profile is left out, field by field. -/
def applyApprovalLifecycleProfileTransition (authored candidate : ResolvedApprovalLifecycleProfile) :
    ApprovalLifecycleProfileTransition :=
  let profile : ResolvedApprovalLifecycleProfile := {
    ttlMs := min authored.ttlMs candidate.ttlMs
    slaMs := ⟨min authored.slaMs.first candidate.slaMs.first,
      min authored.slaMs.second candidate.slaMs.second, min authored.slaMs.third candidate.slaMs.third⟩
    riskTier := stricterValue ApprovalRiskTier.rank authored.riskTier candidate.riskTier
    timeoutDisposition := stricterValue ApprovalTimeoutDisposition.rank authored.timeoutDisposition
      candidate.timeoutDisposition
    blocking := stricterValue ApprovalLifecycleBlockingScope.rank authored.blocking candidate.blocking }
  { profile := profile
    transitionChanged := profile.ttlMs ≠ authored.ttlMs || profile.slaMs.first ≠ authored.slaMs.first
      || profile.slaMs.second ≠ authored.slaMs.second || profile.slaMs.third ≠ authored.slaMs.third
      || profile.riskTier ≠ authored.riskTier
      || profile.timeoutDisposition ≠ authored.timeoutDisposition || profile.blocking ≠ authored.blocking
    weakeningIgnored := authored.ttlMs < candidate.ttlMs || authored.slaMs.first < candidate.slaMs.first
      || authored.slaMs.second < candidate.slaMs.second || authored.slaMs.third < candidate.slaMs.third
      || candidate.riskTier.rank < authored.riskTier.rank
      || candidate.timeoutDisposition.rank < authored.timeoutDisposition.rank
      || candidate.blocking.rank < authored.blocking.rank }

end Deckent.ApprovalLifecycle
