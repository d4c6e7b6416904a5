import Deckent.Lib.Interleaving
import Deckent.Model.Js

/-!
# Scoped always-allow grants

A store keeps the grants of a project in one file. Each instance of it loads the file when it is created
and then works on its own copy, which it writes back whole whenever it has changed it. Any number of
instances share the file, and each call is atomic.

The instants of a grant are kept as milliseconds. The log records what each call has returned.
-/

namespace Deckent.ApprovalAllowScope

/-! ### Vocabulary -/

inductive ApprovalScope where
  | fileRead
  | fileWrite
  | shellExec
  | gitMutation
  | network
  | credential
  | lifecycle
  deriving DecidableEq

inductive ApprovalRisk where
  | none
  | low
  | medium
  | high
  | critical
  deriving DecidableEq

/-- `RISK_RANK`. -/
def ApprovalRisk.rank : ApprovalRisk → Nat
  | none => 0
  | low => 1
  | medium => 2
  | high => 3
  | critical => 4

inductive ApprovalRiskTier where
  | routine
  | elevated
  | critical
  deriving DecidableEq

def ApprovalRiskTier.rank : ApprovalRiskTier → Nat
  | routine => 0
  | elevated => 1
  | critical => 2

def mapLegacyApprovalRisk : ApprovalRisk → ApprovalRiskTier
  | .none | .low => .routine
  | .medium | .high => .elevated
  | .critical => .critical

def isApprovalRiskTierAtLeast (candidate floor : ApprovalRiskTier) : Bool := floor.rank ≤ candidate.rank

abbrev NamedRiskTier := Option (Option ApprovalRiskTier)

def approvalRiskTierFor (risk : ApprovalRisk) (riskTier : NamedRiskTier) : Option ApprovalRiskTier :=
  let legacyFloor := mapLegacyApprovalRisk risk
  match riskTier with
  | .none => some legacyFloor
  | .some (.some tier) => if isApprovalRiskTierAtLeast tier legacyFloor then some tier else .none
  | .some .none => .none

/-! ### Grants -/

def isGlobalWildcardScopeId (scopeId : String) : Bool :=
  ["*", "**", "all", "any", "global"].contains (trim scopeId).toLower

def isIsoDateTime (instant : Int) : Bool := -62167219200000 ≤ instant && instant ≤ 253402300799999

structure AllowScopeFields where
  id : String
  scopeId : String
  scope : ApprovalScope
  maxRisk : ApprovalRisk
  expiresAt : Int
  grantedBy : String
  grantedAt : Int
  reason : String
  deriving DecidableEq

def AllowScopeFields.isWellFormed (fields : AllowScopeFields) : Bool :=
  fields.id ≠ "" && fields.scopeId ≠ "" && !isGlobalWildcardScopeId fields.scopeId
    && isIsoDateTime fields.expiresAt && fields.grantedBy ≠ "" && isIsoDateTime fields.grantedAt

structure ApprovalAllowScopeRule extends AllowScopeFields where
  wellFormed : toAllowScopeFields.isWellFormed = true
  deriving DecidableEq

def AllowScopeFields.parse (fields : AllowScopeFields) : Option ApprovalAllowScopeRule :=
  if hvalid : fields.isWellFormed = true then some ⟨fields, hvalid⟩ else none

structure ApprovalAllowScopeGrantInput where
  scopeId : String
  scope : Option ApprovalScope
  maxRisk : Option ApprovalRisk
  expiresAt : Option Int
  grantedBy : String
  reason : Option String

structure ApprovalAllowScopeMatchInput where
  scopeId : String
  scope : ApprovalScope
  risk : ApprovalRisk
  riskTier : NamedRiskTier
  deriving DecidableEq

/-- The file of grants: missing or no array, or the entries of the array, of which some do not parse. -/
abbrev AllowScopeFile := Option (List (Option ApprovalAllowScopeRule))

def loadAllowScopeFile (file : AllowScopeFile) : List ApprovalAllowScopeRule :=
  (file.getD []).filterMap id

def persist (rules : List ApprovalAllowScopeRule) : AllowScopeFile := some (rules.map some)

/-! ### Calls on one instance -/

section Instance

variable (file : AllowScopeFile) (rules : List ApprovalAllowScopeRule)

def grantAllow (input : ApprovalAllowScopeGrantInput) (id : String) (now : Int) :
    Option (ApprovalAllowScopeRule × AllowScopeFile × List ApprovalAllowScopeRule) := do
  let scope ← input.scope
  let maxRisk ← input.maxRisk
  let expiresAt ← input.expiresAt
  let fields : AllowScopeFields := {
    id := id
    scopeId := input.scopeId
    scope := scope
    maxRisk := maxRisk
    expiresAt := expiresAt
    grantedBy := input.grantedBy
    grantedAt := now
    reason := input.reason.getD "" }
  let rule ← fields.parse
  return (rule, persist (rules ++ [rule]), rules ++ [rule])

def revokeAllow (id : String) : Bool × AllowScopeFile × List ApprovalAllowScopeRule :=
  let remaining := rules.filter (·.id ≠ id)
  let revoked := remaining.length ≠ rules.length
  (revoked, if revoked then persist remaining else file, remaining)

def ApprovalAllowScopeRule.covers (rule : ApprovalAllowScopeRule)
    (request : ApprovalAllowScopeMatchInput) : Bool :=
  rule.scopeId = request.scopeId && rule.scope = request.scope && request.risk.rank ≤ rule.maxRisk.rank

def ApprovalAllowScopeMatchInput.grantable (request : ApprovalAllowScopeMatchInput) : Bool :=
  match approvalRiskTierFor request.risk request.riskTier with
  | .none | .some .critical => false
  | .some _ => true

def matchesAllow (request : ApprovalAllowScopeMatchInput) (now : Int) :
    Option ApprovalAllowScopeRule × AllowScopeFile × List ApprovalAllowScopeRule :=
  let live := rules.filter (now < ·.expiresAt)
  let purged := live.length ≠ rules.length
  (if request.grantable then live.find? (·.covers request) else none,
    if purged then persist live else file,
    live)

end Instance

/-! ### Instances that share a file -/

inductive AllowScopeEvent (ι : Type) where
  | created (instanceId : ι) (rules : List ApprovalAllowScopeRule)
  | granted (rule : ApprovalAllowScopeRule)
  | revoked (id : String) (result : Bool)
  | matched (instanceId : ι) (request : ApprovalAllowScopeMatchInput) (now : Int)
      (result : Option ApprovalAllowScopeRule)
  deriving DecidableEq

structure AllowScopeShared (ι : Type) where
  file : AllowScopeFile
  /-- The ids that have been drawn. -/
  drawn : List String
  log : List (AllowScopeEvent ι)

inductive AllowScopeAction where
  | create
  | grantAllow (input : ApprovalAllowScopeGrantInput) (id : String) (now : Int)
  | revokeAllow (id : String)
  | matchesAllow (request : ApprovalAllowScopeMatchInput) (now : Int)

/-- One atomic call on an instance, which holds its rules once it is created. The ids that it draws do
not repeat. -/
def allowScopeStep {ι : Type} (instanceId : ι) (action : AllowScopeAction) (shared : AllowScopeShared ι)
    (rules : Option (List ApprovalAllowScopeRule)) :
    Option (AllowScopeShared ι × Option (List ApprovalAllowScopeRule)) :=
  match action, rules with
  | .create, none =>
      let loaded := loadAllowScopeFile shared.file
      some ({ shared with log := shared.log ++ [.created instanceId loaded] }, some loaded)
  | .grantAllow input id now, some rules =>
      if id ∈ shared.drawn then none
      else match grantAllow rules input id now with
        | some (rule, file, rules) =>
            some (⟨file, shared.drawn ++ [id], shared.log ++ [.granted rule]⟩, some rules)
        | none => some ({ shared with drawn := shared.drawn ++ [id] }, some rules)
  | .revokeAllow id, some rules =>
      let (result, file, rules) := revokeAllow shared.file rules id
      some ({ shared with file := file, log := shared.log ++ [.revoked id result] }, some rules)
  | .matchesAllow request now, some rules =>
      let (result, file, rules) := matchesAllow shared.file rules request now
      some ({
        shared with
        file := file
        log := shared.log ++ [.matched instanceId request now result] }, some rules)
  | _, _ => none

def AllowScopeProcesses.initial {ι : Type} (file : AllowScopeFile) :
    Processes ι (AllowScopeShared ι) (Option (List ApprovalAllowScopeRule)) where
  shared := {
    file := file
    drawn := (loadAllowScopeFile file).map (·.id)
    log := [] }
  memory := fun _ => none

end Deckent.ApprovalAllowScope
