import Deckent.Model.CanonicalJson

/-!
# Admission of work items

A registry of runners says which kinds of work items can run. A work item carries a fence, which binds
its definition to the registry that admitted it, and it may run only while the two agree.
-/

namespace Deckent.Mission

/-! ### Work items -/

inductive WorkItemKind where
  | task
  | sprint
  | capability
  | process
  | unknown (name : String)
  deriving DecidableEq

def WorkItemKind.text : WorkItemKind → String
  | task => "task"
  | sprint => "sprint"
  | capability => "capability"
  | process => "process"
  | unknown name => name

def isCanonicalWorkItemKind : WorkItemKind → Bool
  | .unknown _ => false
  | _ => true

inductive WorkItemPolicy where
  | auto
  | approvalRequired
  | riskTagged
  deriving DecidableEq

def WorkItemPolicy.text : WorkItemPolicy → String
  | auto => "auto"
  | approvalRequired => "approval-required"
  | riskTagged => "risk-tagged"

inductive WorkItemRenderAs where
  | task
  | sprint
  | workflow
  | action
  deriving DecidableEq

def WorkItemRenderAs.text : WorkItemRenderAs → String
  | task => "task"
  | sprint => "sprint"
  | workflow => "workflow"
  | action => "action"

def defaultRenderAs : WorkItemKind → WorkItemRenderAs
  | .sprint => .sprint
  | .process => .workflow
  | .capability => .action
  | _ => .task

structure WorkItemDefinition where
  id : String
  missionId : String
  kind : WorkItemKind
  spec : Option Json
  policy : WorkItemPolicy
  renderAs : WorkItemRenderAs
  dependsOn : List String
  trigger : Option Json

structure WorkItemAdmissionFence where
  schemaVersion : Nat
  registryRevision : String
  registryDigest : String
  kind : WorkItemKind
  runnerRevision : String
  itemDefinitionDigest : String
  deriving DecidableEq

structure MissionRunnerRegistryEntry where
  kind : WorkItemKind
  runnerContract : String
  runnerRevision : String
  deriving DecidableEq

structure MissionRunnerRegistry where
  schemaVersion : Nat
  registryRevision : String
  registryDigest : String
  runners : List MissionRunnerRegistryEntry

def nonEmptyString (text : String) : Bool := trim text ≠ ""

def nonEmptyCanonicalString (text : String) : Bool := text ≠ "" && text = trim text

/-! ### Registries -/

section Registry

variable (runtime : JsonRuntime)

def MissionRunnerRegistryEntry.json (entry : MissionRunnerRegistryEntry) : Json :=
  .object [("kind", .string entry.kind.text), ("runnerContract", .string entry.runnerContract),
    ("runnerRevision", .string entry.runnerRevision)]

def runnersJson (runners : List MissionRunnerRegistryEntry) : Json := .array (runners.map (·.json))

def computeRegistryDigest (schemaVersion : Nat) (registryRevision : String)
    (runners : List MissionRunnerRegistryEntry) : String :=
  sha256Hex (canonicalJson runtime (.object [
    ("schemaVersion", .number (.finite schemaVersion)),
    ("registryRevision", .string registryRevision),
    ("runners", runnersJson runners)]))

/-- The place of a kind in `CANONICAL_WORK_ITEM_KINDS`. -/
def WorkItemKind.place : WorkItemKind → Nat
  | task => 0
  | sprint => 1
  | capability => 2
  | process => 3
  | unknown _ => 4

/-- The runners that `createMissionRunnerRegistry` keeps, in the order of their kinds. -/
def canonicalRunners (runners : List MissionRunnerRegistryEntry) :
    Except String (List MissionRunnerRegistryEntry) := do
  for entry in runners do
    if !isCanonicalWorkItemKind entry.kind || !nonEmptyCanonicalString entry.runnerContract
        || !nonEmptyCanonicalString entry.runnerRevision then
      throw s!"MISSION_RUNNER_REGISTRY_INVALID: runner {entry.kind.text}"
  if ¬ (runners.map (·.kind)).Nodup then
    throw "MISSION_RUNNER_REGISTRY_INVALID: runner"
  return sortBy (fun left right => compareNumber left.kind.place right.kind.place) runners

def assertMissionRunnerRegistry (registry : MissionRunnerRegistry) : Except String Unit := do
  if registry.schemaVersion ≠ 1 || !nonEmptyCanonicalString registry.registryRevision
      || registry.registryDigest
        ≠ computeRegistryDigest runtime registry.schemaVersion registry.registryRevision registry.runners
  then
    throw "MISSION_RUNNER_REGISTRY_INVALID: descriptor integrity"
  let canonical ← canonicalRunners registry.runners
  if computeRegistryDigest runtime 1 registry.registryRevision canonical ≠ registry.registryDigest
      || canonicalJson runtime (runnersJson canonical)
        ≠ canonicalJson runtime (runnersJson registry.runners) then
    throw "MISSION_RUNNER_REGISTRY_INVALID: non-canonical descriptor"

def listRuntimeAdmittedKinds (registry : MissionRunnerRegistry) : Except String (List WorkItemKind) := do
  assertMissionRunnerRegistry runtime registry
  return registry.runners.map (·.kind)

def runnerForKind (registry : MissionRunnerRegistry) (kind : WorkItemKind) :
    Option MissionRunnerRegistryEntry :=
  registry.runners.find? (·.kind = kind)

/-! ### What each kind needs -/

inductive MissionAdmissionCode where
  | unknownKind
  | taskDescriptionRequired
  | taskRunnerUnwired
  | sprintExecutionSourceRequired
  | sprintExecutionSourceConflict
  | sprintUnplannedSourceInvalid
  | sprintExactPlanRefInvalid
  | sprintEmbeddedSnapshotRetired
  | sprintLineageRequired
  | sprintRunnerUnwired
  | capabilityTargetRequired
  | capabilityBrokerUnwired
  | processDefinitionRequired
  | processRunnerUnwired
  deriving DecidableEq

def MissionAdmissionCode.text : MissionAdmissionCode → String
  | unknownKind => "UNKNOWN_KIND"
  | taskDescriptionRequired => "TASK_DESCRIPTION_REQUIRED"
  | taskRunnerUnwired => "TASK_RUNNER_UNWIRED"
  | sprintExecutionSourceRequired => "SPRINT_EXECUTION_SOURCE_REQUIRED"
  | sprintExecutionSourceConflict => "SPRINT_EXECUTION_SOURCE_CONFLICT"
  | sprintUnplannedSourceInvalid => "SPRINT_UNPLANNED_SOURCE_INVALID"
  | sprintExactPlanRefInvalid => "SPRINT_EXACT_PLAN_REF_INVALID"
  | sprintEmbeddedSnapshotRetired => "SPRINT_EMBEDDED_SNAPSHOT_RETIRED"
  | sprintLineageRequired => "SPRINT_LINEAGE_REQUIRED"
  | sprintRunnerUnwired => "SPRINT_RUNNER_UNWIRED"
  | capabilityTargetRequired => "CAPABILITY_TARGET_REQUIRED"
  | capabilityBrokerUnwired => "CAPABILITY_BROKER_UNWIRED"
  | processDefinitionRequired => "PROCESS_DEFINITION_REQUIRED"
  | processRunnerUnwired => "PROCESS_RUNNER_UNWIRED"

def MissionAdmissionCode.isUnwired : MissionAdmissionCode → Bool
  | taskRunnerUnwired | sprintRunnerUnwired | capabilityBrokerUnwired | processRunnerUnwired => true
  | _ => false

structure ExactPlanReference where
  flowId : String
  revision : Nat
  planDigest : String
  deriving DecidableEq

def ExactPlanReference.json (ref : ExactPlanReference) : Json :=
  .object [("schemaVersion", .number 1), ("flowId", .string ref.flowId),
    ("revision", .number (.finite ref.revision)), ("planDigest", .string ref.planDigest)]

/-- `isExactPlanReference`, with what it has found. -/
def exactPlanReference? (value : Json) : Option ExactPlanReference :=
  match value, value.get? "schemaVersion", value.get? "flowId", value.get? "revision",
      value.get? "planDigest" with
  | .object members, some (.number schemaVersion), some (.string flowId), some (.number revision),
      some (.string planDigest) =>
      match revision.toPositive? with
      | some number =>
          if schemaVersion = 1 ∧ nonEmptyCanonicalString flowId
              ∧ flowId.toList.all (fun c => c.isAlphanum || c = '_' || c = '-') ∧ isSha256Text planDigest
              ∧ members.all (fun member =>
                ["schemaVersion", "flowId", "revision", "planDigest"].contains member.1) then
            some ⟨flowId, number, planDigest⟩
          else none
      | none => none
  | _, _, _, _, _ => none

inductive MissionSprintExecutionSource where
  | exactRef (ref : ExactPlanReference)
  | directives (directivesRef : String)
  | intent (intent : String)
  deriving DecidableEq

def specMember (spec : Option Json) (key : String) : Option Json := spec.bind (·.get? key)

def checkedText? (check : String → Bool) (value : Option Json) : Option String :=
  (value.bind (·.text?)).filter check

def resolveMissionSprintExecutionSource (id : String) (missionId : Option String) (spec : Option Json) :
    Except MissionAdmissionCode MissionSprintExecutionSource := do
  if (specMember spec "sprintSnapshot").isSome then throw .sprintEmbeddedSnapshotRetired
  let source : MissionSprintExecutionSource ←
    match specMember spec "exactPlanRef", specMember spec "directivesRef", specMember spec "intent" with
    | none, none, none => throw .sprintExecutionSourceRequired
    | some value, none, none =>
        match exactPlanReference? value with
        | some ref => pure (.exactRef ref)
        | none => throw .sprintExactPlanRefInvalid
    | none, some value, none =>
        match checkedText? (fun text => nonEmptyCanonicalString text
            && !text.toList.contains (Char.ofNat 0)) (some value) with
        | some directivesRef => pure (.directives directivesRef)
        | none => throw .sprintUnplannedSourceInvalid
    | none, none, some value =>
        match checkedText? nonEmptyCanonicalString (some value) with
        | some intent => pure (.intent intent)
        | none => throw .sprintUnplannedSourceInvalid
    | _, _, _ => throw .sprintExecutionSourceConflict
  if !nonEmptyCanonicalString id || !missionId.all nonEmptyCanonicalString then
    throw .sprintLineageRequired
  return source

def isNonEmptyArray : Option Json → Bool
  | some (.array (_ :: _)) => true
  | _ => false

/-- `assertWorkItemBatchAdmitted` on one item, behind the check of the registry. -/
def assertWorkItemAdmitted (item : WorkItemDefinition) (registry : MissionRunnerRegistry) :
    Except MissionAdmissionCode Unit :=
  let wired (code : MissionAdmissionCode) : Except MissionAdmissionCode Unit :=
    if (runnerForKind registry item.kind).isSome then .ok () else .error code
  match item.kind with
  | .unknown _ => .error .unknownKind
  | .task =>
      if (checkedText? nonEmptyString (specMember item.spec "description")).isSome then
        wired .taskRunnerUnwired
      else .error .taskDescriptionRequired
  | .sprint => do
      let _ ← resolveMissionSprintExecutionSource item.id (some item.missionId) item.spec
      wired .sprintRunnerUnwired
  | .capability =>
      if (checkedText? nonEmptyString
          ((specMember item.spec "capabilityTarget").bind (·.get? "capability"))).isSome then
        wired .capabilityBrokerUnwired
      else .error .capabilityTargetRequired
  | .process =>
      let definition := specMember item.spec "processDefinition"
      if (checkedText? nonEmptyString (definition.bind (·.get? "revision"))).isSome
          && isNonEmptyArray (definition.bind (·.get? "steps")) then
        wired .processRunnerUnwired
      else .error .processDefinitionRequired

/-! ### Fences -/

def computeWorkItemDefinitionDigest (item : WorkItemDefinition) : String :=
  sha256Hex (canonicalJson runtime (.object [
    ("id", .string item.id),
    ("missionId", .string item.missionId),
    ("kind", .string item.kind.text),
    ("spec", item.spec.getD .null),
    ("policy", .string item.policy.text),
    ("renderAs", .string item.renderAs.text),
    ("dependsOn", .array ((sortBy compareCodePoint item.dependsOn).map .string)),
    ("trigger", item.trigger.getD .null)]))

inductive AdmissionDisposition where
  | failed
  | parked
  deriving DecidableEq

structure AdmissionRejection where
  code : String
  disposition : AdmissionDisposition
  reason : String
  deriving DecidableEq

def isFence (fence : WorkItemAdmissionFence) : Bool :=
  fence.schemaVersion = 1 && nonEmptyCanonicalString fence.registryRevision
    && nonEmptyCanonicalString fence.registryDigest && isCanonicalWorkItemKind fence.kind
    && nonEmptyCanonicalString fence.runnerRevision && nonEmptyCanonicalString fence.itemDefinitionDigest

/-- What is wrong with the fence of an item, if anything is. -/
def admissionRejection (item : WorkItemDefinition) (fence : Option WorkItemAdmissionFence)
    (registry : MissionRunnerRegistry) : Option AdmissionRejection :=
  match fence with
  | none => some ⟨"ADMISSION_FENCE_MISSING", .parked, "work item has no durable admission fence"⟩
  | some fence =>
      if !isFence fence then
        some ⟨"ADMISSION_FENCE_INVALID", .failed, "durable admission fence is malformed"⟩
      else match (if isCanonicalWorkItemKind item.kind then runnerForKind registry item.kind else none) with
        | none =>
            some ⟨"RUNTIME_RUNNER_UNAVAILABLE", .parked, "no runner is admitted for " ++ item.kind.text⟩
        | some runner =>
            if fence.registryRevision ≠ registry.registryRevision
                ∨ fence.registryDigest ≠ registry.registryDigest then
              some ⟨"RUNTIME_REGISTRY_MISMATCH", .parked,
                "admission fence belongs to a different runtime registry"⟩
            else if fence.kind ≠ item.kind ∨ fence.runnerRevision ≠ runner.runnerRevision then
              some ⟨"ADMISSION_FENCE_INVALID", .failed,
                "admission fence runner identity does not match the work item"⟩
            else if fence.itemDefinitionDigest ≠ computeWorkItemDefinitionDigest runtime item then
              some ⟨"WORK_ITEM_DEFINITION_MISMATCH", .failed,
                "work item definition changed after admission"⟩
            else match assertWorkItemAdmitted item registry with
              | .ok () => none
              | .error code =>
                  some ⟨code.text, if code.isUnwired then .parked else .failed,
                    s!"MISSION_ADMISSION_REJECTED: {item.id} ({item.kind.text}) {code.text}"⟩

def validateWorkItemAdmission (item : WorkItemDefinition) (fence : Option WorkItemAdmissionFence)
    (registry : MissionRunnerRegistry) : Except String (Option AdmissionRejection) := do
  assertMissionRunnerRegistry runtime registry
  return admissionRejection runtime item fence registry

end Registry

end Deckent.Mission
