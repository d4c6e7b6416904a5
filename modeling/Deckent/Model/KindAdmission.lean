import Deckent.Model.MissionScheduler

/-!
# Batches that the runner registry admits

An item is admitted where a runner of the registry runs its kind, and is stored with a fence that names the
registry, the runner and the definition it was admitted for.
-/

namespace Deckent.Mission

/-- What reading a contract and a decision takes from the language. -/
structure AcceptanceHost where
  runtime : JsonRuntime
  /-- `Date.parse`, where it is finite. -/
  dateParse : String → Option Int
  /-- `String(value)`. -/
  toText : Json → String

variable (host : AcceptanceHost)

def admitItem (registry : MissionRunnerRegistry) (item : NewWorkItem) : Except String Unit :=
  (assertWorkItemAdmitted item.definition registry).mapError fun code =>
    s!"MISSION_ADMISSION_REJECTED: {item.id} ({item.kind.text}) {code.text}"

def buildWorkItemAdmissionFence (registry : MissionRunnerRegistry) (item : NewWorkItem) :
    Option WorkItemAdmissionFence :=
  (runnerForKind registry item.kind).map fun runner => {
    schemaVersion := 1
    registryRevision := registry.registryRevision
    registryDigest := registry.registryDigest
    kind := item.kind
    runnerRevision := runner.runnerRevision
    itemDefinitionDigest := computeWorkItemDefinitionDigest host.runtime item.definition }

def admitWorkItemBatch (registry : MissionRunnerRegistry) (items : List NewWorkItem) :
    Except String (List NewWorkItem) := do
  assertMissionRunnerRegistry host.runtime registry
  for item in items do
    admitItem registry item
  return items.map fun item =>
    { item with admissionFence := buildWorkItemAdmissionFence host registry item }

end Deckent.Mission
