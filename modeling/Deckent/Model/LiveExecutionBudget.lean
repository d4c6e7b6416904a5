import Deckent.Lib.OrderedSet
import Deckent.Model.JsValue

/-!
# The live execution budget

A guard counts the tokens and turns that the host observes in the stream of a provider, each observation
once, and compares them with the ceilings of a budget. Where there is a landing policy, it asks for a landing
when only the reserve of a ceiling is left.

Counters are natural numbers, and ceilings are computed with exactly. How the language writes a number is a
parameter.
-/

namespace Deckent

namespace JsNumber

def isNegative : JsNumber → Bool
  | finite value => value < 0
  | negInf => true
  | _ => false

/-- `left * right`. -/
def mul : JsNumber → JsNumber → JsNumber
  | nan, _ => nan
  | _, nan => nan
  | finite left, finite right => finite (left * right)
  | left, right =>
      if left = 0 || right = 0 then nan
      else if left.isNegative = right.isNegative then posInf
      else negInf

/-- `1 - value`. -/
def oneMinus : JsNumber → JsNumber
  | finite value => finite (1 - value)
  | posInf => negInf
  | negInf => posInf
  | nan => nan

end JsNumber

namespace LiveBudget

open JsValue (Record member asRecord)

/-! ### Observations -/

structure UsageCounts where
  inputTokens : Nat
  outputTokens : Nat
  cacheReadTokens : Nat
  cacheCreationTokens : Nat
  deriving DecidableEq

structure LiveUsageCounters where
  turns : Nat
  inputTokens : Nat
  outputTokens : Nat
  cacheReadTokens : Nat
  cacheCreationTokens : Nat
  totalTokens : Nat
  maxContextTokens : Nat
  deriving DecidableEq

inductive UsageMode where
  | incremental
  | cumulative
  deriving DecidableEq

structure LiveUsageObservation where
  dedupeKey : String
  mode : UsageMode
  counts : UsageCounts
  contextTokens : Nat
  countsAsTurn : Bool
  reportedTurns : Option Nat
  deriving DecidableEq

structure UsageEventSemantics where
  provider : String
  providerEventType : Option String := none
  mode : UsageMode
  terminal : Bool
  identity : Option String := none
  countsAsTurn : Bool
  reportedTurns : Option Nat := none

structure StreamLogEvent where
  content : JsValue
  usageSemantics : Option UsageEventSemantics := none

/-- `count`. -/
def count : JsValue → Nat
  | .number (.finite value) => if 0 ≤ value then value.floor.toNat else 0
  | _ => 0

def firstCount (record : Record) : List String → Nat
  | [] => 0
  | key :: keys =>
      if (member record key).isUndefined then firstCount record keys else count (member record key)

def usageCounts (usage : Record) : UsageCounts :=
  let rawInputTokens := firstCount usage
    ["input_tokens", "inputTokens", "prompt_tokens", "promptTokenCount", "prompt_eval_count"]
  let cached := firstCount usage ["cached_input_tokens", "cachedContentTokenCount"]
  let inclusiveCached :=
    if cached ≠ 0 then cached
    else count (member ((asRecord (member usage "prompt_tokens_details")).getD []) "cached_tokens")
  { inputTokens := if inclusiveCached > 0 then rawInputTokens - inclusiveCached else rawInputTokens
    outputTokens := firstCount usage
      ["output_tokens", "outputTokens", "completion_tokens", "candidatesTokenCount", "eval_count"]
    cacheReadTokens := firstCount usage ["cache_read_input_tokens", "cacheReadTokens", "cache_read_tokens",
      "cached_input_tokens", "cachedContentTokenCount"]
    cacheCreationTokens := firstCount usage
      ["cache_creation_input_tokens", "cacheCreationTokens", "cache_write_tokens"] }

def hasCounts (counts : UsageCounts) : Bool :=
  counts.inputTokens > 0 || counts.outputTokens > 0 || counts.cacheReadTokens > 0 ||
    counts.cacheCreationTokens > 0

def observationKey (root : Record) (message : Option Record) : Option String :=
  let candidates := member (message.getD []) "id" ::
    ["request_id", "requestId", "turn_id", "turnId", "id", "uuid"].map (member root)
  candidates.findSome? fun value => value.text?.filter (· ≠ "")

def unwrapped (root : Record) : Record :=
  match member root "ts", member root "seq" with
  | .string _, .number (.finite seq) =>
      if seq.den = 1 && 0 < seq then (asRecord (member root "content")).getD root else root
  | _, _ => root

def usageOf (root : Record) (message : Option Record) : Option Record :=
  let messageUsage := message.bind fun message => asRecord (member message "usage")
  let directUsage := (asRecord (member root "usage")).or (asRecord (member root "usageMetadata"))
  let reported := ["input_tokens", "prompt_eval_count", "output_tokens"].any fun key =>
    !(member root key).isUndefined
  (messageUsage.or directUsage).or (if reported then some root else none)

section Extraction

variable (numberText : ℚ → String)

def extractLiveUsageObservation (event : StreamLogEvent) : Option LiveUsageObservation := do
  let root := unwrapped (← asRecord event.content)
  let message := asRecord (member root "message")
  let usage ← usageOf root message
  let counts := usageCounts usage
  guard (hasCounts counts)
  let semantics := event.usageSemantics
  let rootType := (member root "type").text?.getD ""
  let providerEventType := (semantics.bind (·.providerEventType)).getD
    (((member root "providerEventType").text?.or (member root "codexEventType").text?).getD rootType)
  let isAssistantMessage := rootType = "assistant" && message.isSome
  let isCumulative := semantics.any (·.mode = .cumulative) || rootType = "result" ||
    providerEventType = "turn.completed" || providerEventType = "response.completed"
  let terminalCounterKey :=
    if semantics.any (·.terminal) || providerEventType = "turn.completed" then
      some (":".intercalate [(semantics.map (·.provider)).getD "provider", providerEventType,
        numberText counts.inputTokens, numberText counts.outputTokens, numberText counts.cacheReadTokens,
        numberText counts.cacheCreationTokens])
    else none
  let sessionKey := if isCumulative then (member root "session_id").text? else none
  let key ← (((observationKey root message).or (semantics.bind (·.identity))).or sessionKey).or
    terminalCounterKey
  guard (key ≠ "")
  let reportsCompletedTurn := semantics.any (·.countsAsTurn) || providerEventType = "turn.completed"
  let countedTurns := count (member root "num_turns")
  return {
    dedupeKey := (if isCumulative then "snapshot" else "call") ++ ":" ++ key
    mode := if isCumulative then .cumulative else .incremental
    counts := counts
    contextTokens := counts.inputTokens + counts.cacheReadTokens + counts.cacheCreationTokens
    countsAsTurn := isAssistantMessage || !isCumulative || reportsCompletedTurn
    reportedTurns := (semantics.bind (·.reportedTurns)).or
      (if isCumulative && countedTurns > 0 then some countedTurns else none) }

/-! ### The guard -/

structure ExecutionBudget where
  maxTokens : Option JsNumber := none
  maxTurns : Option JsNumber := none
  maxInputTokens : Option JsNumber := none
  maxOutputTokens : Option JsNumber := none
  maxCacheReadTokens : Option JsNumber := none
  maxCacheCreationTokens : Option JsNumber := none
  maxContextTokens : Option JsNumber := none

structure ExecutionLandingPolicyConfig where
  reserveRatio : JsNumber

inductive BudgetState where
  | withinBudget
  | landingRequested
  | exceeded
  | unmeasurable
  deriving DecidableEq

structure LiveBudgetDecision where
  state : BudgetState
  reasons : List String
  counters : LiveUsageCounters
  observation : Option LiveUsageObservation := none
  appliedDelta : Option UsageCounts := none
  consecutiveCacheReadEvents : Nat
  deriving DecidableEq

def zeroCounters : LiveUsageCounters := ⟨0, 0, 0, 0, 0, 0, 0⟩

def addCounters (target : LiveUsageCounters) (counts : UsageCounts) : LiveUsageCounters :=
  let inputTokens := target.inputTokens + counts.inputTokens
  let outputTokens := target.outputTokens + counts.outputTokens
  let cacheReadTokens := target.cacheReadTokens + counts.cacheReadTokens
  let cacheCreationTokens := target.cacheCreationTokens + counts.cacheCreationTokens
  { target with
    inputTokens := inputTokens
    outputTokens := outputTokens
    cacheReadTokens := cacheReadTokens
    cacheCreationTokens := cacheCreationTokens
    totalTokens := inputTokens + outputTokens + cacheReadTokens + cacheCreationTokens }

def snapshotDelta (counters : LiveUsageCounters) (counts : UsageCounts) : UsageCounts where
  inputTokens := counts.inputTokens - counters.inputTokens
  outputTokens := counts.outputTokens - counters.outputTokens
  cacheReadTokens := counts.cacheReadTokens - counters.cacheReadTokens
  cacheCreationTokens := counts.cacheCreationTokens - counters.cacheCreationTokens

/-- `LiveUsageGuardState`, of either version. -/
inductive LiveUsageGuardState where
  | version1 (counters : LiveUsageCounters) (seenDedupeKeys : List String)
      (measurableEvents incrementalUsageEvents : Nat)
  | version2 (counters : LiveUsageCounters) (seenDedupeKeys : List String)
      (measurableEvents incrementalUsageEvents consecutiveCacheReadEvents : Nat)
      (lastAppliedDelta : Option UsageCounts)

/-- The changing fields of a `LiveExecutionBudgetGuard`. -/
structure Guard where
  seen : OrderedSet String
  counters : LiveUsageCounters
  measurableEvents : Nat
  incrementalUsageEvents : Nat
  consecutiveCacheReadEvents : Nat
  lastAppliedDelta : Option UsageCounts

def Guard.fresh : Guard := ⟨∅, zeroCounters, 0, 0, 0, none⟩

def Guard.restore : LiveUsageGuardState → Guard
  | .version1 counters seen measurable incremental =>
      ⟨.ofList seen, counters, measurable, incremental, 0, none⟩
  | .version2 counters seen measurable incremental consecutive applied =>
      ⟨.ofList seen, counters, measurable, incremental, consecutive, applied⟩

def Guard.exportState (guard : Guard) : LiveUsageGuardState :=
  .version2 guard.counters guard.seen.members guard.measurableEvents guard.incrementalUsageEvents
    guard.consecutiveCacheReadEvents guard.lastAppliedDelta

/-! ### Decisions -/

structure Check where
  limit : Option JsNumber
  actual : Nat
  label : String

def checks (budget : ExecutionBudget) (counters : LiveUsageCounters) : List Check :=
  [⟨budget.maxTurns, counters.turns, "turn"⟩,
    ⟨budget.maxInputTokens, counters.inputTokens, "input token"⟩,
    ⟨budget.maxOutputTokens, counters.outputTokens, "output token"⟩,
    ⟨budget.maxCacheReadTokens, counters.cacheReadTokens, "cache-read token"⟩,
    ⟨budget.maxCacheCreationTokens, counters.cacheCreationTokens, "cache-creation token"⟩,
    ⟨budget.maxTokens, counters.totalTokens, "aggregate token"⟩,
    ⟨budget.maxContextTokens, counters.maxContextTokens, "per-call context token"⟩]

/-- `String(value)`. -/
def numberString : JsNumber → String
  | .finite value => numberText value
  | .posInf => "Infinity"
  | .negInf => "-Infinity"
  | .nan => "NaN"

def exceededReason? (check : Check) : Option String :=
  match check.limit with
  | none => none
  | some limit =>
      if JsNumber.lt limit (.finite check.actual) then
        some (check.label ++ " budget exceeded (" ++ numberText check.actual ++ " > "
          ++ numberString numberText limit ++ ")")
      else none

/-- The turns before the reserve, `deriveExecutionLandingTurnAllocation(maxTurns, reserveRatio).workTurns`. -/
def workTurns (maxTurns reserveRatio : JsNumber) : Except String JsNumber :=
  match maxTurns with
  | .finite turns =>
      if turns.den ≠ 1 || turns < 0 then .error "maxTurns must be a non-negative integer"
      else match reserveRatio with
        | .finite ratio =>
            if ratio ≤ 0 || 1 ≤ ratio then .error invalidRatio
            else .ok (.finite (max 0 (turns - (turns * ratio).ceil)))
        | _ => .error invalidRatio
  | _ => .error "maxTurns must be a non-negative integer"
where
  invalidRatio : String :=
    "execution_budget.landing.reserve_ratio must be a finite number greater than 0 and less than 1"

def landingThreshold (policy : ExecutionLandingPolicyConfig) (label : String) (limit : JsNumber) :
    Except String JsNumber :=
  if label = "turn" then workTurns limit policy.reserveRatio
  else .ok (limit.mul policy.reserveRatio.oneMinus)

def landingReasons (policy : ExecutionLandingPolicyConfig) : List Check → Except String (List String)
  | [] => .ok []
  | check :: rest =>
      match check.limit with
      | none => landingReasons policy rest
      | some limit => do
          let threshold ← landingThreshold policy check.label limit
          let reasons ← landingReasons policy rest
          if JsNumber.le threshold (.finite check.actual) then
            .ok ((check.label ++ " landing threshold reached (" ++ numberText check.actual ++ " >= "
              ++ numberString numberText threshold ++ "; reserve_ratio="
              ++ numberString numberText policy.reserveRatio ++ ")") :: reasons)
          else .ok reasons

variable (budget : ExecutionBudget) (landingPolicy : Option ExecutionLandingPolicyConfig)

def Guard.exceededReasons (guard : Guard) : List String :=
  (checks budget guard.counters).filterMap (exceededReason? numberText)

def Guard.landing (guard : Guard) : Except String (List String) :=
  match landingPolicy with
  | some policy =>
      if guard.exceededReasons numberText budget = [] then
        landingReasons numberText policy (checks budget guard.counters)
      else .ok []
  | none => .ok []

/-- The rest of a decision. -/
def Guard.verdict (guard : Guard) (emptyState : BudgetState) (observation : Option LiveUsageObservation)
    (appliedDelta : Option UsageCounts) (landing : List String) : LiveBudgetDecision :=
  let reasons := guard.exceededReasons numberText budget
  if reasons = [] && budget.maxContextTokens.isSome && guard.incrementalUsageEvents = 0 then
    { state := .unmeasurable
      reasons := ["per-call context token evidence unavailable from cumulative-only usage"]
      counters := guard.counters
      observation := observation
      appliedDelta := appliedDelta
      consecutiveCacheReadEvents := guard.consecutiveCacheReadEvents }
  else if emptyState = .unmeasurable && guard.measurableEvents = 0 then
    { state := .unmeasurable
      reasons := ["measured usage evidence unavailable"]
      counters := guard.counters
      observation := observation
      consecutiveCacheReadEvents := guard.consecutiveCacheReadEvents }
  else
    { state := if reasons ≠ [] then .exceeded else if landing ≠ [] then .landingRequested else emptyState
      reasons := if reasons ≠ [] then reasons else landing
      counters := guard.counters
      observation := observation
      appliedDelta := appliedDelta
      consecutiveCacheReadEvents := guard.consecutiveCacheReadEvents }

/-- `decision`. Its first argument is `'within-budget'` or `'unmeasurable'`. -/
def Guard.decision (guard : Guard) (emptyState : BudgetState) (observation : Option LiveUsageObservation)
    (appliedDelta : Option UsageCounts) : Except String LiveBudgetDecision :=
  (guard.landing numberText budget landingPolicy).map
    (guard.verdict numberText budget emptyState observation appliedDelta)

def Guard.apply (guard : Guard) (observation : LiveUsageObservation) (applied : UsageCounts) : Guard :=
  let counted := addCounters guard.counters applied
  let turns := counted.turns + (if observation.countsAsTurn then 1 else 0)
  { seen := guard.seen.add observation.dedupeKey
    counters :=
      { counted with
        turns := (observation.reportedTurns.map (max turns)).getD turns
        maxContextTokens :=
          if observation.mode = .incremental then max counted.maxContextTokens observation.contextTokens
          else counted.maxContextTokens }
    measurableEvents := guard.measurableEvents + 1
    incrementalUsageEvents :=
      guard.incrementalUsageEvents + (if observation.mode = .incremental then 1 else 0)
    consecutiveCacheReadEvents :=
      if applied.cacheReadTokens > 0 then guard.consecutiveCacheReadEvents + 1 else 0
    lastAppliedDelta := some applied }

def Guard.observe (guard : Guard) (event : StreamLogEvent) : Guard × Except String LiveBudgetDecision :=
  match extractLiveUsageObservation numberText event with
  | none => (guard, guard.decision numberText budget landingPolicy .unmeasurable none none)
  | some observation =>
      if observation.dedupeKey ∈ guard.seen then
        (guard, guard.decision numberText budget landingPolicy .withinBudget (some observation) none)
      else
        let applied := if observation.mode = .cumulative then snapshotDelta guard.counters observation.counts
          else observation.counts
        let next := guard.apply observation applied
        (next, next.decision numberText budget landingPolicy .withinBudget (some observation) (some applied))

def Guard.snapshot (guard : Guard) : Except String LiveBudgetDecision :=
  guard.decision numberText budget landingPolicy
    (if guard.measurableEvents > 0 then .withinBudget else .unmeasurable) none none

/-! ### Runs -/

inductive GuardCall where
  | observe (event : StreamLogEvent)
  | snapshot

def Guard.call (guard : Guard) : GuardCall → Guard × Except String LiveBudgetDecision
  | .observe event => guard.observe numberText budget landingPolicy event
  | .snapshot => (guard, guard.snapshot numberText budget landingPolicy)

def Guard.after (guard : Guard) (calls : List GuardCall) : Guard :=
  calls.foldl (fun guard call => (guard.call numberText budget landingPolicy call).1) guard

def Guard.answers (guard : Guard) : List GuardCall → List (Except String LiveBudgetDecision)
  | [] => []
  | call :: calls =>
      let answered := guard.call numberText budget landingPolicy call
      answered.2 :: Guard.answers answered.1 calls

end Extraction

end LiveBudget

end Deckent
