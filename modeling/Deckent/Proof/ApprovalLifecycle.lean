import Mathlib.Order.Bounds.Basic
import Mathlib.Order.Lattice
import Deckent.Lib.Fallible
import Deckent.Model.ApprovalLifecycle

/-!
# Profiles that get stricter

Profiles are ordered by how strict they are in each of their fields. Applying a profile to an authored one
gives the meet of the two, so the order in which a policy is revised does not matter.
-/

namespace Deckent.ApprovalLifecycle

open ApprovalAllowScope (ApprovalRiskTier)
open JsValue (Record member asRecord)

/-! ### The order of profiles -/

theorem riskTier_rank_injective : Function.Injective ApprovalRiskTier.rank := by
  intro left right hrank
  cases left <;> cases right <;> first | rfl | cases hrank

theorem timeoutDisposition_rank_injective : Function.Injective ApprovalTimeoutDisposition.rank := by
  intro left right hrank
  cases left <;> cases right <;> first | rfl | cases hrank

theorem blocking_rank_injective : Function.Injective ApprovalLifecycleBlockingScope.rank := by
  intro left right hrank
  cases left <;> cases right <;> first | rfl | cases hrank

abbrev Strictness := (ℕ × ℕ × ℕ × ℕ) × ℕᵒᵈ × ℕᵒᵈ × ℕᵒᵈ

def ResolvedApprovalLifecycleProfile.strictness (profile : ResolvedApprovalLifecycleProfile) : Strictness :=
  ((profile.ttlMs, profile.slaMs.first, profile.slaMs.second, profile.slaMs.third),
    OrderDual.toDual profile.riskTier.rank, OrderDual.toDual profile.timeoutDisposition.rank,
    OrderDual.toDual profile.blocking.rank)

theorem strictness_injective : Function.Injective ResolvedApprovalLifecycleProfile.strictness := by
  rintro ⟨ttlMs, ⟨first, second, third⟩, riskTier, timeoutDisposition, blocking⟩
    ⟨ttlMs', ⟨first', second', third'⟩, riskTier', timeoutDisposition', blocking'⟩ hstrictness
  simp only [ResolvedApprovalLifecycleProfile.strictness, Prod.mk.injEq, OrderDual.toDual_inj] at hstrictness
  obtain ⟨⟨rfl, rfl, rfl, rfl⟩, hrisk, htimeout, hblocking⟩ := hstrictness
  rw [riskTier_rank_injective hrisk, timeoutDisposition_rank_injective htimeout,
    blocking_rank_injective hblocking]

/-- `left ≤ right` if `left` is at least as strict in every field. -/
instance : PartialOrder ResolvedApprovalLifecycleProfile :=
  PartialOrder.lift ResolvedApprovalLifecycleProfile.strictness strictness_injective

theorem le_iff_strictness {left right : ResolvedApprovalLifecycleProfile} :
    left ≤ right ↔ left.strictness ≤ right.strictness := Iff.rfl

theorem le_iff_fields {left right : ResolvedApprovalLifecycleProfile} :
    left ≤ right ↔ left.ttlMs ≤ right.ttlMs
      ∧ (left.slaMs.first ≤ right.slaMs.first ∧ left.slaMs.second ≤ right.slaMs.second
        ∧ left.slaMs.third ≤ right.slaMs.third)
      ∧ right.riskTier.rank ≤ left.riskTier.rank
      ∧ right.timeoutDisposition.rank ≤ left.timeoutDisposition.rank
      ∧ right.blocking.rank ≤ left.blocking.rank := by
  rw [le_iff_strictness]
  simp only [ResolvedApprovalLifecycleProfile.strictness, Prod.mk_le_mk, OrderDual.toDual_le_toDual]
  tauto

/-! ### The meet -/

/-- What a profile becomes where another one is applied to it. -/
def ResolvedApprovalLifecycleProfile.tightenedBy (authored candidate : ResolvedApprovalLifecycleProfile) :
    ResolvedApprovalLifecycleProfile :=
  (applyApprovalLifecycleProfileTransition authored candidate).profile

theorem rank_stricterValue {α : Type} (rank : α → Nat) (authored candidate : α) :
    rank (stricterValue rank authored candidate) = max (rank authored) (rank candidate) := by
  unfold stricterValue
  split_ifs with hlt
  · exact (max_eq_right hlt.le).symm
  · exact (max_eq_left (not_lt.mp hlt)).symm

theorem strictness_tightenedBy (authored candidate : ResolvedApprovalLifecycleProfile) :
    (authored.tightenedBy candidate).strictness = authored.strictness ⊓ candidate.strictness := by
  simp only [ResolvedApprovalLifecycleProfile.strictness, ResolvedApprovalLifecycleProfile.tightenedBy,
    applyApprovalLifecycleProfileTransition, rank_stricterValue]
  rfl

theorem tightenedBy_comm (left right : ResolvedApprovalLifecycleProfile) :
    left.tightenedBy right = right.tightenedBy left := by
  refine strictness_injective ?_
  rw [strictness_tightenedBy, strictness_tightenedBy, inf_comm]

theorem tightenedBy_assoc (left middle right : ResolvedApprovalLifecycleProfile) :
    (left.tightenedBy middle).tightenedBy right = left.tightenedBy (middle.tightenedBy right) := by
  refine strictness_injective ?_
  rw [strictness_tightenedBy, strictness_tightenedBy, strictness_tightenedBy, strictness_tightenedBy,
    inf_assoc]

theorem tightenedBy_self (profile : ResolvedApprovalLifecycleProfile) :
    profile.tightenedBy profile = profile := by
  refine strictness_injective ?_
  rw [strictness_tightenedBy, inf_idem]

theorem tightenedBy_le_left (left right : ResolvedApprovalLifecycleProfile) :
    left.tightenedBy right ≤ left := by
  rw [le_iff_strictness, strictness_tightenedBy]
  exact inf_le_left

theorem tightenedBy_le_right (left right : ResolvedApprovalLifecycleProfile) :
    left.tightenedBy right ≤ right := by
  rw [tightenedBy_comm]
  exact tightenedBy_le_left right left

theorem le_tightenedBy {profile left right : ResolvedApprovalLifecycleProfile} (hleft : profile ≤ left)
    (hright : profile ≤ right) : profile ≤ left.tightenedBy right := by
  rw [le_iff_strictness, strictness_tightenedBy]
  exact le_inf hleft hright

theorem tightenedBy_of_le {authored candidate : ResolvedApprovalLifecycleProfile}
    (hle : candidate ≤ authored) : authored.tightenedBy candidate = candidate := by
  refine strictness_injective ?_
  rw [strictness_tightenedBy, inf_eq_right]
  exact hle

theorem foldl_tightenedBy_of_perm {left right : List ResolvedApprovalLifecycleProfile}
    (hperm : left.Perm right) (authored : ResolvedApprovalLifecycleProfile) :
    left.foldl (·.tightenedBy ·) authored = right.foldl (·.tightenedBy ·) authored := by
  refine hperm.foldl_eq' (fun first _ second _ profile => ?_) authored
  rw [tightenedBy_assoc, tightenedBy_comm first second, ← tightenedBy_assoc]

/-! ### Valid profiles -/

/-- The offsets are increasing and before the end, and all of them are positive safe integers. -/
structure ValidProfile (profile : ResolvedApprovalLifecycleProfile) : Prop where
  positive : 0 < profile.slaMs.first
  first_lt : profile.slaMs.first < profile.slaMs.second
  second_lt : profile.slaMs.second < profile.slaMs.third
  third_lt : profile.slaMs.third < profile.ttlMs
  safe : profile.ttlMs < 2 ^ 53

theorem ValidProfile.tightenedBy {authored candidate : ResolvedApprovalLifecycleProfile}
    (hauthored : ValidProfile authored) (hcandidate : ValidProfile candidate) :
    ValidProfile (authored.tightenedBy candidate) where
  positive := lt_min hauthored.positive hcandidate.positive
  first_lt := min_lt_min hauthored.first_lt hcandidate.first_lt
  second_lt := min_lt_min hauthored.second_lt hcandidate.second_lt
  third_lt := min_lt_min hauthored.third_lt hcandidate.third_lt
  safe := (min_le_left _ _).trans_lt hauthored.safe

theorem transitionChanged_iff {authored candidate : ResolvedApprovalLifecycleProfile} :
    (applyApprovalLifecycleProfileTransition authored candidate).transitionChanged = true
      ↔ authored.tightenedBy candidate ≠ authored := by
  obtain ⟨ttlMs, ⟨first, second, third⟩, riskTier, timeoutDisposition, blocking⟩ := authored
  simp only [applyApprovalLifecycleProfileTransition, ResolvedApprovalLifecycleProfile.tightenedBy,
    Bool.or_eq_true, decide_eq_true_eq, ne_eq, ResolvedApprovalLifecycleProfile.mk.injEq,
    SlaOffsets.mk.injEq]
  tauto

theorem weakeningIgnored_eq_false_iff {authored candidate : ResolvedApprovalLifecycleProfile} :
    (applyApprovalLifecycleProfileTransition authored candidate).weakeningIgnored = false
      ↔ candidate ≤ authored := by
  rw [le_iff_fields]
  simp only [applyApprovalLifecycleProfileTransition, Bool.or_eq_false_iff, decide_eq_false_iff_not, not_lt]
  tauto

/-! ### Tightening that rejects what weakens -/

theorem requirePolicy_eq_ok {condition : Bool} {message : String} :
    requirePolicy condition message = .ok () ↔ condition = true := by
  cases condition with
  | true => simp [requirePolicy]
  | false => simp [requirePolicy]

theorem requirePositiveInteger_of_positive {n : Nat} (hpositive : 0 < n) (hsafe : n < 2 ^ 53)
    (path : String) : requirePositiveInteger (.number (.finite n)) path = .ok n := by
  have hlt : JsNumber.lt 0 (.finite n) = true := decide_eq_true (Nat.cast_lt.mpr hpositive)
  have hinteger : JsNumber.isSafeInteger (.finite n) = true := decide_eq_true ⟨rfl, hsafe⟩
  have hnumber : JsNumber.toPositive? (.finite n) = some n := by
    unfold JsNumber.toPositive? JsNumber.isPositiveSafeInteger
    dsimp only
    rw [if_pos (Bool.and_eq_true_iff.mpr ⟨hinteger, hlt⟩)]
    rfl
  unfold requirePositiveInteger
  dsimp only
  rw [hnumber]

theorem parseTtl_eq_ok {path : String} {n base ttlMs : Nat} (hpositive : 0 < n) (hsafe : n < 2 ^ 53) :
    parseTtl path (.number (.finite n)) base = .ok ttlMs ↔ n ≤ base ∧ n = ttlMs := by
  have hnumber := requirePositiveInteger_of_positive hpositive hsafe (path ++ ".ttlMs")
  have hdefined : (JsValue.number (.finite n)).isUndefined = false := rfl
  unfold parseTtl
  rw [hdefined, if_neg Bool.false_ne_true, hnumber]
  constructor
  · intro hparse
    obtain ⟨_, hfound, hparse⟩ := bind_eq_ok.mp hparse
    obtain rfl := Except.ok.inj hfound
    obtain ⟨_, hle, hparse⟩ := bind_eq_ok.mp hparse
    exact ⟨of_decide_eq_true (requirePolicy_eq_ok.mp hle), pure_eq_ok.mp hparse⟩
  · rintro ⟨hle, rfl⟩
    exact bind_eq_ok.mpr ⟨n, rfl, bind_eq_ok.mpr
      ⟨(), requirePolicy_eq_ok.mpr (decide_eq_true hle), rfl⟩⟩

theorem parseSla_eq_ok {path : String} {offsets base slaMs : SlaOffsets} (hpositive : 0 < offsets.first)
    (hfirst : offsets.first < offsets.second) (hsecond : offsets.second < offsets.third)
    (hsafe : offsets.third < 2 ^ 53) :
    parseSla path (.array [.number (.finite offsets.first), .number (.finite offsets.second),
        .number (.finite offsets.third)]) base = .ok slaMs
      ↔ (offsets.first ≤ base.first ∧ offsets.second ≤ base.second ∧ offsets.third ≤ base.third)
        ∧ offsets = slaMs := by
  have hpath (n : Nat) (hn : 0 < n) (hle : n ≤ offsets.third) (path : String) :
      requirePositiveInteger (.number (.finite n)) path = .ok n :=
    requirePositiveInteger_of_positive hn (hle.trans_lt hsafe) path
  unfold parseSla
  dsimp only
  rw [hpath _ hpositive (hfirst.trans hsecond).le, hpath _ (hpositive.trans hfirst) hsecond.le,
    hpath _ (hpositive.trans (hfirst.trans hsecond)) le_rfl]
  have hincreasing : (decide (offsets.first < offsets.second) && decide (offsets.second < offsets.third))
      = true := by
    rw [decide_eq_true hfirst, decide_eq_true hsecond]
    rfl
  have hadvances : (decide (offsets.first ≤ base.first) && decide (offsets.second ≤ base.second)
        && decide (offsets.third ≤ base.third)) = true
      ↔ offsets.first ≤ base.first ∧ offsets.second ≤ base.second ∧ offsets.third ≤ base.third := by
    simp only [Bool.and_eq_true, decide_eq_true_eq, and_assoc]
  constructor
  · intro hparse
    obtain ⟨_, hfound, hparse⟩ := bind_eq_ok.mp hparse
    obtain rfl := Except.ok.inj hfound
    obtain ⟨_, hfound, hparse⟩ := bind_eq_ok.mp hparse
    obtain rfl := Except.ok.inj hfound
    obtain ⟨_, hfound, hparse⟩ := bind_eq_ok.mp hparse
    obtain rfl := Except.ok.inj hfound
    obtain ⟨_, -, hparse⟩ := bind_eq_ok.mp hparse
    obtain ⟨_, hle, hparse⟩ := bind_eq_ok.mp hparse
    exact ⟨hadvances.mp (requirePolicy_eq_ok.mp hle), pure_eq_ok.mp hparse⟩
  · rintro ⟨hle, rfl⟩
    refine bind_eq_ok.mpr ⟨_, rfl, bind_eq_ok.mpr ⟨_, rfl, bind_eq_ok.mpr ⟨_, rfl, bind_eq_ok.mpr
      ⟨(), requirePolicy_eq_ok.mpr hincreasing, bind_eq_ok.mpr
        ⟨(), requirePolicy_eq_ok.mpr (hadvances.mpr hle), rfl⟩⟩⟩⟩⟩

theorem parseRanked_eq_ok {α : Type} {choices : List α} {text : α → String} {rank : α → Nat}
    {choice base result : α} {invalid weaker : String}
    (hfind : choices.find? (fun other => text choice = text other) = some choice) :
    parseRanked choices text rank (.string (text choice)) base invalid weaker = .ok result
      ↔ rank base ≤ rank choice ∧ choice = result := by
  have hdefined : (JsValue.string (text choice)).isUndefined = false := rfl
  unfold parseRanked
  rw [hdefined, if_neg Bool.false_ne_true]
  simp only [JsValue.isText, hfind]
  constructor
  · intro hparse
    obtain ⟨_, hle, hparse⟩ := bind_eq_ok.mp hparse
    exact ⟨of_decide_eq_true (requirePolicy_eq_ok.mp hle), pure_eq_ok.mp hparse⟩
  · rintro ⟨hle, rfl⟩
    exact bind_eq_ok.mpr ⟨(), requirePolicy_eq_ok.mpr (decide_eq_true hle), rfl⟩

theorem find?_riskTierText (tier : ApprovalRiskTier) :
    approvalRiskTiers.find? (fun other => riskTierText tier = riskTierText other) = some tier := by
  cases tier <;> rfl

theorem find?_timeoutDispositionText (disposition : ApprovalTimeoutDisposition) :
    approvalTimeoutDispositions.find? (fun other => disposition.text = other.text) = some disposition := by
  cases disposition <;> rfl

theorem find?_blockingText (blocking : ApprovalLifecycleBlockingScope) :
    approvalLifecycleBlockingScopes.find? (fun other => blocking.text = other.text) = some blocking := by
  cases blocking <;> rfl

/-- A profile is accepted as it is if it does not weaken the authored one. -/
theorem tightenApprovalLifecycleProfile_eq_ok {origin : ApprovalLifecycleOrigin}
    {authored candidate profile : ResolvedApprovalLifecycleProfile} (hvalid : ValidProfile candidate) :
    tightenApprovalLifecycleProfile origin authored candidate = .ok profile
      ↔ candidate ≤ authored ∧ candidate = profile := by
  have hthird : candidate.slaMs.third < 2 ^ 53 := hvalid.third_lt.trans hvalid.safe
  have hpositive : 0 < candidate.ttlMs :=
    hvalid.positive.trans (hvalid.first_lt.trans (hvalid.second_lt.trans hvalid.third_lt))
  generalize hpath : profilePath origin = path
  have hmembers : tightenApprovalLifecycleProfile origin authored candidate
      = (do
        let ttlMs ← parseTtl path (.number (.finite candidate.ttlMs)) authored.ttlMs
        let slaMs ← parseSla path (.array [.number (.finite candidate.slaMs.first),
          .number (.finite candidate.slaMs.second), .number (.finite candidate.slaMs.third)]) authored.slaMs
        requirePolicy (slaMs.third < ttlMs) (path ++ ".slaMs entries must be earlier than ttlMs")
        let riskTier ← parseRanked approvalRiskTiers riskTierText ApprovalRiskTier.rank
          (.string (riskTierText candidate.riskTier)) authored.riskTier (path ++ ".riskTier is invalid")
          (path ++ ".riskTier may not lower the parent floor")
        let timeoutDisposition ← parseRanked approvalTimeoutDispositions ApprovalTimeoutDisposition.text
          ApprovalTimeoutDisposition.rank (.string candidate.timeoutDisposition.text)
          authored.timeoutDisposition (path ++ ".timeoutDisposition is invalid")
          (path ++ ".timeoutDisposition may not weaken the parent disposition")
        let blocking ← parseRanked approvalLifecycleBlockingScopes ApprovalLifecycleBlockingScope.text
          ApprovalLifecycleBlockingScope.rank (.string candidate.blocking.text) authored.blocking
          (path ++ ".blocking is invalid") (path ++ ".blocking may not weaken the parent boundary")
        return ⟨ttlMs, slaMs, riskTier, timeoutDisposition, blocking⟩) := by
    rw [← hpath]
    rfl
  rw [hmembers, le_iff_fields]
  constructor
  · intro hparse
    obtain ⟨_, hparsed, hparse⟩ := bind_eq_ok.mp hparse
    obtain ⟨httl, rfl⟩ := (parseTtl_eq_ok hpositive hvalid.safe).mp hparsed
    obtain ⟨_, hparsed, hparse⟩ := bind_eq_ok.mp hparse
    obtain ⟨hsla, rfl⟩ := (parseSla_eq_ok hvalid.positive hvalid.first_lt hvalid.second_lt hthird).mp hparsed
    obtain ⟨_, -, hparse⟩ := bind_eq_ok.mp hparse
    obtain ⟨_, hparsed, hparse⟩ := bind_eq_ok.mp hparse
    obtain ⟨hrisk, rfl⟩ := (parseRanked_eq_ok (find?_riskTierText _)).mp hparsed
    obtain ⟨_, hparsed, hparse⟩ := bind_eq_ok.mp hparse
    obtain ⟨htimeout, rfl⟩ := (parseRanked_eq_ok (find?_timeoutDispositionText _)).mp hparsed
    obtain ⟨_, hparsed, hparse⟩ := bind_eq_ok.mp hparse
    obtain ⟨hblocking, rfl⟩ := (parseRanked_eq_ok (find?_blockingText _)).mp hparsed
    exact ⟨⟨httl, hsla, hrisk, htimeout, hblocking⟩, pure_eq_ok.mp hparse⟩
  · rintro ⟨⟨httl, hsla, hrisk, htimeout, hblocking⟩, rfl⟩
    refine bind_eq_ok.mpr ⟨_, (parseTtl_eq_ok hpositive hvalid.safe).mpr ⟨httl, rfl⟩, ?_⟩
    refine bind_eq_ok.mpr ⟨_, (parseSla_eq_ok hvalid.positive hvalid.first_lt hvalid.second_lt hthird).mpr
      ⟨hsla, rfl⟩, ?_⟩
    refine bind_eq_ok.mpr ⟨(), requirePolicy_eq_ok.mpr (decide_eq_true hvalid.third_lt), ?_⟩
    refine bind_eq_ok.mpr ⟨_, (parseRanked_eq_ok (find?_riskTierText _)).mpr ⟨hrisk, rfl⟩, ?_⟩
    refine bind_eq_ok.mpr ⟨_, (parseRanked_eq_ok (find?_timeoutDispositionText _)).mpr ⟨htimeout, rfl⟩, ?_⟩
    exact bind_eq_ok.mpr ⟨_, (parseRanked_eq_ok (find?_blockingText _)).mpr ⟨hblocking, rfl⟩, rfl⟩

/-! ### The transition is the meet -/

/-- Applying a valid profile to another one gives their meet, whose laws make the order of revisions
irrelevant, and rejecting and leaving out what weakens agree. -/
theorem profileTransition_isMeet :
    (∀ authored candidate, ValidProfile authored → ValidProfile candidate →
      ValidProfile (authored.tightenedBy candidate)
        ∧ IsGLB {authored, candidate} (authored.tightenedBy candidate)
        ∧ ((applyApprovalLifecycleProfileTransition authored candidate).transitionChanged = true
          ↔ authored.tightenedBy candidate ≠ authored)
        ∧ ∀ origin, ((∃ profile, tightenApprovalLifecycleProfile origin authored candidate = .ok profile)
            ↔ (applyApprovalLifecycleProfileTransition authored candidate).weakeningIgnored = false)
          ∧ ∀ profile, tightenApprovalLifecycleProfile origin authored candidate = .ok profile →
            profile = authored.tightenedBy candidate)
      ∧ (∀ left right : ResolvedApprovalLifecycleProfile, left.tightenedBy right = right.tightenedBy left)
      ∧ (∀ left middle right : ResolvedApprovalLifecycleProfile,
        (left.tightenedBy middle).tightenedBy right = left.tightenedBy (middle.tightenedBy right))
      ∧ (∀ profile : ResolvedApprovalLifecycleProfile, profile.tightenedBy profile = profile)
      ∧ ∀ (left right : List ResolvedApprovalLifecycleProfile) (authored : ResolvedApprovalLifecycleProfile),
        left.Perm right → left.foldl (·.tightenedBy ·) authored = right.foldl (·.tightenedBy ·) authored := by
  refine ⟨?_, tightenedBy_comm, tightenedBy_assoc, tightenedBy_self,
    fun left right authored hperm => foldl_tightenedBy_of_perm hperm authored⟩
  intro authored candidate hauthored hcandidate
  refine ⟨hauthored.tightenedBy hcandidate, ⟨?_, ?_⟩, transitionChanged_iff, fun origin => ⟨?_, ?_⟩⟩
  · rintro profile (rfl | rfl)
    · exact tightenedBy_le_left profile candidate
    · exact tightenedBy_le_right authored profile
  · intro profile hlower
    exact le_tightenedBy (hlower (Set.mem_insert _ _)) (hlower (Set.mem_insert_of_mem _ rfl))
  · rw [weakeningIgnored_eq_false_iff]
    constructor
    · rintro ⟨profile, hprofile⟩
      exact ((tightenApprovalLifecycleProfile_eq_ok hcandidate).mp hprofile).1
    · intro hle
      exact ⟨candidate, (tightenApprovalLifecycleProfile_eq_ok hcandidate).mpr ⟨hle, rfl⟩⟩
  · intro profile hprofile
    obtain ⟨hle, rfl⟩ := (tightenApprovalLifecycleProfile_eq_ok hcandidate).mp hprofile
    exact (tightenedBy_of_le hle).symm

theorem validProfile_default (origin : ApprovalLifecycleOrigin) : ValidProfile (defaultProfiles origin) := by
  cases origin <;> exact ⟨by decide, by decide, by decide, by decide, by decide⟩

/-- The profile of gateway pairings, applied to that of the broker. -/
theorem profileTransition_isMeet_defaults :
    IsGLB {defaultProfiles .brokerNative, defaultProfiles .gatewayPairing}
        ((defaultProfiles .brokerNative).tightenedBy (defaultProfiles .gatewayPairing))
      ∧ (defaultProfiles .brokerNative).tightenedBy (defaultProfiles .gatewayPairing)
        = defaultProfiles .gatewayPairing :=
  ⟨(profileTransition_isMeet.1 _ _ (validProfile_default _) (validProfile_default _)).2.1, by decide⟩

end Deckent.ApprovalLifecycle
