import Mathlib.Logic.Relation
import Deckent.Proof.ApprovalSweep

/-!
# Requests that are created

A decision stands only beside its request or behind a tombstone of its id. So a request that is created
under an id without a tombstone is shown undecided by the next scan. Pruning frees the name of a request
file while its tombstone stays, and a request that is created under such an id is never shown.
-/

namespace Deckent.ApprovalLifecycle

open Relation

/-- One directory and the snapshots of the instances that share it. -/
structure ApprovalHost (ι : Type) where
  dir : ApprovalDirectory
  snapshots : ι → ApprovalStoreSnapshot

def ApprovalHost.initial (ι : Type) : ApprovalHost ι :=
  { dir := OrderedMap.empty, snapshots := fun _ => emptySnapshot }

section Steps

variable {ι : Type} [DecidableEq ι]
  (profileDigest : ApprovalLifecycleOrigin → ResolvedApprovalLifecycleProfile → String)
  (policy : ι → ResolvedApprovalLifecycleConfig)

/-- A call of one instance, which may crash after any of its writes. The scans that a call makes for its
instance are steps of their own. -/
inductive StoreStep (host : ApprovalHost ι) : ApprovalHost ι → Prop where
  | index (i : ι) (now : Int) : StoreStep host { host with
      snapshots := Function.update host.snapshots i (scanStoreDir profileDigest (policy i) host.dir now) }
  | create (i : ι) (request : ApprovalRequest) (privateFile : Bool) : StoreStep host { host with
      dir := (createLifecycleRequest profileDigest (policy i) host.dir request privateFile).1 }
  | transition (i : ι) (id : String) (target : ApprovalStoreTerminalCategory)
      (input : ApprovalDecisionInput) (now : Int) (dir : ApprovalDirectory)
      (hdir : dir ∈ (transition profileDigest (policy i) host.dir id target input now).directories) :
      StoreStep host { host with dir := dir }
  | sweep (i : ι) (now : Int) (dir : ApprovalDirectory)
      (hdir : dir ∈ (sweepExpired profileDigest (policy i) host.dir now).directories) :
      StoreStep host { host with dir := dir }
  | prune (i : ι) (olderThan retiredAt : Int) (unlinks : String → Bool × Bool) (dir : ApprovalDirectory)
      (hdir : dir ∈ (prune host.dir (host.snapshots i) olderThan retiredAt unlinks).directories) :
      StoreStep host { host with dir := dir }

def ReachableStore (host : ApprovalHost ι) : Prop :=
  ReflTransGen (StoreStep profileDigest policy) (ApprovalHost.initial ι) host

end Steps

/-! ### Decisions stand beside requests or behind tombstones -/

def ApprovalFiles.Accounted (files : ApprovalFiles) (id : String) : Prop :=
  files.decision ≠ .absent → files.request ≠ .absent ∨ files.isRetired id = true

def ApprovalDirectory.Accounted (dir : ApprovalDirectory) : Prop := ∀ id, (dir.files id).Accounted id

def ApprovalStoreSnapshot.Bound (snapshot : ApprovalStoreSnapshot) : Prop :=
  ∀ category, ∀ entry ∈ snapshot.bucket category, ∀ decision, entry.decision = some decision →
    decision.requestId = entry.request.id

structure ApprovalHost.Sound {ι : Type} (host : ApprovalHost ι) : Prop where
  accounted : host.dir.Accounted
  bound : ∀ i, (host.snapshots i).Bound

variable {profileDigest : ApprovalLifecycleOrigin → ResolvedApprovalLifecycleProfile → String}
  {policy : ResolvedApprovalLifecycleConfig} {dir : ApprovalDirectory} {id : String} {now : Int}

theorem bound_emptySnapshot : emptySnapshot.Bound := by
  intro category entry hentry
  cases category <;> exact absurd hentry List.not_mem_nil

theorem bound_scanStoreDir : (scanStoreDir profileDigest policy dir now).Bound := by
  intro category entry hentry decision hdecision
  obtain ⟨hshows, -⟩ := mem_bucket_scanStoreDir.mp hentry
  obtain ⟨-, -, -, hfor, -⟩ := shows_iff.mp hshows
  rw [hdecision, ApprovalFiles.decisionFor, eq_comm, Option.filter_eq_some_iff] at hfor
  exact of_decide_eq_true hfor.2

theorem ApprovalDirectory.Accounted.change (haccounted : dir.Accounted) {f : ApprovalFiles → ApprovalFiles}
    (hfiles : (f (dir.files id)).Accounted id) : (dir.change id f).Accounted := by
  intro other
  rw [files_change]
  split
  · next heq => exact heq ▸ hfiles
  · exact haccounted other

theorem accounted_create {request : ApprovalRequest} {privateFile : Bool} (haccounted : dir.Accounted) :
    (createLifecycleRequest profileDigest policy dir request privateFile).1.Accounted := by
  unfold createLifecycleRequest
  split_ifs
  · exact haccounted
  · exact haccounted
  · exact haccounted
  · exact haccounted
  · exact haccounted.change fun _ => Or.inl (by simp)

theorem accounted_sweep (haccounted : dir.Accounted) {after : ApprovalDirectory}
    (hafter : after ∈ (sweepExpired profileDigest policy dir now).directories) : after.Accounted := by
  intro id
  have hswept := sweeps_sweepExpired after hafter id
  unfold ApprovalFiles.Accounted ApprovalFiles.isRetired
  rw [hswept.request, hswept.tombstone]
  rcases hswept.decision with hsame | ⟨-, entry, settled, hentry, -, -⟩
  · rw [hsame]
    exact haccounted id
  · intro _
    have hrequest : (dir.files id).request = .valid entry.request := (shows_iff.mp hentry).1
    exact Or.inl (by simp [hrequest])

variable {after : ApprovalDirectory}

theorem findIn_eq_some {entries : List ApprovalStoreEntry} {entry : ApprovalStoreEntry}
    (hfound : ApprovalStoreSnapshot.findIn entries id = some entry) :
    entry ∈ entries ∧ entry.request.id = id := by
  unfold ApprovalStoreSnapshot.findIn at hfound
  have hid := List.find?_some hfound
  exact ⟨List.mem_of_find?_eq_some hfound, of_decide_eq_true hid⟩

theorem findEntry_eq_some {snapshot : ApprovalStoreSnapshot} {isExpired : Bool}
    {entry : ApprovalStoreEntry} (hfound : snapshot.findEntry id = some (isExpired, entry)) :
    (∃ category, entry ∈ snapshot.bucket category) ∧ entry.request.id = id := by
  unfold ApprovalStoreSnapshot.findEntry at hfound
  simp only [Option.or_eq_some_iff, Option.map_eq_some_iff, Prod.mk.injEq] at hfound
  rcases hfound with ⟨found, hin, -, rfl⟩ | ⟨-, ⟨found, hin, -, rfl⟩ | ⟨-, ⟨found, hin, -, rfl⟩
    | ⟨-, found, hin, -, rfl⟩⟩⟩
  · exact ⟨⟨.pending, (findIn_eq_some hin).1⟩, (findIn_eq_some hin).2⟩
  · exact ⟨⟨.approved, (findIn_eq_some hin).1⟩, (findIn_eq_some hin).2⟩
  · exact ⟨⟨.denied, (findIn_eq_some hin).1⟩, (findIn_eq_some hin).2⟩
  · exact ⟨⟨.expired, (findIn_eq_some hin).1⟩, (findIn_eq_some hin).2⟩

theorem mem_transition_directories {target : ApprovalStoreTerminalCategory}
    {input : ApprovalDecisionInput}
    (hafter : after ∈ (transition profileDigest policy dir id target input now).directories) :
    after = dir ∨ after ∈ (sweepExpired profileDigest policy dir now).directories
      ∨ (dir.files id).request ≠ .absent ∧ ∃ decision,
        after = dir.change id (fun files => { files with decision := .valid decision })
          ∨ after = (dir.change id fun files => { files with decision := .valid decision }).change id
            fun files => { files with decision := .absent } := by
  unfold transition at hafter
  dsimp only at hafter
  split at hafter
  · exact Or.inl (List.mem_singleton.mp hafter)
  · next isExpired entry hfound =>
      obtain ⟨⟨category, hentry⟩, hid⟩ := findEntry_eq_some hfound
      obtain ⟨hshows, -⟩ := mem_bucket_scanStoreDir.mp hentry
      have hrequest : (dir.files id).request ≠ .absent := by
        rw [← hid, (shows_iff.mp hshows).1]
        simp
      split at hafter
      · exact Or.inl (List.mem_singleton.mp hafter)
      · split at hafter
        · split at hafter
          · exact Or.inr (Or.inl hafter)
          · exact Or.inr (Or.inl hafter)
        · split at hafter
          · exact Or.inl (List.mem_singleton.mp hafter)
          · split at hafter
            · exact Or.inl (List.mem_singleton.mp hafter)
            · split at hafter
              · exact Or.inl (List.mem_singleton.mp hafter)
              · split at hafter
                · simp only [List.mem_cons, List.not_mem_nil, or_false] at hafter
                  rcases hafter with heq | heq | heq
                  · exact Or.inl heq
                  · exact Or.inr (Or.inr ⟨hrequest, _, Or.inl heq⟩)
                  · exact Or.inr (Or.inr ⟨hrequest, _, Or.inr heq⟩)
                · simp only [List.mem_cons, List.not_mem_nil, or_false] at hafter
                  rcases hafter with heq | heq
                  · exact Or.inl heq
                  · exact Or.inr (Or.inr ⟨hrequest, _, Or.inl heq⟩)

theorem accounted_transition {target : ApprovalStoreTerminalCategory} {input : ApprovalDecisionInput}
    (haccounted : dir.Accounted)
    (hafter : after ∈ (transition profileDigest policy dir id target input now).directories) :
    after.Accounted := by
  rcases mem_transition_directories hafter with rfl | hsweep | ⟨hrequest, decision, rfl | rfl⟩
  · exact haccounted
  · exact accounted_sweep haccounted hsweep
  · exact haccounted.change fun _ => Or.inl hrequest
  · refine (haccounted.change fun _ => Or.inl hrequest).change ?_
    intro habsent
    exact absurd rfl habsent

/-! ### Pruning -/

def Pruning.Accounted (pruning : Pruning) : Prop := ∀ passed ∈ pruning.directories, passed.Accounted

variable {pruning : Pruning}

theorem Pruning.Accounted.present (haccounted : pruning.Accounted) : pruning.dir.Accounted :=
  haccounted pruning.dir (List.mem_append_right _ (List.mem_singleton_self _))

theorem Pruning.Accounted.write (haccounted : pruning.Accounted) {f : ApprovalFiles → ApprovalFiles}
    (hfiles : (f (pruning.dir.files id)).Accounted id) : (pruning.write id f).Accounted := by
  intro passed hpassed
  rcases List.mem_append.mp hpassed with hold | hnew
  · exact haccounted passed hold
  · rw [List.mem_singleton.mp hnew]
    exact haccounted.present.change hfiles

theorem Pruning.Accounted.remove (haccounted : pruning.Accounted)
    (hretired : (pruning.dir.files id).isRetired id = true) (unlinks : Bool × Bool) :
    (pruning.remove id unlinks).Accounted := by
  have hrequest : (if unlinks.1 then pruning.write id fun files => { files with request := .absent }
      else pruning).Accounted := by
    split
    · exact haccounted.write fun _ => Or.inr hretired
    · exact haccounted
  unfold Pruning.remove
  dsimp only
  split
  · have hdecision : ((if unlinks.1 then
          pruning.write id fun files => { files with request := .absent }
        else pruning).write id fun files => { files with decision := .absent }).Accounted :=
      hrequest.write fun habsent => absurd rfl habsent
    exact hdecision
  · exact hrequest

theorem accounted_pruneEntry {olderThan retiredAt : Int} {unlinks : String → Bool × Bool}
    {entry : ApprovalStoreEntry} (haccounted : pruning.Accounted)
    (hbound : ∀ decision, entry.decision = some decision → decision.requestId = entry.request.id) :
    (pruneEntry olderThan retiredAt unlinks pruning entry).Accounted := by
  unfold pruneEntry
  split
  · next decision _ hdecision =>
      dsimp only
      split_ifs with hrecent hfree hsame
      · exact haccounted
      · have hretired : ∀ files : ApprovalFiles, ({ files with
            tombstone := .valid { id := entry.request.id, retiredAt := retiredAt, decision := decision } } :
              ApprovalFiles).isRetired entry.request.id = true := by
          intro files
          simp [ApprovalFiles.isRetired, StoredFile.record?, hbound decision hdecision]
        refine (haccounted.write fun _ => Or.inr (hretired _)).remove ?_ _
        simpa [Pruning.write] using hretired _
      · refine haccounted.remove ?_ _
        unfold ApprovalFiles.retiredWith at hsame
        unfold ApprovalFiles.isRetired
        cases htombstone : (pruning.dir.files entry.request.id).tombstone.record? with
        | none => simp [htombstone] at hsame
        | some tombstone =>
            simp only [htombstone, Option.any_some, Bool.and_eq_true] at hsame ⊢
            exact hsame.1
      · exact haccounted
  · exact haccounted

theorem accounted_prune {snapshot : ApprovalStoreSnapshot} {olderThan retiredAt : Int}
    {unlinks : String → Bool × Bool} (haccounted : dir.Accounted) (hbound : snapshot.Bound)
    (hafter : after ∈ (prune dir snapshot olderThan retiredAt unlinks).directories) : after.Accounted := by
  have hall : (prune dir snapshot olderThan retiredAt unlinks).Accounted := by
    refine List.foldlRecOn _ _ ?_ ?_
    · intro passed hpassed
      exact List.mem_singleton.mp hpassed ▸ haccounted
    · intro pruning hpruning entry hentry
      refine accounted_pruneEntry hpruning fun decision hdecision => ?_
      rcases List.mem_append.mp hentry with hentry | hentry
      · rcases List.mem_append.mp hentry with hentry | hentry
        · exact hbound .approved entry hentry decision hdecision
        · exact hbound .denied entry hentry decision hdecision
      · exact hbound .expired entry hentry decision hdecision
  exact hall after hafter

/-! ### Reachable stores -/

section Reachable

variable {ι : Type} [DecidableEq ι] {policies : ι → ResolvedApprovalLifecycleConfig}
  {host next : ApprovalHost ι}

omit [DecidableEq ι] in
theorem ApprovalHost.Sound.initial : (ApprovalHost.initial ι).Sound where
  accounted := fun _ habsent => absurd rfl habsent
  bound := fun _ => bound_emptySnapshot

theorem ApprovalHost.Sound.step (hsound : host.Sound) (hstep : StoreStep profileDigest policies host next) :
    next.Sound := by
  cases hstep with
  | index i now =>
      refine ⟨hsound.accounted, fun other => ?_⟩
      dsimp only
      by_cases hother : other = i
      · subst hother
        rw [Function.update_self]
        exact bound_scanStoreDir
      · rw [Function.update_of_ne hother]
        exact hsound.bound other
  | create i request privateFile => exact ⟨accounted_create hsound.accounted, hsound.bound⟩
  | transition i id target input now dir hdir =>
      exact ⟨accounted_transition hsound.accounted hdir, hsound.bound⟩
  | sweep i now dir hdir => exact ⟨accounted_sweep hsound.accounted hdir, hsound.bound⟩
  | prune i olderThan retiredAt unlinks dir hdir =>
      exact ⟨accounted_prune hsound.accounted (hsound.bound i) hdir, hsound.bound⟩

theorem sound_of_reachable (hreachable : ReachableStore profileDigest policies host) : host.Sound := by
  induction hreachable with
  | refl => exact ApprovalHost.Sound.initial
  | tail _ hstep ih => exact ih.step hstep

/-! ### Creation -/

variable {request : ApprovalRequest} {privateFile : Bool}

section Creation

variable (profileDigest policy)

/-- A creation that is rejected for none of its own checks, and finds its name free. -/
structure Creates (dir : ApprovalDirectory) (request : ApprovalRequest) (privateFile : Bool) : Prop where
  enabled : policy.enabled = true
  valid : isStoredRequest profileDigest request = true
  lifecycle : request.lifecycle.isSome = true
  privateFile : privateFile = true
  free : (dir.files request.id).request = .absent

def undecidedEntry (request : ApprovalRequest) : ApprovalStoreEntry :=
  { request := request
    decision := none
    lifecycle := appliedLifecycleView profileDigest request policy }

/-- What a caller relies on: a request that is created is shown undecided by the next scan, and one whose
id is retired is not created. -/
structure CreationKept (dir : ApprovalDirectory) (request : ApprovalRequest) (privateFile : Bool)
    (now : Int) : Prop where
  shown : ∀ created, (createLifecycleRequest profileDigest policy dir request privateFile).2
      = .created created →
    created = request ∧ ∃ entry category, (category = .pending ∨ category = .expired)
      ∧ entry ∈ (scanStoreDir profileDigest policy
          (createLifecycleRequest profileDigest policy dir request privateFile).1 now).bucket category
      ∧ entry.request = request ∧ entry.decision = none
  retired : (dir.files request.id).isRetired request.id = true →
    ∀ created, (createLifecycleRequest profileDigest policy dir request privateFile).2 ≠ .created created

end Creation

theorem createLifecycleRequest_of_creates (hcreates : Creates profileDigest policy dir request privateFile) :
    createLifecycleRequest profileDigest policy dir request privateFile
      = (dir.change request.id fun files => { files with request := .valid request }, .created request) := by
  obtain ⟨henabled, hvalid, hlifecycle, hprivate, hfree⟩ := hcreates
  have hsome : request.lifecycle.isNone = false := by simpa using hlifecycle
  unfold createLifecycleRequest
  simp [henabled, hvalid, hsome, hprivate, hfree]

theorem creates_of_created {created : ApprovalRequest}
    (hcreated : (createLifecycleRequest profileDigest policy dir request privateFile).2 = .created created) :
    Creates profileDigest policy dir request privateFile := by
  unfold createLifecycleRequest at hcreated
  split_ifs at hcreated with hdisabled hinvalid hheld htaken
  have hvalid : isStoredRequest profileDigest request = true ∧ request.lifecycle ≠ none := by
    simpa using hinvalid
  exact ⟨by simpa using hdisabled, hvalid.1, Option.isSome_iff_ne_none.mpr hvalid.2,
    by simpa using hheld, not_not.mp htaken⟩

theorem shown_of_creates (haccounted : dir.Accounted)
    (hcreates : Creates profileDigest policy dir request privateFile)
    (hnotRetired : (dir.files request.id).isRetired request.id = false) :
    ∃ entry category, (category = .pending ∨ category = .expired)
      ∧ entry ∈ (scanStoreDir profileDigest policy
          (createLifecycleRequest profileDigest policy dir request privateFile).1 now).bucket category
      ∧ entry.request = request ∧ entry.decision = none := by
  have hdecision : (dir.files request.id).decision = .absent := by
    by_contra hdecided
    rcases haccounted request.id hdecided with hrequest | hretired
    · exact hrequest hcreates.free
    · exact absurd hretired (by simp [hnotRetired])
  have hshows : Shows profileDigest policy
      (dir.change request.id fun files => { files with request := .valid request }) request.id
      (undecidedEntry profileDigest policy request) := by
    rw [shows_iff, files_change, if_pos rfl]
    refine ⟨rfl, rfl, hnotRetired, ?_, rfl⟩
    simp [undecidedEntry, ApprovalFiles.decisionFor, hdecision, StoredFile.record?]
  have hcategory : ∀ entry : ApprovalStoreEntry, entry.decision = none →
      entryCategory entry now = .pending ∨ entryCategory entry now = .expired := by
    intro entry hnone
    unfold entryCategory categorize
    rw [hnone]
    cases entry.lifecycle with
    | none =>
        dsimp only
        split
        · exact Or.inr rfl
        · exact Or.inl rfl
    | some applied =>
        dsimp only
        split
        · exact Or.inr rfl
        · exact Or.inl rfl
  rw [createLifecycleRequest_of_creates hcreates]
  exact ⟨undecidedEntry profileDigest policy request, _, hcategory _ rfl,
    mem_bucket_scanStoreDir.mpr ⟨hshows, rfl⟩, rfl, rfl⟩

/-- In a reachable store a creation keeps what its caller relies on exactly when the id is not retired, or
the creation is rejected by another of its checks. -/
theorem creationKept_iff (hreachable : ReachableStore profileDigest policies host) :
    (∀ now, CreationKept profileDigest policy host.dir request privateFile now)
      ↔ (host.dir.files request.id).isRetired request.id = false
        ∨ ¬ Creates profileDigest policy host.dir request privateFile := by
  constructor
  · intro hkept
    by_contra hcondition
    rw [not_or, not_not, Bool.not_eq_false] at hcondition
    obtain ⟨hretired, hcreates⟩ := hcondition
    refine (hkept 0).retired hretired request ?_
    rw [createLifecycleRequest_of_creates hcreates]
  · intro hcondition now
    refine ⟨fun created hcreated => ?_, fun hretired created hcreated => ?_⟩
    · have hcreates := creates_of_created hcreated
      have hsame : created = request := by
        rw [createLifecycleRequest_of_creates hcreates] at hcreated
        exact (CreateOutcome.created.inj hcreated).symm
      subst hsame
      exact ⟨rfl, shown_of_creates (sound_of_reachable hreachable).accounted hcreates
        (hcondition.resolve_right (not_not.mpr hcreates))⟩
    · rcases hcondition with hnotRetired | hrejected
      · rw [hretired] at hnotRetired
        cases hnotRetired
      · exact hrejected (creates_of_created hcreated)

end Reachable

/-! ### A request under a retired id -/

def enabledPolicy : ResolvedApprovalLifecycleConfig := { enabled := true, profiles := defaultProfiles }

def governedRequest : ApprovalRequest :=
  { id := "apr-1", tenantId := "t1", scopeId := "s1", risk := .low, defaultAction := .defer
    createdAt := 0, expiresAt := 1800000, requestKind := none
    lifecycle := some {
      origin := .brokerNative
      riskTier := .routine
      blocking := .request
      lifecycleProfile := defaultProfiles .brokerNative
      policySnapshotDigest := "95e7c0997770a843b9c3524859f3b69a0f96f68d919abd2477f61d338d6d15d7"
      sourceReference := "mission:1"
      lifecycleGeneration := "g1" } }

def allowed : ApprovalDecisionInput :=
  { decision := .allow, decidedBy := "operator", channel := "terminal", decidedAt := 100, reason := ""
    isExpiryClosure := false, authorization := none }

def createdDirectory : ApprovalDirectory := singleDirectory "apr-1" { request := .valid governedRequest }

def decidedDirectory : ApprovalDirectory :=
  createdDirectory.change "apr-1" fun files =>
    { files with decision := .valid (allowed.forRequest "apr-1") }

def prunedDirectory : ApprovalDirectory :=
  (prune decidedDirectory (scanStoreDir brokerDigest enabledPolicy decidedDirectory 200) 500 600
    fun _ => (true, true)).dir

def prunedHost : ApprovalHost Unit :=
  { dir := prunedDirectory
    snapshots := Function.update (fun _ => emptySnapshot) ()
      (scanStoreDir brokerDigest enabledPolicy decidedDirectory 200) }

theorem createLifecycleRequest_governed :
    createLifecycleRequest brokerDigest enabledPolicy OrderedMap.empty governedRequest true
      = (createdDirectory, .created governedRequest) := by
  refine createLifecycleRequest_of_creates ⟨rfl, ?_, rfl, rfl, rfl⟩
  decide +kernel

theorem reachable_prunedHost : ReachableStore brokerDigest (fun _ => enabledPolicy) prunedHost := by
  have hcreate : StoreStep brokerDigest (fun _ => enabledPolicy) (ApprovalHost.initial Unit)
      { dir := (createLifecycleRequest brokerDigest enabledPolicy OrderedMap.empty governedRequest true).1
        snapshots := fun _ => emptySnapshot } := StoreStep.create () governedRequest true
  rw [createLifecycleRequest_governed] at hcreate
  have hdecide : StoreStep brokerDigest (fun _ => enabledPolicy)
      ({ dir := createdDirectory, snapshots := fun _ => emptySnapshot } : ApprovalHost Unit)
      { dir := decidedDirectory, snapshots := fun _ => emptySnapshot } := by
    refine StoreStep.transition () "apr-1" .approved allowed 100 decidedDirectory ?_
    exact List.mem_of_getElem? (i := 1) rfl
  have hindex : StoreStep brokerDigest (fun _ => enabledPolicy)
      ({ dir := decidedDirectory, snapshots := fun _ => emptySnapshot } : ApprovalHost Unit)
      { prunedHost with dir := decidedDirectory } := StoreStep.index () 200
  have hprune : StoreStep brokerDigest (fun _ => enabledPolicy)
      { prunedHost with dir := decidedDirectory } prunedHost := by
    refine StoreStep.prune () 500 600 (fun _ => (true, true)) prunedDirectory ?_
    exact List.mem_append_right _ (List.mem_singleton_self _)
  exact (((Relation.ReflTransGen.single hcreate).tail hdecide).tail hindex).tail hprune

theorem creationKept_iff_initial :
    ReachableStore brokerDigest (fun _ => enabledPolicy) (ApprovalHost.initial Unit)
      ∧ ((∀ now, CreationKept brokerDigest enabledPolicy (ApprovalHost.initial Unit).dir governedRequest
          true now)
        ↔ ((ApprovalHost.initial Unit).dir.files "apr-1").isRetired "apr-1" = false
          ∨ ¬ Creates brokerDigest enabledPolicy (ApprovalHost.initial Unit).dir governedRequest true) := by
  have hreachable : ReachableStore brokerDigest (fun _ => enabledPolicy) (ApprovalHost.initial Unit) :=
    Relation.ReflTransGen.refl
  exact ⟨hreachable, creationKept_iff hreachable⟩

/-- After a pruning the same request is created again, and no scan shows it. -/
theorem created_under_tombstone :
    ReachableStore brokerDigest (fun _ => enabledPolicy) prunedHost
      ∧ (prunedHost.dir.files "apr-1").isRetired "apr-1" = true
      ∧ (createLifecycleRequest brokerDigest enabledPolicy prunedHost.dir governedRequest true).2
        = .created governedRequest
      ∧ scanStoreDir brokerDigest enabledPolicy
          (createLifecycleRequest brokerDigest enabledPolicy prunedHost.dir governedRequest true).1 700
        = emptySnapshot :=
  ⟨reachable_prunedHost, by decide +kernel, by decide +kernel, by decide +kernel⟩

end Deckent.ApprovalLifecycle
