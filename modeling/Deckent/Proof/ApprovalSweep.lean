import Deckent.Model.ApprovalStore
import Deckent.Proof.ApprovalTimeout

/-!
# A sweep that is interrupted
A sweep leaves the requests and the tombstones as they are, publishes a decision only where there was
none, and a receipt only where there was none. After a crash between the two, the receipt is made from the
policy of the recovery, so it says what the decision decided exactly when both policies deny the request
or neither does.
-/

/-! ### What a scan of the approvals shows

A scan shows an entry for each id whose request file names it and whose tombstone does not retire it, in
the category of the entry, and shows every id at most once. -/

namespace Deckent.ApprovalLifecycle

variable {profileDigest : ApprovalLifecycleOrigin → ResolvedApprovalLifecycleProfile → String}
  {lifecycle : ResolvedApprovalLifecycleConfig} {dir : ApprovalDirectory} {nowMs : Int}
  {id other : String} {entry : ApprovalStoreEntry} {category : ApprovalStoreCategory}

/-! ### The files of an id -/

@[simp]
theorem files_change (dir : ApprovalDirectory) (id other : String) (f : ApprovalFiles → ApprovalFiles) :
    (dir.change id f).files other = if other = id then f (dir.files id) else dir.files other := by
  unfold ApprovalDirectory.change ApprovalDirectory.files
  rw [OrderedMap.get?_set]
  split <;> rfl

theorem files_of_mem_entries {file : String × ApprovalFiles} (hfile : file ∈ dir.entries) :
    dir.files file.1 = file.2 := by
  have hget : dir.get? file.1 = some file.2 := (OrderedMap.mem_entries_iff dir).mp hfile
  rw [ApprovalDirectory.files, hget, Option.getD_some]

/-! ### The entries of a scan -/

section Entries

variable (profileDigest lifecycle)

def entryOf (file : String × ApprovalFiles) : Option ApprovalStoreEntry :=
  file.2.request.record?.bind fun request =>
    if request.id = file.1 ∧ file.2.isRetired file.1 = false then
      some { request := request
             decision := file.2.decisionFor file.1
             lifecycle := appliedLifecycleView profileDigest request lifecycle }
    else none

def Shows (dir : ApprovalDirectory) (id : String) (entry : ApprovalStoreEntry) : Prop :=
  entryOf profileDigest lifecycle (id, dir.files id) = some entry

end Entries

def ApprovalStoreSnapshot.bucket (snapshot : ApprovalStoreSnapshot) :
    ApprovalStoreCategory → List ApprovalStoreEntry
  | .pending => snapshot.pending
  | .approved => snapshot.approved
  | .denied => snapshot.denied
  | .expired => snapshot.expired

theorem bucket_push (snapshot : ApprovalStoreSnapshot) (entry : ApprovalStoreEntry)
    (category other : ApprovalStoreCategory) :
    (snapshot.push entry category).bucket other
      = snapshot.bucket other ++ if category = other then [entry] else [] := by
  cases category <;> cases other <;> simp [ApprovalStoreSnapshot.push, ApprovalStoreSnapshot.bucket]

theorem shows_iff :
    Shows profileDigest lifecycle dir id entry
      ↔ (dir.files id).request = .valid entry.request ∧ entry.request.id = id
        ∧ (dir.files id).isRetired id = false ∧ entry.decision = (dir.files id).decisionFor id
        ∧ entry.lifecycle = appliedLifecycleView profileDigest entry.request lifecycle := by
  obtain ⟨request, decision, view⟩ := entry
  unfold Shows entryOf
  cases (dir.files id).request with
  | valid stored =>
      simp only [StoredFile.record?, Option.bind_some, Option.ite_none_right_eq_some, Option.some.injEq,
        ApprovalStoreEntry.mk.injEq, StoredFile.valid.injEq]
      constructor
      · rintro ⟨⟨rfl, hretired⟩, rfl, rfl, rfl⟩
        exact ⟨rfl, rfl, hretired, rfl, rfl⟩
      · rintro ⟨rfl, rfl, hretired, rfl, rfl⟩
        exact ⟨⟨rfl, hretired⟩, rfl, rfl, rfl⟩
  | absent => simp [StoredFile.record?]
  | unreadable => simp [StoredFile.record?]
  | invalid => simp [StoredFile.record?]

theorem bucket_scanFile (snapshot : ApprovalStoreSnapshot) (file : String × ApprovalFiles) :
    (scanFile profileDigest lifecycle nowMs snapshot file).bucket category
      = snapshot.bucket category ++ (entryOf profileDigest lifecycle file).toList.filter fun entry =>
          entryCategory entry nowMs = category := by
  unfold scanFile entryOf
  cases hrequest : file.2.request with
  | absent => simp [StoredFile.record?]
  | unreadable => cases category <;> simp [StoredFile.record?, ApprovalStoreSnapshot.bucket]
  | invalid => cases category <;> simp [StoredFile.record?, ApprovalStoreSnapshot.bucket]
  | valid request =>
      simp only [StoredFile.record?, Option.bind_some]
      by_cases hname : request.id = file.1
      · rw [if_neg (not_not.mpr hname)]
        by_cases hretired : file.2.isRetired file.1 = true
        · simp [hretired]
        · have hshown : file.2.isRetired file.1 = false := Bool.eq_false_iff.mpr hretired
          rw [if_neg hretired, if_pos ⟨hname, hshown⟩, bucket_push, Option.toList_some,
            List.filter_singleton]
          simp only [Bool.cond_decide]
      · rw [if_pos hname, if_neg fun h => hname h.1]
        cases category <;> simp [ApprovalStoreSnapshot.bucket]

theorem bucket_foldl_scanFile (files : List (String × ApprovalFiles)) (snapshot : ApprovalStoreSnapshot) :
    (files.foldl (scanFile profileDigest lifecycle nowMs) snapshot).bucket category
      = snapshot.bucket category ++ (files.filterMap (entryOf profileDigest lifecycle)).filter fun entry =>
          entryCategory entry nowMs = category := by
  induction files generalizing snapshot with
  | nil => simp
  | cons file rest ih =>
      rw [List.foldl_cons, ih, bucket_scanFile, List.append_assoc, ← List.filter_append,
        List.filterMap_cons]
      cases entryOf profileDigest lifecycle file <;> rfl

theorem bucket_scanStoreDir :
    (scanStoreDir profileDigest lifecycle dir nowMs).bucket category
      = (dir.entries.filterMap (entryOf profileDigest lifecycle)).filter fun entry =>
          entryCategory entry nowMs = category := by
  have hempty : emptySnapshot.bucket category = [] := by cases category <;> rfl
  rw [scanStoreDir, bucket_foldl_scanFile, hempty, List.nil_append]

theorem mem_bucket_scanStoreDir :
    entry ∈ (scanStoreDir profileDigest lifecycle dir nowMs).bucket category
      ↔ Shows profileDigest lifecycle dir entry.request.id entry
        ∧ entryCategory entry nowMs = category := by
  rw [bucket_scanStoreDir, List.mem_filter, decide_eq_true_eq, List.mem_filterMap]
  refine and_congr_left fun _ => ⟨?_, ?_⟩
  · rintro ⟨⟨id, files⟩, hfile, hentry⟩
    have hfiles : dir.files id = files := files_of_mem_entries hfile
    have hshows : Shows profileDigest lifecycle dir id entry := by
      rw [Shows, hfiles]
      exact hentry
    have hid : entry.request.id = id := (shows_iff.mp hshows).2.1
    exact hid ▸ hshows
  · intro hshows
    obtain ⟨hrequest, -, -, -, -⟩ := shows_iff.mp hshows
    have hget : dir.get? entry.request.id = some (dir.files entry.request.id) := by
      unfold ApprovalDirectory.files at hrequest ⊢
      cases hget : dir.get? entry.request.id with
      | none =>
          rw [hget] at hrequest
          cases hrequest
      | some files => rfl
    exact ⟨(entry.request.id, dir.files entry.request.id), (OrderedMap.mem_entries_iff dir).mpr hget,
      hshows⟩

end Deckent.ApprovalLifecycle

namespace Deckent.ApprovalLifecycle

variable {profileDigest : ApprovalLifecycleOrigin → ResolvedApprovalLifecycleProfile → String}
  {policy : ResolvedApprovalLifecycleConfig} {dir : ApprovalDirectory} {now : Int} {id : String}

/-! ### What a sweep writes -/

def settledAt (before : ApprovalFiles) (id : String) (now : Int) : Int :=
  ((before.decisionFor id).map ApprovalDecision.decidedAt).getD now

section Swept

variable (profileDigest policy)

structure SweptFiles (now : Int) (id : String) (before after : ApprovalFiles) : Prop where
  request : after.request = before.request
  tombstone : after.tombstone = before.tombstone
  decision : after.decision = before.decision ∨ before.decision = .absent
    ∧ ∃ entry settled, entryOf profileDigest policy (id, before) = some entry
      ∧ buildApprovalTimeoutSettlement profileDigest entry.request now policy = .ok settled
      ∧ after.decision = .valid settled.decision
  timeout : after.timeout = before.timeout ∨ before.timeout = .absent
    ∧ ∃ entry settled, entryOf profileDigest policy (id, before) = some entry
      ∧ buildApprovalTimeoutSettlement profileDigest entry.request (settledAt before id now) policy
        = .ok settled
      ∧ after.timeout = .valid settled.receipt

def Sweeps (dir : ApprovalDirectory) (now : Int) (sweep : Sweep) : Prop :=
  ∀ passed ∈ sweep.directories, ∀ id,
    SweptFiles profileDigest policy now id (dir.files id) (passed.files id)

end Swept

variable {sweep : Sweep}

theorem SweptFiles.refl (files : ApprovalFiles) : SweptFiles profileDigest policy now id files files :=
  ⟨rfl, rfl, Or.inl rfl, Or.inl rfl⟩

theorem Sweeps.present (hsweeps : Sweeps profileDigest policy dir now sweep) (id : String) :
    SweptFiles profileDigest policy now id (dir.files id) (sweep.dir.files id) :=
  hsweeps sweep.dir (List.mem_append_right _ (List.mem_singleton_self _)) id

theorem Sweeps.start : Sweeps profileDigest policy dir now (Sweep.start dir) := by
  intro passed hpassed id
  rw [List.mem_singleton.mp hpassed]
  exact SweptFiles.refl _

theorem Sweeps.write (hsweeps : Sweeps profileDigest policy dir now sweep)
    {f : ApprovalFiles → ApprovalFiles}
    (hwrite : SweptFiles profileDigest policy now id (dir.files id) (f (sweep.dir.files id))) :
    Sweeps profileDigest policy dir now (sweep.write id f) := by
  intro passed hpassed other
  rcases List.mem_append.mp hpassed with hold | hnew
  · exact hsweeps passed hold other
  · rw [List.mem_singleton.mp hnew]
    by_cases hother : other = id
    · subst hother
      simpa [Sweep.write] using hwrite
    · simpa [Sweep.write, hother] using hsweeps.present other

theorem Sweeps.congr {other : Sweep} (hsweeps : Sweeps profileDigest policy dir now sweep)
    (hdirectories : other.directories = sweep.directories) :
    Sweeps profileDigest policy dir now other := by
  intro passed hpassed
  exact hsweeps passed (hdirectories ▸ hpassed)

variable {entry : ApprovalStoreEntry}

theorem Sweeps.publishReceipt (hsweeps : Sweeps profileDigest policy dir now sweep)
    (hshows : Shows profileDigest policy dir id entry) {settled : ApprovalTimeoutSettlement}
    (hsettled : buildApprovalTimeoutSettlement profileDigest entry.request
      (settledAt (dir.files id) id now) policy = .ok settled) :
    Sweeps profileDigest policy dir now (sweep.publishReceipt id settled.receipt) := by
  unfold Sweep.publishReceipt
  split
  · next habsent =>
      obtain ⟨hrequest, htombstone, hdecision, htimeout⟩ := hsweeps.present id
      have hbefore : (dir.files id).timeout = .absent := by
        rcases htimeout with heq | ⟨hbefore, -⟩
        · exact heq ▸ habsent
        · exact hbefore
      exact hsweeps.write ⟨hrequest, htombstone, hdecision,
        Or.inr ⟨hbefore, entry, settled, hshows, hsettled, rfl⟩⟩
  · exact hsweeps

theorem Sweeps.decided (hsweeps : Sweeps profileDigest policy dir now sweep)
    (hshows : Shows profileDigest policy dir entry.request.id entry) {decision : ApprovalDecision}
    (hdecision : entry.decision = some decision) :
    Sweeps profileDigest policy dir now (sweepDecided profileDigest policy sweep entry.request decision) := by
  obtain ⟨-, -, -, hfor, -⟩ := shows_iff.mp hshows
  have hat : settledAt (dir.files entry.request.id) entry.request.id now = decision.decidedAt := by
    rw [settledAt, ← hfor, hdecision]
    rfl
  unfold sweepDecided
  split
  · exact hsweeps
  · split
    · exact hsweeps
    · split
      · exact hsweeps.congr rfl
      · next settled hsettled => exact hsweeps.publishReceipt hshows (hat ▸ hsettled)

theorem Sweeps.overdue (hsweeps : Sweeps profileDigest policy dir now sweep)
    (hshows : Shows profileDigest policy dir entry.request.id entry) (hnone : entry.decision = none) :
    Sweeps profileDigest policy dir now (sweepOverdue profileDigest policy now sweep entry.request) := by
  obtain ⟨-, -, -, hfor, -⟩ := shows_iff.mp hshows
  have hat : settledAt (dir.files entry.request.id) entry.request.id now = now := by
    rw [settledAt, ← hfor, hnone]
    rfl
  unfold sweepOverdue
  split
  · exact hsweeps.congr rfl
  · next settled hsettled =>
      split
      · exact hsweeps
      · next hfree =>
          rw [ne_eq, not_not] at hfree
          obtain ⟨hrequest, htombstone, hdecision, htimeout⟩ := hsweeps.present entry.request.id
          have hbefore : (dir.files entry.request.id).decision = .absent := by
            rcases hdecision with heq | ⟨hbefore, -⟩
            · exact heq ▸ hfree
            · exact hbefore
          have hpublished : Sweeps profileDigest policy dir now (sweep.write entry.request.id
              fun files => { files with decision := .valid settled.decision }) :=
            hsweeps.write ⟨hrequest, htombstone,
              Or.inr ⟨hbefore, entry, settled, hshows, hsettled, rfl⟩, htimeout⟩
          dsimp only
          split
          · refine hpublished.write ?_
            obtain ⟨hrequest, htombstone, -, htimeout⟩ := hpublished.present entry.request.id
            exact ⟨hrequest, htombstone, Or.inl hbefore.symm, htimeout⟩
          · exact (hpublished.publishReceipt hshows (hat.symm ▸ hsettled)).congr rfl

theorem sweeps_sweepExpired :
    Sweeps profileDigest policy dir now (sweepExpired profileDigest policy dir now) := by
  refine List.foldlRecOn _ _ Sweeps.start ?_
  intro sweep hsweeps entry hentry
  have hexpired : entry ∈ (scanStoreDir profileDigest policy dir now).bucket .expired := hentry
  obtain ⟨hshows, -⟩ := mem_bucket_scanStoreDir.mp hexpired
  unfold sweepEntry
  split
  · exact hsweeps
  · split
    · next decision hdecision => exact hsweeps.decided hshows hdecision
    · next hnone => exact hsweeps.overdue hshows hnone

/-! ### The recovery -/

section Recovery

variable {earlier later : ResolvedApprovalLifecycleConfig} {request : ApprovalRequest}

theorem timeoutProfile_le (htighter : ∀ origin, later.profiles origin ≤ earlier.profiles origin)
    (request : ApprovalRequest) : timeoutProfile later request ≤ timeoutProfile earlier request := by
  unfold timeoutProfile
  cases request.lifecycle with
  | none => exact htighter .brokerNative
  | some lifecycle =>
      exact le_tightenedBy (tightenedBy_le_left _ _) ((tightenedBy_le_right _ _).trans (htighter _))

theorem MeetsFloor.tighter (htighter : ∀ origin, later.profiles origin ≤ earlier.profiles origin)
    (hfloor : MeetsFloor earlier request) : MeetsFloor later request := by
  obtain ⟨-, -, -, hdisposition, hblocking⟩ := le_iff_fields.mp (timeoutProfile_le htighter request)
  exact ⟨hfloor.1.trans hdisposition, hfloor.2.trans hblocking⟩

theorem agrees_settlements {decidedAt recoveredAt : Int} {decided recovered : ApprovalTimeoutSettlement}
    (hdecided : SettlesTimeout earlier request decidedAt decided)
    (hrecovered : SettlesTimeout later request recoveredAt recovered) :
    Agrees recovered.receipt decided.decision
      ↔ (TimeoutDenies earlier request ↔ TimeoutDenies later request) := by
  rw [hdecided.decision, agrees_timeoutDecision, hdecided.action, hrecovered.action]
  by_cases hearlier : TimeoutDenies earlier request <;> by_cases hlater : TimeoutDenies later request <;>
    simp [hearlier, hlater]

def singleDirectory (id : String) (files : ApprovalFiles) : ApprovalDirectory :=
  OrderedMap.empty.set id files

theorem files_singleDirectory (id : String) (files : ApprovalFiles) :
    (singleDirectory id files).files id = files := by
  rw [ApprovalDirectory.files, singleDirectory, OrderedMap.get?_set_self, Option.getD_some]

theorem timeout_sweepExpired_single {files : ApprovalFiles} {decision : ApprovalDecision}
    {settled : ApprovalTimeoutSettlement}
    (hshows : Shows profileDigest policy (singleDirectory id files) id entry)
    (hdecision : entry.decision = some decision) (hchannel : decision.channel = "ttl-expire")
    (htimeout : files.timeout = .absent)
    (hsettled : buildApprovalTimeoutSettlement profileDigest entry.request decision.decidedAt policy
      = .ok settled) :
    ((sweepExpired profileDigest policy (singleDirectory id files) now).dir.files id).timeout
      = .valid settled.receipt := by
  have hfiles := files_singleDirectory id files
  have hid : entry.request.id = id := (shows_iff.mp hshows).2.1
  have hentry : entryOf profileDigest policy (id, files) = some entry := by
    rw [Shows, hfiles] at hshows
    exact hshows
  have hcategory : entryCategory entry now = .expired := by
    unfold entryCategory
    rw [hdecision]
    exact if_pos hchannel
  have hbucket : (scanStoreDir profileDigest policy (singleDirectory id files) now).bucket .expired
      = [entry] := by
    have hentries : (singleDirectory id files).entries = [(id, files)] := rfl
    rw [bucket_scanStoreDir, hentries, List.filterMap_cons, hentry]
    simp [hcategory]
  have hexpired : (scanStoreDir profileDigest policy (singleDirectory id files) now).expired = [entry] :=
    hbucket
  have hnone : ((singleDirectory id files).files id).timeoutReceipt id = none := by
    rw [hfiles, ApprovalFiles.timeoutReceipt, htimeout]
    rfl
  have hstep : sweepEntry profileDigest policy now (Sweep.start (singleDirectory id files)) entry
      = (Sweep.start (singleDirectory id files)).publishReceipt id settled.receipt := by
    unfold sweepEntry
    rw [if_neg (by simp [Sweep.start]), hdecision]
    dsimp only
    unfold sweepDecided
    rw [if_neg (not_not.mpr hchannel), hid, if_neg (by simp [Sweep.start, hnone]), hsettled]
  unfold sweepExpired
  rw [hexpired, List.foldl_cons, List.foldl_nil, hstep, Sweep.publishReceipt, if_pos]
  · simp [Sweep.write]
  · rw [Sweep.start, hfiles, htimeout]

/-- After a crash between the decision and its receipt, the receipts that later sweeps can publish agree
with the decision exactly when the timeout denies the request under both policies or under neither. -/
theorem recoveredReceipt_agrees_iff {crashed : ApprovalDirectory} {decision : ApprovalDecision}
    (htighter : ∀ origin, later.profiles origin ≤ earlier.profiles origin)
    (hcrashed : crashed ∈ (sweepExpired profileDigest earlier dir now).directories)
    (hrequest : (dir.files id).request = .valid request)
    (hundecided : (dir.files id).decision = .absent)
    (hdecided : (crashed.files id).decision = .valid decision)
    (hnoReceipt : (crashed.files id).timeout = .absent) :
    (∀ recovered recoveredAt receipt, recovered.files id = crashed.files id →
        ((sweepExpired profileDigest later recovered recoveredAt).dir.files id).timeout = .valid receipt →
        Agrees receipt decision)
      ↔ (TimeoutDenies earlier request ↔ TimeoutDenies later request) := by
  have hswept := sweeps_sweepExpired crashed hcrashed id
  obtain ⟨entry, settled, hentry, hsettled, hdecision⟩ : ∃ entry settled,
      entryOf profileDigest earlier (id, dir.files id) = some entry
        ∧ buildApprovalTimeoutSettlement profileDigest entry.request now earlier = .ok settled
        ∧ (crashed.files id).decision = .valid settled.decision := by
    rcases hswept.decision with hsame | ⟨-, hwritten⟩
    · rw [hdecided, hundecided] at hsame
      cases hsame
    · exact hwritten
  obtain ⟨hentryRequest, hid, hretired, -, -⟩ := shows_iff.mp hentry
  rw [hrequest, StoredFile.valid.injEq] at hentryRequest
  rw [hdecided, StoredFile.valid.injEq] at hdecision
  subst hentryRequest hdecision
  obtain ⟨⟨hfloor, hsettleable⟩, hearlier⟩ := settles_of_eq_ok hsettled
  -- The stored decision is the one that the recovery finds, with its instant.
  have hstored : settled.decision = timeoutDecision entry.request now settled.receipt.action :=
    hearlier.decision
  have hfor : (crashed.files id).decisionFor id = some settled.decision := by
    rw [ApprovalFiles.decisionFor, hdecided, hstored]
    simp [StoredFile.record?, timeoutDecision, hid]
  have hdecidedAt : settled.decision.decidedAt = now := by rw [hstored, timeoutDecision]
  have hcrashedRequest : (crashed.files id).request = .valid entry.request :=
    hswept.request.trans hrequest
  constructor
  · intro hagrees
    obtain ⟨recovered, hrecovered⟩ :=
      exists_settlement profileDigest (hfloor.tighter htighter) hsettleable
    have hshows : Shows profileDigest later (singleDirectory id (crashed.files id)) id
        { request := entry.request
          decision := some settled.decision
          lifecycle := appliedLifecycleView profileDigest entry.request later } := by
      rw [shows_iff, files_singleDirectory]
      refine ⟨hcrashedRequest, hid, ?_, hfor.symm, rfl⟩
      rw [ApprovalFiles.isRetired, hswept.tombstone]
      exact hretired
    have hchannel : settled.decision.channel = "ttl-expire" := by rw [hstored, timeoutDecision]
    have hreceipt := hagrees _ now recovered.receipt (files_singleDirectory id _)
      (timeout_sweepExpired_single hshows rfl hchannel hnoReceipt (hdecidedAt.symm ▸ hrecovered))
    exact (agrees_settlements hearlier (settles_of_eq_ok hrecovered).2).mp hreceipt
  · intro hsame recovered recoveredAt receipt hfiles hreceipt
    have hrecovery : SweptFiles profileDigest later recoveredAt id (recovered.files id)
        ((sweepExpired profileDigest later recovered recoveredAt).dir.files id) :=
      sweeps_sweepExpired.present id
    rcases hrecovery.timeout with hkept | ⟨-, other, settledAgain, hother, hagain, hwritten⟩
    · rw [hreceipt, hfiles, hnoReceipt] at hkept
      cases hkept
    · have hotherRequest : (recovered.files id).request = .valid other.request :=
        (shows_iff.mp hother).1
      rw [hfiles, hcrashedRequest, StoredFile.valid.injEq] at hotherRequest
      have hat : settledAt (recovered.files id) id recoveredAt = now := by
        rw [settledAt, hfiles, hfor]
        exact hdecidedAt
      rw [hat, ← hotherRequest] at hagain
      rw [hreceipt, StoredFile.valid.injEq] at hwritten
      rw [hwritten]
      exact (agrees_settlements hearlier (settles_of_eq_ok hagain).2).mpr hsame

end Recovery

/-! ### A policy that is tightened between the decision and the receipt -/

/-- The digests of the two profiles of the broker below. -/
def brokerDigest (_ : ApprovalLifecycleOrigin) (profile : ResolvedApprovalLifecycleProfile) : String :=
  if profile.timeoutDisposition = .denyExpire then
    "f8b33dc4b6be5bd7475d5034c179e2756f1f2492c30837c6ac3bac4a4f6bb166"
  else "95e7c0997770a843b9c3524859f3b69a0f96f68d919abd2477f61d338d6d15d7"

def denyingPolicy : ResolvedApprovalLifecycleConfig :=
  { enabled := false
    profiles := fun origin => match origin with
      | .brokerNative => { defaultProfiles .brokerNative with timeoutDisposition := .denyExpire }
      | other => defaultProfiles other }

theorem denyingPolicy_le (origin : ApprovalLifecycleOrigin) :
    denyingPolicy.profiles origin ≤ defaultApprovalLifecyclePolicy.profiles origin := by
  rw [le_iff_fields]
  cases origin <;> decide

def deferredRequest : ApprovalRequest :=
  { id := "apr-1", tenantId := "t1", scopeId := "s1", risk := .low, defaultAction := .defer
    createdAt := 0, expiresAt := 1000, requestKind := none, lifecycle := none }

def deferredDirectory : ApprovalDirectory := singleDirectory "apr-1" { request := .valid deferredRequest }

def deferredCrash : ApprovalDirectory :=
  deferredDirectory.change "apr-1" fun files =>
    { files with decision := .valid (timeoutDecision deferredRequest 2000 .park) }

theorem deferredCrash_mem :
    deferredCrash ∈ (sweepExpired brokerDigest defaultApprovalLifecyclePolicy deferredDirectory
      2000).directories :=
  List.mem_of_getElem? (i := 1) rfl

theorem recoveredReceipt_agrees_iff_deferred :
    (deferredCrash.files "apr-1").decision = .valid (timeoutDecision deferredRequest 2000 .park)
      ∧ ((∀ recovered recoveredAt receipt, recovered.files "apr-1" = deferredCrash.files "apr-1" →
          ((sweepExpired brokerDigest denyingPolicy recovered recoveredAt).dir.files "apr-1").timeout
            = .valid receipt →
          Agrees receipt (timeoutDecision deferredRequest 2000 .park))
        ↔ (TimeoutDenies defaultApprovalLifecyclePolicy deferredRequest
          ↔ TimeoutDenies denyingPolicy deferredRequest)) :=
  ⟨rfl, recoveredReceipt_agrees_iff denyingPolicy_le deferredCrash_mem rfl rfl rfl rfl⟩

/-- The decision defers, and after the profile of the broker is tightened its receipt denies. -/
theorem recoveredReceipt_denies :
    deferredCrash ∈ (sweepExpired brokerDigest defaultApprovalLifecyclePolicy deferredDirectory
        2000).directories
      ∧ (∀ origin, denyingPolicy.profiles origin ≤ defaultApprovalLifecyclePolicy.profiles origin)
      ∧ (deferredCrash.files "apr-1").decision = .valid (timeoutDecision deferredRequest 2000 .park)
      ∧ (deferredCrash.files "apr-1").timeout = .absent
      ∧ ∃ receipt, ((sweepExpired brokerDigest denyingPolicy deferredCrash 3000).dir.files "apr-1").timeout
          = .valid receipt
        ∧ ¬ Agrees receipt (timeoutDecision deferredRequest 2000 .park) := by
  refine ⟨deferredCrash_mem, denyingPolicy_le, rfl, rfl, _, rfl, ?_⟩
  rw [agrees_timeoutDecision]
  decide

end Deckent.ApprovalLifecycle
