import Deckent.Lib.Fencing
import Deckent.Model.ExecutionLockOperation
import Deckent.Proof.ExecutionLockTransfer

/-!
# Mutual exclusion and fencing of execution locks

The active locks and the fencing counter are a fence whose keys are the tasks: two locks exclude each
other if they have the same task or if one of them is for project maintenance. Every operation that
commits is a few steps of that fence, so what holds of every run of a fence holds of every run of the
authority.
-/

namespace Deckent.ExecutionLock

variable {options : ExecutionLockOptions} {host : ExecutionLockHost} {tables next : ExecutionLockTables}
  {lock : ExecutionLockInfo} {operation : ExecutionLockOperation} {taskId ownerId : String}

/-! ### What an operation does to the active locks -/

/-- What a renewal leaves of a lock. -/
def ExecutionLockInfo.identity (lock : ExecutionLockInfo) :
    String × String × ExecutionLockFencingToken × ExecutionLockOwnerIdentity :=
  (lock.taskId, lock.ownerId, lock.fencingToken, lock.toExecutionLockOwnerIdentity)

/-- The calls that end the generation of a lock in the name of its own runtime, or under an attestation
that the caller's verifier accepts. -/
inductive EndsGeneration (options : ExecutionLockOptions) (tables : ExecutionLockTables)
    (lock : ExecutionLockInfo) : ExecutionLockOperation → Prop where
  | released (howner : ExactLiveOwner options lock) :
      EndsGeneration options tables lock (.release lock.taskId lock.ownerId)
  | completed (request : ExecutionLockBoundaryCompletionRequest)
      (howner : ExactLiveOwner options lock) :
      EndsGeneration options tables lock (.complete lock request)
  | completedNoChange (request : ExecutionLockNoChangeCompletionRequest)
      (howner : ExactLiveOwner options lock) :
      EndsGeneration options tables lock (.completeNoChange lock request)
  | recovered (attestation : ExecutionLockRecoveryAttestation)
      (verifier : ExecutionLockRecoveryAttestation → ExecutionLockQuarantineInfo → Bool)
      (quarantine : ExecutionLockQuarantineInfo) (hmem : quarantine ∈ tables.quarantine)
      (hlock : quarantine.lock = lock) (hverified : verifier attestation quarantine = true) :
      EndsGeneration options tables lock (.recover lock attestation verifier)
  | compensated (acquired : ExecutionLockInfo)
      (hsame : executionLockGenerationEquals lock acquired = true) :
      EndsGeneration options tables lock (.compensate acquired)

/-- The changes that an operation can make to the active locks. -/
inductive ActiveChange (options : ExecutionLockOptions) (host : ExecutionLockHost)
    (operation : ExecutionLockOperation) (tables next : ExecutionLockTables) : Prop where
  | kept (hcounter : next.fencingCounter = tables.fencingCounter)
      (hactive : next.active.map (·.identity) = tables.active.map (·.identity))
  | dropped (lock : ExecutionLockInfo) (hmem : lock ∈ tables.active)
      (hcounter : next.fencingCounter = tables.fencingCounter)
      (hactive : next.active = deleteRow (·.taskId) lock.taskId tables.active)
      (hends : EndsGeneration options tables lock operation)
  | granted (lock : ExecutionLockInfo) (nowMs : Int) (kept : ExecutionLockTables)
      (hretires : Retires options nowMs tables kept)
      (hfree : ∀ row ∈ kept.active, row.taskId ≠ lock.taskId
        ∧ row.taskId ≠ projectMaintenanceLockTaskId ∧ lock.taskId ≠ projectMaintenanceLockTaskId)
      (howner : lock.ownerId = host.ownerId.text)
      (htoken : lock.fencingToken.counter = tables.fencingCounter + 1)
      (hcounter : next.fencingCounter = tables.fencingCounter + 1)
      (hactive : next.active = kept.active ++ [lock])
  | succeeded (previous successor : ExecutionLockInfo) (nowMs : Int) (hmem : previous ∈ tables.active)
      (hretirable : RetirableLock options previous nowMs)
      (htask : successor.taskId = previous.taskId)
      (howner : successor.ownerId = host.ownerId.text)
      (htoken : successor.fencingToken.counter = tables.fencingCounter + 1)
      (hcounter : next.fencingCounter = tables.fencingCounter + 1)
      (hactive : next.active = replaceRow (·.taskId) successor tables.active)

theorem map_identity_replaceRow (hkeys : tables.KeyedActive) (hmem : lock ∈ tables.active)
    {replacement : ExecutionLockInfo} (hidentity : replacement.identity = lock.identity) :
    (replaceRow (·.taskId) replacement tables.active).map (·.identity)
      = tables.active.map (·.identity) := by
  apply map_replaceRow
  intro row hrow htask
  have hlock : row.taskId = lock.taskId := by
    rw [htask]
    exact congrArg Prod.fst hidentity
  rw [List.inj_on_of_nodup_map hkeys hrow hmem hlock, hidentity]

theorem mem_of_loaded {exactLock : ExecutionLockInfo} {current : ExecutionLockCurrent} {nowMs : Int}
    (hholds : HoldsExactly options tables exactLock current nowMs) : exactLock ∈ tables.active :=
  hholds.loaded.lock_mem hholds.lock

/-- Every operation that commits makes one of the changes. -/
theorem activeChange_of_perform (hkeys : tables.KeyedActive)
    (hperform : operation.perform options host tables = .ok next) :
    ActiveChange options host operation tables next := by
  cases operation with
  | acquire taskId actor =>
      obtain ⟨⟨lock, next⟩, hacquire, rfl⟩ := map_eq_ok.mp hperform
      obtain ⟨validated, kept, haccepted, hretires, hfree, -, rfl, rfl⟩ :=
        acquireExecutionLock_ok hkeys hacquire
      exact .granted _ validated.nowMs kept hretires hfree rfl rfl rfl rfl
  | compensate acquired =>
      obtain ⟨⟨compensated, next⟩, hcompensate, rfl⟩ := map_eq_ok.mp hperform
      rcases compensateExecutionLock_ok hcompensate with
        ⟨-, rfl⟩ | ⟨-, canonical, hmem, hsame, -, rfl⟩
      · exact .kept rfl rfl
      · exact .dropped canonical hmem rfl rfl (.compensated acquired hsame)
  | renew taskId ownerId =>
      obtain ⟨⟨renewed, next⟩, hrenew, rfl⟩ := map_eq_ok.mp hperform
      obtain ⟨current, existing, nowMs, hrenews, -, -⟩ := renewExecutionLock_ok hrenew
      have hmem := hrenews.loaded.lock_mem hrenews.lock
      have hnext := hrenews.next_eq
      simp only at hnext ⊢
      rw [hnext]
      exact .kept rfl (map_identity_replaceRow hkeys hmem rfl)
  | release taskId ownerId =>
      obtain ⟨⟨released, next⟩, hrelease, rfl⟩ := map_eq_ok.mp hperform
      rcases releaseExecutionLock_ok hrelease with
        ⟨-, rfl, -⟩ | ⟨-, current, existing, hloaded, hlock, rfl, -, hlive, rfl⟩
      · exact .kept rfl rfl
      · obtain rfl := hloaded.lock_taskId hlock
        exact .dropped existing (hloaded.lock_mem hlock) rfl rfl (.released hlive)
  | beginBoundary exactLock request =>
      obtain ⟨⟨quarantine, next⟩, hbegin, rfl⟩ := map_eq_ok.mp hperform
      obtain ⟨-, -, -, -, ⟨-, -, rfl⟩ | ⟨-, -, -, -, -, rfl⟩⟩ :=
        beginExecutionLockIrreversibleBoundary_ok hbegin
      · exact .kept rfl rfl
      · exact .kept rfl rfl
  | quarantine exactLock request =>
      obtain ⟨⟨quarantine, next⟩, hquarantine, rfl⟩ := map_eq_ok.mp hperform
      obtain ⟨-, -, -, -, ⟨-, -, rfl⟩ | ⟨-, -, -, -, -, -, -, rfl⟩ | ⟨-, -, -, -, -, -, rfl⟩⟩ :=
        quarantineExecutionLock_ok hquarantine
      · exact .kept rfl rfl
      · exact .kept rfl rfl
      · exact .kept rfl rfl
  | completeNoChange exactLock request =>
      obtain ⟨⟨result, next⟩, hcomplete, rfl⟩ := map_eq_ok.mp hperform
      obtain ⟨-, ⟨rfl, -⟩ | ⟨-, current, nowMs, hholds, -, -, -, -, -, -, -, -, -, rfl⟩⟩ :=
        completeExecutionLockNoChangeBoundary_ok hcomplete
      · exact .kept rfl rfl
      · exact .dropped exactLock (mem_of_loaded hholds) rfl rfl (.completedNoChange request hholds.owner)
  | complete exactLock request =>
      obtain ⟨⟨result, next⟩, hcomplete, rfl⟩ := map_eq_ok.mp hperform
      obtain ⟨current, nowMs, hholds, hquarantine, -, -, -, -, -, -, rfl⟩ :=
        completeExecutionLockIrreversibleBoundary_ok hcomplete
      have hlock := hholds.loaded.quarantine_lock hholds.lock hquarantine
      refine .dropped exactLock (mem_of_loaded hholds) rfl ?_ (.completed request hholds.owner)
      rw [ExecutionLockTables.settle, hlock]
  | recover exactLock attestation verifier =>
      obtain ⟨⟨result, next⟩, hrecover, rfl⟩ := map_eq_ok.mp hperform
      obtain ⟨current, nowMs, hloaded, hlock, hquarantine, -, hverified, -, -, rfl⟩ :=
        recoverQuarantinedExecutionLock_ok hrecover
      have hlocks := hloaded.quarantine_lock hlock hquarantine
      refine .dropped exactLock (hloaded.lock_mem hlock) rfl ?_ (.recovered attestation verifier
        result.recovered (hloaded.quarantine_mem hlock hquarantine) hlocks hverified)
      rw [ExecutionLockTables.settle, hlocks]
  | resume exactQuarantine evidenceRefs =>
      obtain ⟨⟨result, next⟩, hresume, rfl⟩ := map_eq_ok.mp hperform
      obtain ⟨current, validated, lineage, hloaded, hlock, -, -, -, -, hsucceeds, -, -, -, -, -, rfl⟩ :=
        resumeExecutionLockIrreversibleBoundary_ok hresume
      have hsuccessor := hsucceeds.successor_eq
      exact .succeeded exactQuarantine.lock result.resumed.lock validated.nowMs (hloaded.lock_mem hlock)
        hsucceeds.retirable (by rw [hsuccessor]; rfl) (by rw [hsuccessor]; rfl)
        (by rw [hsuccessor]; rfl) rfl rfl
  | adopt exactLock evidenceRefs =>
      obtain ⟨⟨result, next⟩, hadopt, rfl⟩ := map_eq_ok.mp hperform
      rcases adoptExecutionLockActiveGeneration_ok hadopt with
        ⟨rfl, -⟩ | ⟨current, validated, lineage, hloaded, hlock, -, -, -, -, hsucceeds, -, -, rfl⟩
      · exact .kept rfl rfl
      · have hsuccessor := hsucceeds.successor_eq
        exact .succeeded exactLock result.adopted validated.nowMs (hloaded.lock_mem hlock)
          hsucceeds.retirable (by rw [hsuccessor]; rfl) (by rw [hsuccessor]; rfl)
          (by rw [hsuccessor]; rfl) rfl rfl

/-! ### The fence -/

def locksConflict (left right : String) : Prop :=
  left = right ∨ left = projectMaintenanceLockTaskId ∨ right = projectMaintenanceLockTaskId

def ExecutionLockTables.holders (tables : ExecutionLockTables) : List (String × Nat) :=
  tables.active.map fun lock => (lock.taskId, lock.fencingToken.counter)

def ExecutionLockWorld.fence (world : ExecutionLockWorld) : Fence String where
  counter := world.tables.fencingCounter
  holders := world.tables.holders
  granted := world.granted.map (·.fencingToken.counter)

/-- What every reachable world keeps. -/
structure ExecutionLockWorld.Sound (world : ExecutionLockWorld) : Prop where
  fence : world.fence.Valid locksConflict
  known : ∀ row ∈ world.tables.active, ∃ lock ∈ world.granted, lock.identity = row.identity
  owners : world.granted.Pairwise fun left right => left.ownerId ≠ right.ownerId

variable {world later : ExecutionLockWorld} {event : ExecutionLockEvent}

theorem ExecutionLockWorld.Sound.keyed (hsound : world.Sound) : world.tables.KeyedActive := by
  have hexclusive : (world.tables.active.map fun lock =>
      (lock.taskId, lock.fencingToken.counter)).Pairwise _ := hsound.fence.exclusive
  rw [List.pairwise_map] at hexclusive
  exact List.pairwise_map.mpr (hexclusive.imp fun hfree heq => hfree (.inl heq))

theorem ExecutionLockWorld.Sound.counter_le (hsound : world.Sound)
    (hmem : lock ∈ world.tables.active) :
    lock.fencingToken.counter ≤ world.tables.fencingCounter :=
  Nat.le_of_lt_succ (hsound.fence.lt_next (List.mem_map_of_mem (List.mem_map_of_mem hmem)))

theorem newlyGranted_eq_nil
    (hbounded : ∀ row ∈ next.active, row.fencingToken.counter ≤ tables.fencingCounter) :
    newlyGranted tables next = [] := by
  unfold newlyGranted
  rw [List.filter_eq_nil_iff]
  intro row hrow
  have hle := hbounded row hrow
  simp only [decide_eq_true_eq]
  omega

theorem newlyGranted_eq_singleton {before after : List ExecutionLockInfo}
    (hactive : next.active = before ++ lock :: after)
    (hbefore : ∀ row ∈ before, row.fencingToken.counter ≤ tables.fencingCounter)
    (hafter : ∀ row ∈ after, row.fencingToken.counter ≤ tables.fencingCounter)
    (hlock : tables.fencingCounter < lock.fencingToken.counter) : newlyGranted tables next = [lock] := by
  unfold newlyGranted
  rw [hactive, List.filter_append, List.filter_cons_of_pos (by simpa using hlock),
    List.filter_eq_nil_iff.mpr, List.filter_eq_nil_iff.mpr, List.nil_append]
  · intro row hrow
    have hle := hafter row hrow
    simp only [decide_eq_true_eq]
    omega
  · intro row hrow
    have hle := hbefore row hrow
    simp only [decide_eq_true_eq]
    omega

theorem owners_concat (hsound : world.Sound) (hfresh : FreshDraws world host)
    (howner : lock.ownerId = host.ownerId.text) :
    (world.granted ++ [lock]).Pairwise fun left right => left.ownerId ≠ right.ownerId := by
  rw [List.pairwise_append]
  refine ⟨hsound.owners, List.pairwise_singleton _ _, ?_⟩
  intro left hleft right hright
  rw [List.mem_singleton] at hright
  rw [hright, howner]
  exact hfresh.ownerId left hleft

theorem granted_commit (world : ExecutionLockWorld) (operation : ExecutionLockOperation)
    (next : ExecutionLockTables) :
    (world.commit operation next).granted = world.granted ++ newlyGranted world.tables next := rfl

theorem fence_commit (world : ExecutionLockWorld) (operation : ExecutionLockOperation)
    (next : ExecutionLockTables) :
    (world.commit operation next).fence = {
      counter := next.fencingCounter
      holders := next.holders
      granted := (world.granted ++ newlyGranted world.tables next).map (·.fencingToken.counter) } :=
  rfl

theorem fence_commit_granted {holders : List (String × Nat)}
    (hnew : newlyGranted world.tables next = [lock])
    (hcounter : next.fencingCounter = world.tables.fencingCounter + 1)
    (htoken : lock.fencingToken.counter = world.tables.fencingCounter + 1)
    (hholders : next.holders = holders) :
    (world.commit operation next).fence = world.fence.advance holders := by
  rw [fence_commit, hnew, hcounter, hholders, List.map_append, List.map_singleton, htoken]
  rfl

theorem holders_replaceRow {previous successor : ExecutionLockInfo} (hkeys : tables.KeyedActive)
    (hmem : previous ∈ tables.active) (htask : successor.taskId = previous.taskId)
    (hactive : next.active = replaceRow (·.taskId) successor tables.active) :
    next.holders = Fence.pass tables.holders previous.taskId previous.fencingToken.counter
      successor.fencingToken.counter := by
  unfold ExecutionLockTables.holders Fence.pass
  rw [hactive, replaceRow, List.map_map, List.map_map]
  apply List.map_congr_left
  intro row hrow
  simp only [Function.comp_apply]
  by_cases hsame : row.taskId = previous.taskId
  · obtain rfl := List.inj_on_of_nodup_map hkeys hrow hmem hsame
    rw [if_pos htask.symm, if_pos rfl, htask]
  · rw [if_neg (by rwa [htask]), if_neg]
    intro heq
    exact hsame (congrArg Prod.fst heq)

/-- A change of the active locks is a few steps of the fence. -/
theorem ExecutionLockWorld.Sound.commit (hsound : world.Sound) (hfresh : FreshDraws world host)
    (hchange : ActiveChange options host operation world.tables next) :
    (world.commit operation next).Sound
      ∧ Relation.ReflTransGen (Fence.Step locksConflict) world.fence
        (world.commit operation next).fence := by
  have hkeys := hsound.keyed
  suffices hsimulates : Relation.ReflTransGen (Fence.Step locksConflict) world.fence
      (world.commit operation next).fence
      ∧ (∀ row ∈ next.active, ∃ lock ∈ world.granted ++ newlyGranted world.tables next,
        lock.identity = row.identity)
      ∧ (world.granted ++ newlyGranted world.tables next).Pairwise
        fun left right => left.ownerId ≠ right.ownerId by
    obtain ⟨hrun, hknown, howners⟩ := hsimulates
    exact ⟨⟨hsound.fence.run hrun, hknown, howners⟩, hrun⟩
  cases hchange with
  | kept hcounter hactive =>
      have hholders : next.holders = world.tables.holders := by
        have hmap := congrArg (List.map fun identity => (identity.1, identity.2.2.1.counter)) hactive
        rwa [List.map_map, List.map_map] at hmap
      have hbounded : ∀ row ∈ next.active,
          row.fencingToken.counter ≤ world.tables.fencingCounter := by
        intro row hrow
        have hholder : (row.taskId, row.fencingToken.counter) ∈ world.tables.holders := by
          rw [← hholders]
          exact List.mem_map_of_mem hrow
        obtain ⟨before, hbefore, heq⟩ := List.mem_map.mp hholder
        have hcounters : before.fencingToken.counter = row.fencingToken.counter :=
          congrArg Prod.snd heq
        rw [← hcounters]
        exact hsound.counter_le hbefore
      rw [fence_commit, newlyGranted_eq_nil hbounded, List.append_nil, hcounter, hholders]
      refine ⟨.refl, ?_, hsound.owners⟩
      intro row hrow
      have hidentity : row.identity ∈ world.tables.active.map (·.identity) := by
        rw [← hactive]
        exact List.mem_map_of_mem hrow
      obtain ⟨before, hbefore, heq⟩ := List.mem_map.mp hidentity
      obtain ⟨lock, hlock, hsame⟩ := hsound.known before hbefore
      exact ⟨lock, hlock, hsame.trans heq⟩
  | dropped lock hmem hcounter hactive hends =>
      have hsublist : next.active.Sublist world.tables.active := by
        rw [hactive]
        exact List.filter_sublist
      have hbounded : ∀ row ∈ next.active,
          row.fencingToken.counter ≤ world.tables.fencingCounter :=
        fun row hrow => hsound.counter_le (hsublist.subset hrow)
      rw [fence_commit, newlyGranted_eq_nil hbounded, List.append_nil, hcounter]
      refine ⟨.single (.drop world.fence next.holders (hsublist.map _)), ?_, hsound.owners⟩
      intro row hrow
      exact hsound.known row (hsublist.subset hrow)
  | granted lock nowMs kept hretires hfree howner htoken hcounter hactive =>
      have hkept : ∀ row ∈ kept.active,
          row.fencingToken.counter ≤ world.tables.fencingCounter :=
        fun row hrow => hsound.counter_le (hretires.sublist.subset hrow)
      have hnew : newlyGranted world.tables next = [lock] :=
        newlyGranted_eq_singleton hactive hkept (by simp) (by omega)
      have hholders : next.holders
          = kept.holders ++ [(lock.taskId, world.tables.fencingCounter + 1)] := by
        rw [ExecutionLockTables.holders, hactive, List.map_append, List.map_singleton, htoken]
        rfl
      rw [hnew, fence_commit_granted hnew hcounter htoken hholders]
      refine ⟨?_, ?_, owners_concat hsound hfresh howner⟩
      · have hdrop : Fence.Step locksConflict world.fence
            { world.fence with holders := kept.holders } :=
          .drop world.fence kept.holders (hretires.sublist.map _)
        refine .tail (.single hdrop)
          (.grant { world.fence with holders := kept.holders } lock.taskId ?_)
        intro holder hholder
        obtain ⟨row, hrow, rfl⟩ := List.mem_map.mp hholder
        obtain ⟨htask, hrowTask, hlockTask⟩ := hfree row hrow
        rintro (hconflict | hconflict | hconflict)
        · exact htask hconflict
        · exact hrowTask hconflict
        · exact hlockTask hconflict
      · intro row hrow
        rw [hactive, List.mem_append, List.mem_singleton] at hrow
        rcases hrow with hrow | rfl
        · obtain ⟨known, hknown, hsame⟩ := hsound.known row (hretires.sublist.subset hrow)
          exact ⟨known, List.mem_append_left _ hknown, hsame⟩
        · exact ⟨row, List.mem_append_right _ (List.mem_singleton_self _), rfl⟩
  | succeeded previous successor nowMs hmem hretirable htask howner htoken hcounter hactive =>
      obtain ⟨before, after, hsplit⟩ := List.append_of_mem hmem
      have hsplitKeys := hkeys
      unfold ExecutionLockTables.KeyedActive at hsplitKeys
      have hreplaced : next.active = before ++ successor :: after := by
        rw [hactive, hsplit]
        rw [hsplit] at hsplitKeys
        exact replaceRow_append_cons hsplitKeys htask
      have hbefore : ∀ row ∈ before, row ∈ world.tables.active := by
        intro row hrow
        rw [hsplit]
        exact List.mem_append_left _ hrow
      have hafter : ∀ row ∈ after, row ∈ world.tables.active := by
        intro row hrow
        rw [hsplit]
        exact List.mem_append_right _ (List.mem_cons_of_mem _ hrow)
      have hnew : newlyGranted world.tables next = [successor] :=
        newlyGranted_eq_singleton hreplaced (fun row hrow => hsound.counter_le (hbefore row hrow))
          (fun row hrow => hsound.counter_le (hafter row hrow)) (by omega)
      have hholders := holders_replaceRow hkeys hmem htask hactive
      rw [htoken] at hholders
      rw [hnew, fence_commit_granted hnew hcounter htoken hholders]
      refine ⟨.single (.transfer world.fence previous.taskId previous.fencingToken.counter
        (List.mem_map_of_mem hmem)), ?_, owners_concat hsound hfresh howner⟩
      intro row hrow
      rw [hactive, mem_replaceRow] at hrow
      rcases hrow with ⟨rfl, -⟩ | ⟨hrow, -⟩
      · exact ⟨row, List.mem_append_right _ (List.mem_singleton_self _), rfl⟩
      · obtain ⟨known, hknown, hsame⟩ := hsound.known row hrow
        exact ⟨known, List.mem_append_left _ hknown, hsame⟩

/-! ### Runs -/

theorem sound_initial (authorityEpoch : String) : (ExecutionLockWorld.initial authorityEpoch).Sound where
  fence := Fence.valid_empty
  known := by simp [ExecutionLockWorld.initial, initializeExecutionLockDatabase]
  owners := List.Pairwise.nil

theorem ExecutionLockWorld.Sound.step {after : ExecutionLockWorld} (hsound : world.Sound)
    (hstep : world.Step event after) :
    after.Sound ∧ Relation.ReflTransGen (Fence.Step locksConflict) world.fence after.fence := by
  cases hstep with
  | call options host operation next hprobe hfresh hpublishing hperform =>
      exact hsound.commit hfresh (activeChange_of_perform hsound.keyed hperform)
  | published lock => exact ⟨⟨hsound.fence, hsound.known, hsound.owners⟩, .refl⟩
  | terminated owner => exact ⟨⟨hsound.fence, hsound.known, hsound.owners⟩, .refl⟩

theorem ExecutionLockWorld.Sound.leads (hsound : world.Sound) (hleads : world.Leads later) :
    later.Sound ∧ Relation.ReflTransGen (Fence.Step locksConflict) world.fence later.fence := by
  induction hleads with
  | refl => exact ⟨hsound, .refl⟩
  | tail _ hstep ih =>
      obtain ⟨hmiddle, hrun⟩ := ih
      obtain ⟨event, hstep⟩ := hstep
      obtain ⟨hafter, hsteps⟩ := hmiddle.step hstep
      exact ⟨hafter, hrun.trans hsteps⟩

theorem granted_of_leads (hleads : world.Leads later) (hgranted : lock ∈ world.granted) :
    lock ∈ later.granted := by
  induction hleads with
  | refl => exact hgranted
  | tail _ hstep ih =>
      obtain ⟨event, hstep⟩ := hstep
      cases hstep with
      | call options host operation next hprobe hfresh hpublishing hperform =>
          exact List.mem_append_left _ ih
      | published lock => exact ih
      | terminated owner => exact ih

/-! ### Retired generations -/

def ExecutionLockTables.Active (tables : ExecutionLockTables) (lock : ExecutionLockInfo) : Prop :=
  ∃ row ∈ tables.active, executionLockGenerationEquals row lock = true

theorem ExecutionLockWorld.Sound.granted_inj (hsound : world.Sound) {left right : ExecutionLockInfo}
    (hleft : left ∈ world.granted) (hright : right ∈ world.granted)
    (hcounter : left.fencingToken.counter = right.fencingToken.counter) : left = right := by
  have hnodup : (world.granted.map (·.fencingToken.counter)).Nodup :=
    hsound.fence.increasing.imp fun hlt => Nat.ne_of_lt hlt
  exact List.inj_on_of_nodup_map hnodup hleft hright hcounter

theorem ExecutionLockWorld.Sound.retired_iff (hsound : world.Sound) (hgranted : lock ∈ world.granted) :
    world.fence.Retired lock.fencingToken.counter ↔ ¬ world.tables.Active lock := by
  constructor
  · rintro ⟨-, hgone⟩ ⟨row, hrow, hsame⟩
    apply hgone
    rw [← (executionLockGenerationEquals_iff.mp hsame).2.2]
    exact List.mem_map_of_mem (List.mem_map_of_mem hrow)
  · intro hinactive
    refine ⟨List.mem_map_of_mem hgranted, ?_⟩
    intro hheld
    obtain ⟨holder, hholder, hcounter⟩ := List.mem_map.mp hheld
    obtain ⟨row, hrow, rfl⟩ := List.mem_map.mp hholder
    obtain ⟨known, hknown, hsame⟩ := hsound.known row hrow
    have htoken : known.fencingToken = row.fencingToken := congrArg (·.2.2.1) hsame
    have hlock : known = lock := by
      apply hsound.granted_inj hknown hgranted
      rw [htoken]
      exact hcounter
    rw [hlock] at hsame
    refine hinactive ⟨row, hrow, executionLockGenerationEquals_iff.mpr ⟨?_, ?_, ?_⟩⟩
    · exact (congrArg (·.1) hsame).symm
    · exact (congrArg (·.2.1) hsame).symm
    · exact (congrArg (·.2.2.1) hsame).symm

/-- No call with the generation of a lock has an effect: each fails, but for a release that finds no
lock, and a completion without change that repeats the recorded one. -/
structure Unusable (tables : ExecutionLockTables) (lock : ExecutionLockInfo) : Prop where
  renew : ∀ options host result,
    renewExecutionLock options host tables lock.taskId lock.ownerId ≠ .ok result
  release : ∀ options host next,
    releaseExecutionLock options host tables lock.taskId lock.ownerId ≠ .ok (true, next)
  assert : ∀ options host, assertExecutionLockAuthority options host tables lock ≠ .ok ()
  begin : ∀ options host exactLock request result,
    executionLockGenerationEquals exactLock lock = true →
    beginExecutionLockIrreversibleBoundary options host tables exactLock request ≠ .ok result
  quarantine : ∀ options host exactLock request result,
    executionLockGenerationEquals exactLock lock = true →
    quarantineExecutionLock options host tables exactLock request ≠ .ok result
  complete : ∀ options host exactLock request result,
    executionLockGenerationEquals exactLock lock = true →
    completeExecutionLockIrreversibleBoundary options host tables exactLock request ≠ .ok result
  completeNoChange : ∀ options host exactLock request result next,
    executionLockGenerationEquals exactLock lock = true →
    completeExecutionLockNoChangeBoundary options host tables exactLock request = .ok (result, next) →
    next = tables

theorem checkExecutionLock_lock_mem {current : ExecutionLockInfo}
    (hcurrent : (checkExecutionLock host tables taskId).lock? = some current) :
    current ∈ tables.active := by
  unfold checkExecutionLock at hcurrent
  cases hload : reconcileExecutionLockProjectionForTask host tables taskId with
  | error error => simp [hload, ExecutionLockInspection.lock?] at hcurrent
  | ok loaded =>
      obtain ⟨hloaded, -⟩ := reconcileExecutionLockProjectionForTask_ok.mp hload
      obtain ⟨found, quarantine⟩ := loaded
      cases found with
      | none => simp [hload, ExecutionLockInspection.lock?] at hcurrent
      | some found =>
          have hfound : found = current := by
            cases quarantine <;> simpa [hload, ExecutionLockInspection.lock?] using hcurrent
          rw [← hfound]
          exact hloaded.lock_mem rfl

/-- Where no active row has the owner id of a lock, its generation cannot be used. -/
theorem unusable_of_forall_ownerId_ne (howner : ∀ row ∈ tables.active, row.ownerId ≠ lock.ownerId) :
    Unusable tables lock where
  renew := by
    rintro options host ⟨renewed, next⟩ hrenew
    obtain ⟨current, existing, nowMs, hrenews, hsame, -⟩ := renewExecutionLock_ok hrenew
    exact howner existing (hrenews.loaded.lock_mem hrenews.lock) hsame
  release := by
    intro options host next hrelease
    rcases releaseExecutionLock_ok hrelease with
      ⟨hfalse, -, -⟩ | ⟨-, current, existing, hloaded, hlock, hsame, -, -, -⟩
    · cases hfalse
    · exact howner existing (hloaded.lock_mem hlock) hsame
  assert := by
    intro options host hassert
    unfold assertExecutionLockAuthority at hassert
    cases hinspected : checkExecutionLock host tables lock.taskId with
    | absent => simp [hinspected] at hassert
    | malformed => simp [hinspected] at hassert
    | held current =>
        simp only [hinspected, require_eq_ok, decide_eq_true_eq] at hassert
        exact howner current (checkExecutionLock_lock_mem (by rw [hinspected]; rfl)) hassert.1
    | quarantined current quarantine =>
        simp only [hinspected, bind_eq_ok, require_eq_ok, decide_eq_true_eq] at hassert
        obtain ⟨-, hsame, -⟩ := hassert
        exact howner current (checkExecutionLock_lock_mem (by rw [hinspected]; rfl)) hsame.1
  begin := by
    rintro options host exactLock request ⟨quarantine, next⟩ hsame hbegin
    obtain ⟨current, nowMs, hholds, -⟩ := beginExecutionLockIrreversibleBoundary_ok hbegin
    exact howner exactLock (mem_of_loaded hholds) (executionLockGenerationEquals_iff.mp hsame).2.1
  quarantine := by
    rintro options host exactLock request ⟨quarantine, next⟩ hsame hquarantine
    obtain ⟨current, nowMs, hholds, -⟩ := quarantineExecutionLock_ok hquarantine
    exact howner exactLock (mem_of_loaded hholds) (executionLockGenerationEquals_iff.mp hsame).2.1
  complete := by
    rintro options host exactLock request ⟨result, next⟩ hsame hcomplete
    obtain ⟨current, nowMs, hholds, -⟩ := completeExecutionLockIrreversibleBoundary_ok hcomplete
    exact howner exactLock (mem_of_loaded hholds) (executionLockGenerationEquals_iff.mp hsame).2.1
  completeNoChange := by
    intro options host exactLock request result next hsame hcomplete
    obtain ⟨-, ⟨hnext, -⟩ | ⟨-, current, nowMs, hholds, -⟩⟩ :=
      completeExecutionLockNoChangeBoundary_ok hcomplete
    · exact hnext
    · exact absurd (executionLockGenerationEquals_iff.mp hsame).2.1
        (howner exactLock (mem_of_loaded hholds))

theorem ExecutionLockWorld.Sound.unusable (hsound : world.Sound) (hgranted : lock ∈ world.granted)
    (hinactive : ¬ world.tables.Active lock) : Unusable world.tables lock := by
  apply unusable_of_forall_ownerId_ne
  intro row hrow howner
  obtain ⟨known, hknown, hsame⟩ := hsound.known row hrow
  have hknownOwner : known.ownerId = lock.ownerId :=
    (congrArg (·.2.1) hsame).trans howner
  have hnodup : (world.granted.map (·.ownerId)).Nodup := List.pairwise_map.mpr hsound.owners
  rw [List.inj_on_of_nodup_map hnodup hknown hgranted hknownOwner] at hsame
  refine hinactive ⟨row, hrow, executionLockGenerationEquals_iff.mpr ⟨?_, ?_, ?_⟩⟩
  · exact (congrArg (·.1) hsame).symm
  · exact (congrArg (·.2.1) hsame).symm
  · exact (congrArg (·.2.2.1) hsame).symm

/-! ### The contract -/

/-- Mutual exclusion and fencing in one world and in every world that it leads to. -/
structure FencingContract (world : ExecutionLockWorld) : Prop where
  oneActive : (world.tables.active.map (·.taskId)).Nodup
  maintenanceAlone : ∀ row ∈ world.tables.active, row.taskId = projectMaintenanceLockTaskId →
    world.tables.active = [row]
  increasing : world.granted.Pairwise fun earlier later =>
    earlier.fencingToken.counter < later.fencingToken.counter
  activeGranted : ∀ row ∈ world.tables.active, ∃ lock ∈ world.granted, lock.identity = row.identity
  neverAgain : ∀ lock ∈ world.granted, ¬ world.tables.Active lock → ∀ later, world.Leads later →
    ¬ later.tables.Active lock ∧ Unusable later.tables lock
  removal : ∀ event after, world.Step event after → ∀ lock ∈ world.tables.active,
    lock.toExecutionLockOwnerIdentity ∉ world.terminated → ¬ after.tables.Active lock →
    ∃ options host operation, event = .call options host operation
      ∧ EndsGeneration options world.tables lock operation
      ∧ ∀ acquired, operation = .compensate acquired → acquired ∈ world.publishing

theorem ExecutionLockWorld.Sound.maintenanceAlone (hsound : world.Sound)
    (hmem : lock ∈ world.tables.active) (htask : lock.taskId = projectMaintenanceLockTaskId) :
    world.tables.active = [lock] := by
  obtain ⟨before, after, hsplit⟩ := List.append_of_mem hmem
  have hexclusive : world.tables.active.Pairwise
      fun left right => ¬ locksConflict left.taskId right.taskId :=
    List.pairwise_map.mp hsound.fence.exclusive
  rw [hsplit, List.pairwise_append, List.pairwise_cons] at hexclusive
  obtain ⟨-, ⟨hafter, -⟩, hbefore⟩ := hexclusive
  have hbeforeNil : before = [] := by
    rw [List.eq_nil_iff_forall_not_mem]
    intro row hrow
    exact hbefore row hrow lock List.mem_cons_self (.inr (.inr htask))
  have hafterNil : after = [] := by
    rw [List.eq_nil_iff_forall_not_mem]
    intro row hrow
    exact hafter row hrow (.inr (.inl htask))
  rw [hsplit, hbeforeNil, hafterNil, List.nil_append]

/-- The generation of a running owner ends only by a call of its own runtime or by a recovery. -/
theorem ExecutionLockWorld.Sound.removal {after : ExecutionLockWorld} (hsound : world.Sound)
    (hstep : world.Step event after) (hmem : lock ∈ world.tables.active)
    (hrunning : lock.toExecutionLockOwnerIdentity ∉ world.terminated)
    (hended : ¬ after.tables.Active lock) :
    ∃ options host operation, event = .call options host operation
      ∧ EndsGeneration options world.tables lock operation
      ∧ ∀ acquired, operation = .compensate acquired → acquired ∈ world.publishing := by
  have hself : ∀ row : ExecutionLockInfo, executionLockGenerationEquals row row = true :=
    fun row => executionLockGenerationEquals_iff.mpr ⟨rfl, rfl, rfl⟩
  cases hstep with
  | published acquired => exact absurd ⟨lock, hmem, hself lock⟩ hended
  | terminated owner => exact absurd ⟨lock, hmem, hself lock⟩ hended
  | call options host operation next hprobe hfresh hpublishing hperform =>
      have halive : ∀ row nowMs, RetirableLock options row nowMs → row ≠ lock := by
        rintro row nowMs hretirable rfl
        exact hrunning (hprobe.dead _ _ hretirable.dead)
      refine ⟨options, host, operation, rfl, ?_, hpublishing⟩
      cases activeChange_of_perform hsound.keyed hperform with
      | kept hcounter hactive =>
          have hidentity : lock.identity ∈ next.active.map (·.identity) := by
            rw [hactive]
            exact List.mem_map_of_mem hmem
          obtain ⟨row, hrow, heq⟩ := List.mem_map.mp hidentity
          refine absurd ⟨row, hrow, executionLockGenerationEquals_iff.mpr ⟨?_, ?_, ?_⟩⟩ hended
          · exact congrArg (·.1) heq
          · exact congrArg (·.2.1) heq
          · exact congrArg (·.2.2.1) heq
      | dropped dropped hdropped hcounter hactive hends =>
          by_cases htask : lock.taskId = dropped.taskId
          · rwa [List.inj_on_of_nodup_map hsound.keyed hmem hdropped htask]
          · refine absurd ⟨lock, ?_, hself lock⟩ hended
            change lock ∈ next.active
            rw [hactive]
            exact mem_deleteRow.mpr ⟨hmem, htask⟩
      | granted granted nowMs kept hretires hfree howner htoken hcounter hactive =>
          refine absurd ⟨lock, ?_, hself lock⟩ hended
          change lock ∈ next.active
          rw [hactive]
          apply List.mem_append_left
          by_contra hgone
          exact halive lock nowMs (hretires.removed lock hmem hgone).1 rfl
      | succeeded previous successor nowMs hprevious hretirable htask howner htoken hcounter hactive =>
          refine absurd ⟨lock, ?_, hself lock⟩ hended
          change lock ∈ next.active
          rw [hactive, mem_replaceRow]
          refine .inr ⟨hmem, ?_⟩
          rw [htask]
          intro heq
          exact halive previous nowMs hretirable
            (List.inj_on_of_nodup_map hsound.keyed hmem hprevious heq).symm

def workerEpoch : String := "00000000-0000-4000-8000-000000000000"

def workerHost : ExecutionLockHost where
  ownerId := ⟨"00000000-0000-4000-8000-000000000001", by decide +kernel⟩
  nonce := ⟨"00000000000000000000000000000001", by decide +kernel⟩
  quarantineId := ⟨"00000000-0000-4000-8000-000000000002", by decide +kernel⟩
  eventId := ⟨"00000000-0000-4000-8000-000000000003", by decide +kernel⟩
  completionEventId := ⟨"00000000-0000-4000-8000-000000000004", by decide +kernel⟩
  reconcileFault _ := none
  scanFault := none
  unlinkFault _ := none

def workerOptions (now : Int) : ExecutionLockOptions where
  now := .finite now
  leaseDurationMs := none
  ownerPid := .finite (7 : Int)
  runtimeIdentity := ⟨"host", "boot", "session"⟩
  livenessProbe _ _ := .unknown

def workerLock : ExecutionLockInfo where
  hostInstanceId := "host"
  bootSessionId := "boot"
  processSessionId := "session"
  pid := 7
  taskId := "build"
  actor := .dispatch
  ownerId := "00000000-0000-4000-8000-000000000001"
  fencingToken := ⟨workerEpoch, 1, "00000000000000000000000000000001"⟩
  acquiredAt := 1000
  renewedAt := 1000
  leaseDurationMs := 30000

def workerTables : ExecutionLockTables :=
  { initializeExecutionLockDatabase workerEpoch with
    fencingCounter := 1
    active := [workerLock] }

def workerWorld : ExecutionLockWorld :=
  (ExecutionLockWorld.initial workerEpoch).commit (.acquire "build" .dispatch) workerTables

theorem step_workerWorld :
    (ExecutionLockWorld.initial workerEpoch).Step
      (.call (workerOptions 1000) workerHost (.acquire "build" .dispatch)) workerWorld := by
  refine .call _ _ _ _ ⟨?_, ?_⟩ ⟨?_, ?_⟩ ?_ rfl
  · intro owner identity hdead
    cases hdead
  · intro owner identity halive
    cases halive
  · intro lock hlock
    cases hlock
  · intro event hevent
    cases hevent
  · intro lock hlock
    cases hlock

end Deckent.ExecutionLock
