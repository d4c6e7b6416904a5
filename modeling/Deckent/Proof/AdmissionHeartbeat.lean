import Deckent.Model.AdmissionHeartbeat

/-!
# No admission without a timer

Every operation keeps the heap: the active entries, each once and at the position it carries, in the order of
their times. A tick takes one entry out, lets its callbacks run, and puts it back while it is active. Only what
the tick does at its end arms the timer again, so a callback that throws out of it leaves entries without one.
-/

namespace Deckent.AdmissionHeartbeat

namespace AdmissionHeartbeatScheduler

variable {scheduler : AdmissionHeartbeatScheduler} {id : Nat} {out : List Nat}

/-- What holds between the events: the heap is the active entries in order, and one timer stands for them. -/
structure Sound (scheduler : AdmissionHeartbeatScheduler) : Prop where
  contains : ∀ id, id ∈ scheduler.heap.items ↔ scheduler.isActive id = true
  once : scheduler.heap.items.Nodup
  positions : ∀ id position, scheduler.heap.items[position]? = some id → scheduler.heap.index id = some position
  ordered : ∀ position id above, scheduler.heap.items[position + 1]? = some id →
    scheduler.heap.items[position / 2]? = some above →
    scheduler.dueOf above < scheduler.dueOf id ∨ scheduler.dueOf above = scheduler.dueOf id ∧ above ≤ id
  armed : scheduler.heap.items ≠ [] → scheduler.timer = true
    ∧ ∃ armedForMs, scheduler.scheduledForMs = some armedForMs
      ∧ ∀ id ∈ scheduler.heap.items, armedForMs ≤ scheduler.dueOf id
  idle : scheduler.heap.items = [] → scheduler.timer = false

/-- What holds within a tick too, where some entries are out of the heap. -/
structure HeapSound (scheduler : AdmissionHeartbeatScheduler) (out : List Nat) : Prop where
  indexed : scheduler.heap.Indexed
  ordered : scheduler.heap.Ordered scheduler.compare
  mem_iff : ∀ id, id ∈ scheduler.heap.items ↔ scheduler.isActive id = true ∧ id ∉ out
  active_iff : ∀ id, id ∈ scheduler.active ↔ scheduler.isActive id = true
  fresh : ∀ id, scheduler.isActive id = true ∨ id ∈ out → id < scheduler.nextId

def Armed (scheduler : AdmissionHeartbeatScheduler) : Prop :=
  match scheduler.peekActive with
  | none => scheduler.timer = false
  | some next => scheduler.timer = true ∧ ∃ armedForMs, scheduler.scheduledForMs = some armedForMs
      ∧ armedForMs ≤ scheduler.dueOf next

theorem signed_compare (scheduler : AdmissionHeartbeatScheduler) : SignedComparator scheduler.compare :=
  SignedComparator.thenBy
    ⟨fun _ _ => by omega, fun _ _ _ hab hbc => by omega⟩ ⟨fun _ _ => by omega, fun _ _ _ hab hbc => by omega⟩

theorem compare_nonpos {left right : Nat} (hle : scheduler.compare left right ≤ 0) :
    scheduler.dueOf left < scheduler.dueOf right ∨ scheduler.dueOf left = scheduler.dueOf right ∧ left ≤ right := by
  unfold compare at hle
  rw [thenBy_nonpos] at hle
  omega

theorem HeapSound.sound (hsound : scheduler.HeapSound []) (harmed : scheduler.Armed) : scheduler.Sound where
  contains := fun id => (hsound.mem_iff id).trans (by simp)
  once := hsound.indexed.nodup
  positions := fun id position => (hsound.indexed id position).mpr
  ordered := fun position id above hid habove => compare_nonpos (hsound.ordered position id above hid habove)
  armed := by
    intro hne
    unfold Armed peekActive at harmed
    obtain ⟨next, rest, hitems⟩ := List.exists_cons_of_ne_nil hne
    have hnext : scheduler.heap.items[0]? = some next := by simp [hitems]
    rw [hnext] at harmed
    obtain ⟨htimer, armedForMs, hfor, hle⟩ := harmed
    refine ⟨htimer, armedForMs, hfor, fun id hid => ?_⟩
    have hbefore := compare_nonpos (hsound.ordered.head_le scheduler.signed_compare hnext hid)
    omega
  idle := by
    intro hitems
    unfold Armed peekActive at harmed
    simpa [hitems] using harmed

/-! ### One operation -/

theorem isActive_setEntry (entry : ScheduledAdmissionHeartbeat) (other : Nat) :
    (scheduler.setEntry id entry).isActive other
      = if other = id then entry.active else scheduler.isActive other := by
  unfold setEntry isActive
  dsimp only
  rw [Function.update_apply]
  split <;> rfl

theorem dueOf_setEntry (entry : ScheduledAdmissionHeartbeat) (other : Nat) :
    (scheduler.setEntry id entry).dueOf other
      = if other = id then entry.nextDueMs else scheduler.dueOf other := by
  unfold setEntry dueOf
  dsimp only
  rw [Function.update_apply]
  split <;> rfl

theorem schedule_spec (hsound : scheduler.HeapSound out) (force : Bool) :
    (scheduler.schedule force).HeapSound out ∧ (scheduler.schedule force).Armed := by
  unfold schedule
  split
  · next hnone =>
      refine ⟨{ hsound with }, ?_⟩
      unfold Armed
      rw [show scheduler.clearTimer.peekActive = none from hnone]
      rfl
  · next next hnext =>
      split
      · next hstands =>
          refine ⟨hsound, ?_⟩
          unfold Armed
          rw [hnext]
          simp only [Bool.and_eq_true, Option.any_eq_true, decide_eq_true_eq] at hstands
          exact ⟨hstands.1.2, hstands.2⟩
      · refine ⟨{ hsound with }, ?_⟩
        unfold Armed
        rw [show AdmissionHeartbeatScheduler.peekActive { scheduler with
          timer := true, scheduledForMs := some (scheduler.dueOf next) } = some next from hnext]
        exact ⟨rfl, _, rfl, le_refl _⟩

theorem HeapSound.push (hsound : scheduler.HeapSound (id :: out)) (hactive : scheduler.isActive id = true)
    (hout : id ∉ out) : (scheduler.push id).HeapSound out := by
  obtain ⟨hindexed, hordered, hmem⟩ := IndexedHeap.arranged_push scheduler.signed_compare hsound.indexed hsound.ordered
    (x := id) fun hid => ((hsound.mem_iff id).mp hid).2 List.mem_cons_self
  refine ⟨hindexed, hordered, fun other => ?_, hsound.active_iff, fun other hother => hsound.fresh other ?_⟩
  · refine (hmem other).trans ?_
    rw [hsound.mem_iff]
    by_cases heq : other = id
    · subst heq
      exact iff_of_true (.inl rfl) ⟨hactive, hout⟩
    · simp [heq, AdmissionHeartbeatScheduler.push, isActive]
  · exact hother.imp_right (List.mem_cons_of_mem _)

theorem HeapSound.pop (hsound : scheduler.HeapSound []) (htop : scheduler.heap.items[0]? = some id) :
    scheduler.pop.HeapSound [id] := by
  obtain ⟨hindexed, hordered, hmem⟩ :=
    IndexedHeap.removeAt_spec scheduler.signed_compare hsound.indexed hsound.ordered htop
  have hactive := ((hsound.mem_iff id).mp (List.mem_of_getElem? htop)).1
  refine ⟨hindexed, hordered, fun other => ?_, hsound.active_iff, fun other hother => hsound.fresh other (.inl ?_)⟩
  · rw [List.mem_singleton]
    refine (hmem other).trans (and_congr_left fun _ => ?_)
    exact (hsound.mem_iff other).trans (by simp [isActive, AdmissionHeartbeatScheduler.pop])
  · obtain hother | hother := hother
    · exact hother
    · rwa [List.mem_singleton.mp hother]

theorem HeapSound.forget (hsound : scheduler.HeapSound [id]) (hinactive : scheduler.isActive id = false) :
    scheduler.HeapSound [] where
  indexed := hsound.indexed
  ordered := hsound.ordered
  mem_iff := by
    intro other
    rw [hsound.mem_iff]
    refine and_congr_right fun hactive => iff_of_true ?_ List.not_mem_nil
    rintro hother
    rw [List.mem_singleton.mp hother, hinactive] at hactive
    cases hactive
  active_iff := hsound.active_iff
  fresh := fun other hother => hsound.fresh other (hother.imp_right (absurd · List.not_mem_nil))

theorem HeapSound.setEntry (hsound : scheduler.HeapSound out) (hout : id ∈ out)
    (entry : ScheduledAdmissionHeartbeat) (hactive : entry.active = scheduler.isActive id) :
    (scheduler.setEntry id entry).HeapSound out := by
  have hsame (other : Nat) : (scheduler.setEntry id entry).isActive other = scheduler.isActive other := by
    rw [isActive_setEntry]
    split
    · next heq => rw [heq, hactive]
    · rfl
  refine ⟨hsound.indexed, hsound.ordered.congr fun left hleft right hright => ?_, fun other => ?_, fun other => ?_,
    fun other hother => hsound.fresh other ?_⟩
  · have hne {other : Nat} (hother : other ∈ scheduler.heap.items) : other ≠ id := by
      rintro rfl
      exact ((hsound.mem_iff other).mp hother).2 hout
    unfold compare
    rw [dueOf_setEntry, dueOf_setEntry, if_neg (hne hleft), if_neg (hne hright)]
  · rw [hsame]
    exact hsound.mem_iff other
  · rw [hsame]
    exact hsound.active_iff other
  · rwa [hsame] at hother

theorem HeapSound.add (hsound : scheduler.HeapSound out) {entry : ScheduledAdmissionHeartbeat}
    (hactive : entry.active = true) : (scheduler.add entry).HeapSound (scheduler.nextId :: out) := by
  have hnew {other : Nat} (hother : scheduler.isActive other = true ∨ other ∈ out) : other ≠ scheduler.nextId :=
    (hsound.fresh other hother).ne
  have hold {other : Nat} (hne : other ≠ scheduler.nextId) :
      (scheduler.add entry).isActive other = scheduler.isActive other := by
    refine (isActive_setEntry entry other).trans (if_neg hne)
  have hself : (scheduler.add entry).isActive scheduler.nextId = true :=
    (isActive_setEntry entry _).trans ((if_pos rfl).trans hactive)
  refine ⟨hsound.indexed, hsound.ordered.congr fun left hleft right hright => ?_, fun other => ?_, fun other => ?_,
    fun other hother => ?_⟩
  · have hdue {other : Nat} (hother : other ∈ scheduler.heap.items) :
        (scheduler.add entry).dueOf other = scheduler.dueOf other :=
      (dueOf_setEntry entry other).trans (if_neg (hnew (.inl ((hsound.mem_iff other).mp hother).1)))
    unfold compare
    rw [hdue hleft, hdue hright]
  · refine (hsound.mem_iff other).trans ?_
    by_cases heq : other = scheduler.nextId
    · subst heq
      exact iff_of_false (fun hother => hnew (.inl hother.1) rfl) (fun hother => hother.2 List.mem_cons_self)
    · rw [hold heq, List.mem_cons, not_or, and_iff_right heq]
  · change other ∈ scheduler.active ++ [scheduler.nextId] ↔ _
    rw [List.mem_append, List.mem_singleton, hsound.active_iff]
    by_cases heq : other = scheduler.nextId
    · exact iff_of_true (.inr heq) (heq ▸ hself)
    · rw [or_iff_left heq]
      exact iff_of_eq (congrArg (· = true) (hold heq).symm)
  · by_cases heq : other = scheduler.nextId
    · exact heq ▸ Nat.lt_succ_self _
    · rw [hold heq, List.mem_cons, or_iff_right heq] at hother
      exact (hsound.fresh other hother).trans (Nat.lt_succ_self _)

theorem HeapSound.register (hsound : scheduler.HeapSound out) (jitter intervalMs : Nat) (nowMs : Int) :
    (scheduler.register jitter intervalMs nowMs).HeapSound out
      ∧ (scheduler.register jitter intervalMs nowMs).Armed := by
  refine schedule_spec ((hsound.add rfl).push ?_ fun hout => ?_) false
  · exact (isActive_setEntry _ _).trans (if_pos rfl)
  · exact absurd (hsound.fresh _ (.inr hout)) (lt_irrefl _)

theorem HeapSound.deactivate (hsound : scheduler.HeapSound out) {entry found : ScheduledAdmissionHeartbeat}
    (hfound : scheduler.entries id = some found) (hdue : entry.nextDueMs = found.nextDueMs) :
    ((scheduler.deactivate id entry).remove id).HeapSound out := by
  have hcompare : (scheduler.deactivate id entry).compare = scheduler.compare := by
    funext left right
    have hsame (other : Nat) : (scheduler.deactivate id entry).dueOf other = scheduler.dueOf other := by
      refine (dueOf_setEntry _ other).trans ?_
      split
      · next heq => simp [heq, dueOf, hfound, hdue]
      · rfl
    unfold compare
    rw [hsame, hsame]
  have hactive (other : Nat) : ((scheduler.deactivate id entry).remove id).isActive other = true
      ↔ scheduler.isActive other = true ∧ other ≠ id := by
    refine (iff_of_eq (congrArg (· = true) (isActive_setEntry { entry with active := false } other))).trans ?_
    split
    · next heq => simp [heq]
    · next hne => simp [hne]
  obtain ⟨hindexed, hordered, hmem⟩ := IndexedHeap.remove_spec scheduler.signed_compare (x := id) hsound.indexed
    hsound.ordered
  have hheap : ((scheduler.deactivate id entry).remove id).heap = scheduler.heap.remove scheduler.compare id := by
    rw [AdmissionHeartbeatScheduler.remove, hcompare]
    rfl
  refine ⟨hheap ▸ hindexed, ?_, fun other => ?_, fun other => ?_, fun other hother => hsound.fresh other ?_⟩
  · rw [hheap, show ((scheduler.deactivate id entry).remove id).compare = _ from hcompare]
    exact hordered
  · rw [hheap, hmem, hsound.mem_iff, hactive]
    exact and_right_comm
  · rw [hactive, ← hsound.active_iff]
    unfold AdmissionHeartbeatScheduler.remove AdmissionHeartbeatScheduler.deactivate
    simp
  · rw [hactive] at hother
    exact hother.imp_left And.left

theorem HeapSound.items_eq_nil (hsound : scheduler.HeapSound out) (hempty : scheduler.active.isEmpty = true) :
    scheduler.heap.items = [] := by
  refine List.eq_nil_iff_forall_not_mem.mpr fun id hid => ?_
  have hactive := (hsound.active_iff id).mpr ((hsound.mem_iff id).mp hid).1
  rw [List.isEmpty_iff.mp hempty] at hactive
  cases hactive

theorem dueOf_deactivate {entry found : ScheduledAdmissionHeartbeat} (hfound : scheduler.entries id = some found)
    (hdue : entry.nextDueMs = found.nextDueMs) (other : Nat) :
    (scheduler.deactivate id entry).dueOf other = scheduler.dueOf other := by
  refine (dueOf_setEntry _ other).trans ?_
  split
  · next heq => simp [heq, dueOf, hfound, hdue]
  · rfl

theorem HeapSound.armed_remove (hsound : scheduler.HeapSound []) (harmed : scheduler.Armed)
    {entry : ScheduledAdmissionHeartbeat} (hentry : scheduler.entries id = some entry)
    (hstopped : ((scheduler.deactivate id entry).remove id).HeapSound [])
    (hsome : ((scheduler.deactivate id entry).remove id).active.isEmpty ≠ true) :
    ((scheduler.deactivate id entry).remove id).Armed := by
  obtain ⟨other, hother⟩ := List.exists_mem_of_ne_nil _ (mt List.isEmpty_iff.mpr hsome)
  have hmem := (hstopped.mem_iff other).mpr ⟨(hstopped.active_iff other).mp hother, List.not_mem_nil⟩
  obtain ⟨next, hnext⟩ : ∃ next, ((scheduler.deactivate id entry).remove id).heap.items[0]? = some next :=
    ⟨_, List.getElem?_eq_getElem (List.length_pos_of_mem hmem)⟩
  have hactive : scheduler.isActive next = true := by
    have hnow := ((hstopped.mem_iff next).mp (List.mem_of_getElem? hnext)).1
    refine Bool.of_not_eq_false fun hinactive => ?_
    have hwas := (isActive_setEntry { entry with active := false } next).symm.trans hnow
    split at hwas
    · cases hwas
    · rw [hinactive] at hwas
      cases hwas
  have hthere : next ∈ scheduler.heap.items := (hsound.mem_iff next).mpr ⟨hactive, List.not_mem_nil⟩
  have htop := List.getElem?_eq_getElem (List.length_pos_of_mem hthere)
  unfold Armed peekActive at harmed ⊢
  rw [htop] at harmed
  rw [hnext]
  obtain ⟨htimer, armedForMs, hfor, hle⟩ := harmed
  refine ⟨htimer, armedForMs, hfor, ?_⟩
  rw [show ((scheduler.deactivate id entry).remove id).dueOf next = _ from dueOf_deactivate hentry rfl next]
  have hbefore := compare_nonpos (hsound.ordered.head_le scheduler.signed_compare htop hthere)
  omega

theorem HeapSound.stop (hsound : scheduler.HeapSound out) (id : Nat) :
    (scheduler.stop id).HeapSound out ∧ (out = [] → scheduler.Armed → (scheduler.stop id).Armed) := by
  unfold AdmissionHeartbeatScheduler.stop
  split
  · exact ⟨hsound, fun _ h => h⟩
  · next entry hentry =>
      split
      · have hstopped := hsound.deactivate hentry rfl
        dsimp only
        split
        · next hempty =>
            have hitems := hstopped.items_eq_nil hempty
            refine ⟨⟨?_, ?_, ?_, hstopped.active_iff, hstopped.fresh⟩, fun _ _ => ?_⟩
            · rw [← hitems]
              exact hstopped.indexed
            · rw [← hitems]
              exact hstopped.ordered
            · rw [← hitems]
              exact hstopped.mem_iff
            · rfl
        · next hsome =>
            split
            · exact ⟨(schedule_spec hstopped true).1, fun _ _ => (schedule_spec hstopped true).2⟩
            · refine ⟨hstopped, fun hout harmed => ?_⟩
              subst hout
              exact hsound.armed_remove harmed hentry hstopped hsome
      · exact ⟨hsound, fun _ h => h⟩

theorem HeapSound.operate (hsound : scheduler.HeapSound out) (operation : Operation) :
    (scheduler.operate operation).HeapSound out
      ∧ (out = [] → scheduler.Armed → (scheduler.operate operation).Armed) := by
  cases operation with
  | register jitter intervalMs nowMs =>
      obtain ⟨hregistered, harmed⟩ := hsound.register jitter intervalMs nowMs
      exact ⟨hregistered, fun _ _ => harmed⟩
  | stop id => exact hsound.stop id

theorem HeapSound.call (hsound : scheduler.HeapSound out) (callback : Callback) :
    (scheduler.call callback).HeapSound out := by
  unfold AdmissionHeartbeatScheduler.call
  induction callback.operations generalizing scheduler with
  | nil => exact hsound
  | cons operation rest ih => exact ih (hsound.operate operation).1

/-! ### One tick -/

theorem HeapSound.remove_out (hsound : scheduler.HeapSound out) (hout : id ∈ out)
    (entry : ScheduledAdmissionHeartbeat) :
    (scheduler.deactivate id entry).remove id = scheduler.deactivate id entry := by
  have hnone : scheduler.heap.index id = none := by
    refine Option.not_isSome_iff_eq_none.mp fun hsome => ?_
    exact ((hsound.mem_iff id).mp (hsound.indexed.mem_iff.mpr hsome)).2 hout
  have hheap (cmp : Nat → Nat → Int) : scheduler.heap.remove cmp id = scheduler.heap := by
    unfold IndexedHeap.remove
    rw [hnone]
  unfold AdmissionHeartbeatScheduler.remove
  rw [show (scheduler.deactivate id entry).heap = scheduler.heap from rfl, hheap]
  rfl

theorem HeapSound.renew (hsound : scheduler.HeapSound [id]) (renewal : Renewal) :
    (scheduler.renew id renewal).1.HeapSound [] := by
  have hrenewed := hsound.call renewal.renew
  unfold AdmissionHeartbeatScheduler.renew
  dsimp only
  split
  · next error entry _ hentry =>
      have hfailed := @HeapSound.deactivate _ id _ hrenewed { entry with failed := true, error := some error } _ hentry rfl
      rw [hrenewed.remove_out List.mem_cons_self] at hfailed
      exact (hfailed.forget ((isActive_setEntry _ _).trans (if_pos rfl))).call _
  · next entry _ hentry =>
      split
      · next hactive =>
          have hstill : (scheduler.call renewal.renew).isActive id = true := by
            unfold isActive
            rw [hentry]
            exact hactive
          have hset := hrenewed.setEntry List.mem_cons_self
            { entry with nextDueMs := renewal.renewedAtMs + entry.intervalMs } (hactive.trans hstill.symm)
          exact hset.push ((isActive_setEntry _ _).trans ((if_pos rfl).trans hactive)) List.not_mem_nil
      · next hinactive =>
          refine hrenewed.forget ?_
          unfold isActive
          rw [hentry]
          simpa using hinactive
  · next hentry =>
      refine hrenewed.forget ?_
      unfold isActive
      rw [hentry]
      rfl

theorem renew_eq_some {renewal : Renewal} {error : String} (hthrown : (scheduler.renew id renewal).2 = some error) :
    renewal.renew.throws ≠ none ∧ renewal.onFailure.throws ≠ none := by
  unfold AdmissionHeartbeatScheduler.renew at hthrown
  dsimp only at hthrown
  split at hthrown
  · next hrenew _ =>
      rw [hrenew, show renewal.onFailure.throws = some error from hthrown]
      exact ⟨nofun, nofun⟩
  · split at hthrown <;> cases hthrown
  · cases hthrown

theorem tickFrom_eq (renewals : Nat → Renewal) (scheduler : AdmissionHeartbeatScheduler) (nowMs : Int) (done : Nat) :
    tickFrom renewals scheduler nowMs done = match scheduler.heap.items with
      | [] => (scheduler.schedule, none)
      | id :: _ =>
          if nowMs < scheduler.dueOf id then (scheduler.schedule, none)
          else if MAX_ADMISSION_HEARTBEAT_RENEWALS_PER_TICK ≤ done then (scheduler.schedule, none)
          else if !scheduler.pop.isActive id then tickFrom renewals scheduler.pop nowMs done
          else
            match scheduler.pop.renew id (renewals done) with
            | (left, some error) => (left, some error)
            | (left, none) => tickFrom renewals left (renewals done).nowMs (done + 1) := by
  rw [tickFrom]
  split
  · next hitems => rw [hitems]
  · next hitems =>
      rw [hitems]
      simp only [dite_eq_ite] <;> rfl

/-- The loop keeps the heap, and a tick that returns has armed the timer. -/
theorem HeapSound.tickFrom (renewals : Nat → Renewal) (hsound : scheduler.HeapSound []) (nowMs : Int) (done : Nat) :
    (tickFrom renewals scheduler nowMs done).1.HeapSound []
      ∧ ((∀ index, (renewals index).renew.throws ≠ none → (renewals index).onFailure.throws = none) →
        (tickFrom renewals scheduler nowMs done).1.Armed) := by
  have hends {scheduler : AdmissionHeartbeatScheduler} (hsound : scheduler.HeapSound []) :=
    schedule_spec hsound false
  have htop {scheduler : AdmissionHeartbeatScheduler} {id : Nat} {rest : List Nat}
      (hitems : scheduler.heap.items = id :: rest) : scheduler.heap.items[0]? = some id := by simp [hitems]
  induction scheduler, nowMs, done using tickFrom.induct renewals with
  | case1 scheduler nowMs done hitems =>
      rw [tickFrom_eq, hitems]
      exact ⟨(hends hsound).1, fun _ => (hends hsound).2⟩
  | case2 scheduler nowMs done id rest hitems hdue =>
      rw [tickFrom_eq, hitems]
      dsimp only
      rw [if_pos hdue]
      exact ⟨(hends hsound).1, fun _ => (hends hsound).2⟩
  | case3 scheduler nowMs done id rest hitems hdue hdone =>
      rw [tickFrom_eq, hitems]
      dsimp only
      rw [if_neg hdue, if_pos hdone]
      exact ⟨(hends hsound).1, fun _ => (hends hsound).2⟩
  | case4 scheduler nowMs done id rest hitems hdue hdone hinactive ih =>
      rw [tickFrom_eq, hitems]
      dsimp only
      rw [if_neg hdue, if_neg hdone, if_pos hinactive]
      exact ih ((hsound.pop (htop hitems)).forget (by simpa using hinactive))
  | case5 scheduler nowMs done id rest hitems hdue hdone hactive left error hrenew =>
      rw [tickFrom_eq, hitems]
      dsimp only
      rw [if_neg hdue, if_neg hdone, if_neg hactive, hrenew]
      have hleft := (hsound.pop (htop hitems)).renew (renewals done)
      rw [hrenew] at hleft
      refine ⟨hleft, fun hcontained => ?_⟩
      obtain ⟨hthrows, hfailure⟩ := renew_eq_some (congrArg Prod.snd hrenew)
      exact absurd (hcontained done hthrows) hfailure
  | case6 scheduler nowMs done id rest hitems hdue hdone hactive left hrenew ih =>
      rw [tickFrom_eq, hitems]
      dsimp only
      rw [if_neg hdue, if_neg hdone, if_neg hactive, hrenew]
      have hleft := (hsound.pop (htop hitems)).renew (renewals done)
      rw [hrenew] at hleft
      exact ih hleft

end AdmissionHeartbeatScheduler

/-! ### Runs -/

open AdmissionHeartbeatScheduler

def Event.Contained : Event → Prop
  | .operation _ => True
  | .tick _ renewals =>
      ∀ index, (renewals index).renew.throws ≠ none → (renewals index).onFailure.throws = none

theorem heapSound_empty : HeapSound {} [] where
  indexed := by
    intro id position
    simp
  ordered := by
    intro position id above hid
    simp at hid
  mem_iff := by
    intro id
    simp [isActive]
  active_iff := by
    intro id
    simp [isActive]
  fresh := by
    intro id hid
    simp [isActive] at hid

theorem step_spec {scheduler : AdmissionHeartbeatScheduler} (hsound : scheduler.HeapSound []) (event : Event) :
    (scheduler.step event).1.HeapSound []
      ∧ (event.Contained → scheduler.Armed → (scheduler.step event).1.Armed) := by
  cases event with
  | operation operation =>
      obtain ⟨hnext, harmed⟩ := hsound.operate operation
      exact ⟨hnext, fun _ => harmed rfl⟩
  | tick nowMs renewals =>
      have hcleared : scheduler.clearTimer.HeapSound [] := { hsound with }
      obtain ⟨hnext, harmed⟩ := hcleared.tickFrom renewals nowMs 0
      exact ⟨hnext, fun hcontained _ => harmed hcontained⟩

theorem foldl_spec {scheduler : AdmissionHeartbeatScheduler} (hsound : scheduler.HeapSound [])
    (harmed : scheduler.Armed) {events : List Event} (hcontained : ∀ event ∈ events, event.Contained) :
    (events.foldl (fun scheduler event => (scheduler.step event).1) scheduler).HeapSound []
      ∧ (events.foldl (fun scheduler event => (scheduler.step event).1) scheduler).Armed := by
  induction events generalizing scheduler with
  | nil => exact ⟨hsound, harmed⟩
  | cons event rest ih =>
      obtain ⟨hnext, hkeeps⟩ := step_spec hsound event
      exact ih hnext (hkeeps (hcontained event List.mem_cons_self) harmed)
        fun other hother => hcontained other (List.mem_cons_of_mem _ hother)

/-- As long as no `onFailure` throws out of a tick, every active entry stands in the heap once, in order and at its
position, and the timer is armed for the first of them. -/
theorem sound_after {events : List Event} (hcontained : ∀ event ∈ events, event.Contained) :
    (after events).Sound := by
  obtain ⟨hsound, harmed⟩ := foldl_spec heapSound_empty rfl hcontained
  exact hsound.sound harmed

def lostRenewal (aborts : Callback) : Renewal :=
  { renew := { throws := some "E_LOCK_LOST" }, onFailure := aborts, renewedAtMs := 51, nowMs := 52 }

def lostLease (aborts : Callback) : List Event :=
  [.operation (.register 0 10 0), .operation (.register 0 100 0), .tick 50 fun _ => lostRenewal aborts]

theorem sound_after_lostLease : (after (lostLease {})).Sound :=
  sound_after (by simp [lostLease, lostRenewal, Event.Contained])

/-- Where the callback for the lost lease throws, the other lease is left without a timer. -/
theorem not_sound_after : ¬∀ events, (after events).Sound := by
  intro hsound
  have harmed := (hsound (lostLease { throws := some "E_ABORTED" })).armed
  have hafter : after (lostLease { throws := some "E_ABORTED" })
      = (tickFrom (fun _ => lostRenewal { throws := some "E_ABORTED" })
          (after [.operation (.register 0 10 0), .operation (.register 0 100 0)]).clearTimer 50 0).1 := rfl
  rw [hafter, tickFrom_eq] at harmed
  exact absurd (harmed (by decide +kernel)).1 (by decide +kernel)

end Deckent.AdmissionHeartbeat
