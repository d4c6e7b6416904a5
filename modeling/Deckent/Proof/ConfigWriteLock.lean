import Deckent.Model.ConfigWriteLock
import Mathlib.Tactic.SplitIfs

/-!
# Exclusion under the config write lock

Where a takeover moves away only the directory that it has judged, the directory of a live holder stays
at the path until its holder removes it. So two live processes are never in their callbacks together,
and the config that a callback has read is the one that it replaces.
-/

namespace Deckent.ConfigWriteLock

variable {ι : Type} [DecidableEq ι] {γ : Type} {pid other : ι} {files next : ConfigFiles ι γ}
  {phase after : ConfigLockPhase ι γ} {action : ConfigLockAction γ}

/-- The process has made the directory and has yet to remove it. -/
def ConfigLockPhase.holds : ConfigLockPhase ι γ → Bool
  | made | abandoning | entered | updating _ | leaving => true
  | _ => false

def ConfigLockPhase.inCallback : ConfigLockPhase ι γ → Bool
  | entered | updating _ => true
  | _ => false

def RetiresJudged (_pid : ι) (action : ConfigLockAction γ) (files : ConfigFiles ι γ)
    (phase : ConfigLockPhase ι γ) : Prop :=
  ∀ attempt generation, action = .proceed → phase = .retiring attempt generation →
    ∀ directory, files.lock = some directory → directory.generation = generation

/-! ### What one action does -/

def ConfigFiles.Genuine (files : ConfigFiles ι γ) : Prop :=
  ∀ directory, files.lock = some directory → directory.generation < files.generations
    ∧ ∀ owner, directory.owner = some owner → owner = directory.maker

def ConfigFiles.LockedBy (files : ConfigFiles ι γ) (pid : ι) : Prop :=
  ∃ directory, files.lock = some directory ∧ directory.maker = pid

/-- What a process holds of the files, as far as it has come. -/
structure Own (pid : ι) (files : ConfigFiles ι γ) (phase : ConfigLockPhase ι γ) : Prop where
  held : pid ∉ files.dead → phase.holds = true → files.LockedBy pid
  current : pid ∉ files.dead → ∀ read, phase = .updating read → files.config = read
  probed : ∀ attempt stale owner generation, phase = .probing attempt stale owner generation →
    generation < files.generations
      ∧ ∀ directory, files.lock = some directory → directory.generation = generation →
        directory.maker = owner
  retired : ∀ attempt generation, phase = .retiring attempt generation →
    generation < files.generations
      ∧ ∀ directory, files.lock = some directory → directory.generation = generation →
        directory.maker ∈ files.dead

structure Leaves (files next : ConfigFiles ι γ) (pid : ι) : Prop where
  dead : files.dead ⊆ next.dead
  generations : files.generations ≤ next.generations
  /-- A directory of an earlier generation was there before. -/
  lock : ∀ directory, next.lock = some directory → directory.generation < files.generations →
    ∃ earlier, files.lock = some earlier ∧ earlier.generation = directory.generation
      ∧ earlier.maker = directory.maker
  held : pid ∉ files.dead → files.LockedBy pid → next.LockedBy pid ∧ next.config = files.config

theorem Own.stable (hown : Own pid files phase) (hleaves : Leaves files next pid) :
    Own pid next phase where
  held := by
    intro halive hholds
    have halive' : pid ∉ files.dead := fun hdead => halive (hleaves.dead hdead)
    exact (hleaves.held halive' (hown.held halive' hholds)).1
  current := by
    intro halive read hphase
    have halive' : pid ∉ files.dead := fun hdead => halive (hleaves.dead hdead)
    have hlocked := hown.held halive' (by rw [hphase]; rfl)
    rw [(hleaves.held halive' hlocked).2]
    exact hown.current halive' read hphase
  probed := by
    intro attempt stale owner generation hphase
    obtain ⟨hlt, hmaker⟩ := hown.probed attempt stale owner generation hphase
    refine ⟨Nat.lt_of_lt_of_le hlt hleaves.generations, ?_⟩
    intro directory hlock hgeneration
    rw [← hgeneration] at hlt hmaker
    obtain ⟨earlier, hearlier, hsame, hmade⟩ := hleaves.lock directory hlock hlt
    rw [← hmade]
    exact hmaker earlier hearlier hsame
  retired := by
    intro attempt generation hphase
    obtain ⟨hlt, hmaker⟩ := hown.retired attempt generation hphase
    refine ⟨Nat.lt_of_lt_of_le hlt hleaves.generations, ?_⟩
    intro directory hlock hgeneration
    rw [← hgeneration] at hlt hmaker
    obtain ⟨earlier, hearlier, hsame, hmade⟩ := hleaves.lock directory hlock hlt
    rw [← hmade]
    exact hleaves.dead (hmaker earlier hearlier hsame)

theorem leaves_self (files : ConfigFiles ι γ) (pid : ι) : Leaves files files pid where
  dead := List.Subset.refl _
  generations := Nat.le_refl _
  lock := fun directory hlock _ => ⟨directory, hlock, rfl, rfl⟩
  held := fun _ hlocked => ⟨hlocked, rfl⟩

theorem leaves_makeLock (hfree : files.lock = none) (maker : ι) :
    Leaves files (files.makeLock maker) pid where
  dead := List.Subset.refl _
  generations := Nat.le_succ _
  lock := by
    intro directory hlock hlt
    obtain rfl := Option.some.inj hlock
    exact absurd hlt (Nat.lt_irrefl _)
  held := by
    rintro - ⟨directory, hlock, -⟩
    rw [hfree] at hlock
    cases hlock

theorem leaves_writeOwner (files : ConfigFiles ι γ) (owner : Option ι) (pid : ι) :
    Leaves files (files.writeOwner owner) pid where
  dead := List.Subset.refl _
  generations := Nat.le_refl _
  lock := by
    intro directory hlock _
    obtain ⟨earlier, hearlier, rfl⟩ := Option.map_eq_some_iff.mp hlock
    exact ⟨earlier, hearlier, rfl, rfl⟩
  held := by
    rintro - ⟨directory, hlock, hmaker⟩
    exact ⟨⟨{ directory with owner := owner }, by simp [ConfigFiles.writeOwner, hlock], hmaker⟩, rfl⟩

theorem leaves_removeLock (hother : pid ∉ files.dead → ¬ files.LockedBy pid) :
    Leaves files files.removeLock pid where
  dead := List.Subset.refl _
  generations := Nat.le_refl _
  lock := by
    intro directory hlock _
    cases hlock
  held := fun halive hlocked => absurd hlocked (hother halive)

theorem leaves_write (hlocked : files.LockedBy other) (hne : pid ≠ other) (config : γ) :
    Leaves files { files with config := config } pid where
  dead := List.Subset.refl _
  generations := Nat.le_refl _
  lock := fun directory hlock _ => ⟨directory, hlock, rfl, rfl⟩
  held := by
    rintro - ⟨directory, hlock, hmaker⟩
    obtain ⟨directory', hlock', hmaker'⟩ := hlocked
    obtain rfl := Option.some.inj (hlock.symm.trans hlock')
    exact absurd (hmaker.symm.trans hmaker') hne

theorem leaves_die (files : ConfigFiles ι γ) (other : ι) :
    Leaves files { files with dead := other :: files.dead } pid where
  dead := List.subset_cons_self _ _
  generations := Nat.le_refl _
  lock := fun directory hlock _ => ⟨directory, hlock, rfl, rfl⟩
  held := fun _ hlocked => ⟨hlocked, rfl⟩

/-- What one action can do. -/
inductive Move (pid : ι) (action : ConfigLockAction γ) (files : ConfigFiles ι γ) :
    ConfigLockPhase ι γ → ConfigFiles ι γ → ConfigLockPhase ι γ → Prop where
  | looked {phase after : ConfigLockPhase ι γ} (hholds : after.holds = true → phase.holds = true)
      (hcurrent : ∀ read, after = .updating read → files.config = read)
      (hprobed : ∀ attempt stale owner generation, after = .probing attempt stale owner generation →
        ∃ directory, files.lock = some directory ∧ directory.owner = some owner
          ∧ directory.generation = generation)
      (hretired : ∀ attempt generation, after = .retiring attempt generation →
        ∃ stale owner, phase = .probing attempt stale owner generation ∧ owner ∈ files.dead) :
      Move pid action files phase files after
  | made {attempt} (hfree : files.lock = none) :
      Move pid action files (.acquiring attempt) (files.makeLock pid) .made
  | wrote {phase after : ConfigLockPhase ι γ} (owner : Option ι) (howner : ∀ named, owner = some named → named = pid)
      (hphase : phase.holds = true) (hafter : after = .entered ∨ after = .abandoning ∨ after = .idle) :
      Move pid action files phase (files.writeOwner owner) after
  | removed {phase : ConfigLockPhase ι γ} (hphase : phase.holds = true) : Move pid action files phase files.removeLock .idle
  | retired {attempt generation} (haction : action = .proceed) :
      Move pid action files (.retiring attempt generation) files.removeLock (.cleaning attempt)
  | updated {read} (config : γ) :
      Move pid action files (.updating read) { files with config := config } .entered
  | died {phase : ConfigLockPhase ι γ} : Move pid action files phase { files with dead := pid :: files.dead } phase

def ConfigLockPhase.blank : ConfigLockPhase ι γ → Bool
  | idle | acquiring _ | judging _ | reading _ _ | cleaning _ => true
  | _ => false

theorem blank_nextAttempt (attempt : Nat) : (nextAttempt attempt : ConfigLockPhase ι γ).blank = true := by
  unfold nextAttempt
  split_ifs
  · rfl
  · rfl

theorem Move.of_blank (hafter : after.blank = true) : Move pid action files phase files after := by
  apply Move.looked
  · intro hholds
    cases after <;> simp [ConfigLockPhase.holds, ConfigLockPhase.blank] at hholds hafter
  · rintro read rfl
    cases hafter
  · rintro attempt stale owner generation rfl
    cases hafter
  · rintro attempt generation rfl
    cases hafter

theorem Move.of_holding (hphase : phase.holds = true)
    (hafter : after = .abandoning ∨ after = .leaving ∨ after = .updating files.config) :
    Move pid action files phase files after := by
  apply Move.looked
  · exact fun _ => hphase
  · rcases hafter with rfl | rfl | rfl
    · intro read hread
      cases hread
    · intro read hread
      cases hread
    · intro read hread
      exact ConfigLockPhase.updating.inj hread
  · rcases hafter with rfl | rfl | rfl <;> intro _ _ _ _ hprobing <;> cases hprobing
  · rcases hafter with rfl | rfl | rfl <;> intro _ _ hretiring <;> cases hretiring

theorem move_of_acquireStep (hstep : acquireStep pid files action phase = some (next, after)) :
    Move pid action files phase next after := by
  unfold acquireStep at hstep
  split at hstep
  · split at hstep
    · rename_i hfree
      obtain ⟨rfl, rfl⟩ := Prod.mk.inj (Option.some.inj hstep)
      exact .made hfree
    · obtain ⟨rfl, rfl⟩ := Prod.mk.inj (Option.some.inj hstep)
      exact .of_blank rfl
  · obtain ⟨rfl, rfl⟩ := Prod.mk.inj (Option.some.inj hstep)
    exact .of_blank rfl
  · split at hstep
    · obtain ⟨rfl, rfl⟩ := Prod.mk.inj (Option.some.inj hstep)
      exact .wrote _ (fun named hnamed => (Option.some.inj hnamed).symm) rfl (.inl rfl)
    · obtain ⟨rfl, rfl⟩ := Prod.mk.inj (Option.some.inj hstep)
      exact .of_holding rfl (.inl rfl)
  · obtain ⟨rfl, rfl⟩ := Prod.mk.inj (Option.some.inj hstep)
    exact .of_holding rfl (.inl rfl)
  · obtain ⟨rfl, rfl⟩ := Prod.mk.inj (Option.some.inj hstep)
    exact .wrote none (fun named hnamed => by cases hnamed) rfl (.inr (.inl rfl))
  · obtain ⟨rfl, rfl⟩ := Prod.mk.inj (Option.some.inj hstep)
    exact .removed rfl
  · obtain ⟨rfl, rfl⟩ := Prod.mk.inj (Option.some.inj hstep)
    exact .of_blank rfl
  · obtain ⟨rfl, rfl⟩ := Prod.mk.inj (Option.some.inj hstep)
    exact .wrote none (fun named hnamed => by cases hnamed) rfl (.inr (.inr rfl))
  · cases hstep

theorem move_of_takeOverStep (hstep : takeOverStep files action phase = some (next, after)) :
    Move pid action files phase next after := by
  unfold takeOverStep at hstep
  split at hstep
  · split at hstep
    · obtain ⟨rfl, rfl⟩ := Prod.mk.inj (Option.some.inj hstep)
      exact .of_blank rfl
    · obtain ⟨rfl, rfl⟩ := Prod.mk.inj (Option.some.inj hstep)
      exact .of_blank (blank_nextAttempt _)
  · obtain ⟨rfl, rfl⟩ := Prod.mk.inj (Option.some.inj hstep)
    exact .of_blank (blank_nextAttempt _)
  · split at hstep
    · rename_i owner generation hread
      obtain ⟨rfl, rfl⟩ := Prod.mk.inj (Option.some.inj hstep)
      obtain ⟨directory, hlock, hread⟩ := Option.bind_eq_some_iff.mp hread
      obtain ⟨named, hnamed, hsame⟩ := Option.map_eq_some_iff.mp hread
      obtain ⟨rfl, rfl⟩ := Prod.mk.inj hsame
      apply Move.looked
      · intro hholds
        cases hholds
      · intro _ hupdating
        cases hupdating
      · intro _ _ _ _ hprobing
        obtain ⟨-, -, rfl, rfl⟩ := ConfigLockPhase.probing.inj hprobing
        exact ⟨directory, hlock, hnamed, rfl⟩
      · intro _ _ hretiring
        cases hretiring
    · obtain ⟨rfl, rfl⟩ := Prod.mk.inj (Option.some.inj hstep)
      exact .of_blank (blank_nextAttempt _)
  · obtain ⟨rfl, rfl⟩ := Prod.mk.inj (Option.some.inj hstep)
    exact .of_blank (blank_nextAttempt _)
  · rename_i attempt stale owner generation
    split_ifs at hstep with hdead
    · obtain ⟨rfl, rfl⟩ := Prod.mk.inj (Option.some.inj hstep)
      apply Move.looked
      · intro hholds
        cases hholds
      · intro _ hupdating
        cases hupdating
      · intro _ _ _ _ hprobing
        cases hprobing
      · intro _ _ hretiring
        obtain ⟨rfl, rfl⟩ := ConfigLockPhase.retiring.inj hretiring
        exact ⟨stale, owner, rfl, hdead.2⟩
    · obtain ⟨rfl, rfl⟩ := Prod.mk.inj (Option.some.inj hstep)
      exact .of_blank (blank_nextAttempt _)
  · split at hstep
    · obtain ⟨rfl, rfl⟩ := Prod.mk.inj (Option.some.inj hstep)
      exact .retired rfl
    · obtain ⟨rfl, rfl⟩ := Prod.mk.inj (Option.some.inj hstep)
      exact .of_blank (blank_nextAttempt _)
  · obtain ⟨rfl, rfl⟩ := Prod.mk.inj (Option.some.inj hstep)
    exact .of_blank (blank_nextAttempt _)
  · obtain ⟨rfl, rfl⟩ := Prod.mk.inj (Option.some.inj hstep)
    exact .of_blank (blank_nextAttempt _)
  · obtain ⟨rfl, rfl⟩ := Prod.mk.inj (Option.some.inj hstep)
    exact .of_blank (blank_nextAttempt _)
  · cases hstep

theorem move_of_callbackStep (hstep : callbackStep files action phase = some (next, after)) :
    Move pid action files phase next after := by
  unfold callbackStep at hstep
  split at hstep
  · obtain ⟨rfl, rfl⟩ := Prod.mk.inj (Option.some.inj hstep)
    exact .of_holding rfl (.inr (.inr rfl))
  · obtain ⟨rfl, rfl⟩ := Prod.mk.inj (Option.some.inj hstep)
    exact .updated _
  · obtain ⟨rfl, rfl⟩ := Prod.mk.inj (Option.some.inj hstep)
    exact .of_holding rfl (.inr (.inl rfl))
  · obtain ⟨rfl, rfl⟩ := Prod.mk.inj (Option.some.inj hstep)
    exact .of_holding rfl (.inr (.inl rfl))
  · obtain ⟨rfl, rfl⟩ := Prod.mk.inj (Option.some.inj hstep)
    exact .removed rfl
  · obtain ⟨rfl, rfl⟩ := Prod.mk.inj (Option.some.inj hstep)
    exact .of_blank rfl
  · obtain ⟨rfl, rfl⟩ := Prod.mk.inj (Option.some.inj hstep)
    exact .wrote none (fun named hnamed => by cases hnamed) rfl (.inr (.inr rfl))
  · cases hstep

theorem move_of_step (hstep : configLockStep pid action files phase = some (next, after)) :
    pid ∉ files.dead ∧ Move pid action files phase next after := by
  unfold configLockStep at hstep
  split_ifs at hstep with hdead
  refine ⟨hdead, ?_⟩
  split at hstep
  · obtain ⟨rfl, rfl⟩ := Prod.mk.inj (Option.some.inj hstep)
    exact .died
  · obtain ⟨rfl, rfl⟩ := Prod.mk.inj (Option.some.inj hstep)
    exact .of_blank rfl
  · rw [Option.or_eq_some_iff, Option.or_eq_some_iff] at hstep
    rcases hstep with (hacquire | ⟨-, htakeOver⟩) | ⟨-, hcallback⟩
    · exact move_of_acquireStep hacquire
    · exact move_of_takeOverStep htakeOver
    · exact move_of_callbackStep hcallback

/-! ### What every action keeps -/

theorem Own.of_blank (hafter : after.blank = true) : Own pid files after where
  held := by
    intro _ hholds
    cases after <;> simp [ConfigLockPhase.holds, ConfigLockPhase.blank] at hholds hafter
  current := by
    rintro _ read rfl
    cases hafter
  probed := by
    rintro attempt stale owner generation rfl
    cases hafter
  retired := by
    rintro attempt generation rfl
    cases hafter

theorem Own.of_locked (hlocked : files.LockedBy pid)
    (hafter : after = .made ∨ after = .abandoning ∨ after = .entered) : Own pid files after where
  held := fun _ _ => hlocked
  current := by
    intro _ read hupdating
    rcases hafter with rfl | rfl | rfl <;> cases hupdating
  probed := by
    intro _ _ _ _ hprobing
    rcases hafter with rfl | rfl | rfl <;> cases hprobing
  retired := by
    intro _ _ hretiring
    rcases hafter with rfl | rfl | rfl <;> cases hretiring

theorem lockedBy_writeOwner (hlocked : files.LockedBy pid) (owner : Option ι) :
    (files.writeOwner owner).LockedBy pid := by
  obtain ⟨directory, hlock, hmaker⟩ := hlocked
  exact ⟨{ directory with owner := owner }, by simp [ConfigFiles.writeOwner, hlock], hmaker⟩

theorem genuine_writeOwner (hgenuine : files.Genuine) (hlocked : files.LockedBy pid) {owner : Option ι}
    (howner : ∀ named, owner = some named → named = pid) : (files.writeOwner owner).Genuine := by
  intro directory hlock
  obtain ⟨earlier, hearlier, rfl⟩ := Option.map_eq_some_iff.mp hlock
  refine ⟨(hgenuine earlier hearlier).1, ?_⟩
  intro named hnamed
  obtain ⟨made, hmade, rfl⟩ := hlocked
  obtain rfl := Option.some.inj (hmade.symm.trans hearlier)
  exact howner named hnamed

/-- An action of a process keeps what it holds and what every other process holds, where a takeover
moves away only what it has judged. -/
theorem Move.keeps (hmove : Move pid action files phase next after) (halive : pid ∉ files.dead)
    (hjudged : RetiresJudged pid action files phase) (hgenuine : files.Genuine)
    (hown : Own pid files phase) :
    next.Genuine ∧ Own pid next after ∧ ∀ other, other ≠ pid → Leaves files next other := by
  cases hmove with
  | looked hholds hcurrent hprobed hretired =>
      refine ⟨hgenuine, ⟨?_, ?_, ?_, ?_⟩, fun other _ => leaves_self files other⟩
      · exact fun halive hafter => hown.held halive (hholds hafter)
      · exact fun _ read hupdating => hcurrent read hupdating
      · intro attempt stale owner generation hprobing
        obtain ⟨directory, hlock, howner, rfl⟩ := hprobed attempt stale owner generation hprobing
        obtain ⟨hlt, hnamed⟩ := hgenuine directory hlock
        refine ⟨hlt, ?_⟩
        intro directory' hlock' _
        obtain rfl := Option.some.inj (hlock.symm.trans hlock')
        exact (hnamed owner howner).symm
      · intro attempt generation hretiring
        obtain ⟨stale, owner, hphase, hdead⟩ := hretired attempt generation hretiring
        obtain ⟨hlt, hmaker⟩ := hown.probed attempt stale owner generation hphase
        refine ⟨hlt, ?_⟩
        intro directory hlock hgeneration
        rw [hmaker directory hlock hgeneration]
        exact hdead
  | made hfree =>
      refine ⟨?_, .of_locked ⟨_, rfl, rfl⟩ (.inl rfl), fun other _ => leaves_makeLock hfree pid⟩
      intro directory hlock
      obtain rfl := Option.some.inj hlock
      refine ⟨Nat.lt_succ_self _, ?_⟩
      intro owner howner
      cases howner
  | wrote owner howner hphase hafter =>
      have hlocked := hown.held halive hphase
      refine ⟨genuine_writeOwner hgenuine hlocked howner, ?_,
        fun other _ => leaves_writeOwner files owner other⟩
      rcases hafter with rfl | rfl | rfl
      · exact .of_locked (lockedBy_writeOwner hlocked owner) (.inr (.inr rfl))
      · exact .of_locked (lockedBy_writeOwner hlocked owner) (.inr (.inl rfl))
      · exact .of_blank rfl
  | removed hphase =>
      obtain ⟨directory, hlock, hmaker⟩ := hown.held halive hphase
      refine ⟨?_, .of_blank rfl, ?_⟩
      · intro directory hlock
        cases hlock
      · intro other hother
        apply leaves_removeLock
        rintro - ⟨directory', hlock', hmaker'⟩
        obtain rfl := Option.some.inj (hlock.symm.trans hlock')
        exact hother (hmaker'.symm.trans hmaker)
  | retired haction =>
      refine ⟨?_, .of_blank rfl, ?_⟩
      · intro directory hlock
        cases hlock
      · intro other _
        apply leaves_removeLock
        rintro halive ⟨directory, hlock, rfl⟩
        have hgeneration := hjudged _ _ haction rfl directory hlock
        exact halive ((hown.retired _ _ rfl).2 directory hlock hgeneration)
  | updated config =>
      have hlocked := hown.held halive rfl
      exact ⟨hgenuine, .of_locked hlocked (.inr (.inr rfl)),
        fun other hother => leaves_write hlocked hother config⟩
  | died =>
      exact ⟨hgenuine, hown.stable (leaves_die files pid), fun other _ => leaves_die files pid⟩

/-- The locks of live holders, the callbacks of live processes and what they have read. -/
structure ConfigLockContract (processes : Processes ι (ConfigFiles ι γ) (ConfigLockPhase ι γ)) :
    Prop where
  exclusive : ∀ left right, left ∉ processes.shared.dead → right ∉ processes.shared.dead →
    (processes.memory left).inCallback = true → (processes.memory right).inCallback = true → left = right
  kept : ∀ holder, holder ∉ processes.shared.dead → (processes.memory holder).holds = true →
    processes.shared.LockedBy holder
  current : ∀ holder read, holder ∉ processes.shared.dead →
    processes.memory holder = .updating read → processes.shared.config = read

theorem holds_of_inCallback (hphase : phase.inCallback = true) : phase.holds = true := by
  cases phase <;> first | rfl | cases hphase

/-- Along a run in which a takeover moves away only what it has judged, live processes exclude each
other from their callbacks. -/
theorem configLock_exclusive {config : γ}
    {processes : Processes ι (ConfigFiles ι γ) (ConfigLockPhase ι γ)}
    (hleads : Processes.Leads configLockStep RetiresJudged (ConfigLockProcesses.initial config) processes) :
    ConfigLockContract processes := by
  have hstart : (ConfigLockProcesses.initial config : Processes ι _ _).shared.Genuine
      ∧ ∀ pid, Own pid (ConfigLockProcesses.initial config).shared
        ((ConfigLockProcesses.initial config : Processes ι _ _).memory pid) := by
    refine ⟨?_, fun pid => .of_blank rfl⟩
    intro directory hlock
    cases hlock
  obtain ⟨-, hown⟩ := Processes.leads_induction _ _ hstart (by
    intro pid action files phase next after hjudged hstep hgenuine hown
    obtain ⟨halive, hmove⟩ := move_of_step hstep
    obtain ⟨hgenuine', hown', hleaves⟩ := hmove.keeps halive hjudged hgenuine hown
    exact ⟨hgenuine', hown', fun other _ hother hheld => hheld.stable (hleaves other hother)⟩) hleads
  refine ⟨?_, fun holder halive hholds => (hown holder).held halive hholds,
    fun holder read halive hupdating => (hown holder).current halive read hupdating⟩
  intro left right hleft hright hinLeft hinRight
  obtain ⟨directory, hlock, rfl⟩ := (hown left).held hleft (holds_of_inCallback hinLeft)
  obtain ⟨directory', hlock', rfl⟩ := (hown right).held hright (holds_of_inCallback hinRight)
  rw [Option.some.inj (hlock.symm.trans hlock')]

/-! ### Takeovers -/

def retiresJudged (_pid : Nat) (action : ConfigLockAction Nat) (files : ConfigFiles Nat Nat)
    (phase : ConfigLockPhase Nat Nat) : Bool :=
  match action, phase with
  | .proceed, .retiring _ generation => files.lock.all (·.generation = generation)
  | _, _ => true

theorem retiresJudged_of_check {pid : Nat} {action : ConfigLockAction Nat} {files : ConfigFiles Nat Nat}
    {phase : ConfigLockPhase Nat Nat} (hcheck : retiresJudged pid action files phase = true) :
    RetiresJudged pid action files phase := by
  rintro attempt generation rfl rfl directory hlock
  simpa [retiresJudged, hlock] using hcheck

def enters (pid : Nat) : List (Nat × ConfigLockAction Nat) :=
  [(pid, .proceed), (pid, .proceed), (pid, .proceed)]

def judges (pid : Nat) : List (Nat × ConfigLockAction Nat) :=
  [(pid, .proceed), (pid, .proceed), (pid, .judge true), (pid, .proceed), (pid, .proceed)]

def takesOver (pid : Nat) : List (Nat × ConfigLockAction Nat) :=
  [(pid, .proceed), (pid, .proceed), (pid, .proceed), (pid, .proceed)]

/-- Process 0 dies in its callback, process 1 takes the lock over and reads the config. -/
theorem configLock_exclusive_takeover :
    ∃ processes : Processes Nat (ConfigFiles Nat Nat) (ConfigLockPhase Nat Nat),
      processes.memory 1 = .updating 5 ∧ ConfigLockContract processes := by
  obtain ⟨processes, hturns, hphase⟩ : ∃ processes, Processes.takeTurns configLockStep retiresJudged
      (ConfigLockProcesses.initial 5)
      (enters 0 ++ [(0, .die)] ++ judges 1 ++ takesOver 1 ++ [(1, .proceed)]) = some processes
      ∧ processes.memory 1 = .updating 5 := ⟨_, rfl, rfl⟩
  exact ⟨processes, hphase, configLock_exclusive
    (Processes.leads_of_takeTurns (fun _ _ _ _ => retiresJudged_of_check) hturns)⟩

/-- Processes 1 and 2 judge the lock of the dead process 0. Process 2 takes it over and enters its
callback; then process 1 moves the new directory away and enters its own. -/
theorem not_configLockContract_takeovers :
    ∃ processes : Processes Nat (ConfigFiles Nat Nat) (ConfigLockPhase Nat Nat),
      Processes.Leads configLockStep (fun _ _ _ _ => True) (ConfigLockProcesses.initial 5) processes
        ∧ ¬ ConfigLockContract processes := by
  obtain ⟨processes, hturns, hdead, hfirst, hsecond⟩ : ∃ processes,
      Processes.takeTurns configLockStep (fun _ _ _ _ => true) (ConfigLockProcesses.initial 5)
        (enters 0 ++ [(0, .die)] ++ judges 1 ++ judges 2 ++ takesOver 2 ++ takesOver 1) = some processes
      ∧ processes.shared.dead = [0] ∧ processes.memory 1 = .entered ∧ processes.memory 2 = .entered :=
    ⟨_, rfl, rfl, rfl, rfl⟩
  refine ⟨processes, Processes.leads_of_takeTurns (fun _ _ _ _ _ => trivial) hturns, ?_⟩
  intro hcontract
  have hsame := hcontract.exclusive 1 2 (by simp [hdead]) (by simp [hdead]) (by rw [hfirst]; rfl)
    (by rw [hsecond]; rfl)
  cases hsame

end Deckent.ConfigWriteLock
