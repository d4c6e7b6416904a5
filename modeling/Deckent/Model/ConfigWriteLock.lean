import Deckent.Lib.Interleaving

/-!
# The config write lock

A process holds the lock of a config file while the lock's directory exists, with the process's id in
it. A process that finds a directory waits, or takes it over: it looks at the directory's age and at its
owner, asks whether the owner is alive, and moves the directory away. Each step of it is one action on
the files, which all processes share; between two of them any other process may act or die.

A directory remembers which process made it and in which generation. No process reads these.
-/

namespace Deckent.ConfigWriteLock

variable {ι : Type} [DecidableEq ι] {γ : Type}

def lockMaxAttempts : Nat := 40

structure LockDirectory (ι : Type) where
  generation : Nat
  maker : ι
  /-- The process id in `owner.json`, where that can be read. -/
  owner : Option ι
  deriving DecidableEq

/-- What the processes share. -/
structure ConfigFiles (ι γ : Type) where
  lock : Option (LockDirectory ι)
  generations : Nat
  config : γ
  dead : List ι

/-- Where a process is in `withConfigWriteLock`. -/
inductive ConfigLockPhase (ι γ : Type) where
  | idle
  /-- About to make the directory. -/
  | acquiring (attempt : Nat)
  /-- The directory is made, its owner not written yet. -/
  | made
  /-- The owner could not be written, so the directory is to be removed. -/
  | abandoning
  /-- About to look at the age of a directory that exists. -/
  | judging (attempt : Nat)
  /-- About to read the owner. -/
  | reading (attempt : Nat) (stale : Bool)
  /-- About to ask whether the owner is alive, which was read in the given generation. -/
  | probing (attempt : Nat) (stale : Bool) (owner : ι) (generation : Nat)
  /-- About to move the directory away. -/
  | retiring (attempt : Nat) (generation : Nat)
  /-- About to remove what was moved away. -/
  | cleaning (attempt : Nat)
  /-- In the callback. -/
  | entered
  /-- In the callback, which has read the config. -/
  | updating (read : γ)
  /-- The callback has ended, and the directory is to be removed. -/
  | leaving
  deriving DecidableEq

inductive ConfigLockAction (γ : Type) where
  /-- The next operation on the files does what they say. -/
  | proceed
  /-- The next operation fails for another reason. -/
  | fail
  /-- It fails half-way and leaves a directory whose owner cannot be read. -/
  | failPartly
  /-- The age of the directory is compared with the limit. -/
  | judge (stale : Bool)
  /-- The callback writes the config. -/
  | write (config : γ)
  /-- The callback returns or throws. -/
  | finish
  | die

def nextAttempt (attempt : Nat) : ConfigLockPhase ι γ :=
  if attempt + 1 < lockMaxAttempts then .acquiring (attempt + 1) else .idle

def ConfigFiles.makeLock (files : ConfigFiles ι γ) (pid : ι) : ConfigFiles ι γ :=
  { files with
    lock := some ⟨files.generations, pid, none⟩
    generations := files.generations + 1 }

def ConfigFiles.writeOwner (files : ConfigFiles ι γ) (owner : Option ι) : ConfigFiles ι γ :=
  { files with lock := files.lock.map fun directory => { directory with owner := owner } }

def ConfigFiles.removeLock (files : ConfigFiles ι γ) : ConfigFiles ι γ :=
  { files with lock := none }

/-- `mkdirSync` and `writeFileSync` in `acquireConfigWriteLock`. -/
def acquireStep (pid : ι) (files : ConfigFiles ι γ) :
    ConfigLockAction γ → ConfigLockPhase ι γ → Option (ConfigFiles ι γ × ConfigLockPhase ι γ)
  | .proceed, .acquiring attempt =>
      match files.lock with
      | none => some (files.makeLock pid, .made)
      | some _ => some (files, .judging attempt)
  | .fail, .acquiring _ => some (files, .idle)
  | .proceed, .made =>
      match files.lock with
      | some _ => some (files.writeOwner (some pid), .entered)
      | none => some (files, .abandoning)
  | .fail, .made => some (files, .abandoning)
  | .failPartly, .made => some (files.writeOwner none, .abandoning)
  | .proceed, .abandoning => some (files.removeLock, .idle)
  | .fail, .abandoning => some (files, .idle)
  | .failPartly, .abandoning => some (files.writeOwner none, .idle)
  | _, _ => none

/-- `tryTakeOverStaleLock`. -/
def takeOverStep (files : ConfigFiles ι γ) :
    ConfigLockAction γ → ConfigLockPhase ι γ → Option (ConfigFiles ι γ × ConfigLockPhase ι γ)
  | .judge stale, .judging attempt =>
      match files.lock with
      | some _ => some (files, .reading attempt stale)
      | none => some (files, nextAttempt attempt)
  | .fail, .judging attempt => some (files, nextAttempt attempt)
  | .proceed, .reading attempt stale =>
      match files.lock.bind fun directory => directory.owner.map fun owner =>
          (owner, directory.generation) with
      | some (owner, generation) => some (files, .probing attempt stale owner generation)
      | none => some (files, nextAttempt attempt)
  | .fail, .reading attempt _ => some (files, nextAttempt attempt)
  | .proceed, .probing attempt stale owner generation =>
      if stale = true ∧ owner ∈ files.dead then some (files, .retiring attempt generation)
      else some (files, nextAttempt attempt)
  | .proceed, .retiring attempt _ =>
      match files.lock with
      | some _ => some (files.removeLock, .cleaning attempt)
      | none => some (files, nextAttempt attempt)
  | .fail, .retiring attempt _ => some (files, nextAttempt attempt)
  | .proceed, .cleaning attempt => some (files, nextAttempt attempt)
  | .fail, .cleaning attempt => some (files, nextAttempt attempt)
  | _, _ => none

/-- The callback, and `rmSync` behind it. -/
def callbackStep (files : ConfigFiles ι γ) :
    ConfigLockAction γ → ConfigLockPhase ι γ → Option (ConfigFiles ι γ × ConfigLockPhase ι γ)
  | .proceed, .entered => some (files, .updating files.config)
  | .write config, .updating _ => some ({ files with config := config }, .entered)
  | .finish, .entered => some (files, .leaving)
  | .finish, .updating _ => some (files, .leaving)
  | .proceed, .leaving => some (files.removeLock, .idle)
  | .fail, .leaving => some (files, .idle)
  | .failPartly, .leaving => some (files.writeOwner none, .idle)
  | _, _ => none

/-- One action of a process, which a dead process does not take. -/
def configLockStep (pid : ι) (action : ConfigLockAction γ) (files : ConfigFiles ι γ)
    (phase : ConfigLockPhase ι γ) : Option (ConfigFiles ι γ × ConfigLockPhase ι γ) :=
  if pid ∈ files.dead then none
  else match action, phase with
    | .die, phase => some ({ files with dead := pid :: files.dead }, phase)
    | .proceed, .idle => some (files, .acquiring 0)
    | action, phase =>
        ((acquireStep pid files action phase).or (takeOverStep files action phase)).or
          (callbackStep files action phase)

def ConfigLockProcesses.initial (config : γ) : Processes ι (ConfigFiles ι γ) (ConfigLockPhase ι γ) where
  shared := { lock := none, generations := 0, config := config, dead := [] }
  memory := fun _ => .idle

end Deckent.ConfigWriteLock
