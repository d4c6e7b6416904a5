import Deckent.Lib.Interleaving
import Mathlib.Data.List.Flatten

/-!
# The compatibility projection of the run-flow store

Each kind of record of a flow is also kept as a file, one line for each canonical row. After a commit
the writer brings the file up to date in a transaction of its own: it leaves an intent marker with a
token, rebuilds the file or appends the new rows, and records how far the file reaches. The marker is
removed once that transaction has committed. A writer that finds a marker rebuilds.

The transaction holds the write lock of the database, but reading and removing the marker do not. A
process may die between any two steps, or in the middle of an append.
-/

namespace Deckent.RunFlow

abbrev Text := List Char

/-- A row of `run_flow_records` of one kind and flow. -/
structure CanonicalRow where
  ordinal : Nat
  payloadJson : Text
  deriving DecidableEq

/-- The rows in the order of their ordinals. -/
structure CanonicalRows where
  rows : List CanonicalRow
  ascending : rows.Pairwise fun a b => a.ordinal < b.ordinal

namespace CanonicalRows

def head (canonical : CanonicalRows) : Nat :=
  (canonical.rows.getLast?.map CanonicalRow.ordinal).getD 0

theorem ordinal_le_head {canonical : CanonicalRows} {row : CanonicalRow}
    (hrow : row ∈ canonical.rows) : row.ordinal ≤ canonical.head := by
  have hascending := canonical.ascending
  rcases List.eq_nil_or_concat canonical.rows with hrows | ⟨before, last, hrows⟩
  · simp [hrows] at hrow
  · rw [hrows, List.concat_eq_append] at hrow hascending
    rcases List.mem_append.mp hrow with hbefore | hlast
    · have hlt := (List.pairwise_append.mp hascending).2.2 row hbefore last (by simp)
      simpa [head, hrows] using Nat.le_of_lt hlt
    · cases List.mem_singleton.mp hlast
      simp [head, hrows]

def numbered (head : Nat) (payloads : List Text) : List CanonicalRow :=
  payloads.mapIdx fun index payload => { ordinal := head + index + 1, payloadJson := payload }

theorem lt_ordinal_of_mem_numbered {head : Nat} {payloads : List Text} {row : CanonicalRow}
    (hrow : row ∈ numbered head payloads) : head < row.ordinal := by
  obtain ⟨index, hindex, rfl⟩ := List.mem_mapIdx.mp hrow
  change head < head + index + 1
  omega

theorem ascending_numbered (head : Nat) (payloads : List Text) :
    (numbered head payloads).Pairwise fun a b => a.ordinal < b.ordinal := by
  rw [List.pairwise_iff_getElem]
  intro i j hi hj hlt
  simp only [numbered, List.getElem_mapIdx]
  omega

def append (canonical : CanonicalRows) (payloads : List Text) : CanonicalRows where
  rows := canonical.rows ++ numbered canonical.head payloads
  ascending := List.pairwise_append.mpr
    ⟨canonical.ascending, ascending_numbered _ _, fun _ hrow _ hnew =>
      Nat.lt_of_le_of_lt (ordinal_le_head hrow) (lt_ordinal_of_mem_numbered hnew)⟩

end CanonicalRows

def joinPayloads (rows : List CanonicalRow) : Text :=
  ['\n'].intercalate (rows.map CanonicalRow.payloadJson)

structure ProjectionStore where
  canonical : CanonicalRows
  projectedOrdinal : Option Nat
  file : Option Text
  intent : Option Nat
  lock : Option Nat
  issued : Nat

def projectionHasCompleteTail (file : Option Text) (projectedOrdinal : Nat) : Bool :=
  match file with
  | none => false
  | some content =>
      if content = [] then projectedOrdinal = 0 else content.getLast? = some '\n'

structure ProjectionRead where
  canonical : CanonicalRows
  projectedOrdinal : Option Nat

inductive ProjectionPhase where
  | idle
  | committed
  | probing (token : Nat) (read : ProjectionRead)
  | observing (token : Nat) (read : ProjectionRead)
  | marking (token : Nat) (read : ProjectionRead) (hadRecoveryIntent : Bool)
  | writing (token : Nat) (read : ProjectionRead) (hadRecoveryIntent : Bool)
  | upserting (token : Nat) (read : ProjectionRead)
  | reading (token : Nat)
  | unlinking (token : Nat)

def mustRebuild (read : ProjectionRead) (hadRecoveryIntent : Bool) (file : Option Text) : Bool :=
  hadRecoveryIntent
    || read.projectedOrdinal.isNone
    || !projectionHasCompleteTail file (read.projectedOrdinal.getD 0)
    || read.canonical.head < read.projectedOrdinal.getD 0

def rebuiltText (rows : List CanonicalRow) : Text :=
  joinPayloads rows ++ if 0 < rows.length then ['\n'] else []

def projectionDelta (read : ProjectionRead) : List CanonicalRow :=
  read.canonical.rows.filter fun row => read.projectedOrdinal.getD 0 < row.ordinal

def deltaText (read : ProjectionRead) : Text :=
  let delta := projectionDelta read
  if 0 < delta.length then joinPayloads delta ++ ['\n'] else []

def projectFile (read : ProjectionRead) (hadRecoveryIntent : Bool) (file : Option Text) :
    Option Text :=
  if mustRebuild read hadRecoveryIntent file then some (rebuiltText read.canonical.rows)
  else file.map fun content => content ++ deltaText read

def releaseLock (store : ProjectionStore) : ProjectionPhase → ProjectionStore
  | .probing .. | .observing .. | .marking .. | .writing .. | .upserting .. =>
      { store with lock := none }
  | .idle | .committed | .reading _ | .unlinking _ => store

inductive ProjectionAction where
  | append (payloads : List Text)
  | proceed
  | crash
  /-- A crash in the middle of an append to the file. -/
  | tear (count : Nat)
  deriving DecidableEq

/-- The next step of `reconcileProjection`. -/
def stepReconcile (store : ProjectionStore) :
    ProjectionPhase → Option (ProjectionStore × ProjectionPhase)
  | .idle => none
  | .committed =>
      if store.lock.isNone then
        some ({ store with lock := some store.issued, issued := store.issued + 1 },
          .probing store.issued {
            canonical := store.canonical
            projectedOrdinal := store.projectedOrdinal })
      else none
  | .probing token read =>
      if read.projectedOrdinal = some read.canonical.head ∧ store.file.isSome ∧ store.intent.isNone then
        some ({ store with lock := none }, .reading token)
      else some (store, .observing token read)
  | .observing token read => some (store, .marking token read store.intent.isSome)
  | .marking token read hadRecoveryIntent =>
      some ({ store with intent := some token }, .writing token read hadRecoveryIntent)
  | .writing token read hadRecoveryIntent =>
      some ({ store with file := projectFile read hadRecoveryIntent store.file },
        .upserting token read)
  | .upserting token read =>
      some ({ store with projectedOrdinal := some read.canonical.head, lock := none },
        .reading token)
  | .reading token =>
      if store.intent = some token then some (store, .unlinking token) else some (store, .idle)
  | .unlinking _ => some ({ store with intent := none }, .idle)

/-- One step of a process. An append to the canonical rows waits for the lock. -/
def stepProjection (action : ProjectionAction) (store : ProjectionStore) (phase : ProjectionPhase) :
    Option (ProjectionStore × ProjectionPhase) :=
  match action, phase with
  | .append payloads, .idle =>
      if store.lock.isNone ∧ payloads ≠ [] then
        some ({ store with canonical := store.canonical.append payloads }, .committed)
      else none
  | .append _, _ => none
  | .proceed, phase => stepReconcile store phase
  | .crash, phase => some (releaseLock store phase, .idle)
  | .tear count, .writing token read hadRecoveryIntent =>
      if mustRebuild read hadRecoveryIntent store.file then none
      else
        some (releaseLock {
          store with file := store.file.map fun content => content ++ (deltaText read).take count }
          (.writing token read hadRecoveryIntent), .idle)
  | .tear _, _ => none

/-- Any number of processes over the rows and the file that a migration left. -/
def initialProjection (ι : Type) (canonical : CanonicalRows) (file : Option Text) :
    Processes ι ProjectionStore ProjectionPhase where
  shared := {
    canonical := canonical
    projectedOrdinal := none
    file := file
    intent := none
    lock := none
    issued := 0 }
  memory := fun _ => .idle

end Deckent.RunFlow
