import JobRoster.Settings.Basic
import Std.Data.ExtTreeMap

/-!
# The mutation lock

Every change holds the mutation lock while it lasts, either for one group or for all of them. The lock has an epoch,
which is held by any number of threads together or by one thread alone, and a mutex for each group that someone is
interested in. For a group under the strategy `perGroup`, a thread takes a share of the epoch, gets a handle on the
mutex of the group, which is made if there is none, and locks it. In every other case it takes the whole epoch.

A mutex is found by the name of its group as long as it has an entry. A thread that lets go of a group unlocks the
mutex, gives its handle back, removes the entry if nobody else has a handle, and gives back its share of the epoch.
A mutex that has lost its entry may live on, hence mutexes have numbers of their own.

The steps of this module change the memory of the lock, one atomic step each; a step that has to wait has no result.
-/

namespace JobRoster

/-- What a change holds the lock for. -/
inductive Scope where
  /-- One group. -/
  | group (name : String)
  /-- All groups. -/
  | all
  deriving DecidableEq, Repr

/-- The mutex of a group. -/
structure Mutex where
  /-- Whether a thread has locked it. -/
  locked : Bool
  /-- How many handles threads have on it. -/
  handles : Nat
  deriving DecidableEq, Repr

/-- The memory of the mutation lock. -/
structure LockState where
  /-- How many shares of the epoch are taken. -/
  shares : Nat
  /-- Whether the whole epoch is taken. -/
  taken : Bool
  /-- The numbers of the mutexes that have an entry, by group. -/
  entries : Std.ExtTreeMap String Nat
  /-- The mutexes that have an entry or a handle, by number. -/
  mutexes : Std.ExtTreeMap Nat Mutex

/-- Someone's hold on the lock. -/
inductive Guard where
  /-- The whole epoch. -/
  | whole
  /-- A share of the epoch, and the locked mutex of a group. -/
  | group (name : String) (mutex : Nat)
  deriving DecidableEq, Repr

/-- Whether a hold on one scope makes a request for another one wait. -/
def LockStrategy.waits : LockStrategy → Scope → Scope → Bool
  | .perGroup, .group g, .group h => g = h
  | _, _, _ => true

namespace LockState

/-- Nobody holds or waits for anything. -/
def free : LockState := ⟨0, false, ∅, ∅⟩

instance : Inhabited LockState := ⟨free⟩

/-! ### Steps -/

/-- Takes a share of the epoch. -/
def takeShare (m : LockState) : Option LockState :=
  if m.taken then none else some { m with shares := m.shares + 1 }

/-- Takes the whole epoch. -/
def takeWhole (m : LockState) : Option LockState :=
  if m.taken || m.shares ≠ 0 then none else some { m with taken := true }

/-- A number that no mutex has. -/
def unusedNumber (m : LockState) : Nat :=
  match m.mutexes.maxKey? with
  | some n => n + 1
  | none => 0

/-- Gets a handle on the mutex of a group, whose entry is made if there is none. -/
def getHandle (m : LockState) (group : String) : Nat × LockState :=
  match m.entries[group]? with
  | some n =>
    (n, { m with mutexes := m.mutexes.modify n fun mutex => { mutex with handles := mutex.handles + 1 } })
  | none =>
    let n := m.unusedNumber
    (n, { m with entries := m.entries.insert group n, mutexes := m.mutexes.insert n ⟨false, 1⟩ })

/-- Locks a mutex. -/
def lockMutex (m : LockState) (n : Nat) : Option LockState :=
  match m.mutexes[n]? with
  | some mutex =>
    if mutex.locked then none
    else some { m with mutexes := m.mutexes.insert n { mutex with locked := true } }
  | none => none

/-- Unlocks a mutex. -/
def unlockMutex (m : LockState) (n : Nat) : LockState :=
  { m with mutexes := m.mutexes.modify n fun mutex => { mutex with locked := false } }

/-- Whether a mutex has an entry. -/
def hasEntry (m : LockState) (n : Nat) : Bool := m.entries.toList.any fun entry => entry.2 = n

/-- Gives back a handle on a mutex; one without handles and without entry is gone. -/
def giveHandle (m : LockState) (n : Nat) : LockState :=
  match m.mutexes[n]? with
  | some mutex =>
    if mutex.handles ≤ 1 && !m.hasEntry n then { m with mutexes := m.mutexes.erase n }
    else { m with mutexes := m.mutexes.insert n { mutex with handles := mutex.handles - 1 } }
  | none => m

/-- Removes the entry of a group if nobody has a handle on its mutex. -/
def evict (m : LockState) (group : String) : LockState :=
  match m.entries[group]? with
  | some n =>
    match m.mutexes[n]? with
    | some mutex =>
      if mutex.handles = 0 then { m with entries := m.entries.erase group, mutexes := m.mutexes.erase n } else m
    | none => m
  | none => m

/-- Gives back a share of the epoch. -/
def giveShare (m : LockState) : LockState := { m with shares := m.shares - 1 }

/-- Gives back the whole epoch. -/
def giveWhole (m : LockState) : LockState := { m with taken := false }

/-! ### Taking hold and letting go without anyone in between -/

/-- Takes hold of a scope, all steps at once. -/
def acquire (m : LockState) : LockStrategy → Scope → Option (Guard × LockState)
  | .perGroup, .group g => do
    let m ← m.takeShare
    let (n, m) := m.getHandle g
    let m ← m.lockMutex n
    return (.group g n, m)
  | _, _ => m.takeWhole.map fun m => (.whole, m)

/-- Lets go of a hold, all steps at once. -/
def release (m : LockState) : Guard → LockState
  | .whole => m.giveWhole
  | .group g n => ((m.unlockMutex n).giveHandle n |>.evict g).giveShare

end LockState

end JobRoster
