import JobRoster.MutationLock.Basic
import Mathlib.Algebra.BigOperators.Group.Finset.Basic
import Mathlib.Algebra.Order.BigOperators.Group.Finset
import Mathlib.Data.Fintype.Basic
import Mathlib.Logic.Relation

/-!
# Threads at the mutation lock

The memory of the lock with any number of threads around it, each of them somewhere on its way in or out. A thread
makes one atomic step at a time, in any order with the steps of the others: it asks for a scope, takes a share of the
epoch or the whole of it, gets its handle, locks the mutex, holds its guard, and goes back the same way. A step that
has to wait is not possible. A thread has one guard at a time: where one and the same thread asks again while its guard
is alive, it waits as another thread would, and counts as one.

Main statements:

* `moves_of_acquire` and `moves_release`: taking hold and letting go, all steps at once, are made of these steps.
* `count_update`: when one thread changes its phase, how many threads are in a kind of phase changes with it.
-/

namespace JobRoster

open Relation

/-! ### Phases and moves -/

/-- Where a thread stands with the lock. -/
inductive Phase where
  /-- It wants nothing of the lock. -/
  | outside
  /-- It waits for the epoch. -/
  | asking (scope : Scope)
  /-- It has a share of the epoch. -/
  | sharing (group : String)
  /-- It has a handle on the mutex of its group too, and waits for the mutex. -/
  | waiting (group : String) (mutex : Nat)
  /-- Its guard is alive. -/
  | holding (guard : Guard)
  /-- It has unlocked the mutex. -/
  | unlocked (group : String) (mutex : Nat)
  /-- It has given back its handle, and the entry of its group is still to be removed. -/
  | handleless (group : String)
  /-- It has its share of the epoch left. -/
  | leaving
  deriving DecidableEq, Repr

/-- **An atomic step of a thread**: what it does to the memory of the lock, and to its own phase. -/
inductive Move : LockStrategy → LockState × Phase → LockState × Phase → Prop where
  /-- It asks for a scope. -/
  | ask {σ : LockStrategy} {m : LockState} (scope : Scope) : Move σ (m, .outside) (m, .asking scope)
  /-- It takes a share of the epoch. -/
  | takeShare {m m' : LockState} {g : String} :
      m.takeShare = some m' → Move .perGroup (m, .asking (.group g)) (m', .sharing g)
  /-- It takes the whole epoch, which is its guard. -/
  | takeWhole {σ : LockStrategy} {m m' : LockState} {scope : Scope} :
      σ = .global ∨ scope = .all → m.takeWhole = some m' →
        Move σ (m, .asking scope) (m', .holding .whole)
  /-- It gets a handle on the mutex of its group. -/
  | getHandle {σ : LockStrategy} {m : LockState} {g : String} :
      Move σ (m, .sharing g) ((m.getHandle g).2, .waiting g (m.getHandle g).1)
  /-- It locks the mutex, which makes its guard. -/
  | lockMutex {σ : LockStrategy} {m m' : LockState} {g : String} {n : Nat} :
      m.lockMutex n = some m' → Move σ (m, .waiting g n) (m', .holding (.group g n))
  /-- Its guard ends: it unlocks the mutex. -/
  | unlockMutex {σ : LockStrategy} {m : LockState} {g : String} {n : Nat} :
      Move σ (m, .holding (.group g n)) (m.unlockMutex n, .unlocked g n)
  /-- It gives back its handle. -/
  | giveHandle {σ : LockStrategy} {m : LockState} {g : String} {n : Nat} :
      Move σ (m, .unlocked g n) (m.giveHandle n, .handleless g)
  /-- It removes the entry of its group if nobody has a handle on the mutex. -/
  | evict {σ : LockStrategy} {m : LockState} {g : String} :
      Move σ (m, .handleless g) (m.evict g, .leaving)
  /-- It gives back its share of the epoch. -/
  | giveShare {σ : LockStrategy} {m : LockState} : Move σ (m, .leaving) (m.giveShare, .outside)
  /-- Its guard ends: it gives back the whole epoch. -/
  | giveWhole {σ : LockStrategy} {m : LockState} :
      Move σ (m, .holding .whole) (m.giveWhole, .outside)

/-- A thread is on its way in or out: it is not outside, and it has no guard. -/
def Phase.isUnderWay : Phase → Bool
  | outside | holding _ => false
  | _ => true

theorem Phase.ne_holding_of_isUnderWay {p : Phase} (h : p.isUnderWay = true) (guard : Guard) : p ≠ .holding guard := by
  rintro rfl
  cases h

/-- A step of a thread on its way in or out. -/
def Move.UnderWay (σ : LockStrategy) (a b : LockState × Phase) : Prop := a.2.isUnderWay = true ∧ Move σ a b

/-- A thread that asked for a scope and takes hold of it at once makes the moves on the way in. -/
theorem moves_of_acquire {σ : LockStrategy} {scope : Scope} {m m' : LockState} {guard : Guard}
    (h : m.acquire σ scope = some (guard, m')) :
    ReflTransGen (Move.UnderWay σ) (m, .asking scope) (m', .holding guard) := by
  have whole {τ : LockStrategy} (hτ : τ = .global ∨ scope = .all)
      (h : (m.takeWhole.map fun m => (Guard.whole, m)) = some (guard, m')) :
      ReflTransGen (Move.UnderWay τ) (m, .asking scope) (m', .holding guard) := by
    obtain ⟨m₁, hm, h⟩ := Option.map_eq_some_iff.1 h
    cases h
    exact .single ⟨rfl, .takeWhole hτ hm⟩
  cases σ with
  | global => exact whole (.inl rfl) h
  | perGroup =>
    cases scope with
    | all => exact whole (.inr rfl) h
    | group g =>
      simp only [LockState.acquire, Option.bind_eq_bind, Option.bind_eq_some_iff, Option.pure_def,
        Option.some.injEq, Prod.mk.injEq] at h
      obtain ⟨m₁, hs, m₂, hl, rfl, rfl⟩ := h
      exact ((ReflTransGen.single ⟨rfl, .takeShare hs⟩).tail ⟨rfl, .getHandle⟩).tail ⟨rfl, .lockMutex hl⟩

/-- A thread that lets go of its hold at once makes the move that ends its guard, and those on the way out. -/
theorem moves_release {σ : LockStrategy} (m : LockState) (guard : Guard) :
    ∃ a, Move σ (m, .holding guard) a ∧ ReflTransGen (Move.UnderWay σ) a (m.release guard, .outside) := by
  cases guard with
  | whole => exact ⟨_, .giveWhole, .refl⟩
  | group g n =>
    exact ⟨_, .unlockMutex,
      ((ReflTransGen.single ⟨rfl, .giveHandle⟩).tail ⟨rfl, .evict⟩).tail ⟨rfl, .giveShare⟩⟩

/-! ### The lock and the threads around it -/

variable {ι : Type*}

/-- A mutation lock and the threads around it. -/
@[ext]
structure Crowd (ι : Type*) where
  /-- The memory of the lock. -/
  lock : LockState
  /-- Where each thread stands. -/
  phase : ι → Phase

namespace Crowd

/-- Nobody wants anything of a lock that is free. -/
def start : Crowd ι := ⟨.free, fun _ => .outside⟩

variable [DecidableEq ι]

/-- **A step**: one thread moves. -/
inductive Step (σ : LockStrategy) : Crowd ι → Crowd ι → Prop
  /-- The thread `t` moves. -/
  | mk {c : Crowd ι} (t : ι) {m : LockState} {p : Phase} :
      Move σ (c.lock, c.phase t) (m, p) → Step σ c ⟨m, Function.update c.phase t p⟩

/-- A state that is reached from the start by steps of any threads in any order. -/
def Reached (σ : LockStrategy) (c : Crowd ι) : Prop := ReflTransGen (Step σ) start c

/-- The moves of one thread are steps. -/
theorem steps_of_moves {σ : LockStrategy} {c : Crowd ι} {t : ι} {a : LockState × Phase}
    (h : ReflTransGen (Move σ) (c.lock, c.phase t) a) :
    ReflTransGen (Step σ) c ⟨a.1, Function.update c.phase t a.2⟩ := by
  induction h with
  | refl => rw [Function.update_eq_self]
  | @tail a b _ hm ih =>
    have hm' : Move σ (a.1, Function.update c.phase t a.2 t) (b.1, b.2) := by
      rwa [Function.update_self]
    have := ih.tail (Step.mk t hm')
    rwa [Function.update_idem] at this

/-- A thread takes hold of a scope, all steps at once. -/
theorem steps_of_acquire {σ : LockStrategy} {c : Crowd ι} {t : ι} (ht : c.phase t = .outside) {scope : Scope}
    {guard : Guard} {m : LockState} (h : c.lock.acquire σ scope = some (guard, m)) :
    ReflTransGen (Step σ) c ⟨m, Function.update c.phase t (.holding guard)⟩ := by
  have hm : ReflTransGen (Move σ) (c.lock, c.phase t) (m, .holding guard) := by
    rw [ht]
    exact .head (.ask scope) ((moves_of_acquire h).lift id fun _ _ hm => hm.2)
  exact steps_of_moves hm

/-- A thread lets go of its hold, all steps at once. -/
theorem steps_release {σ : LockStrategy} {c : Crowd ι} {t : ι} {guard : Guard} (ht : c.phase t = .holding guard) :
    ReflTransGen (Step σ) c ⟨c.lock.release guard, Function.update c.phase t .outside⟩ := by
  have hm : ReflTransGen (Move σ) (c.lock, c.phase t) (c.lock.release guard, .outside) := by
    obtain ⟨a, hend, hout⟩ := moves_release (σ := σ) c.lock guard
    rw [ht]
    exact .head hend (hout.lift id fun _ _ hm => hm.2)
  exact steps_of_moves hm

end Crowd

/-! ### Counting threads -/

section Counting

variable [Fintype ι]

/-- How many threads are in a phase of some kind. -/
def count (kind : Phase → Bool) (phase : ι → Phase) : ℕ := ∑ t, (kind (phase t)).toNat

theorem count_pos_iff {kind : Phase → Bool} {phase : ι → Phase} :
    0 < count kind phase ↔ ∃ t, kind (phase t) = true := by
  simp [count, Finset.sum_pos_iff, Nat.pos_iff_ne_zero]

theorem eq_of_count_le_one {kind : Phase → Bool} {phase : ι → Phase} (h : count kind phase ≤ 1) {t u : ι}
    (ht : kind (phase t) = true) (hu : kind (phase u) = true) : t = u := by
  classical
  by_contra hne
  have hpair : ∑ v ∈ {t, u}, (kind (phase v)).toNat ≤ count kind phase :=
    Finset.sum_le_sum_of_subset (Finset.subset_univ _)
  rw [Finset.sum_pair hne, ht, hu] at hpair
  simp only [Bool.toNat_true] at hpair
  omega

variable [DecidableEq ι]

/-- When a thread changes its phase, it leaves the count of its old phase and joins that of its new one. -/
theorem count_update (kind : Phase → Bool) (phase : ι → Phase) (t : ι) (p : Phase) :
    count kind (Function.update phase t p) + (kind (phase t)).toNat = count kind phase + (kind p).toNat := by
  have hrest : ∑ u ∈ Finset.univ.erase t, (kind (Function.update phase t p u)).toNat =
      ∑ u ∈ Finset.univ.erase t, (kind (phase u)).toNat :=
    Finset.sum_congr rfl fun u hu => by rw [Function.update_of_ne (Finset.ne_of_mem_erase hu)]
  unfold count
  rw [← Finset.add_sum_erase _ _ (Finset.mem_univ t), ← Finset.add_sum_erase _ _ (Finset.mem_univ t),
    Function.update_self, hrest]
  omega

/-- A change between phases of one kind leaves the count alone. -/
theorem count_update_of_eq {kind : Phase → Bool} {phase : ι → Phase} {t : ι} {p : Phase}
    (h : kind p = kind (phase t)) : count kind (Function.update phase t p) = count kind phase := by
  have := count_update kind phase t p
  rw [h] at this
  omega

end Counting

end JobRoster
