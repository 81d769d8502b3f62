import JobRoster.MutationLock.Basic
import Mathlib.Tactic.Common

/-!
# The steps of the mutation lock

What each atomic step does to the memory of the lock: when it is possible, and which parts of the memory it leaves
alone. At the end, a group in which nobody is interested can be taken hold of, and the lock is afterwards what it was
before (`acquire_of_no_entry`); a lock that is free gives any scope (`acquire_free`).
-/

namespace JobRoster.LockState

/-! ### The epoch -/

theorem takeShare_eq_some_iff {m m' : LockState} :
    m.takeShare = some m' ↔ m.taken = false ∧ m' = { m with shares := m.shares + 1 } := by
  unfold takeShare
  cases m.taken <;> simp [@eq_comm _ m']

theorem takeWhole_eq_some_iff {m m' : LockState} :
    m.takeWhole = some m' ↔ (m.taken = false ∧ m.shares = 0) ∧ m' = { m with taken := true } := by
  unfold takeWhole
  cases m.taken <;> simp [@eq_comm _ m']

@[simp] theorem getHandle_shares (m : LockState) (g : String) : (m.getHandle g).2.shares = m.shares := by
  unfold getHandle
  split <;> rfl

@[simp] theorem getHandle_taken (m : LockState) (g : String) : (m.getHandle g).2.taken = m.taken := by
  unfold getHandle
  split <;> rfl

@[simp] theorem giveHandle_shares (m : LockState) (n : Nat) : (m.giveHandle n).shares = m.shares := by
  unfold giveHandle
  split
  · split <;> rfl
  · rfl

@[simp] theorem giveHandle_taken (m : LockState) (n : Nat) : (m.giveHandle n).taken = m.taken := by
  unfold giveHandle
  split
  · split <;> rfl
  · rfl

/-- An entry is removed, with its mutex, when nobody has a handle on it; otherwise nothing happens. -/
theorem evict_cases (m : LockState) (g : String) :
    (∃ n x, m.entries[g]? = some n ∧ m.mutexes[n]? = some x ∧ x.handles = 0 ∧
        m.evict g = { m with entries := m.entries.erase g, mutexes := m.mutexes.erase n }) ∨
      (∀ n x, m.entries[g]? = some n → m.mutexes[n]? = some x → x.handles ≠ 0) ∧ m.evict g = m := by
  unfold evict
  cases hn : m.entries[g]? with
  | none => exact .inr ⟨fun n x h => by simp at h, rfl⟩
  | some n =>
    cases hx : m.mutexes[n]? with
    | none => exact .inr ⟨fun n' x h h' => by cases h; simp [hx] at h', by simp only [hx]⟩
    | some x =>
      by_cases h0 : x.handles = 0
      · exact .inl ⟨n, x, rfl, hx, h0, by simp only [hx, h0, if_true]⟩
      · refine .inr ⟨fun n' x' h h' => ?_, by simp only [hx, h0, if_false]⟩
        cases h
        rw [hx] at h'
        cases h'
        exact h0

@[simp] theorem evict_shares (m : LockState) (g : String) : (m.evict g).shares = m.shares := by
  obtain ⟨_, _, _, _, _, h⟩ | ⟨_, h⟩ := m.evict_cases g <;> rw [h]

@[simp] theorem evict_taken (m : LockState) (g : String) : (m.evict g).taken = m.taken := by
  obtain ⟨_, _, _, _, _, h⟩ | ⟨_, h⟩ := m.evict_cases g <;> rw [h]

/-! ### The mutexes -/

theorem getElem?_unusedNumber (m : LockState) : m.mutexes[m.unusedNumber]? = none := by
  apply Std.ExtTreeMap.getElem?_eq_none
  intro hmem
  unfold unusedNumber at hmem
  split at hmem
  · next k hk =>
    have hle := (Std.ExtTreeMap.maxKey?_eq_some_iff_mem_and_forall.1 hk).2 _ hmem
    rw [Std.isLE_compare] at hle
    omega
  · next hk =>
    rw [Std.ExtTreeMap.maxKey?_eq_none_iff] at hk
    simp [hk] at hmem

theorem modify_eq_insert {α : Type} {mutexes : Std.ExtTreeMap Nat α} {n : Nat} {x : α} {f : α → α}
    (h : mutexes[n]? = some x) : mutexes.modify n f = mutexes.insert n (f x) := by
  ext k : 1
  rw [Std.ExtTreeMap.getElem?_modify, Std.ExtTreeMap.getElem?_insert, h, Option.map_some]

theorem getHandle_of_entry {m : LockState} {g : String} {n : Nat} (h : m.entries[g]? = some n) :
    m.getHandle g = (n, { m with
      mutexes := m.mutexes.modify n fun mutex => { mutex with handles := mutex.handles + 1 } }) := by
  simp [getHandle, h]

theorem getHandle_of_no_entry {m : LockState} {g : String} (h : m.entries[g]? = none) :
    m.getHandle g = (m.unusedNumber, { m with
      entries := m.entries.insert g m.unusedNumber
      mutexes := m.mutexes.insert m.unusedNumber ⟨false, 1⟩ }) := by
  simp [getHandle, h]

theorem lockMutex_eq_some_iff {m m' : LockState} {n : Nat} :
    m.lockMutex n = some m' ↔ ∃ x, m.mutexes[n]? = some x ∧ x.locked = false ∧
      m' = { m with mutexes := m.mutexes.insert n { x with locked := true } } := by
  unfold lockMutex
  cases hx : m.mutexes[n]? with
  | none => simp
  | some x => cases hl : x.locked <;> simp [hl, @eq_comm _ m']

theorem hasEntry_of_entry {m : LockState} {g : String} {n : Nat} (h : m.entries[g]? = some n) :
    m.hasEntry n = true := by
  simp only [hasEntry, List.any_eq_true]
  exact ⟨(g, n), Std.ExtTreeMap.mem_toList_iff_getElem?_eq_some.2 h, by simp⟩

/-- As long as a mutex has its entry, giving back a handle only lowers the number of its handles. -/
theorem giveHandle_of_entry {m : LockState} {g : String} {n : Nat} {x : Mutex}
    (h : m.entries[g]? = some n) (hx : m.mutexes[n]? = some x) :
    m.giveHandle n = { m with mutexes := m.mutexes.insert n { x with handles := x.handles - 1 } } := by
  simp [giveHandle, hx, hasEntry_of_entry h]

/-! ### Taking hold and letting go alone -/

theorem erase_eq_of_getElem? {α β : Type} [Ord α] [Std.TransOrd α] [Std.LawfulEqOrd α] {t u : Std.ExtTreeMap α β}
    {k : α} (hk : u[k]? = none) (h : ∀ a, k ≠ a → t[a]? = u[a]?) : t.erase k = u := by
  ext a : 1
  rw [Std.ExtTreeMap.getElem?_erase]
  by_cases ha : k = a
  · subst ha
    simp [hk]
  · simp [ha, h]

/-- **Nobody being interested in a group, a thread gets hold of it**, whoever holds other groups, and it leaves no trace
when it lets go. -/
theorem acquire_of_no_entry {m : LockState} {g : String} (htaken : m.taken = false) (hg : m.entries[g]? = none) :
    ∃ n m', m.acquire .perGroup (.group g) = some (.group g n, m') ∧ m'.taken = false ∧
      m'.entries = m.entries.insert g n ∧ m'.release (.group g n) = m := by
  obtain ⟨shares, taken, entries, mutexes⟩ := m
  subst htaken
  have hshare : takeShare ⟨shares, false, entries, mutexes⟩ = some ⟨shares + 1, false, entries, mutexes⟩ := rfl
  have hunused := getElem?_unusedNumber ⟨shares + 1, false, entries, mutexes⟩
  have hhandle := getHandle_of_no_entry (m := ⟨shares + 1, false, entries, mutexes⟩) hg
  generalize unusedNumber _ = n at hunused hhandle
  have hentry : (entries.insert g n)[g]? = some n := Std.ExtTreeMap.getElem?_insert_self
  have hlock : lockMutex ⟨shares + 1, false, entries.insert g n, mutexes.insert n ⟨false, 1⟩⟩ n =
      some ⟨shares + 1, false, entries.insert g n, (mutexes.insert n ⟨false, 1⟩).insert n ⟨true, 1⟩⟩ :=
    lockMutex_eq_some_iff.2 ⟨⟨false, 1⟩, Std.ExtTreeMap.getElem?_insert_self, rfl, rfl⟩
  refine ⟨n, ⟨shares + 1, false, entries.insert g n, (mutexes.insert n ⟨false, 1⟩).insert n ⟨true, 1⟩⟩, ?_, rfl, rfl, ?_⟩
  · rw [acquire, hshare, Option.bind_eq_bind, Option.bind_some]
    simp only [hhandle, hlock]
    rfl
  · rw [release, unlockMutex, modify_eq_insert Std.ExtTreeMap.getElem?_insert_self,
      giveHandle_of_entry hentry Std.ExtTreeMap.getElem?_insert_self, evict]
    simp only [hentry, Std.ExtTreeMap.getElem?_insert_self, if_true]
    rw [erase_eq_of_getElem? hg, erase_eq_of_getElem? hunused]
    · rfl
    · intro k hk
      simp [Std.ExtTreeMap.getElem?_insert, hk]
    · intro h hne
      simp [Std.ExtTreeMap.getElem?_insert, hne]

/-- **Nobody being in the way, a thread gets hold of any scope**, and it leaves no trace when it lets go. -/
theorem acquire_free (σ : LockStrategy) (scope : Scope) :
    ∃ guard m, free.acquire σ scope = some (guard, m) ∧ m.release guard = free := by
  have whole : ∃ guard m, (free.takeWhole.map fun m => (Guard.whole, m)) = some (guard, m) ∧ m.release guard = free :=
    ⟨.whole, { free with taken := true }, rfl, rfl⟩
  cases σ with
  | global => exact whole
  | perGroup =>
    cases scope with
    | all => exact whole
    | group g =>
      obtain ⟨n, m, hacquire, -, -, hrelease⟩ :=
        acquire_of_no_entry (m := free) (g := g) rfl Std.ExtTreeMap.getElem?_empty
      exact ⟨.group g n, m, hacquire, hrelease⟩

end JobRoster.LockState
