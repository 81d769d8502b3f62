import JobRoster.Proofs.MutationLock.Memory
import JobRoster.Proofs.MutationLock.Threads

/-!
# Mutual exclusion at the mutation lock

Entries of groups come and go while threads hold and wait for mutexes, so a group may have had any number of mutexes.
The invariant that keeps two guards of one group apart is that whoever has a handle on a mutex has it on the one that
the entry of its group names (`MutexInv.entry`); a mutex with a handle never loses its entry, since the handles are
counted (`MutexInv.mutex`). The epoch keeps the guard of the whole apart from all others (`EpochInv`).

Main statements:

* `guards_exclude`: two guards that are alive at once are guards of two different groups, of a lock with the strategy
  `perGroup`.
* `waits_eq_false_iff`: the table of who waits for whom (`LockStrategy.waits`) tells which guards are alive at once in
  no state that is reached.
-/

namespace JobRoster

open Relation

/-! ### Kinds of phases -/

namespace Phase

/-- The mutex that a thread has a handle on, with its group. -/
def handle? : Phase → Option (String × Nat)
  | waiting g n | holding (.group g n) | unlocked g n => some (g, n)
  | _ => none

/-- A thread has a share of the epoch. -/
def hasShare : Phase → Bool
  | sharing _ | waiting .. | holding (.group ..) | unlocked .. | handleless _ | leaving => true
  | _ => false

/-- A thread has the whole epoch. -/
def hasWhole : Phase → Bool
  | holding .whole => true
  | _ => false

/-- A thread has a handle on a mutex. -/
def hasHandle (n : Nat) (p : Phase) : Bool := p.handle?.any fun handle => handle.2 = n

/-- A thread has locked a mutex. -/
def hasLocked (n : Nat) : Phase → Bool
  | holding (.group _ k) => k = n
  | _ => false

/-- A thread has got a handle for a group, and has not yet tried to remove the entry. -/
def attends (g : String) : Phase → Bool
  | handleless h => h = g
  | p => p.handle?.any fun handle => handle.1 = g

theorem hasHandle_of_handle? {p : Phase} {g : String} {n : Nat} (h : p.handle? = some (g, n)) :
    p.hasHandle n = true := by
  simp [hasHandle, h]

theorem attends_of_handle? {p : Phase} {g : String} {n : Nat} (h : p.handle? = some (g, n)) :
    p.attends g = true := by
  cases p <;> simp_all [attends, handle?]

theorem hasHandle_of_hasLocked {p : Phase} {n : Nat} (h : p.hasLocked n = true) : p.hasHandle n = true := by
  obtain ⟨g, k, rfl, hk⟩ : ∃ g k, p = holding (.group g k) ∧ k = n := by
    unfold hasLocked at h
    split at h
    · exact ⟨_, _, rfl, of_decide_eq_true h⟩
    · cases h
  exact decide_eq_true hk

theorem exists_handle?_of_hasHandle {p : Phase} {n : Nat} (h : p.hasHandle n = true) :
    ∃ g, p.handle? = some (g, n) := by
  obtain ⟨⟨g, k⟩, hp, hk⟩ := Option.any_eq_true _ _ |>.1 h
  obtain rfl : k = n := of_decide_eq_true hk
  exact ⟨g, hp⟩

end Phase

open Phase

variable {ι : Type*} [Fintype ι]

/-! ### The invariant -/

namespace LockState

/-- What the epoch tells of the threads. -/
structure EpochInv (σ : LockStrategy) (m : LockState) (phase : ι → Phase) : Prop where
  /-- The shares that are taken are counted. -/
  shares : m.shares = count hasShare phase
  /-- At most one thread has the whole epoch. -/
  whole : m.taken.toNat = count hasWhole phase
  /-- Nobody has a share while someone has the whole, and never where every scope needs the whole. -/
  apart : m.taken = true ∨ σ = .global → m.shares = 0

/-- What the entries and the mutexes tell of the threads. -/
structure MutexInv (m : LockState) (phase : ι → Phase) : Prop where
  /-- A handle is on the mutex that the entry of the group names. -/
  entry : ∀ (t : ι) {g : String} {n : Nat}, (phase t).handle? = some (g, n) → m.entries[g]? = some n
  /-- The mutex of an entry counts its handles, and at most one thread has locked it. -/
  mutex : ∀ {g : String} {n : Nat}, m.entries[g]? = some n → ∃ x, m.mutexes[n]? = some x ∧
    x.handles = count (hasHandle n) phase ∧ x.locked.toNat = count (hasLocked n) phase
  /-- Different groups have different mutexes. -/
  distinct : ∀ {g h : String} {n : Nat}, m.entries[g]? = some n → m.entries[h]? = some n → g = h
  /-- A group has an entry only as long as some thread attends to it. -/
  attended : ∀ {g : String} {n : Nat}, m.entries[g]? = some n → ∃ t, (phase t).attends g = true

/-- The invariant of the lock with its threads. -/
structure Inv (σ : LockStrategy) (m : LockState) (phase : ι → Phase) : Prop extends
  EpochInv σ m phase, MutexInv m phase

theorem inv_free (σ : LockStrategy) : Inv σ free fun _ : ι => .outside where
  shares := by simp [free, count, hasShare]
  whole := by simp [free, count, hasWhole]
  apart _ := rfl
  entry _ _ _ h := by simp [handle?] at h
  mutex h := by simp [free] at h
  distinct h := by simp [free] at h
  attended h := by simp [free] at h

variable [DecidableEq ι] {σ : LockStrategy} {m m' : LockState} {phase : ι → Phase} {t : ι} {p : Phase}
  {g : String} {n : Nat}

/-! ### The epoch, step by step -/

/-- A step that neither takes nor gives back a part of the epoch. -/
theorem EpochInv.keep (h : EpochInv σ m phase) (hs : m'.shares = m.shares) (ht : m'.taken = m.taken)
    (hp : p.hasShare = (phase t).hasShare) (hp' : p.hasWhole = (phase t).hasWhole) :
    EpochInv σ m' (Function.update phase t p) where
  shares := by rw [hs, count_update_of_eq hp, h.shares]
  whole := by rw [ht, count_update_of_eq hp', h.whole]
  apart ha := by rw [hs, h.apart (ht ▸ ha)]

theorem EpochInv.takeShare (h : EpochInv .perGroup m phase) (hp : phase t = .asking (.group g))
    (hm : m.takeShare = some m') : EpochInv .perGroup m' (Function.update phase t (.sharing g)) := by
  obtain ⟨hfree, rfl⟩ := takeShare_eq_some_iff.1 hm
  have hc := count_update hasShare phase t (.sharing g)
  simp only [hp, hasShare, Bool.toNat_true, Bool.toNat_false, add_zero] at hc
  refine ⟨?_, ?_, fun ha => ?_⟩
  · rw [hc, ← h.shares]
  · rw [count_update_of_eq (by rw [hp]; rfl)]
    exact h.whole
  · simp [hfree] at ha

theorem EpochInv.takeWhole {scope : Scope} (h : EpochInv σ m phase) (hp : phase t = .asking scope)
    (hm : m.takeWhole = some m') : EpochInv σ m' (Function.update phase t (.holding .whole)) := by
  obtain ⟨⟨hfree, hnone⟩, rfl⟩ := takeWhole_eq_some_iff.1 hm
  have hc := count_update hasWhole phase t (.holding .whole)
  simp only [hp, hasWhole, Bool.toNat_true, Bool.toNat_false, add_zero] at hc
  have hw := h.whole
  rw [hfree, Bool.toNat_false] at hw
  refine ⟨?_, ?_, fun _ => hnone⟩
  · rw [count_update_of_eq (by rw [hp]; rfl)]
    exact h.shares
  · rw [hc, ← hw]
    rfl

theorem EpochInv.giveShare (h : EpochInv σ m phase) (hp : phase t = .leaving) :
    EpochInv σ m.giveShare (Function.update phase t .outside) := by
  have hc := count_update hasShare phase t .outside
  simp only [hp, hasShare, Bool.toNat_true, Bool.toNat_false, add_zero] at hc
  have hs := h.shares
  refine ⟨?_, ?_, fun ha => ?_⟩
  · simp only [LockState.giveShare]
    omega
  · rw [count_update_of_eq (by rw [hp]; rfl)]
    exact h.whole
  · rw [LockState.giveShare, h.apart ha]

theorem EpochInv.giveWhole (h : EpochInv σ m phase) (hp : phase t = .holding .whole) :
    EpochInv σ m.giveWhole (Function.update phase t .outside) := by
  have hc := count_update hasWhole phase t .outside
  simp only [hp, hasWhole, Bool.toNat_true, Bool.toNat_false, add_zero] at hc
  have hw := h.whole
  have htaken : m.taken.toNat ≤ 1 := Bool.toNat_le _
  refine ⟨?_, ?_, fun ha => ?_⟩
  · rw [count_update_of_eq (by rw [hp]; rfl)]
    exact h.shares
  · simp only [LockState.giveWhole, Bool.toNat_false]
    omega
  · obtain ha | ha := ha
    · simp [LockState.giveWhole] at ha
    · exact h.apart (.inr ha)

/-! ### The mutexes, step by step -/

omit [Fintype ι] in
/-- What holds of the handles of the other threads and of the new phase holds of all handles. -/
theorem handles_update {R : String → Nat → Prop} (hp : ∀ g n, p.handle? = some (g, n) → R g n)
    (hrest : ∀ u ≠ t, ∀ g n, (phase u).handle? = some (g, n) → R g n) (u : ι) {g : String} {n : Nat}
    (hu : (Function.update phase t p u).handle? = some (g, n)) : R g n := by
  by_cases hut : u = t
  · subst hut
    rw [Function.update_self] at hu
    exact hp g n hu
  · rw [Function.update_of_ne hut] at hu
    exact hrest u hut g n hu

omit [Fintype ι] in
/-- A thread that goes on attending to its group does not leave it unattended. -/
theorem attended_update (hp : (phase t).attends g = true → p.attends g = true)
    (h : ∃ u, (phase u).attends g = true) : ∃ u, (Function.update phase t p u).attends g = true := by
  obtain ⟨u, hu⟩ := h
  by_cases hut : u = t
  · subst hut
    exact ⟨u, by rw [Function.update_self]; exact hp hu⟩
  · exact ⟨u, by rw [Function.update_of_ne hut]; exact hu⟩

omit [DecidableEq ι] in
/-- No handle and no entry has the number of a mutex that is not there. -/
theorem MutexInv.number_unused (h : MutexInv m phase) (hn : m.mutexes[n]? = none) :
    count (hasHandle n) phase = 0 ∧ ∀ g : String, m.entries[g]? ≠ some n := by
  have hne (g : String) : m.entries[g]? ≠ some n := by
    intro hg
    obtain ⟨x, hx, -⟩ := h.mutex hg
    rw [hn] at hx
    cases hx
  refine ⟨Nat.eq_zero_of_not_pos fun hpos => ?_, hne⟩
  obtain ⟨u, hu⟩ := count_pos_iff.1 hpos
  obtain ⟨g, hg⟩ := exists_handle?_of_hasHandle hu
  exact hne g (h.entry u hg)

/-- A step that touches no entry and no mutex. -/
theorem MutexInv.keep (h : MutexInv m phase) (he : m'.entries = m.entries) (hm : m'.mutexes = m.mutexes)
    (hp : p.handle? = none) (hp' : (phase t).handle? = none)
    (hl : ∀ n, p.hasLocked n = (phase t).hasLocked n) (ha : ∀ g, (phase t).attends g = false) :
    MutexInv m' (Function.update phase t p) where
  entry := by
    rw [he]
    exact handles_update (fun g n hg => by simp [hp] at hg) fun u _ g n hu => h.entry u hu
  mutex {g n} hg := by
    rw [hm, count_update_of_eq (by simp [hasHandle, hp, hp']), count_update_of_eq (hl n)]
    exact h.mutex (he ▸ hg)
  distinct hg hk := h.distinct (he ▸ hg) (he ▸ hk)
  attended {g n} hg := attended_update (fun hg => absurd hg (by simp [ha])) (h.attended (he ▸ hg))

/-- A step that changes one mutex, with an entry, and the handle of one thread on it. -/
theorem MutexInv.change {x : Mutex} (h : MutexInv m phase) (hn : m.entries[g]? = some n)
    (hp : p.handle? = some (g, n) ∨ p.handle? = none)
    (hp' : (phase t).handle? = some (g, n) ∨ (phase t).handle? = none)
    (hx : x.handles = count (hasHandle n) (Function.update phase t p))
    (hl : x.locked.toNat = count (hasLocked n) (Function.update phase t p))
    (ha : ∀ g, (phase t).attends g = true → p.attends g = true) :
    MutexInv { m with mutexes := m.mutexes.insert n x } (Function.update phase t p) where
  entry := by
    refine handles_update (fun g' n' hg => ?_) fun u _ g n hu => h.entry u hu
    obtain hp | hp := hp
    · cases hp.symm.trans hg
      exact hn
    · cases hp.symm.trans hg
  mutex {g' n'} hg := by
    by_cases hnn : n = n'
    · subst hnn
      exact ⟨x, Std.ExtTreeMap.getElem?_insert_self, hx, hl⟩
    · -- neither the old phase nor the new one has to do with another mutex
      have other {q : Phase} (hq : q.handle? = some (g, n) ∨ q.handle? = none) : q.hasHandle n' = false := by
        obtain hq | hq := hq <;> simp [hasHandle, hq, hnn]
      have hhandles : p.hasHandle n' = (phase t).hasHandle n' := (other hp).trans (other hp').symm
      have hlocked : p.hasLocked n' = (phase t).hasLocked n' := by
        rw [Bool.eq_false_iff.2 fun h => Bool.eq_false_iff.1 (other hp) (hasHandle_of_hasLocked h),
          Bool.eq_false_iff.2 fun h => Bool.eq_false_iff.1 (other hp') (hasHandle_of_hasLocked h)]
      rw [Std.ExtTreeMap.getElem?_insert, count_update_of_eq hhandles, count_update_of_eq hlocked]
      simp only [Std.compare_eq_iff_eq, hnn, if_false]
      exact h.mutex hg
  distinct := h.distinct
  attended {g n} hg := attended_update (ha g) (h.attended hg)

/-- A thread gets a handle on the mutex of an entry that is there. -/
theorem MutexInv.getHandle_of_entry (h : MutexInv m phase) (hp : phase t = .sharing g)
    (hn : m.entries[g]? = some n) :
    MutexInv (m.getHandle g).2 (Function.update phase t (.waiting g (m.getHandle g).1)) := by
  obtain ⟨x, hx, hhandles, hlocked⟩ := h.mutex hn
  have hc := count_update (hasHandle n) phase t (.waiting g n)
  simp only [hp, hasHandle, handle?, Option.any_none, Option.any_some, decide_true, Bool.toNat_true,
    Bool.toNat_false, add_zero] at hc
  rw [LockState.getHandle_of_entry hn, modify_eq_insert hx]
  refine h.change hn (.inl rfl) (.inr (by rw [hp]; rfl)) ?_ ?_ fun g' hg' => ?_
  · simp only [hhandles]
    exact hc.symm
  · rw [count_update_of_eq (by rw [hp]; rfl)]
    exact hlocked
  · simp [hp, attends, handle?] at hg'

/-- A thread gets a handle on a new mutex, with a new entry. -/
theorem MutexInv.getHandle_of_no_entry (h : MutexInv m phase) (hp : phase t = .sharing g)
    (hg : m.entries[g]? = none) :
    MutexInv (m.getHandle g).2 (Function.update phase t (.waiting g (m.getHandle g).1)) := by
  obtain ⟨hzero, hfresh⟩ := h.number_unused m.getElem?_unusedNumber
  rw [LockState.getHandle_of_no_entry hg]
  generalize m.unusedNumber = n at hzero hfresh
  have hne {g' : String} {n' : Nat} (hg' : m.entries[g']? = some n') : g ≠ g' ∧ n ≠ n' := by
    refine ⟨?_, ?_⟩ <;> rintro rfl
    · rw [hg] at hg'
      cases hg'
    · exact hfresh g' hg'
  have hentry {g' : String} {n' : Nat} : (m.entries.insert g n)[g']? = some n' ↔
      g = g' ∧ n = n' ∨ m.entries[g']? = some n' := by
    rw [Std.ExtTreeMap.getElem?_insert]
    by_cases hgg : g = g'
    · simp [← hgg, hg]
    · simp [hgg]
  refine ⟨?_, fun {g' n'} hg' => ?_, fun {g' g'' n'} h' h'' => ?_, fun {g' n'} hg' => ?_⟩
  · refine handles_update (fun g' n' hg' => ?_) fun u _ g' n' hu => hentry.2 (.inr (h.entry u hu))
    cases hg'
    exact hentry.2 (.inl ⟨rfl, rfl⟩)
  · obtain ⟨rfl, rfl⟩ | hg' := hentry.1 hg'
    · have hc := count_update (hasHandle n) phase t (.waiting g n)
      simp only [hp, hasHandle, handle?, Option.any_none, Option.any_some, decide_true, Bool.toNat_true,
        Bool.toNat_false, add_zero] at hc
      have hlocked : ¬ 0 < count (hasLocked n) phase := by
        intro hpos
        obtain ⟨u, hu⟩ := count_pos_iff.1 hpos
        exact hzero.not_gt (count_pos_iff.2 ⟨u, hasHandle_of_hasLocked hu⟩)
      refine ⟨⟨false, 1⟩, Std.ExtTreeMap.getElem?_insert_self, ?_, ?_⟩
      · rw [hzero] at hc
        exact hc.symm
      · rw [count_update_of_eq (by rw [hp]; rfl), Nat.eq_zero_of_not_pos hlocked]
        rfl
    · have hnn := (hne hg').2
      rw [Std.ExtTreeMap.getElem?_insert, count_update_of_eq (by simp [hasHandle, handle?, hp, hnn]),
        count_update_of_eq (by rw [hp]; rfl)]
      simpa [hnn] using h.mutex hg'
  · obtain ⟨rfl, rfl⟩ | h₁ := hentry.1 h' <;> obtain ⟨rfl, hn⟩ | h₂ := hentry.1 h''
    · rfl
    · exact absurd h₂ (hfresh g'')
    · exact absurd (hn ▸ h₁) (hfresh g')
    · exact h.distinct h₁ h₂
  · obtain ⟨rfl, rfl⟩ | hg' := hentry.1 hg'
    · exact ⟨t, by simp [attends, handle?]⟩
    · exact attended_update (fun h => by simp [hp, attends, handle?] at h) (h.attended hg')

theorem MutexInv.lockMutex (h : MutexInv m phase) (hp : phase t = .waiting g n)
    (hm : m.lockMutex n = some m') : MutexInv m' (Function.update phase t (.holding (.group g n))) := by
  obtain ⟨x, hx, hfree, rfl⟩ := lockMutex_eq_some_iff.1 hm
  have hn : m.entries[g]? = some n := h.entry t (by rw [hp]; rfl)
  obtain ⟨y, hy, hhandles, hlocked⟩ := h.mutex hn
  cases hx.symm.trans hy
  have hc := count_update (hasLocked n) phase t (.holding (.group g n))
  simp only [hp, hasLocked, decide_true, Bool.toNat_true, Bool.toNat_false, add_zero] at hc
  refine h.change hn (.inl rfl) (.inl (by rw [hp]; rfl)) ?_ ?_ fun g' hg' => ?_
  · rw [count_update_of_eq (by rw [hp]; rfl)]
    exact hhandles
  · rw [hc, ← hlocked, hfree]
    rfl
  · rwa [hp] at hg'

theorem MutexInv.unlockMutex (h : MutexInv m phase) (hp : phase t = .holding (.group g n)) :
    MutexInv (m.unlockMutex n) (Function.update phase t (.unlocked g n)) := by
  have hn : m.entries[g]? = some n := h.entry t (by rw [hp]; rfl)
  obtain ⟨x, hx, hhandles, hlocked⟩ := h.mutex hn
  have hc := count_update (hasLocked n) phase t (.unlocked g n)
  simp only [hp, hasLocked, decide_true, Bool.toNat_true, Bool.toNat_false, add_zero] at hc
  have hone : x.locked.toNat ≤ 1 := Bool.toNat_le _
  rw [LockState.unlockMutex, modify_eq_insert hx]
  refine h.change hn (.inl rfl) (.inl (by rw [hp]; rfl)) ?_ ?_ fun g' hg' => ?_
  · rw [count_update_of_eq (by rw [hp]; rfl)]
    exact hhandles
  · rw [Bool.toNat_false]
    omega
  · rwa [hp] at hg'

theorem MutexInv.giveHandle (h : MutexInv m phase) (hp : phase t = .unlocked g n) :
    MutexInv (m.giveHandle n) (Function.update phase t (.handleless g)) := by
  have hn : m.entries[g]? = some n := h.entry t (by rw [hp]; rfl)
  obtain ⟨x, hx, hhandles, hlocked⟩ := h.mutex hn
  have hc := count_update (hasHandle n) phase t (.handleless g)
  simp only [hp, hasHandle, handle?, Option.any_none, Option.any_some, decide_true, Bool.toNat_true,
    Bool.toNat_false, add_zero] at hc
  rw [giveHandle_of_entry hn hx]
  refine h.change hn (.inr rfl) (.inl (by rw [hp]; rfl)) ?_ ?_ fun g' hg' => ?_
  · simp only [hhandles, ← hc, Nat.add_sub_cancel]
  · rw [count_update_of_eq (by rw [hp]; rfl)]
    exact hlocked
  · rwa [hp] at hg'

/-- A thread that has no handle any more is not counted, before and after its look at the entry of its group. -/
theorem counts_leaving (hp : phase t = .handleless g) (n : Nat) :
    count (hasHandle n) (Function.update phase t .leaving) = count (hasHandle n) phase ∧
      count (hasLocked n) (Function.update phase t .leaving) = count (hasLocked n) phase :=
  ⟨count_update_of_eq (by rw [hp]; rfl), count_update_of_eq (by rw [hp]; rfl)⟩

omit [Fintype ι] [DecidableEq ι] in
/-- A thread that leaves a group attended to no other one. -/
theorem attends_leaving (hp : phase t = .handleless g) {g' : String} (hg' : g ≠ g')
    (ha : (phase t).attends g' = true) : Phase.leaving.attends g' = true := by
  rw [hp] at ha
  exact absurd (of_decide_eq_true ha) hg'

/-- A thread removes the entry of its group, on whose mutex nobody has a handle. -/
theorem MutexInv.removeEntry (h : MutexInv m phase) (hp : phase t = .handleless g) (hn : m.entries[g]? = some n)
    (hnone : count (hasHandle n) phase = 0) :
    MutexInv { m with entries := m.entries.erase g, mutexes := m.mutexes.erase n }
      (Function.update phase t .leaving) := by
  have hentry {g' : String} {n' : Nat} : (m.entries.erase g)[g']? = some n' ↔ g ≠ g' ∧ m.entries[g']? = some n' := by
    rw [Std.ExtTreeMap.getElem?_erase]
    by_cases hgg : g = g' <;> simp [hgg]
  refine ⟨?_, fun {g' n'} hg' => ?_, fun h' h'' => h.distinct (hentry.1 h').2 (hentry.1 h'').2, fun {g' n'} hg' => ?_⟩
  · refine handles_update (fun g' n' hg' => by cases hg') fun u _ g' n' hu => hentry.2 ⟨?_, h.entry u hu⟩
    rintro rfl
    cases hn.symm.trans (h.entry u hu)
    exact hnone.not_gt (count_pos_iff.2 ⟨u, hasHandle_of_handle? hu⟩)
  · obtain ⟨hgg, hg'⟩ := hentry.1 hg'
    have hnn : n ≠ n' := by
      rintro rfl
      exact hgg (h.distinct hn hg')
    obtain ⟨hhandle, hlock⟩ := counts_leaving hp n'
    rw [hhandle, hlock, Std.ExtTreeMap.getElem?_erase]
    simpa [hnn] using h.mutex hg'
  · obtain ⟨hgg, hg'⟩ := hentry.1 hg'
    exact attended_update (attends_leaving hp hgg) (h.attended hg')

/-- A thread leaves the entry of its group, which is there only if somebody has a handle on the mutex and attends to the
group. -/
theorem MutexInv.leaveEntry (h : MutexInv m phase) (hp : phase t = .handleless g)
    (hkept : ∀ n x, m.entries[g]? = some n → m.mutexes[n]? = some x → x.handles ≠ 0) :
    MutexInv m (Function.update phase t .leaving) := by
  refine ⟨?_, fun {g' n'} hg' => ?_, h.distinct, fun {g' n'} hg' => ?_⟩
  · exact handles_update (fun g' n' hg' => by cases hg') fun u _ g' n' hu => h.entry u hu
  · obtain ⟨hhandle, hlock⟩ := counts_leaving hp n'
    rw [hhandle, hlock]
    exact h.mutex hg'
  · by_cases hgg : g = g'
    · subst hgg
      obtain ⟨x, hx, hhandles, -⟩ := h.mutex hg'
      obtain ⟨u, hu⟩ := count_pos_iff.1 (Nat.pos_of_ne_zero (hhandles ▸ hkept n' x hg' hx))
      obtain ⟨g', hu'⟩ := exists_handle?_of_hasHandle hu
      obtain rfl : g = g' := h.distinct hg' (h.entry u hu')
      have hut : u ≠ t := by
        rintro rfl
        rw [hp] at hu'
        cases hu'
      refine ⟨u, ?_⟩
      rw [Function.update_of_ne hut]
      exact attends_of_handle? hu'
    · exact attended_update (attends_leaving hp hgg) (h.attended hg')

/-- A thread tries to remove the entry of its group: nobody who has a handle loses the entry, since the handles are
counted, and whoever attends to the group has one. -/
theorem MutexInv.evict (h : MutexInv m phase) (hp : phase t = .handleless g) :
    MutexInv (m.evict g) (Function.update phase t .leaving) := by
  obtain ⟨n, x, hn, hx, hzero, hm⟩ | ⟨hkept, hm⟩ := m.evict_cases g <;> rw [hm]
  · obtain ⟨y, hy, hhandles, -⟩ := h.mutex hn
    cases hx.symm.trans hy
    exact h.removeEntry hp hn (hhandles ▸ hzero)
  · exact h.leaveEntry hp hkept

/-! ### Every move -/

/-- **A move of one thread keeps the invariant.** -/
theorem Inv.move (h : Inv σ m phase) (hm : Move σ (m, phase t) (m', p)) : Inv σ m' (Function.update phase t p) := by
  have he := h.toEpochInv
  have hx := h.toMutexInv
  generalize hq : phase t = q at hm
  cases hm with
  | ask scope =>
    exact ⟨he.keep rfl rfl (by rw [hq]; rfl) (by rw [hq]; rfl),
      hx.keep rfl rfl rfl (by rw [hq]; rfl) (fun _ => by rw [hq]; rfl) fun _ => by rw [hq]; rfl⟩
  | takeShare hs =>
    obtain ⟨-, rfl⟩ := takeShare_eq_some_iff.1 hs
    exact ⟨he.takeShare hq hs,
      hx.keep rfl rfl rfl (by rw [hq]; rfl) (fun _ => by rw [hq]; rfl) fun _ => by rw [hq]; rfl⟩
  | takeWhole _ hs =>
    obtain ⟨-, rfl⟩ := takeWhole_eq_some_iff.1 hs
    exact ⟨he.takeWhole hq hs,
      hx.keep rfl rfl rfl (by rw [hq]; rfl) (fun _ => by rw [hq]; rfl) fun _ => by rw [hq]; rfl⟩
  | @getHandle _ _ g =>
    refine ⟨he.keep (getHandle_shares m g) (getHandle_taken m g) (by rw [hq]; rfl) (by rw [hq]; rfl), ?_⟩
    cases hg : m.entries[g]? with
    | none => exact hx.getHandle_of_no_entry hq hg
    | some n => exact hx.getHandle_of_entry hq hg
  | lockMutex hl =>
    refine ⟨?_, hx.lockMutex hq hl⟩
    obtain ⟨_, _, _, rfl⟩ := lockMutex_eq_some_iff.1 hl
    exact he.keep rfl rfl (by rw [hq]; rfl) (by rw [hq]; rfl)
  | unlockMutex => exact ⟨he.keep rfl rfl (by rw [hq]; rfl) (by rw [hq]; rfl), hx.unlockMutex hq⟩
  | @giveHandle _ _ g n =>
    exact ⟨he.keep (giveHandle_shares m n) (giveHandle_taken m n) (by rw [hq]; rfl) (by rw [hq]; rfl),
      hx.giveHandle hq⟩
  | @evict _ _ g =>
    exact ⟨he.keep (evict_shares m g) (evict_taken m g) (by rw [hq]; rfl) (by rw [hq]; rfl), hx.evict hq⟩
  | giveShare =>
    exact ⟨he.giveShare hq,
      hx.keep rfl rfl rfl (by rw [hq]; rfl) (fun _ => by rw [hq]; rfl) fun _ => by rw [hq]; rfl⟩
  | giveWhole =>
    exact ⟨he.giveWhole hq,
      hx.keep rfl rfl rfl (by rw [hq]; rfl) (fun _ => by rw [hq]; rfl) fun _ => by rw [hq]; rfl⟩

end LockState

namespace Crowd

variable [DecidableEq ι] {σ : LockStrategy} {c : Crowd ι}

/-- The invariant holds in every state that is reached. -/
theorem inv_of_reached (h : Reached σ c) : LockState.Inv σ c.lock c.phase := by
  induction h with
  | refl => exact LockState.inv_free σ
  | tail _ hstep ih =>
    cases hstep with
    | mk t hm => exact ih.move hm

end Crowd

/-! ### Two guards -/

namespace LockState

variable {σ : LockStrategy} {m : LockState} {phase : ι → Phase} {t u : ι} {g h : String} {n k : Nat}

/-- There are guards of groups only where the strategy is `perGroup`, and only while nobody has the whole epoch. -/
theorem EpochInv.of_group (hi : EpochInv σ m phase) (ht : phase t = .holding (.group g n)) :
    σ = .perGroup ∧ m.taken = false := by
  have hpos : 0 < m.shares := by
    rw [hi.shares]
    exact count_pos_iff.2 ⟨t, by rw [ht]; rfl⟩
  refine ⟨?_, Bool.eq_false_iff.2 fun htaken => hpos.ne' (hi.apart (.inl htaken))⟩
  cases σ with
  | global => exact absurd (hi.apart (.inr rfl)) hpos.ne'
  | perGroup => rfl

/-- A guard of the whole stands for the taken epoch. -/
theorem EpochInv.of_whole (hi : EpochInv σ m phase) (ht : phase t = .holding .whole) : m.taken = true := by
  rw [← Bool.toNat_eq_one, hi.whole]
  have hle : count hasWhole phase ≤ 1 := hi.whole ▸ Bool.toNat_le _
  have hpos : 0 < count hasWhole phase := count_pos_iff.2 ⟨t, by rw [ht]; rfl⟩
  omega

/-- Only one thread has the guard of the whole. -/
theorem EpochInv.whole_unique (hi : EpochInv σ m phase) (ht : phase t = .holding .whole)
    (hu : phase u = .holding .whole) : t = u :=
  eq_of_count_le_one (hi.whole ▸ Bool.toNat_le _) (by rw [ht]; rfl) (by rw [hu]; rfl)

/-- Only one thread has a guard of a group, whatever the numbers of the mutexes. -/
theorem MutexInv.group_unique (hi : MutexInv m phase) (ht : phase t = .holding (.group g n))
    (hu : phase u = .holding (.group g k)) : t = u := by
  have hn : m.entries[g]? = some n := hi.entry t (by rw [ht]; rfl)
  have hk : m.entries[g]? = some k := hi.entry u (by rw [hu]; rfl)
  obtain rfl : n = k := Option.some.inj (hn.symm.trans hk)
  obtain ⟨x, -, -, hlocked⟩ := hi.mutex hn
  exact eq_of_count_le_one (hlocked ▸ Bool.toNat_le _) (by rw [ht]; exact decide_eq_true rfl)
    (by rw [hu]; exact decide_eq_true rfl)

/-- Guards of different threads are guards of different groups. -/
theorem Inv.guards_apart (hi : Inv σ m phase) (htu : t ≠ u) {a b : Guard} (ht : phase t = .holding a)
    (hu : phase u = .holding b) :
    σ = .perGroup ∧ ∃ g n h k, a = .group g n ∧ b = .group h k ∧ g ≠ h := by
  cases a with
  | whole =>
    cases b with
    | whole => exact absurd (hi.whole_unique ht hu) htu
    | group h k => exact absurd (hi.of_whole ht) (Bool.eq_false_iff.1 (hi.of_group hu).2)
  | group g n =>
    cases b with
    | whole => exact absurd (hi.of_whole hu) (Bool.eq_false_iff.1 (hi.of_group ht).2)
    | group h k =>
      refine ⟨(hi.of_group ht).1, g, n, h, k, rfl, rfl, ?_⟩
      rintro rfl
      exact htu (hi.group_unique ht hu)

end LockState

/-- A guard is of the kind that a request for a scope ends up with. -/
def Guard.Serves (σ : LockStrategy) : Guard → Scope → Prop
  | whole, scope => σ = .global ∨ scope = .all
  | group g _, scope => σ = .perGroup ∧ scope = .group g

omit [Fintype ι] in
/-- Two threads can hold two different groups at once. -/
theorem Crowd.exists_holding_apart [DecidableEq ι] (htu : t ≠ u) {g h : String} (hne : g ≠ h) :
    ∃ c : Crowd ι, c.Reached .perGroup ∧ ∃ n k, c.phase t = .holding (.group g n) ∧ c.phase u = .holding (.group h k) := by
  obtain ⟨n, m₁, h₁, htaken, hentries, -⟩ :=
    LockState.acquire_of_no_entry (m := .free) (g := g) rfl Std.ExtTreeMap.getElem?_empty
  have hno : m₁.entries[h]? = none := by
    rw [hentries, Std.ExtTreeMap.getElem?_insert, if_neg (by simpa using hne)]
    rfl
  obtain ⟨k, m₂, h₂, -⟩ := LockState.acquire_of_no_entry htaken hno
  have hfirst := Crowd.steps_of_acquire (c := (Crowd.start : Crowd ι)) (t := t) rfl h₁
  have hsecond := Crowd.steps_of_acquire (t := u)
    (c := ⟨m₁, Function.update (Crowd.start : Crowd ι).phase t (.holding (.group g n))⟩)
    (Function.update_of_ne htu.symm _ _) h₂
  have hstill : Function.update (Function.update (Crowd.start : Crowd ι).phase t (.holding (.group g n))) u
      (.holding (.group h k)) t = .holding (.group g n) := by
    rw [Function.update_of_ne htu, Function.update_self]
  exact ⟨_, hfirst.trans hsecond, n, k, hstill, Function.update_self ..⟩

/-- **A hold makes a request wait** exactly if guards for the two are alive at once in no state that is reached. -/
theorem waits_eq_false_iff [DecidableEq ι] {σ : LockStrategy} {held want : Scope} {t u : ι} (htu : t ≠ u) :
    σ.waits held want = false ↔ ∃ c : Crowd ι, c.Reached σ ∧ ∃ a b, c.phase t = .holding a ∧ a.Serves σ held ∧
      c.phase u = .holding b ∧ b.Serves σ want := by
  constructor
  · intro hwaits
    unfold LockStrategy.waits at hwaits
    split at hwaits
    · obtain ⟨c, hc, n, k, ht, hu⟩ := Crowd.exists_holding_apart htu (of_decide_eq_false hwaits)
      exact ⟨c, hc, _, _, ht, ⟨rfl, rfl⟩, hu, ⟨rfl, rfl⟩⟩
    · cases hwaits
  · rintro ⟨c, hc, a, b, ha, hheld, hb, hwant⟩
    obtain ⟨rfl, g, n, h, k, rfl, rfl, hne⟩ := (Crowd.inv_of_reached hc).guards_apart htu ha hb
    obtain ⟨-, rfl⟩ := hheld
    obtain ⟨-, rfl⟩ := hwant
    exact decide_eq_false hne

/-- **Mutual exclusion**: in every state that is reached, two guards that are alive at once are guards of two
different groups, of a lock with the strategy `perGroup`. So no two guards of one group are alive at once, a guard of
the whole is alive alone, and under the strategy `global` every guard is alive alone. -/
theorem guards_exclude [DecidableEq ι] {σ : LockStrategy} {c : Crowd ι} (hc : c.Reached σ) {t u : ι} (htu : t ≠ u)
    {a b : Guard} (ht : c.phase t = .holding a) (hu : c.phase u = .holding b) :
    σ = .perGroup ∧ ∃ g n h k, a = .group g n ∧ b = .group h k ∧ g ≠ h :=
  (Crowd.inv_of_reached hc).guards_apart htu ht hu

/-- One thread holds the group `a`; another one has let go of the group `b`, whose entry went with it, and holds it
again. -/
theorem guards_exclude_after_eviction : ∃ (c c' : Crowd (Fin 2)) (n k : Nat), c.Reached .perGroup ∧
    (c.phase 0 = .holding (.group "a" n) ∧ c.phase 1 = .outside ∧ c.lock.entries["b"]? = none) ∧
      Relation.ReflTransGen (Crowd.Step .perGroup) c c' ∧ c'.Reached .perGroup ∧ (0 : Fin 2) ≠ 1 ∧
        c'.phase 0 = .holding (.group "a" n) ∧ c'.phase 1 = .holding (.group "b" k) ∧
          LockStrategy.perGroup = .perGroup ∧
            ∃ g i h j, Guard.group "a" n = .group g i ∧ Guard.group "b" k = .group h j ∧ g ≠ h := by
  obtain ⟨n, m₁, h₁, htaken, hentries, -⟩ :=
    LockState.acquire_of_no_entry (m := .free) (g := "a") rfl Std.ExtTreeMap.getElem?_empty
  have hb : m₁.entries["b"]? = none := by
    rw [hentries]
    rfl
  obtain ⟨k, m₂, h₂, -, -, hrelease⟩ := LockState.acquire_of_no_entry htaken hb
  have hin : (Crowd.start : Crowd (Fin 2)).Reached .perGroup := .refl
  have hout : Crowd.Reached .perGroup _ := ((hin.trans (Crowd.steps_of_acquire (t := 0) rfl h₁)).trans
    (Crowd.steps_of_acquire (t := 1) rfl h₂)).trans (Crowd.steps_release (t := 1) rfl)
  rw [hrelease] at hout
  refine ⟨_, _, n, k, hout, ⟨rfl, rfl, hb⟩, Crowd.steps_of_acquire (t := 1) rfl h₂, ?_⟩
  have hc := hout.trans (Crowd.steps_of_acquire (t := 1) rfl h₂)
  exact ⟨hc, by decide, rfl, rfl, guards_exclude hc (by decide) (t := 0) (u := 1) rfl rfl⟩

end JobRoster
