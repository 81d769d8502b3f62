import JobRoster.Proofs.MutationLock.Exclusion

/-!
# What is left of groups

The entry of a group is made by the first thread that gets a handle, and each thread that leaves the group tries to
remove it. An attempt is in vain while someone else has a handle, also someone who has unlocked the mutex already; but
a thread that gives back the last handle has its attempt still before it. So an entry is there only as long as some thread
attends to the group (`MutexInv.attended`), and it is there, for the right mutex, as long as some thread has a handle
(`MutexInv.entry`). Besides, every mutex has its entry (`Backed`), so that mutexes go with their entries.

Main statement: `entries_kept`. Where nobody has any part of the lock, it is as it was at first.
-/

namespace JobRoster

open Relation Phase

namespace LockState

variable {σ : LockStrategy} {m m' : LockState} {g : String} {n : Nat}

/-! ### Mutexes have entries -/

/-- **Every mutex has an entry.** -/
def Backed (m : LockState) : Prop := ∀ n ∈ m.mutexes, ∃ g : String, m.entries[g]? = some n

/-- A step that touches no entry and makes no mutex. -/
theorem Backed.of_entries_eq (h : Backed m) (he : m'.entries = m.entries)
    (hm : ∀ n ∈ m'.mutexes, n ∈ m.mutexes) : Backed m' := by
  intro n hn
  rw [he]
  exact h n (hm n hn)

theorem Backed.getHandle (h : Backed m) (g : String) : Backed (m.getHandle g).2 := by
  cases hg : m.entries[g]? with
  | some n =>
    rw [getHandle_of_entry hg]
    exact h.of_entries_eq rfl fun k hk => Std.ExtTreeMap.mem_modify.1 hk
  | none =>
    rw [getHandle_of_no_entry hg]
    intro k hk
    obtain hk | hk := Std.ExtTreeMap.mem_insert.1 hk
    · obtain rfl := Std.compare_eq_iff_eq.1 hk
      exact ⟨g, Std.ExtTreeMap.getElem?_insert_self⟩
    · obtain ⟨g', hg'⟩ := h k hk
      refine ⟨g', ?_⟩
      have hne : g ≠ g' := by
        rintro rfl
        rw [hg] at hg'
        cases hg'
      simpa [Std.ExtTreeMap.getElem?_insert, hne] using hg'

/-- To change a mutex is not to make one. -/
theorem mem_of_mem_insert {mutexes : Std.ExtTreeMap Nat Mutex} {x y : Mutex} {k : Nat} (hx : mutexes[n]? = some x)
    (hk : k ∈ mutexes.insert n y) : k ∈ mutexes := by
  obtain hk | hk := Std.ExtTreeMap.mem_insert.1 hk
  · obtain rfl := Std.compare_eq_iff_eq.1 hk
    exact Std.ExtTreeMap.mem_iff_isSome_getElem?.2 (by rw [hx]; rfl)
  · exact hk

theorem Backed.lockMutex (h : Backed m) (hm : m.lockMutex n = some m') : Backed m' := by
  obtain ⟨x, hx, -, rfl⟩ := lockMutex_eq_some_iff.1 hm
  exact h.of_entries_eq rfl fun k hk => mem_of_mem_insert hx hk

theorem Backed.unlockMutex (h : Backed m) (n : Nat) : Backed (m.unlockMutex n) :=
  h.of_entries_eq rfl fun _ hk => Std.ExtTreeMap.mem_modify.1 hk

theorem Backed.giveHandle (h : Backed m) (n : Nat) : Backed (m.giveHandle n) := by
  unfold LockState.giveHandle
  split
  · next x hx =>
    split
    · exact h.of_entries_eq rfl fun k hk => (Std.ExtTreeMap.mem_erase.1 hk).2
    · exact h.of_entries_eq rfl fun k hk => mem_of_mem_insert hx hk
  · exact h

/-- An entry is removed together with its mutex. -/
theorem Backed.evict (h : Backed m) (g : String) : Backed (m.evict g) := by
  obtain ⟨n, x, hn, -, -, hm⟩ | ⟨-, hm⟩ := m.evict_cases g <;> rw [hm]
  · intro k hk
    obtain ⟨hne, hk⟩ := Std.ExtTreeMap.mem_erase.1 hk
    obtain ⟨g', hg'⟩ := h k hk
    refine ⟨g', ?_⟩
    -- a mutex that is left is another one, and so is the group whose entry names it
    have hgg : g ≠ g' := by
      rintro rfl
      exact hne (Std.compare_eq_iff_eq.2 (Option.some.inj (hn.symm.trans hg')))
    simpa [Std.ExtTreeMap.getElem?_erase, hgg] using hg'
  · exact h

/-- A move leaves no mutex without its entry. -/
theorem Backed.move {p p' : Phase} (h : Backed m) (hm : Move σ (m, p) (m', p')) : Backed m' := by
  cases hm with
  | ask scope => exact h
  | takeShare hs =>
    obtain ⟨-, rfl⟩ := takeShare_eq_some_iff.1 hs
    exact h.of_entries_eq rfl fun _ hk => hk
  | takeWhole _ hs =>
    obtain ⟨-, rfl⟩ := takeWhole_eq_some_iff.1 hs
    exact h.of_entries_eq rfl fun _ hk => hk
  | getHandle => exact h.getHandle _
  | lockMutex hl => exact h.lockMutex hl
  | unlockMutex => exact h.unlockMutex _
  | giveHandle => exact h.giveHandle _
  | evict => exact h.evict _
  | giveShare => exact h.of_entries_eq rfl fun _ hk => hk
  | giveWhole => exact h.of_entries_eq rfl fun _ hk => hk

/-- Without entries there are no mutexes. -/
theorem Backed.mutexes_eq_empty (h : Backed m) (he : m.entries = ∅) : m.mutexes = ∅ := by
  rw [Std.ExtTreeMap.eq_empty_iff_forall_not_mem]
  intro n hn
  obtain ⟨g, hg⟩ := h n hn
  rw [he, Std.ExtTreeMap.getElem?_empty] at hg
  cases hg

end LockState

/-! ### Where nobody has a part of the lock -/

/-- A thread has no part of the lock: it wants nothing of it, or waits for the epoch. -/
def Phase.IsApart (p : Phase) : Prop := p = .outside ∨ ∃ scope, p = .asking scope

theorem Phase.IsApart.attends_eq_false {p : Phase} (h : p.IsApart) (g : String) : p.attends g = false := by
  obtain rfl | ⟨scope, rfl⟩ := h <;> rfl

theorem Phase.IsApart.hasShare_eq_false {p : Phase} (h : p.IsApart) : p.hasShare = false := by
  obtain rfl | ⟨scope, rfl⟩ := h <;> rfl

theorem Phase.IsApart.hasWhole_eq_false {p : Phase} (h : p.IsApart) : p.hasWhole = false := by
  obtain rfl | ⟨scope, rfl⟩ := h <;> rfl

variable {ι : Type*} [Fintype ι]

theorem count_eq_zero {kind : Phase → Bool} {phase : ι → Phase} (h : ∀ t, kind (phase t) = false) :
    count kind phase = 0 := by
  refine Nat.eq_zero_of_not_pos fun hpos => ?_
  obtain ⟨t, ht⟩ := count_pos_iff.1 hpos
  exact Bool.false_ne_true ((h t).symm.trans ht)

namespace LockState

variable {σ : LockStrategy} {m : LockState} {phase : ι → Phase}

/-- Where nobody has the whole epoch, it is not taken. -/
theorem EpochInv.taken_eq_false (hi : EpochInv σ m phase) (h : ∀ t, (phase t).hasWhole = false) : m.taken = false := by
  rw [← Bool.toNat_eq_zero, hi.whole]
  exact count_eq_zero h

/-- Where nobody has a part of the epoch, it is free. -/
theorem EpochInv.free (hi : EpochInv σ m phase) (h : ∀ t, (phase t).IsApart) : m.shares = 0 ∧ m.taken = false :=
  ⟨hi.shares.trans (count_eq_zero fun t => (h t).hasShare_eq_false),
    hi.taken_eq_false fun t => (h t).hasWhole_eq_false⟩

/-- Nobody having a part of it, the lock is free. -/
theorem Inv.eq_free (hi : Inv σ m phase) (hb : m.Backed) (h : ∀ t, (phase t).IsApart) : m = .free := by
  obtain ⟨hshares, htaken⟩ := hi.toEpochInv.free h
  have hentries : m.entries = ∅ := by
    refine Std.ExtTreeMap.ext_getElem? fun g => ?_
    rw [Std.ExtTreeMap.getElem?_empty, Option.eq_none_iff_forall_not_mem]
    intro n hn
    obtain ⟨t, ht⟩ := hi.attended hn
    exact Bool.false_ne_true (((h t).attends_eq_false g).symm.trans ht)
  have hmutexes := hb.mutexes_eq_empty hentries
  obtain ⟨shares, taken, entries, mutexes⟩ := m
  subst hshares htaken hentries hmutexes
  rfl

end LockState

namespace Crowd

variable [DecidableEq ι] {σ : LockStrategy} {c : Crowd ι}

omit [Fintype ι] in
/-- Every mutex has its entry in every state that is reached. -/
theorem backed_of_reached (h : Reached σ c) : c.lock.Backed := by
  induction h with
  | refl =>
    intro n hn
    exact absurd hn Std.ExtTreeMap.not_mem_empty
  | tail _ hstep ih =>
    cases hstep with
    | mk t hm => exact ih.move hm

/-- **The entries of groups are there while they are needed, and no longer.** -/
structure EntriesKept (c : Crowd ι) : Prop where
  /-- A group has an entry only as long as some thread has got a handle for the group and has not yet tried to remove
  the entry. -/
  attended : ∀ {g : String} {n : Nat}, c.lock.entries[g]? = some n → ∃ t, (c.phase t).attends g = true
  /-- The mutex that a thread waits for, or has locked, is the one that the entry of its group names. -/
  named : ∀ {t : ι} {g : String} {n : Nat}, c.phase t = .waiting g n ∨ c.phase t = .holding (.group g n) →
    c.lock.entries[g]? = some n
  /-- Where nobody has a part of the lock, no entry is left, and the lock is free. -/
  free : (∀ t, (c.phase t).IsApart) → c.lock.entries = ∅ ∧ c.lock = .free

end Crowd

/-- **No entry is left behind, and none is lost while it is needed**, in every state that is reached by any number of
threads with any groups. -/
theorem entries_kept [DecidableEq ι] {σ : LockStrategy} {c : Crowd ι} (hc : c.Reached σ) : c.EntriesKept := by
  have hi := Crowd.inv_of_reached hc
  refine ⟨fun hg => hi.attended hg, fun {t g n} ht => hi.entry t ?_, fun hapart => ?_⟩
  · obtain ht | ht := ht <;> rw [ht] <;> rfl
  · have hfree := hi.eq_free (Crowd.backed_of_reached hc) hapart
    exact ⟨congrArg LockState.entries hfree, hfree⟩

/-- A thread leaves the group `a` while another one waits for its mutex, so that its attempt to remove the entry is in
vain; when that one has had its turn and leaves too, the lock is free. -/
theorem entries_kept_while_awaited : ∃ (c c' : Crowd (Fin 2)) (n : Nat),
    (c.Reached .perGroup ∧ c.phase 0 = .outside ∧ c.phase 1 = .waiting "a" n ∧ c.EntriesKept) ∧
      ReflTransGen (Crowd.Step .perGroup) c c' ∧ c'.Reached .perGroup ∧ c'.EntriesKept ∧ c'.lock = .free := by
  obtain ⟨n, m₁, h₁, htaken, hentries, -⟩ :=
    LockState.acquire_of_no_entry (m := .free) (g := "a") rfl Std.ExtTreeMap.getElem?_empty
  have hin : (Crowd.start : Crowd (Fin 2)).Reached .perGroup := .refl
  have hheld : Crowd.Reached .perGroup _ := hin.trans (Crowd.steps_of_acquire (t := 0) rfl h₁)
  -- The other thread finds the entry, and waits.
  have hasks : ReflTransGen (Move .perGroup) (m₁, .outside) ({ m₁ with shares := m₁.shares + 1 }, .sharing "a") :=
    (ReflTransGen.single (.ask (.group "a"))).tail (.takeShare (LockState.takeShare_eq_some_iff.2 ⟨htaken, rfl⟩))
  have hentry : ({ m₁ with shares := m₁.shares + 1 } : LockState).entries["a"]? = some n := by
    simp [hentries]
  have hmoves := hasks.tail .getHandle
  rw [LockState.getHandle_of_entry hentry] at hmoves
  have hwaits : Crowd.Reached .perGroup _ :=
    (hheld.trans (Crowd.steps_of_moves (t := 1) hmoves)).trans (Crowd.steps_release (t := 0) rfl)
  -- The entry is still there, and its mutex is not locked.
  have hkept := (entries_kept hwaits).named (t := 1) (.inl rfl)
  obtain ⟨x, hx, -, hlocked⟩ := (Crowd.inv_of_reached hwaits).mutex hkept
  rw [count_eq_zero fun t => by match t with | 0 | 1 => rfl, Bool.toNat_eq_zero] at hlocked
  have hturn := (Crowd.steps_of_moves (t := 1) (.single (.lockMutex (σ := .perGroup)
    (LockState.lockMutex_eq_some_iff.2 ⟨x, hx, hlocked, rfl⟩)))).trans (Crowd.steps_release (t := 1) rfl)
  have hleft := hwaits.trans hturn
  refine ⟨_, _, n, ⟨hwaits, rfl, rfl, entries_kept hwaits⟩, hturn, hleft, entries_kept hleft, ?_⟩
  refine ((entries_kept hleft).free fun t => .inl ?_).2
  match t with
  | 0 => rfl
  | 1 => rfl

end JobRoster
