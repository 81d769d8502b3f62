import JobRoster.Proofs.MutationLock.Eviction

/-!
# Nobody waits in vain at the mutation lock

A thread waits at two places: for the epoch, where others may be let in before it, and for the mutex of its group. Who
waits for a mutex has a share of the epoch already, and a mutex is locked only by a thread with a guard, which waits for
nothing. So if all threads that are not outside wait, they all wait for the epoch, nobody has a part of it, and whoever
it lets in can go on.

The epoch may keep threads waiting for the sake of others, for instance new shares for the sake of someone who waits for
the whole of it (`Crowd.Defers`). Whom it keeps waiting in a state is left open, so that what is said here holds of any
order in which it lets threads in.

Main statement: `lock_lively`. As long as some thread is not outside, one of them has a step, and without new requests
they are all outside in the end; a thread that wants a group gets it by its own steps unless another one has the group,
or waits for its mutex, or has or wants the whole.
-/

namespace JobRoster

open Relation Phase

/-! ### Threads that go on -/

namespace Phase

/-- A thread waits for the epoch. -/
def isAsking : Phase → Bool
  | asking _ => true
  | _ => false

/-- A thread waits for the whole epoch. -/
def seeksWhole (σ : LockStrategy) : Phase → Bool
  | asking scope => σ = .global || scope = .all
  | _ => false

/-- A thread wants a group, and does not have its guard yet. -/
def seeksGroup (g : String) : Phase → Bool
  | asking (.group h) | sharing h | waiting h _ => h = g
  | _ => false

/-- How many steps a thread has before it, at most, until it is outside. -/
def stepsLeft : Phase → ℕ
  | outside => 0
  | leaving => 1
  | handleless _ => 2
  | unlocked .. => 3
  | holding _ => 4
  | waiting .. => 5
  | sharing _ => 6
  | asking _ => 7

end Phase

variable {σ : LockStrategy}

/-- A step brings a thread that is not outside nearer to the outside. -/
theorem Move.stepsLeft_lt {m m' : LockState} {p p' : Phase} (h : Move σ (m, p) (m', p')) (hp : p ≠ .outside) :
    p'.stepsLeft < p.stepsLeft := by
  cases h with
  | ask scope => exact absurd rfl hp
  | _ => simp [stepsLeft]

/-- A thread that waits neither for the epoch nor for a mutex can go on, whatever the memory of the lock is. -/
theorem exists_move_of_not_isApart {m : LockState} {p : Phase} (hp : ¬ p.IsApart) (hwaits : ∀ g n, p ≠ .waiting g n) :
    ∃ a, Move σ (m, p) a := by
  cases p with
  | outside => exact absurd (.inl rfl) hp
  | asking scope => exact absurd (.inr ⟨scope, rfl⟩) hp
  | sharing g => exact ⟨_, .getHandle⟩
  | waiting g n => exact absurd rfl (hwaits g n)
  | holding guard =>
    cases guard with
    | whole => exact ⟨_, .giveWhole⟩
    | group g n => exact ⟨_, .unlockMutex⟩
  | unlocked g n => exact ⟨_, .giveHandle⟩
  | handleless g => exact ⟨_, .evict⟩
  | leaving => exact ⟨_, .giveShare⟩

variable {ι : Type*}

namespace Crowd

/-- **Whom the epoch may keep waiting for the sake of others**: a thread only while another one waits for the whole
epoch that is not kept waiting itself. -/
def Defers (σ : LockStrategy) (c : Crowd ι) (barred : ι → Prop) : Prop :=
  ∀ t, barred t → ∃ u, (c.phase u).seeksWhole σ = true ∧ ¬ barred u

variable [DecidableEq ι]

/-- **A thread goes on**: it is not outside, and makes a step, for which the epoch does not keep it waiting. -/
inductive Advance (σ : LockStrategy) (barred : ι → Prop) (t : ι) : Crowd ι → Crowd ι → Prop
  /-- The thread moves. -/
  | mk {c : Crowd ι} {m : LockState} {p : Phase} : c.phase t ≠ .outside →
      ((c.phase t).isAsking = true → ¬ barred t) → Move σ (c.lock, c.phase t) (m, p) →
        Advance σ barred t c ⟨m, Function.update c.phase t p⟩

variable {c c' : Crowd ι} {barred : ι → Prop} {t : ι}

/-- To go on is to make a step. -/
theorem Advance.step (h : Advance σ barred t c c') : Step σ c c' := by
  obtain ⟨-, -, hm⟩ := h
  exact .mk t hm

/-- A thread that does not wait for the epoch goes on with any move. -/
theorem advance_of_not_isAsking {m : LockState} {p : Phase} (hout : c.phase t ≠ .outside)
    (hask : (c.phase t).isAsking = false) (hm : Move σ (c.lock, c.phase t) (m, p)) :
    Advance σ barred t c ⟨m, Function.update c.phase t p⟩ :=
  .mk hout (fun h => absurd (h.symm.trans hask) (by decide)) hm

/-- **All threads are outside in the end**: as long as they are not, one of them goes on, whomever the epoch keeps
waiting, and whichever goes on, they all are outside in the end. -/
inductive Settles (σ : LockStrategy) : Crowd ι → Prop
  /-- They are outside. -/
  | done {c : Crowd ι} : (∀ t, c.phase t = .outside) → Settles σ c
  /-- One of them goes on. -/
  | next {c : Crowd ι} : (∀ {barred : ι → Prop}, c.Defers σ barred → ∃ t c', Advance σ barred t c c') →
      (∀ {barred : ι → Prop} {t : ι} {c' : Crowd ι}, Advance σ barred t c c' → Settles σ c') → Settles σ c

variable [Fintype ι]

/-- How many steps all threads have before them, at most, until they are outside. -/
def stepsLeft (c : Crowd ι) : ℕ := ∑ t, (c.phase t).stepsLeft

/-- Whoever goes on, there are fewer steps left. -/
theorem Advance.stepsLeft_lt (h : Advance σ barred t c c') : c'.stepsLeft < c.stepsLeft := by
  obtain ⟨hout, -, hm⟩ := h
  have hlt := hm.stepsLeft_lt hout
  unfold stepsLeft
  refine Finset.sum_lt_sum (fun u _ => ?_) ⟨t, Finset.mem_univ t, by simpa only [Function.update_self] using hlt⟩
  by_cases hut : u = t
  · subst hut
    simpa only [Function.update_self] using hlt.le
  · simp only [Function.update_of_ne hut, le_refl]

end Crowd

/-! ### Where all threads wait -/

namespace LockState

variable [Fintype ι] {m : LockState} {phase : ι → Phase} {t : ι} {g : String} {n : ℕ}

/-- The mutex for which a thread waits can be locked while nobody has it. -/
theorem MutexInv.exists_lockMutex (h : MutexInv m phase) (ht : phase t = .waiting g n)
    (hfree : ∀ u, phase u ≠ .holding (.group g n)) : ∃ m', m.lockMutex n = some m' := by
  have hn : m.entries[g]? = some n := h.entry t (by rw [ht]; rfl)
  obtain ⟨x, hx, -, hlocked⟩ := h.mutex hn
  have hnone : count (hasLocked n) phase = 0 := by
    refine count_eq_zero fun u => Bool.eq_false_iff.2 fun hu => ?_
    obtain ⟨h', hh'⟩ := exists_handle?_of_hasHandle (hasHandle_of_hasLocked hu)
    -- the mutex has the entry of one group only
    obtain rfl : g = h' := h.distinct hn (h.entry u hh')
    unfold hasLocked at hu
    split at hu
    · next g' k hk =>
      obtain rfl : k = n := of_decide_eq_true hu
      rw [hk] at hh'
      cases hh'
      exact hfree u hk
    · cases hu
  rw [hnone, Bool.toNat_eq_zero] at hlocked
  exact ⟨_, lockMutex_eq_some_iff.2 ⟨x, hx, hlocked, rfl⟩⟩

/-- Where nobody has a part of the epoch, whoever waits for it can have what it asks for. -/
theorem EpochInv.exists_move_of_isAsking (h : EpochInv σ m phase) (hapart : ∀ u, (phase u).IsApart)
    (ht : (phase t).isAsking = true) : ∃ a, Move σ (m, phase t) a := by
  obtain ⟨hshares, htaken⟩ := h.free hapart
  obtain ⟨scope, hscope⟩ : ∃ scope, phase t = .asking scope := by
    obtain hout | hask := hapart t
    · rw [hout] at ht
      cases ht
    · exact hask
  rw [hscope]
  have whole (hσ : σ = .global ∨ scope = .all) : ∃ a, Move σ (m, .asking scope) a :=
    ⟨_, .takeWhole hσ (takeWhole_eq_some_iff.2 ⟨⟨htaken, hshares⟩, rfl⟩)⟩
  cases σ with
  | global => exact whole (.inl rfl)
  | perGroup =>
    cases scope with
    | all => exact whole (.inr rfl)
    | group g => exact ⟨_, .takeShare (takeShare_eq_some_iff.2 ⟨htaken, rfl⟩)⟩

end LockState

namespace Crowd

variable [Fintype ι] [DecidableEq ι] {c : Crowd ι} {barred : ι → Prop} {t : ι} {g : String}

/-- **One of the threads that are not outside goes on.** -/
theorem exists_advance (hi : LockState.Inv σ c.lock c.phase) (hbarred : c.Defers σ barred)
    (ht : c.phase t ≠ .outside) : ∃ u c', Advance σ barred u c c' := by
  by_cases hmoves : ∃ u, ¬ (c.phase u).IsApart ∧ ∀ g n, c.phase u ≠ .waiting g n
  · obtain ⟨u, hapart, hwaits⟩ := hmoves
    obtain ⟨a, ha⟩ := exists_move_of_not_isApart (σ := σ) (m := c.lock) hapart hwaits
    have hout : c.phase u ≠ .outside := fun h => hapart (.inl h)
    have hask : (c.phase u).isAsking = false := by
      refine Bool.eq_false_iff.2 fun h => hapart ?_
      cases hu : c.phase u <;> rw [hu] at h <;> cases h
      exact .inr ⟨_, rfl⟩
    exact ⟨u, _, advance_of_not_isAsking hout hask ha⟩
  · simp only [not_exists, not_and, not_forall, not_not] at hmoves
    by_cases hwaits : ∃ u g n, c.phase u = .waiting g n
    · obtain ⟨u, g, n, hu⟩ := hwaits
      -- whoever had locked the mutex could go on
      have hfree (v : ι) : c.phase v ≠ .holding (.group g n) := by
        intro hv
        obtain ⟨g', n', hv'⟩ := hmoves v (by rw [hv]; rintro (h | ⟨_, h⟩) <;> cases h)
        cases hv.symm.trans hv'
      obtain ⟨m', hm'⟩ := hi.exists_lockMutex hu hfree
      have hmove : Move σ (c.lock, c.phase u) (m', .holding (.group g n)) := by
        rw [hu]
        exact .lockMutex hm'
      exact ⟨u, _, advance_of_not_isAsking (by rw [hu]; simp) (by rw [hu]; rfl) hmove⟩
    · have hapart (u : ι) : (c.phase u).IsApart := by
        by_contra hu
        exact hwaits ⟨u, hmoves u hu⟩
      -- of those who wait for the epoch, one is not kept waiting for the sake of another one
      have hadmitted : ∃ u, (c.phase u).isAsking = true ∧ ¬ barred u := by
        by_cases hb : barred t
        · obtain ⟨u, hu, hbu⟩ := hbarred t hb
          refine ⟨u, ?_, hbu⟩
          unfold seeksWhole at hu
          split at hu
          · next hscope => rw [hscope]; rfl
          · cases hu
        · obtain hout | ⟨scope, hscope⟩ := hapart t
          · exact absurd hout ht
          · exact ⟨t, by rw [hscope]; rfl, hb⟩
      obtain ⟨u, hask, hb⟩ := hadmitted
      obtain ⟨a, ha⟩ := hi.exists_move_of_isAsking hapart hask
      have hout : c.phase u ≠ .outside := fun h => by rw [h] at hask; cases hask
      exact ⟨u, _, .mk hout (fun _ => hb) ha⟩

/-- Without new requests, all threads are outside in the end. -/
theorem settles_of_reached (hc : c.Reached σ) : c.Settles σ := by
  induction hn : c.stepsLeft using Nat.strong_induction_on generalizing c with
  | _ n ih =>
    by_cases hout : ∀ t, c.phase t = .outside
    · exact .done hout
    · obtain ⟨t, ht⟩ := not_forall.1 hout
      refine .next (fun hbarred => exists_advance (inv_of_reached hc) hbarred ht) fun hadvance => ?_
      exact ih _ (hn ▸ hadvance.stepsLeft_lt) (hc.tail hadvance.step) rfl

/-! ### A group that nobody else wants -/

/-- **Nobody is in the way of a thread that wants a group**: no other one has a guard of the group or waits for its
mutex, and none has or wants the whole. -/
structure Unopposed (phase : ι → Phase) (t : ι) (g : String) : Prop where
  /-- Nobody has a guard of the whole, or waits for one. -/
  whole : ∀ u, phase u ≠ .holding .whole ∧ phase u ≠ .asking .all
  /-- No other thread has a guard of the group, or waits for its mutex. -/
  group : ∀ u, u ≠ t → ∀ n, phase u ≠ .holding (.group g n) ∧ phase u ≠ .waiting g n

omit [Fintype ι] in
/-- A thread that goes on to a phase without the whole does not get in its own way. -/
theorem Unopposed.update (h : Unopposed c.phase t g) {p : Phase} (hp : p ≠ .holding .whole ∧ p ≠ .asking .all) :
    Unopposed (Function.update c.phase t p) t g where
  whole u := by
    by_cases hut : u = t
    · subst hut
      rwa [Function.update_self]
    · rw [Function.update_of_ne hut]
      exact h.whole u
  group u hut := by
    rw [Function.update_of_ne hut]
    exact h.group u hut

/-- A thread locks the mutex that it waits for. -/
theorem Unopposed.of_waiting {n : ℕ} (h : Unopposed c.phase t g) (hi : LockState.Inv σ c.lock c.phase)
    (ht : c.phase t = .waiting g n) :
    ∃ n c', ReflTransGen (Advance σ barred t) c c' ∧ c'.phase t = .holding (.group g n) := by
  have hfree (u : ι) : c.phase u ≠ .holding (.group g n) := by
    by_cases hut : u = t
    · rw [hut, ht]
      simp
    · exact (h.group u hut n).1
  obtain ⟨m', hm'⟩ := hi.exists_lockMutex ht hfree
  have hmove : Move σ (c.lock, c.phase t) (m', .holding (.group g n)) := by
    rw [ht]
    exact .lockMutex hm'
  refine ⟨n, _, .single (advance_of_not_isAsking (by rw [ht]; simp) (by rw [ht]; rfl) hmove), ?_⟩
  exact Function.update_self ..

/-- A thread with a share of the epoch gets a handle on the mutex, and locks it. -/
theorem Unopposed.of_sharing (h : Unopposed c.phase t g) (hi : LockState.Inv σ c.lock c.phase)
    (ht : c.phase t = .sharing g) :
    ∃ n c', ReflTransGen (Advance σ barred t) c c' ∧ c'.phase t = .holding (.group g n) := by
  have hmove : Move σ (c.lock, c.phase t) ((c.lock.getHandle g).2, .waiting g (c.lock.getHandle g).1) := by
    rw [ht]
    exact .getHandle
  obtain ⟨n, c', hsteps, hc'⟩ := Unopposed.of_waiting (c := ⟨_, Function.update c.phase t _⟩)
    (h.update (p := .waiting g _) (by simp)) (hi.move hmove) (Function.update_self ..)
  exact ⟨n, c', hsteps.head (advance_of_not_isAsking (by rw [ht]; simp) (by rw [ht]; rfl) hmove), hc'⟩

/-- A thread that waits for the epoch is let in, gets a handle on the mutex, and locks it. -/
theorem Unopposed.of_asking (h : Unopposed c.phase t g) (hi : LockState.Inv .perGroup c.lock c.phase)
    (hbarred : c.Defers .perGroup barred) (ht : c.phase t = .asking (.group g)) :
    ∃ n c', ReflTransGen (Advance .perGroup barred t) c c' ∧ c'.phase t = .holding (.group g n) := by
  have htaken : c.lock.taken = false := by
    refine hi.taken_eq_false fun u => Bool.eq_false_iff.2 fun hu => (h.whole u).1 ?_
    unfold hasWhole at hu
    split at hu
    · assumption
    · cases hu
  have hadmitted : ¬ barred t := by
    intro hb
    obtain ⟨u, hu, -⟩ := hbarred t hb
    unfold seeksWhole at hu
    split at hu
    · next scope hscope =>
      obtain rfl : scope = .all := by simpa using hu
      exact (h.whole u).2 hscope
    · cases hu
  have hmove : Move .perGroup (c.lock, c.phase t) ({ c.lock with shares := c.lock.shares + 1 }, .sharing g) := by
    rw [ht]
    exact .takeShare (LockState.takeShare_eq_some_iff.2 ⟨htaken, rfl⟩)
  obtain ⟨n, c', hsteps, hc'⟩ := Unopposed.of_sharing (c := ⟨_, Function.update c.phase t _⟩)
    (h.update (p := .sharing g) (by simp)) (hi.move hmove) (Function.update_self ..)
  exact ⟨n, c', hsteps.head (.mk (by rw [ht]; simp) (fun _ => hadmitted) hmove), hc'⟩

/-- **A thread that wants a group gets it by its own steps**, if nobody is in its way. -/
theorem Unopposed.exists_holding (h : Unopposed c.phase t g) (hi : LockState.Inv .perGroup c.lock c.phase)
    (hbarred : c.Defers .perGroup barred) (ht : (c.phase t).seeksGroup g = true) :
    ∃ n c', ReflTransGen (Advance .perGroup barred t) c c' ∧ c'.phase t = .holding (.group g n) := by
  unfold seeksGroup at ht
  split at ht
  · next hask => exact h.of_asking hi hbarred (of_decide_eq_true ht ▸ hask)
  · next hshare => exact h.of_sharing hi (of_decide_eq_true ht ▸ hshare)
  · next hwait => exact h.of_waiting hi (of_decide_eq_true ht ▸ hwait)
  · cases ht

/-- **The threads at the lock do not get stuck, and do not wait without need.** -/
structure Lively (σ : LockStrategy) (c : Crowd ι) : Prop where
  /-- As long as some thread is not outside, one of them goes on, whomever the epoch keeps waiting. -/
  advances : ∀ {barred : ι → Prop}, c.Defers σ barred → ∀ {t : ι}, c.phase t ≠ .outside →
    ∃ u c', Advance σ barred u c c'
  /-- Without new requests, everyone has had the guard that was asked for, and is outside, in the end. -/
  settles : c.Settles σ
  /-- A thread that wants a group gets it by its own steps if nobody is in its way, whatever other groups are held. -/
  unhindered : σ = .perGroup → ∀ {barred : ι → Prop}, c.Defers σ barred → ∀ {t : ι} {g : String},
    (c.phase t).seeksGroup g = true → Unopposed c.phase t g →
      ∃ n c', ReflTransGen (Advance σ barred t) c c' ∧ c'.phase t = .holding (.group g n)

end Crowd

/-- **The mutation lock cannot deadlock, and nobody waits without a conflict**, in every state that is reached by any
number of threads. -/
theorem lock_lively [Fintype ι] [DecidableEq ι] {c : Crowd ι} (hc : c.Reached σ) : c.Lively σ := by
  have hi := Crowd.inv_of_reached hc
  refine ⟨fun hbarred _ ht => Crowd.exists_advance hi hbarred ht, Crowd.settles_of_reached hc, ?_⟩
  rintro rfl barred hbarred t g ht hunopposed
  exact hunopposed.exists_holding hi hbarred ht

/-- One thread holds the group `a`, a second one waits for its mutex, and a third one wants the group `b`, with nobody in
its way; then a fourth one asks for the whole, for whose sake the epoch may keep the third one waiting. -/
theorem lock_lively_while_deferring : ∃ (c c' : Crowd (Fin 4)) (n : Nat),
    (c.Reached .perGroup ∧ c.phase 0 = .holding (.group "a" n) ∧ c.phase 1 = .waiting "a" n ∧
        c.phase 2 = .asking (.group "b") ∧ Crowd.Unopposed c.phase 2 "b" ∧ c.Lively .perGroup) ∧
      Crowd.Step .perGroup c c' ∧ c'.Reached .perGroup ∧ c'.phase 3 = .asking .all ∧
        c'.Defers .perGroup (· = 2) ∧ c'.Lively .perGroup := by
  obtain ⟨n, m₁, h₁, htaken, hentries, -⟩ :=
    LockState.acquire_of_no_entry (m := .free) (g := "a") rfl Std.ExtTreeMap.getElem?_empty
  have hin : (Crowd.start : Crowd (Fin 4)).Reached .perGroup := .refl
  have hheld : Crowd.Reached .perGroup _ := hin.trans (Crowd.steps_of_acquire (t := 0) rfl h₁)
  have hentry : ({ m₁ with shares := m₁.shares + 1 } : LockState).entries["a"]? = some n := by
    simp [hentries]
  have hmoves := ((ReflTransGen.single (.ask (.group "a"))).tail
    (.takeShare (LockState.takeShare_eq_some_iff.2 ⟨htaken, rfl⟩))).tail (Move.getHandle (g := "a"))
  rw [LockState.getHandle_of_entry hentry] at hmoves
  have hwaits : Crowd.Reached .perGroup _ := hheld.trans (Crowd.steps_of_moves (t := 1) hmoves)
  have hasks : Crowd.Reached .perGroup _ := hwaits.tail (.mk 2 (.ask (.group "b")))
  -- nobody is in the way of the third thread as long as the fourth one has not asked
  refine ⟨_, _, n, ⟨hasks, rfl, rfl, rfl, ⟨?_, ?_⟩, lock_lively hasks⟩, .mk 3 (.ask .all),
    hasks.tail (.mk 3 (.ask .all)), rfl, ?_, lock_lively (hasks.tail (.mk 3 (.ask .all)))⟩
  · intro u
    match u with
    | 0 | 1 | 2 | 3 => exact ⟨by simp [Crowd.start], by simp [Crowd.start]⟩
  · intro u hu k
    match u with
    | 0 | 1 | 3 => exact ⟨by simp [Crowd.start], by simp [Crowd.start]⟩
  · exact fun _ _ => ⟨3, rfl, by decide⟩

end JobRoster
