import JobRoster.Proofs.MutationLock.Exclusion
import JobRoster.Proofs.Roster.Requests

/-!
# Threads that carry out requests

A roster over an engine in memory, with any number of threads, each of which has a list of requests to carry out. For
each of them a thread asks for its scope, goes its way into the lock, makes the calls of the request one by one while
its guard is alive, and goes its way out. One step of the whole is one atomic step of one thread: a step at the lock,
the report of an event, or one call. The time that the engine takes for the present is fixed for each request.

A request that crashes ends with the crash, and the thread goes on with its next one, as requests do that run in the
background; a thread that ends with a crash is one with no more requests after it.

Main statement: `Crew.Ordered.scopes_apart`. The scopes that are held at one time have no key in common.
-/

namespace JobRoster

open Relation Roster

/-! ### Requests under way -/

/-- A request, and the time of its calls. -/
structure Duty where
  /-- The request. -/
  request : Request
  /-- The time at which its calls are made. -/
  now : Instant

/-- A duty, and what is left to do of it. -/
structure Errand where
  /-- The duty. -/
  duty : Duty
  /-- What is left of its program, or the crash that broke it off. -/
  rest : Except Crash (Program Answer)

namespace Errand

/-- A duty of which nothing has been done. -/
def fresh (r : Roster) (duty : Duty) : Errand := ⟨duty, .ok (r.program duty.request)⟩

/-- What a duty ends with, once nothing is left to do of it. -/
def result? (e : Errand) : Option (Except Crash Answer) :=
  match e.rest with
  | .ok (.done answer) => some (.ok answer)
  | .error crash => some (.error crash)
  | _ => none

/-- How the rest of a duty ends if nobody is in between. -/
def exec (e : Errand) (s : Store) : Except Crash Answer × Store :=
  match e.rest with
  | .ok p => p.exec (Store.engine e.duty.now) s
  | .error crash => (.error crash, s)

end Errand

/-- What is left of a program after the reply to its call. -/
def Reply.goOn {α β : Type} (reply : Reply α) (next : Except EngineError α → Program β) : Except Crash (Program β) :=
  match reply with
  | .answer a => .ok (next (.ok a))
  | .refused e => .ok (next (.error e))
  | .crashed crash => .error crash

/-- A thread with its requests. -/
structure Worker where
  /-- Where it stands with the lock. -/
  phase : Phase
  /-- What it has not ended yet, in order. -/
  left : List Errand
  /-- What its requests have ended with, in order. -/
  answers : List (Except Crash Answer)

/-- **An atomic step of a thread**: what it does to the lock, to the engine, and to itself. -/
inductive Deed (r : Roster) : LockState × Store × Worker → LockState × Store × Worker → Prop where
  /-- It asks for the scope of its next request. -/
  | ask {m : LockState} {s : Store} {e : Errand} {left : List Errand} {answers : List (Except Crash Answer)} :
      Deed r (m, s, ⟨.outside, e :: left, answers⟩) (m, s, ⟨.asking e.duty.request.scope, e :: left, answers⟩)
  /-- It moves on, on its way in or out. -/
  | move {m m' : LockState} {s : Store} {p p' : Phase} {left : List Errand} {answers : List (Except Crash Answer)} :
      Move.UnderWay r.lock (m, p) (m', p') → Deed r (m, s, ⟨p, left, answers⟩) (m', s, ⟨p', left, answers⟩)
  /-- It reports an event. -/
  | note {m : LockState} {s : Store} {guard : Guard} {duty : Duty} {event : Event} {p : Program Answer}
      {left : List Errand} {answers : List (Except Crash Answer)} :
      Deed r (m, s, ⟨.holding guard, ⟨duty, .ok (.note event p)⟩ :: left, answers⟩)
        (m, s, ⟨.holding guard, ⟨duty, .ok p⟩ :: left, answers⟩)
  /-- It makes a call, and takes the reply. -/
  | call {m : LockState} {s : Store} {guard : Guard} {duty : Duty} {c : Call}
      {next : Except EngineError c.Answer → Program Answer} {left : List Errand}
      {answers : List (Except Crash Answer)} :
      Deed r (m, s, ⟨.holding guard, ⟨duty, .ok (.ask c next)⟩ :: left, answers⟩)
        (m, (s.serve duty.now c).state,
          ⟨.holding guard, ⟨duty, (s.serve duty.now c).reply.goOn next⟩ :: left, answers⟩)
  /-- Nothing is left to do of its request, and its guard ends. -/
  | finish {m m' : LockState} {s : Store} {guard : Guard} {p' : Phase} {e : Errand} {left : List Errand}
      {answers : List (Except Crash Answer)} {result : Except Crash Answer} :
      e.result? = some result → Move r.lock (m, .holding guard) (m', p') →
        Deed r (m, s, ⟨.holding guard, e :: left, answers⟩) (m', s, ⟨p', left, answers ++ [result]⟩)

/-! ### The roster and the threads -/

/-- A roster at work, with its threads. -/
@[ext]
structure Crew (ι : Type*) where
  /-- The memory of the lock. -/
  lock : LockState
  /-- The engine. -/
  store : Store
  /-- The threads. -/
  worker : ι → Worker

namespace Crew

variable {ι : Type*}

/-- Nobody has begun. -/
def start (r : Roster) (s : Store) (duties : ι → List Duty) : Crew ι :=
  ⟨.free, s, fun t => ⟨.outside, (duties t).map (.fresh r), []⟩⟩

variable [DecidableEq ι]

/-- **A step**: one thread makes one. -/
inductive Step (r : Roster) : Crew ι → Crew ι → Prop
  /-- The thread `t` makes a step. -/
  | mk {c : Crew ι} (t : ι) {m : LockState} {s : Store} {w : Worker} :
      Deed r (c.lock, c.store, c.worker t) (m, s, w) → Step r c ⟨m, s, Function.update c.worker t w⟩

/-- What is reached when any threads make their steps in any order. -/
def Reached (r : Roster) (s : Store) (duties : ι → List Duty) (c : Crew ι) : Prop :=
  ReflTransGen (Step r) (start r s duties) c

/-- What one thread does, one after another, are steps. -/
theorem steps_of_deeds {r : Roster} {c : Crew ι} {t : ι} {a : LockState × Store × Worker}
    (h : ReflTransGen (Deed r) (c.lock, c.store, c.worker t) a) :
    ReflTransGen (Step r) c ⟨a.1, a.2.1, Function.update c.worker t a.2.2⟩ := by
  induction h with
  | refl => rw [Function.update_eq_self]
  | @tail a b _ hd ih =>
    have hd' : Deed r (a.1, a.2.1, Function.update c.worker t a.2.2 t) (b.1, b.2.1, b.2.2) := by
      rwa [Function.update_self]
    have := ih.tail (Step.mk t hd')
    rwa [Function.update_idem] at this

end Crew

/-! ### What a thread holds -/

/-- The groups that a guard is for. -/
def Guard.scope : Guard → Scope
  | whole => .all
  | group g _ => .group g

/-- A thread holds a guard for a request. -/
def Worker.Holds (w : Worker) (guard : Guard) (e : Errand) : Prop :=
  w.phase = .holding guard ∧ w.left.head? = some e

/-- A phase on the way into the lock, or with a guard, fits the scope that the thread has asked for. -/
def Phase.FitsScope (scope : Scope) : Phase → Prop
  | asking asked => asked = scope
  | sharing g | waiting g _ => scope = .group g
  | holding guard => guard.scope = scope ∨ guard.scope = .all
  | _ => True

/-- A thread wants something of the lock, or holds it. -/
def Phase.isEngaged : Phase → Bool
  | asking _ | sharing _ | waiting .. | holding _ => true
  | _ => false

/-- **What a thread does fits where it stands**: nothing has been done of what it has before it, but for the first
request while its guard is alive, and its phase fits the scope of that. -/
structure Worker.Fits (r : Roster) (w : Worker) : Prop where
  /-- Nothing has been done of the requests before it. -/
  fresh : ∀ e ∈ w.left.tail, e = .fresh r e.duty
  /-- Nothing has been done of the first one either, unless its guard is alive. -/
  head_fresh : (∀ guard, w.phase ≠ .holding guard) → ∀ e ∈ w.left.head?, e = .fresh r e.duty
  /-- It has a request when it wants something of the lock. -/
  engaged : w.phase.isEngaged = true → ∃ e, w.left.head? = some e
  /-- Its phase fits the scope of the request. -/
  scope : ∀ e ∈ w.left.head?, w.phase.FitsScope e.duty.request.scope

theorem Phase.fitsScope_of_not_isEngaged {p : Phase} {scope : Scope} (h : p.isEngaged = false) : p.FitsScope scope := by
  cases p <;> trivial

variable {σ : LockStrategy} {m m' : LockState} {p p' : Phase} {guard : Guard}

/-- A move on the way in or out goes on fitting the scope. -/
theorem Move.UnderWay.fitsScope {scope : Scope} (h : Move.UnderWay σ (m, p) (m', p')) (hfits : p.FitsScope scope) :
    p'.FitsScope scope := by
  obtain ⟨hway, h⟩ := h
  cases h with
  | ask => cases hway
  | takeShare _ => exact hfits.symm
  | takeWhole _ _ => exact .inr rfl
  | getHandle => exact hfits
  | lockMutex _ => exact .inl hfits.symm
  | _ => trivial

/-- A thread that is engaged after a move on its way was so before. -/
theorem Move.UnderWay.isEngaged (h : Move.UnderWay σ (m, p) (m', p')) (hp' : p'.isEngaged = true) :
    p.isEngaged = true := by
  obtain ⟨hway, h⟩ := h
  cases h with
  | ask => cases hway
  | takeShare _ | takeWhole _ _ | getHandle | lockMutex _ => rfl
  | _ => cases hp'

/-- A thread whose guard ends is not engaged any more. -/
theorem Move.not_isEngaged (h : Move σ (m, .holding guard) (m', p')) : p'.isEngaged = false := by
  cases h <;> rfl

/-- **A step of a thread goes on fitting.** -/
theorem Deed.fits {r : Roster} {s s' : Store} {w w' : Worker} (h : Deed r (m, s, w) (m', s', w')) (hw : w.Fits r) :
    w'.Fits r := by
  cases h with
  | ask =>
    refine ⟨hw.fresh, fun _ => hw.head_fresh fun guard h => ?_, fun _ => ⟨_, rfl⟩, fun e he => ?_⟩
    · cases h
    · cases he
      rfl
  | move hm =>
    exact ⟨hw.fresh, fun _ => hw.head_fresh (Phase.ne_holding_of_isUnderWay hm.1),
      fun hp => hw.engaged (hm.isEngaged hp), fun e he => hm.fitsScope (hw.scope e he)⟩
  | @note _ _ guard duty event p =>
    refine ⟨hw.fresh, fun h => absurd rfl (h guard), fun _ => ⟨_, rfl⟩, fun e he => ?_⟩
    cases he
    exact hw.scope ⟨duty, .ok (.note event p)⟩ rfl
  | @call _ _ guard duty c next =>
    refine ⟨hw.fresh, fun h => absurd rfl (h guard), fun _ => ⟨_, rfl⟩, fun e he => ?_⟩
    cases he
    exact hw.scope ⟨duty, .ok (.ask c next)⟩ rfl
  | finish _ hm =>
    refine ⟨fun e he => hw.fresh e (List.mem_of_mem_tail he), fun _ e he => hw.fresh e (List.mem_of_mem_head? he),
      fun hp => ?_, fun e _ => ?_⟩
    · exact absurd (hm.not_isEngaged.symm.trans hp) Bool.false_ne_true
    · exact Phase.fitsScope_of_not_isEngaged hm.not_isEngaged

theorem Worker.fits_start (r : Roster) (duties : List Duty) : Worker.Fits r ⟨.outside, duties.map (.fresh r), []⟩ := by
  have hfresh : ∀ e ∈ duties.map (Errand.fresh r), e = .fresh r e.duty := by
    intro e he
    obtain ⟨duty, -, rfl⟩ := List.mem_map.1 he
    rfl
  refine ⟨fun e he => hfresh e (List.mem_of_mem_tail he), fun _ e he => hfresh e (List.mem_of_mem_head? he),
    fun h => ?_, fun e _ => trivial⟩
  cases h

/-- The rest of a duty ends as before, once the thread has reported or called. -/
theorem Errand.exec_goOn (duty : Duty) (c : Call) (next : Except EngineError c.Answer → Program Answer) (s : Store) :
    exec ⟨duty, .ok (.ask c next)⟩ s =
      exec ⟨duty, (s.serve duty.now c).reply.goOn next⟩ (s.serve duty.now c).state := by
  have hserve : (Store.engine duty.now).serve c s = s.serve duty.now c := rfl
  simp only [exec, Program.exec_ask, hserve]
  cases (s.serve duty.now c).reply <;> rfl

/-- Where nothing is left to do, the engine is left alone. -/
theorem Errand.exec_of_result? {e : Errand} {result : Except Crash Answer} (h : e.result? = some result) (s : Store) :
    e.exec s = (result, s) := by
  obtain ⟨duty, rest⟩ := e
  unfold result? at h
  split at h
  · next answer hrest =>
    cases h
    subst hrest
    rfl
  · next crash hrest =>
    cases h
    subst hrest
    rfl
  · cases h

/-! ### A request without anyone in between -/

section Alone

variable {r : Roster} {s : Store} {duty : Duty} {e : Errand} {left : List Errand} {answers : List (Except Crash Answer)}

/-- The moves on the way in or out are steps. -/
theorem deeds_of_moves {a b : LockState × Phase} (h : ReflTransGen (Move.UnderWay r.lock) a b) :
    ReflTransGen (Deed r) (a.1, s, ⟨a.2, left, answers⟩) (b.1, s, ⟨b.2, left, answers⟩) :=
  h.lift (fun a => (a.1, s, (⟨a.2, left, answers⟩ : Worker))) fun _ _ hm => .move hm

/-- A thread takes hold of the scope of its request, all steps at once. -/
theorem deeds_of_acquire (h : m.acquire r.lock e.duty.request.scope = some (guard, m')) :
    ReflTransGen (Deed r) (m, s, ⟨.outside, e :: left, answers⟩) (m', s, ⟨.holding guard, e :: left, answers⟩) :=
  .head .ask (deeds_of_moves (moves_of_acquire h))

/-- A thread goes through its program to the end. -/
theorem deeds_of_exec (p : Program Answer) :
    ∃ rest, Errand.result? ⟨duty, rest⟩ = some (p.exec (Store.engine duty.now) s).1 ∧
      ReflTransGen (Deed r) (m, s, ⟨.holding guard, ⟨duty, .ok p⟩ :: left, answers⟩)
        (m, (p.exec (Store.engine duty.now) s).2, ⟨.holding guard, ⟨duty, rest⟩ :: left, answers⟩) := by
  induction p generalizing s with
  | done a => exact ⟨.ok (.done a), rfl, .refl⟩
  | note event p ih =>
    obtain ⟨rest, hresult, hdeeds⟩ := ih (s := s)
    exact ⟨rest, hresult, .head .note hdeeds⟩
  | ask c next ih =>
    have hexec := Errand.exec_goOn duty c next s
    simp only [Errand.exec] at hexec
    rw [hexec]
    cases hreply : (s.serve duty.now c).reply with
    | answer a =>
      obtain ⟨rest, hresult, hdeeds⟩ := ih (.ok a) (s := (s.serve duty.now c).state)
      refine ⟨rest, hresult, .head .call ?_⟩
      rw [hreply]
      exact hdeeds
    | refused e =>
      obtain ⟨rest, hresult, hdeeds⟩ := ih (.error e) (s := (s.serve duty.now c).state)
      refine ⟨rest, hresult, .head .call ?_⟩
      rw [hreply]
      exact hdeeds
    | crashed crash =>
      refine ⟨.error crash, rfl, .single ?_⟩
      have hcall : Deed r (m, s, ⟨.holding guard, ⟨duty, .ok (.ask c next)⟩ :: left, answers⟩)
          (m, (s.serve duty.now c).state,
            ⟨.holding guard, ⟨duty, (s.serve duty.now c).reply.goOn next⟩ :: left, answers⟩) := .call
      rw [hreply] at hcall
      exact hcall

/-- A thread lets go of its hold, all steps at once. -/
theorem deeds_of_release {result : Except Crash Answer} (h : e.result? = some result) :
    ReflTransGen (Deed r) (m, s, ⟨.holding guard, e :: left, answers⟩)
      (m.release guard, s, ⟨.outside, left, answers ++ [result]⟩) := by
  obtain ⟨a, hend, hout⟩ := moves_release (σ := r.lock) m guard
  exact .head (.finish h hend) (deeds_of_moves hout)

/-- A thread that has its guard goes through its program and lets go, all steps at once. -/
theorem deeds_of_program (p : Program Answer) :
    ReflTransGen (Deed r) (m, s, ⟨.holding guard, ⟨duty, .ok p⟩ :: left, answers⟩)
      (m.release guard, (p.exec (Store.engine duty.now) s).2,
        ⟨.outside, left, answers ++ [(p.exec (Store.engine duty.now) s).1]⟩) := by
  obtain ⟨rest, hresult, hdeeds⟩ := deeds_of_exec p
  exact hdeeds.trans (deeds_of_release hresult)

/-- **A request that is carried out at once** is made of these steps. -/
theorem deeds_of_perform {run : Program.Run (World Store) Answer}
    (h : r.perform (Store.engine duty.now) duty.request ⟨m, s⟩ = some run) :
    ReflTransGen (Deed r) (m, s, ⟨.outside, .fresh r duty :: left, answers⟩)
      (run.state.lock, run.state.engine, ⟨.outside, left, answers ++ [run.result]⟩) := by
  obtain ⟨hexec, guard, m', hacquire, hlock⟩ := perform_eq_some h
  rw [hlock, show run.result = _ from congrArg Prod.fst hexec, show run.state.engine = _ from congrArg Prod.snd hexec]
  exact (deeds_of_acquire hacquire).trans (deeds_of_program _)

namespace Crew

variable {ι : Type*} [DecidableEq ι] {c : Crew ι} {t : ι}

theorem steps_of_acquire (ht : c.worker t = ⟨.outside, e :: left, answers⟩)
    (h : c.lock.acquire r.lock e.duty.request.scope = some (guard, m)) :
    ReflTransGen (Step r) c ⟨m, c.store, Function.update c.worker t ⟨.holding guard, e :: left, answers⟩⟩ :=
  steps_of_deeds (a := (m, c.store, ⟨.holding guard, e :: left, answers⟩)) (ht ▸ deeds_of_acquire h)

theorem steps_of_program {p : Program Answer} (ht : c.worker t = ⟨.holding guard, ⟨duty, .ok p⟩ :: left, answers⟩) :
    ReflTransGen (Step r) c ⟨c.lock.release guard, (p.exec (Store.engine duty.now) c.store).2,
      Function.update c.worker t
        ⟨.outside, left, answers ++ [(p.exec (Store.engine duty.now) c.store).1]⟩⟩ :=
  steps_of_deeds (a := (_, _, ⟨.outside, left, answers ++ [(p.exec (Store.engine duty.now) c.store).1]⟩))
    (ht ▸ deeds_of_program p)

end Crew

end Alone

/-! ### The scopes that are held -/

/-- A step of a thread is a move at the lock, or leaves it alone. -/
theorem Deed.move_or_eq {r : Roster} {s s' : Store} {w w' : Worker} (h : Deed r (m, s, w) (m', s', w')) :
    Move r.lock (m, w.phase) (m', w'.phase) ∨ m' = m ∧ w'.phase = w.phase := by
  cases h with
  | ask => exact .inl (.ask _)
  | move hm => exact .inl hm.2
  | note => exact .inr ⟨rfl, rfl⟩
  | call => exact .inr ⟨rfl, rfl⟩
  | finish _ hm => exact .inl hm

namespace Crew

variable {ι : Type*} {r : Roster} {c : Crew ι} {t u : ι}

/-- Where the threads stand with the lock. -/
def phase (c : Crew ι) (t : ι) : Phase := (c.worker t).phase

theorem phase_update [DecidableEq ι] (c : Crew ι) (m : LockState) (s : Store) (t : ι) (w : Worker) :
    phase ⟨m, s, Function.update c.worker t w⟩ = Function.update c.phase t w.phase := by
  funext u
  by_cases hu : u = t
  · subst hu
    simp [phase]
  · simp [phase, hu]

variable [Fintype ι]

/-- **The lock is in order, and what each thread does fits where it stands.** -/
structure Ordered (r : Roster) (c : Crew ι) : Prop where
  /-- The invariant of the lock. -/
  lock : LockState.Inv r.lock c.lock c.phase
  /-- What each thread does fits. -/
  fits : ∀ t, (c.worker t).Fits r

theorem ordered_start (r : Roster) (s : Store) (duties : ι → List Duty) : Ordered r (start r s duties) :=
  ⟨LockState.inv_free r.lock, fun t => Worker.fits_start r (duties t)⟩

theorem Ordered.deed [DecidableEq ι] (h : c.Ordered r) {s : Store} {w : Worker}
    (hd : Deed r (c.lock, c.store, c.worker t) (m, s, w)) : Ordered r ⟨m, s, Function.update c.worker t w⟩ := by
  refine ⟨?_, (Function.forall_update_iff c.worker fun _ w => w.Fits r).2
    ⟨hd.fits (h.fits t), fun u _ => h.fits u⟩⟩
  rw [phase_update]
  obtain hm | ⟨rfl, hp⟩ := hd.move_or_eq
  · exact h.lock.move hm
  · rw [hp]
    change LockState.Inv r.lock c.lock (Function.update c.phase t (c.phase t))
    rw [Function.update_eq_self]
    exact h.lock

/-- **The scopes that are held at one time** have no key in common. -/
theorem Ordered.scopes_apart (h : c.Ordered r) (htu : t ≠ u) {a b : Guard} (ht : c.phase t = .holding a)
    (hu : c.phase u = .holding b) {k : Key} (hk : a.scope.Covers k) : ¬ b.scope.Covers k := by
  obtain ⟨-, g, n, g', n', rfl, rfl, hne⟩ := h.lock.guards_apart htu ht hu
  intro hk'
  exact hne (hk.symm.trans hk')

end Crew

end JobRoster
