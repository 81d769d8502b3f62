import JobRoster.Engine.Program
import Mathlib.Tactic.Common

/-!
# Running programs

How a run of a program ends and in which state it leaves the engine, step by step along the program (`exec`), and what
can be said of a program whatever engine it runs over (`Obeys`): which calls it makes as long as the replies are of an
expected kind, and what it ends with.

Main statements:

* `exec_bind`: one program after another runs the second from where the first has ended.
* `exec_keeps`: a property of states that all calls keep is kept by a run of any program.
* `Obeys.exec`: a property of states that the calls of a program keep is kept by a run of the program.
-/

namespace JobRoster

variable {σ α β : Type} {engine : Engine σ}

/-- What is said of the replies that let a program go on; a crash does not. -/
def Reply.Meets (R : Except EngineError α → Prop) : Reply α → Prop
  | answer a => R (.ok a)
  | refused e => R (.error e)
  | crashed _ => True

namespace Program

/-! ### How a run ends -/

/-- How a run of a program ends, and the state then. -/
def exec (engine : Engine σ) (p : Program α) (s : σ) : Except Crash α × σ :=
  ((p.run engine s).result, (p.run engine s).state)

@[simp] theorem exec_note (e : Event) (rest : Program α) (s : σ) :
    (note e rest).exec engine s = rest.exec engine s := rfl

theorem exec_ask (c : Call) (next : Except EngineError c.Answer → Program α) (s : σ) :
    (ask c next).exec engine s = match (engine.serve c s).reply with
      | .answer a => (next (.ok a)).exec engine (engine.serve c s).state
      | .refused e => (next (.error e)).exec engine (engine.serve c s).state
      | .crashed crash => (.error crash, (engine.serve c s).state) := by
  simp only [exec, run]
  cases (engine.serve c s).reply <;> rfl

/-- One program after another runs the second from where the first has ended. -/
theorem exec_bind (p : Program α) (f : α → Program β) (s : σ) :
    (p >>= f).exec engine s = match p.exec engine s with
      | (.ok a, s') => (f a).exec engine s'
      | (.error crash, s') => (.error crash, s') := by
  change (p.bind f).exec engine s = _
  induction p generalizing s with
  | done a => rfl
  | note e rest ih =>
    rw [Program.bind, exec_note, exec_note]
    exact ih s
  | ask c next ih =>
    rw [Program.bind, exec_ask, exec_ask]
    cases (engine.serve c s).reply with
    | answer a => exact ih (.ok a) _
    | refused e => exact ih (.error e) _
    | crashed crash => rfl

/-- A call whose error stops the program. -/
theorem exec_call (c : Call) (s : σ) :
    (Attempt.call c).run.exec engine s = match (engine.serve c s).reply with
      | .answer a => (.ok (.ok a), (engine.serve c s).state)
      | .refused e => (.ok (.error e), (engine.serve c s).state)
      | .crashed crash => (.error crash, (engine.serve c s).state) := by
  change (ask c done).exec engine s = _
  rw [exec_ask]
  cases (engine.serve c s).reply <;> rfl

/-- One attempt after another, which an error of the first one stops. -/
theorem exec_attempt_bind (x : Attempt α) (f : α → Attempt β) (s : σ) :
    (x >>= f).run.exec engine s = match x.run.exec engine s with
      | (.ok (.ok a), s') => (f a).run.exec engine s'
      | (.ok (.error e), s') => (.ok (.error e), s')
      | (.error crash, s') => (.error crash, s') := by
  rw [ExceptT.run_bind, exec_bind]
  obtain ⟨⟨⟩ | ⟨⟨⟩ | ⟨⟩⟩, s'⟩ := x.run.exec engine s <;> rfl

/-! ### The calls of a run -/

/-- The calls that a run of a program makes, in the order in which they reach the engine. -/
def calls (engine : Engine σ) : Program α → σ → List Call
  | done _, _ => []
  | note _ rest, s => rest.calls engine s
  | ask c next, s =>
    c :: match (engine.serve c s).reply with
      | .answer a => (next (.ok a)).calls engine (engine.serve c s).state
      | .refused e => (next (.error e)).calls engine (engine.serve c s).state
      | .crashed _ => []

/-- One program after another makes the calls of the first, and then those of the second unless the first is broken
off. -/
theorem calls_bind (p : Program α) (f : α → Program β) (s : σ) :
    (p >>= f).calls engine s = p.calls engine s ++ match p.exec engine s with
      | (.ok a, s') => (f a).calls engine s'
      | (.error _, _) => [] := by
  change (p.bind f).calls engine s = _
  induction p generalizing s with
  | done a => rfl
  | note e rest ih => exact ih s
  | ask c next ih =>
    simp only [Program.bind, calls, exec_ask, List.cons_append]
    congr 1
    cases (engine.serve c s).reply with
    | answer a => exact ih (.ok a) _
    | refused e => exact ih (.error e) _
    | crashed crash => rfl

/-- A program that is followed by one without calls makes the calls. -/
theorem calls_bind_of_silent {f : α → Program β} (hf : ∀ a s, (f a).calls engine s = []) (p : Program α) (s : σ) :
    (p >>= f).calls engine s = p.calls engine s := by
  rw [calls_bind]
  split
  · rw [hf, List.append_nil]
  · exact List.append_nil _

/-! ### What a program does over any engine -/

/-- **A program obeys a contract**: it makes only calls in `P`, and it ends with a value in `Q`, as long as the replies
are in `R`. -/
def Obeys (P : Call → Prop) (R : (c : Call) → Except EngineError c.Answer → Prop) (Q : α → Prop) :
    Program α → Prop
  | done a => Q a
  | note _ rest => rest.Obeys P R Q
  | ask c next => P c ∧ ∀ r, R c r → (next r).Obeys P R Q

variable {P : Call → Prop} {R : (c : Call) → Except EngineError c.Answer → Prop} {Q : α → Prop}

/-- A weaker contract is obeyed too. -/
theorem Obeys.mono {P' : Call → Prop} {Q' : α → Prop} {p : Program α} (hp : p.Obeys P R Q) (hP : ∀ c, P c → P' c)
    (hQ : ∀ a, Q a → Q' a) : p.Obeys P' R Q' := by
  induction p with
  | done a => exact hQ a hp
  | note e rest ih => exact ih hp
  | ask c next ih => exact ⟨hP c hp.1, fun r hr => ih r (hp.2 r hr)⟩

theorem Obeys.bind {Q' : β → Prop} {p : Program α} {f : α → Program β} (hp : p.Obeys P R Q)
    (hf : ∀ a, Q a → (f a).Obeys P R Q') : (p >>= f).Obeys P R Q' := by
  change (p.bind f).Obeys P R Q'
  induction p with
  | done a => exact hf a hp
  | note e rest ih => exact ih hp
  | ask c next ih => exact ⟨hp.1, fun r hr => ih r (hp.2 r hr)⟩

/-- **A run keeps what its calls keep**: if every call in `P` keeps a property of states and is replied to in `R`, then
a program that obeys keeps the property too, and ends with a value in `Q` unless it is broken off. -/
theorem Obeys.exec {I : σ → Prop}
    (hI : ∀ c s, P c → I s → I (engine.serve c s).state ∧ (engine.serve c s).reply.Meets (R c))
    {p : Program α} (hp : p.Obeys P R Q) {s : σ} (hs : I s) :
    I (p.exec engine s).2 ∧ ∀ a, (p.exec engine s).1 = .ok a → Q a := by
  induction p generalizing s with
  | done a =>
    refine ⟨hs, fun b hb => ?_⟩
    cases hb
    exact hp
  | note e rest ih =>
    rw [exec_note]
    exact ih hp hs
  | ask c next ih =>
    obtain ⟨hs', hmeets⟩ := hI c s hp.1 hs
    rw [exec_ask]
    cases hr : (engine.serve c s).reply with
    | answer a =>
      rw [hr] at hmeets
      exact ih (.ok a) (hp.2 _ hmeets) hs'
    | refused e =>
      rw [hr] at hmeets
      exact ih (.error e) (hp.2 _ hmeets) hs'
    | crashed crash => exact ⟨hs', fun a ha => by cases ha⟩

/-- What every call keeps, every run keeps. -/
theorem exec_keeps {I : σ → Prop} (hI : ∀ c s, I s → I (engine.serve c s).state) (p : Program α) {s : σ} (hs : I s) :
    I (p.exec engine s).2 := by
  induction p generalizing s with
  | done a => exact hs
  | note e rest ih =>
    rw [exec_note]
    exact ih hs
  | ask c next ih =>
    have hs' := hI c s hs
    rw [exec_ask]
    cases (engine.serve c s).reply with
    | answer a => exact ih (.ok a) hs'
    | refused e => exact ih (.error e) hs'
    | crashed crash => exact hs'

/-- **Two engines that cannot be told apart** by the calls in `P` end a program that obeys alike: what relates their
states relates them still. -/
theorem Obeys.simulate {σ' : Type} {engine' : Engine σ'} {I : σ → σ' → Prop}
    (hI : ∀ c s s', P c → I s s' → (engine.serve c s).reply = (engine'.serve c s').reply ∧
      I (engine.serve c s).state (engine'.serve c s').state ∧ (engine.serve c s).reply.Meets (R c))
    {p : Program α} (hp : p.Obeys P R Q) {s : σ} {s' : σ'} (hs : I s s') :
    (p.exec engine s).1 = (p.exec engine' s').1 ∧ I (p.exec engine s).2 (p.exec engine' s').2 := by
  induction p generalizing s s' with
  | done a => exact ⟨rfl, hs⟩
  | note e rest ih =>
    rw [exec_note, exec_note]
    exact ih hp hs
  | ask c next ih =>
    obtain ⟨hreply, hstate, hmeets⟩ := hI c s s' hp.1 hs
    rw [exec_ask, exec_ask, ← hreply]
    cases hr : (engine.serve c s).reply with
    | answer a =>
      rw [hr] at hmeets
      exact ih (.ok a) (hp.2 _ hmeets) hstate
    | refused e =>
      rw [hr] at hmeets
      exact ih (.error e) (hp.2 _ hmeets) hstate
    | crashed crash => exact ⟨rfl, hstate⟩

end Program

end JobRoster
