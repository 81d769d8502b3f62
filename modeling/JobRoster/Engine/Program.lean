import JobRoster.Engine.Call

/-!
# Programs that call an engine

A program is a tree: it ends with a value, reports an event, or makes a call and goes on depending on whether the call
is answered or refused. What the calls lead to is left open; running a program over an engine decides it. A crash of
the engine breaks the program off.
-/

namespace JobRoster

/-- A program that calls an engine and ends with a value of type `α`. -/
inductive Program (α : Type) where
  /-- The end. -/
  | done (a : α)
  /-- An event, and what follows. -/
  | note (e : Event) (rest : Program α)
  /-- A call, and what follows upon an answer or an error. -/
  | ask (c : Call) (next : Except EngineError c.Answer → Program α)

namespace Program

/-- One program after another. -/
protected def bind {α β : Type} : Program α → (α → Program β) → Program β
  | done a, f => f a
  | note e rest, f => note e (rest.bind f)
  | ask c next, f => ask c fun r => (next r).bind f

instance : Monad Program where
  pure := done
  bind := Program.bind

/-- How a run of a program ends: with a value or a crash, the state of the engine, and the events so far. -/
structure Run (σ α : Type) where
  /-- The value, or the crash. -/
  result : Except Crash α
  /-- The state of the engine. -/
  state : σ
  /-- What was reported. -/
  events : List Event

/-- A run with events before it. -/
def Run.after {σ α : Type} (r : Run σ α) (earlier : List Event) : Run σ α :=
  { r with events := earlier ++ r.events }

/-- Runs a program over an engine from a state. -/
def run {σ α : Type} (engine : Engine σ) : Program α → σ → Run σ α
  | done a, s => ⟨.ok a, s, []⟩
  | note e rest, s => (rest.run engine s).after [e]
  | ask c next, s =>
    let effect := engine.serve c s
    match effect.reply with
    | .answer a => ((next (.ok a)).run engine effect.state).after effect.events
    | .refused e => ((next (.error e)).run engine effect.state).after effect.events
    | .crashed crash => ⟨.error crash, effect.state, effect.events⟩

end Program

/-- A program that stops at the first error. -/
abbrev Attempt (α : Type) := ExceptT EngineError Program α

namespace Attempt

/-- A call whose error stops the program. -/
def call (c : Call) : Attempt c.Answer := ExceptT.mk (.ask c .done)

/-- An event. -/
def report (e : Event) : Attempt Unit := ExceptT.mk (.note e (.done (.ok ())))

end Attempt

end JobRoster
