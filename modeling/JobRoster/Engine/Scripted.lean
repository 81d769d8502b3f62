import JobRoster.Engine.Call

/-!
# Scripted engines

An engine can be put behind a script that answers some calls in its place, and that keeps a record of all calls. An
entry of a script names a kind of call and tells which call of that kind it is for, counted from one.
-/

namespace JobRoster

/-- What a script does in place of an engine. -/
inductive Act where
  /-- It answers a question. -/
  | say (yes : Bool)
  /-- It gives nothing to someone who asks for something. -/
  | giveNothing
  /-- It tells that a job is stored. -/
  | tellDone
  /-- It gives a list of keys. -/
  | giveKeys (keys : List Key)
  /-- It crashes. -/
  | crash (text : String)
  /-- It refuses the call. -/
  | refuse (e : EngineError)

/-- What an act amounts to as a reply to a call, if it fits the call. -/
def Act.reply? : Act → (c : Call) → Option (Reply c.Answer)
  | .crash text, _ => some (.crashed (.raised text))
  | .refuse e, _ => some (.refused e)
  | .say yes, .jobExists _ => some (.answer yes)
  | .say yes, .triggerExists _ => some (.answer yes)
  | .say yes, .deleteJob _ => some (.answer yes)
  | .say yes, .deleteJobs _ => some (.answer yes)
  | .giveNothing, .getJob _ => some (.answer none)
  | .giveNothing, .getTrigger _ => some (.answer none)
  | .giveNothing, .schedule _ => some (.answer none)
  | .giveNothing, .reschedule .. => some (.answer none)
  | .tellDone, .addJob .. => some (.answer ())
  | .giveKeys keys, .jobKeys _ => some (.answer keys)
  | _, _ => none

/-- An entry of a script. -/
structure ScriptEntry where
  /-- The name of the kind of call. -/
  call : String
  /-- Which call of the kind it is for. -/
  nth : Nat
  /-- What is done. -/
  act : Act

/-- An engine behind a script, with the record of the calls. -/
structure Recorded (σ : Type) where
  /-- The state of the engine. -/
  inner : σ
  /-- The calls so far, the last one first. -/
  calls : List Call

/-- The act of a script for a call, given the calls before it. -/
def actFor? (script : List ScriptEntry) (earlier : List Call) (c : Call) : Option Act :=
  let nth := (earlier.filter fun d => d.name = c.name).length + 1
  (script.find? fun entry => entry.call = c.name && entry.nth = nth).map ScriptEntry.act

/-- An engine behind a script. Each call is recorded; only those that the script leaves alone reach the engine. -/
def Engine.scripted {σ : Type} (e : Engine σ) (script : List ScriptEntry) : Engine (Recorded σ) where
  serve c s :=
    match (actFor? script s.calls c).bind fun act => act.reply? c with
    | some reply => ⟨reply, ⟨s.inner, c :: s.calls⟩, []⟩
    | none =>
      let effect := e.serve c s.inner
      ⟨effect.reply, ⟨effect.state, c :: s.calls⟩, effect.events⟩

end JobRoster
