import JobRoster.Engine.Memory

/-!
# Missed fire times

A fire time is missed when it lies before a cutoff, which is a threshold before the present. A trigger that missed its
fire time gets another one by its policy: the next of its schedule in its window, or the present, in which case it is
due. The triggers are gone through in the order of their keys.
-/

namespace JobRoster

namespace Store

/-- The memory with a trigger put under a key. -/
def putTrigger (s : Store) (key : Key) (stored : Stored) : Store :=
  { s with triggers := s.triggers.insert key stored }

/-- Treats some triggers one after another; the answer is the keys of those that are due. -/
def treatMissed (now cutoff : Instant) : List (Key × Stored) → Store → Effect Store (List Key)
  | [], s => s.reply []
  | (key, stored) :: rest, s =>
    match stored.next with
    | none => treatMissed now cutoff rest s
    | some missed =>
      if ¬ missed < cutoff then treatMissed now cutoff rest s
      else
        match stored.trigger.policy with
        | .doNothing =>
          match stored.schedule.firstFire now stored.trigger.start stored.trigger.stop with
          | .error o => ⟨.crashed (.overflow o), s, []⟩
          | .ok next =>
            let effect := treatMissed now cutoff rest (s.putTrigger key { stored with next })
            { effect with events := .misfired key missed next :: effect.events }
        | .fireOnceNow =>
          let effect := treatMissed now cutoff rest (s.putTrigger key { stored with next := some now })
          match effect.reply with
          | .answer due => { effect with reply := .answer (key :: due) }
          | _ => effect

/-- Treats all triggers that have missed their fire times. -/
def applyMisfires (now : Instant) (s : Store) : Effect Store (List Key) :=
  match now.sub s.threshold with
  | .error o => ⟨.crashed (.overflow o), s, []⟩
  | .ok cutoff => treatMissed now cutoff s.triggers.toList s

end Store

end JobRoster
