import JobRoster.Proofs.Engine.Exchanges
import JobRoster.Proofs.Engine.History

/-!
# Calls that are not answered

A call that is refused, or over which the engine crashes, has found that out before anything was changed or counted: it
leaves the memory exactly as it was (`serve_of_unanswered`). So of calls that are made one after another (`serveAll`)
those that are not answered could as well not have been made: the others (`answered`) are replied to as before, and the
memory is the same in the end (`serveAll_answered`).

Main statement: `unanswered_leaves_no_trace`.
-/

namespace JobRoster

/-- A reply is an answer, not a refusal or a crash. -/
def Reply.isAnswer {α : Type} : Reply α → Bool
  | answer _ => true
  | refused _ | crashed _ => false

/-- What a call leads to is an answer, or it is nothing. -/
def Effect.AnswersOrSpares {α : Type} (e : Effect Store α) (s : Store) : Prop :=
  e.reply.isAnswer = true ∨ e.state = s ∧ e.events = []

namespace Store

variable {s : Store} {now : Instant} {c : Call}

/-! ### One call -/

theorem addJob_answersOrSpares (s : Store) (job : Job) (replace : Bool) : (s.addJob job replace).AnswersOrSpares s := by
  unfold addJob
  dsimp only
  split
  · exact .inr ⟨rfl, rfl⟩
  · split
    · exact .inr ⟨rfl, rfl⟩
    · exact .inl rfl

/-- A trigger is prepared before anything is counted or stored. -/
theorem schedule_answersOrSpares (s : Store) (now : Instant) (t : Trigger) :
    (s.schedule now t).AnswersOrSpares s := by
  unfold schedule
  split
  · exact .inr ⟨rfl, rfl⟩
  · split
    · exact .inr ⟨rfl, rfl⟩
    · split
      · exact .inr ⟨rfl, rfl⟩
      · exact .inr ⟨rfl, rfl⟩
      · exact .inl rfl

/-- So is one that is to take the place of another one, which is still there then. -/
theorem reschedule_answersOrSpares (s : Store) (now : Instant) (k : Key) (t : Trigger) :
    (s.reschedule now k t).AnswersOrSpares s := by
  unfold reschedule
  split
  · exact .inl rfl
  · split
    · exact .inr ⟨rfl, rfl⟩
    · split
      · exact .inr ⟨rfl, rfl⟩
      · exact .inr ⟨rfl, rfl⟩
      · exact .inl rfl

/-- **A call is answered, or it leaves the memory exactly as it was**, and nothing is reported. -/
theorem serve_answersOrSpares (s : Store) (now : Instant) (c : Call) : (s.serve now c).AnswersOrSpares s := by
  unfold serve
  split
  · exact .inr ⟨rfl, rfl⟩
  · cases c with
    | addJob job replace => exact s.addJob_answersOrSpares job replace
    | schedule t => exact s.schedule_answersOrSpares now t
    | reschedule k t => exact s.reschedule_answersOrSpares now k t
    | _ => exact .inl rfl

theorem serve_of_unanswered (h : (s.serve now c).reply.isAnswer = false) :
    (s.serve now c).state = s ∧ (s.serve now c).events = [] :=
  (s.serve_answersOrSpares now c).resolve_left (Bool.eq_false_iff.1 h)

/-! ### Calls one after another -/

/-- Calls, each at its own time, one after another: what comes back for each of them, and the memory in the end. -/
def serveAll : List (Instant × Call) → Store → List Exchange × Store
  | [], s => ([], s)
  | (now, c) :: asked, s =>
    (⟨c, (s.serve now c).reply⟩ :: (serveAll asked (s.serve now c).state).1, (serveAll asked (s.serve now c).state).2)

/-- The tables make sense after any calls. -/
theorem Sound.serveAll (hs : s.Sound) (asked : List (Instant × Call)) : (Store.serveAll asked s).2.Sound := by
  induction asked generalizing s with
  | nil => exact hs
  | cons first asked ih => exact ih ((serve_change first.1 first.2 s).sound hs)

theorem serveAll_stopped (asked : List (Instant × Call)) (s : Store) : (serveAll asked s).2.stopped = s.stopped := by
  induction asked generalizing s with
  | nil => rfl
  | cons first asked ih => exact (ih _).trans (serve_stopped first.1 first.2 s)

/-- Those of some calls that are answered when all of them are made. -/
def answered : List (Instant × Call) → Store → List (Instant × Call)
  | [], _ => []
  | (now, c) :: asked, s =>
    if (s.serve now c).reply.isAnswer then (now, c) :: answered asked (s.serve now c).state
    else answered asked (s.serve now c).state

/-- **Calls that are not answered could as well not have been made**: without them the others are replied to as before,
and the memory is the same in the end. -/
theorem serveAll_answered (asked : List (Instant × Call)) (s : Store) :
    serveAll (answered asked s) s =
      ((serveAll asked s).1.filter fun x => x.reply.isAnswer, (serveAll asked s).2) := by
  induction asked generalizing s with
  | nil => rfl
  | cons first asked ih =>
    obtain ⟨now, c⟩ := first
    cases h : (s.serve now c).reply.isAnswer with
    | true => simp [answered, serveAll, h, ih]
    | false =>
      -- the rest begins where this call began
      simp [answered, serveAll, h, (serve_of_unanswered h).1, ih]

/-- **A call that is not answered leaves no trace**: the memory is exactly what it was, with its jobs, its triggers,
their next fire times and all counters, and whatever is called later is replied to as if that call had not been made.
The same goes for all calls that are not answered among any calls. -/
theorem unanswered_leaves_no_trace (s : Store) :
    (∀ now c, (s.serve now c).reply.isAnswer = false → (s.serve now c).state = s ∧
      ∀ later, serveAll ((now, c) :: later) s =
        (⟨c, (s.serve now c).reply⟩ :: (serveAll later s).1, (serveAll later s).2)) ∧
    ∀ asked, serveAll (answered asked s) s =
      ((serveAll asked s).1.filter fun x => x.reply.isAnswer, (serveAll asked s).2) := by
  refine ⟨fun now c h => ?_, fun asked => serveAll_answered asked s⟩
  obtain ⟨hstate, -⟩ := serve_of_unanswered h
  refine ⟨hstate, fun later => ?_⟩
  rw [serveAll, hstate]

/-- A job is there with its trigger. Its trigger is to give place to one with a window that begins with the first moment
of all, over which the engine crashes; and of five calls two are answered, while the job is there already, an expression
cannot be read, and the engine crashes again. -/
theorem unanswered_leaves_no_trace_of_crash : ∃ (now : Instant) (s : Store) (c : Call) (asked : List (Instant × Call)),
    s.Reached (fun _ => True) ∧ s.triggers.size = 1 ∧ (s.serve now c).reply.isAnswer = false ∧
      ((s.serve now c).state = s ∧ ∀ later, serveAll ((now, c) :: later) s =
        (⟨c, (s.serve now c).reply⟩ :: (serveAll later s).1, (serveAll later s).2)) ∧
      (asked.length = 5 ∧ (answered asked s).length = 2) ∧ serveAll (answered asked s) s =
        ((serveAll asked s).1.filter fun x => x.reply.isAnswer, (serveAll asked s).2) := by
  let now : Instant := ⟨4133894300, 0, by decide, by decide, by decide, by decide⟩
  let k : Key := ⟨"nightly", "eu"⟩
  let add : Call := .addJob ⟨k, "backup", ∅, true⟩ false
  let replace (cron : String) (start : Instant) : Call := .reschedule k (.forJob k cron start none)
  let s := ((fresh.serve now add).state.serve now (.schedule (.forJob k "@daily" now none))).state
  let asked := [(now, add), (now, .jobExists k), (now, replace "every now and then" now), (now, replace "@hourly" now),
    (now, replace "@hourly" Instant.first)]
  have hs : s.Reached fun _ => True := ((Reached.empty _).call now _ (Call.passes_any _)).call now _ (Call.passes_any _)
  have hcrash : (s.serve now (replace "@hourly" Instant.first)).reply.isAnswer = false := by decide +kernel
  obtain ⟨hone, hall⟩ := unanswered_leaves_no_trace s
  exact ⟨now, s, _, asked, hs, by decide +kernel, hcrash, hone now _ hcrash, by decide +kernel, hall asked⟩

end Store

end JobRoster
