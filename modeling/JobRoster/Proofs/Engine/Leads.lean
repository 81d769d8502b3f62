import JobRoster.Proofs.Engine.Program
import JobRoster.Proofs.Engine.Tables

/-!
# Runs over an engine in memory

Where a program that stops at the first error leads over an engine in memory (`Attempt.Leads`): what it ends with, and
the memory then, all but for the counters. There is a rule for each kind of call, with what has to be the case for the
call to be answered, and there are rules for one attempt after another.
-/

namespace JobRoster

variable {α β : Type} {now : Instant} {s s' s'' : Store}

/-- A trigger is put under its key once it is prepared: what that ends with, given what is answered then, and the
memory. -/
def Store.putPrepared (s : Store) (now : Instant) (t : Trigger) (answer : Option Instant → α) :
    Except Crash (Except EngineError α) × Store :=
  match Store.prepare now t with
  | .answer stored => (.ok (.ok (answer stored.next)), s.putTrigger t.key stored)
  | .refused e => (.ok (.error e), s)
  | .crashed crash => (.error crash, s)

/-- Nothing happens to an engine that has been shut down, whatever program is run. -/
theorem Store.exec_of_stopped (hstopped : s.stopped = true) (p : Program α) :
    (p.exec (Store.engine now) s).2 = s := by
  refine Program.exec_keeps (I := fun s' => s' = s) ?_ p rfl
  rintro c s' rfl
  exact congrArg Effect.state (Store.serve_of_stopped hstopped now c)

/-- No program shuts an engine down or changes its threshold. -/
theorem Store.exec_standing (now : Instant) (p : Program α) (s : Store) :
    (p.exec (Store.engine now) s).2.standing = s.standing :=
  Program.exec_keeps (I := fun s' => s'.standing = s.standing)
    (fun c s' hs' => (Store.serve_standing now c s').trans hs') p rfl

namespace Attempt

/-- **A run leads** from one memory to another one, whatever the counters are, and ends with a result. -/
def Leads (x : Attempt α) (now : Instant) (s : Store) (result : Except Crash (Except EngineError α)) (s' : Store) :
    Prop :=
  ∀ counters, ∃ counters',
    x.run.exec (Store.engine now) { s with counters } = (result, { s' with counters := counters' })

/-! ### One attempt after another -/

theorem Leads.bind {x : Attempt α} {f : α → Attempt β} {a : α} {result : Except Crash (Except EngineError β)}
    (hx : x.Leads now s (.ok (.ok a)) s') (hf : (f a).Leads now s' result s'') :
    (x >>= f).Leads now s result s'' := by
  intro c
  obtain ⟨c₁, hx⟩ := hx c
  obtain ⟨c₂, hf⟩ := hf c₁
  exact ⟨c₂, by rw [Program.exec_attempt_bind, hx]; exact hf⟩

theorem Leads.bind_error {x : Attempt α} (f : α → Attempt β) {e : EngineError}
    (hx : x.Leads now s (.ok (.error e)) s') : (x >>= f).Leads now s (.ok (.error e)) s' := by
  intro c
  obtain ⟨c₁, hx⟩ := hx c
  exact ⟨c₁, by rw [Program.exec_attempt_bind, hx]⟩

theorem Leads.bind_crash {x : Attempt α} (f : α → Attempt β) {crash : Crash}
    (hx : x.Leads now s (.error crash) s') : (x >>= f).Leads now s (.error crash) s' := by
  intro c
  obtain ⟨c₁, hx⟩ := hx c
  exact ⟨c₁, by rw [Program.exec_attempt_bind, hx]⟩

theorem leads_pure (a : α) : (pure a : Attempt α).Leads now s (.ok (.ok a)) s := fun c => ⟨c, rfl⟩

theorem leads_report (e : Event) : (report e).Leads now s (.ok (.ok ())) s := fun c => ⟨c, rfl⟩

/-- What follows upon a trigger that was put makes its own of the answer, and leaves errors and crashes as they are. -/
theorem Leads.bind_putPrepared {x : Attempt α} {f : α → Attempt β} {t : Trigger} {answer : Option Instant → α}
    {answer' : Option Instant → β} (hx : x.Leads now s (s'.putPrepared now t answer).1 (s'.putPrepared now t answer).2)
    (hf : ∀ (next : Option Instant) (s : Store), (f (answer next)).Leads now s (.ok (.ok (answer' next))) s) :
    (x >>= f).Leads now s (s'.putPrepared now t answer').1 (s'.putPrepared now t answer').2 := by
  unfold Store.putPrepared at hx ⊢
  cases hprep : Store.prepare now t with
  | answer stored =>
    rw [hprep] at hx
    exact hx.bind (hf stored.next _)
  | refused e =>
    rw [hprep] at hx
    exact hx.bind_error f
  | crashed crash =>
    rw [hprep] at hx
    exact hx.bind_crash f

/-! ### Calls -/

section Effect

variable {c : Call} {events : Counters → List Event} {counters' : Counters → Counters}

theorem leads_of_answer {a : c.Answer} (h : ∀ counters, Store.serve now c { s with counters } =
    ⟨.answer a, { s' with counters := counters' counters }, events counters⟩) :
    (call c).Leads now s (.ok (.ok a)) s' := by
  intro counters
  refine ⟨counters' counters, ?_⟩
  rw [Program.exec_call]
  simp only [Store.engine, h]

theorem leads_of_refusal {e : EngineError} (h : ∀ counters, Store.serve now c { s with counters } =
    ⟨.refused e, { s' with counters := counters' counters }, events counters⟩) :
    (call c).Leads now s (.ok (.error e)) s' := by
  intro counters
  refine ⟨counters' counters, ?_⟩
  rw [Program.exec_call]
  simp only [Store.engine, h]

theorem leads_of_crash {crash : Crash} (h : ∀ counters, Store.serve now c { s with counters } =
    ⟨.crashed crash, { s' with counters := counters' counters }, events counters⟩) :
    (call c).Leads now s (.error crash) s' := by
  intro counters
  refine ⟨counters' counters, ?_⟩
  rw [Program.exec_call]
  simp only [Store.engine, h]

end Effect

/-- An engine that has been shut down refuses every call. -/
theorem leads_of_stopped (hstopped : s.stopped = true) (c : Call) :
    (call c).Leads now s (.ok (.error (.unavailable "the scheduler has been shut down"))) s :=
  leads_of_refusal fun _ => if_pos hstopped

section Running

variable (hrun : s.stopped = false)
include hrun

theorem leads_jobExists (k : Key) : (call (.jobExists k)).Leads now s (.ok (.ok (s.jobs.contains k))) s :=
  leads_of_answer fun _ => if_neg (Bool.eq_false_iff.1 hrun)

theorem leads_triggerExists (k : Key) :
    (call (.triggerExists k)).Leads now s (.ok (.ok (s.triggers.contains k))) s :=
  leads_of_answer fun _ => if_neg (Bool.eq_false_iff.1 hrun)

theorem leads_getJob (k : Key) : (call (.getJob k)).Leads now s (.ok (.ok s.jobs[k]?)) s :=
  leads_of_answer fun _ => if_neg (Bool.eq_false_iff.1 hrun)

theorem leads_getTrigger (k : Key) :
    (call (.getTrigger k)).Leads now s (.ok (.ok (s.triggers[k]?.map Stored.trigger))) s :=
  leads_of_answer fun _ => if_neg (Bool.eq_false_iff.1 hrun)

/-- A job is stored if it is new or may replace another one, and is durable or has a trigger. -/
theorem leads_addJob {job : Job} {replace : Bool} (hknown : job.key ∈ s.jobs → replace = true)
    (hdurable : job.durable = false → job.key ∈ s.triggers) :
    (call (.addJob job replace)).Leads now s (.ok (.ok ())) { s with jobs := s.jobs.insert job.key job } := by
  have hknown' : ¬ (s.jobs.contains job.key && !replace) = true := by simpa using hknown
  have hdurable' : ¬ (!job.durable && !s.triggers.contains job.key) = true := by simpa using hdurable
  exact leads_of_answer fun _ =>
    (if_neg (Bool.eq_false_iff.1 hrun)).trans ((if_neg hknown').trans (if_neg hdurable'))

/-- A job that is neither durable nor has a trigger is refused. -/
theorem leads_addJob_of_not_durable {job : Job} (hdurable : job.durable = false) (htrigger : job.key ∉ s.triggers) :
    (call (.addJob job true)).Leads now s (.ok (.error (.notDurable job.key.display))) s := by
  have hknown' : ¬ (s.jobs.contains job.key && !true) = true := by simp
  have htrigger' : s.triggers.contains job.key = false := by
    rw [← Bool.not_eq_true, Std.ExtTreeMap.contains_iff_mem]
    exact htrigger
  have hdurable' : (!job.durable && !s.triggers.contains job.key) = true := by rw [hdurable, htrigger']; rfl
  exact leads_of_refusal fun _ =>
    (if_neg (Bool.eq_false_iff.1 hrun)).trans ((if_neg hknown').trans (if_pos hdurable'))

/-- A new trigger of a job that is there is stored if it can be prepared. -/
theorem leads_schedule {t : Trigger} (hjob : t.jobKey ∈ s.jobs) (hnew : s.triggers[t.key]? = none) :
    (call (.schedule t)).Leads now s (s.putPrepared now t id).1 (s.putPrepared now t id).2 := by
  have hjob' : ¬ (!s.jobs.contains t.jobKey) = true := by simpa using hjob
  have hnew' : ¬ s.triggers.contains t.key = true := by
    rw [Table.contains_eq_false_iff.2 hnew]
    exact Bool.false_ne_true
  have hserve (counters : Counters) : Store.serve now (.schedule t) { s with counters } = _ :=
    (if_neg (Bool.eq_false_iff.1 hrun)).trans ((if_neg hjob').trans (if_neg hnew'))
  unfold Store.putPrepared
  cases hprep : Store.prepare now t with
  | answer stored =>
    obtain ⟨_, _, -, -, rfl⟩ := Store.prepare_eq_answer_iff.1 hprep
    exact leads_of_answer fun counters => (hserve counters).trans (by rw [hprep]; rfl)
  | refused e => exact leads_of_refusal fun counters => (hserve counters).trans (by rw [hprep]; rfl)
  | crashed crash => exact leads_of_crash fun counters => (hserve counters).trans (by rw [hprep])

/-- A trigger takes the place of one with its key and its job if it can be prepared. -/
theorem leads_reschedule {t : Trigger} {old : Stored} (hold : s.triggers[t.key]? = some old)
    (hjob : old.trigger.jobKey = t.jobKey) :
    (call (.reschedule t.key t)).Leads now s (s.putPrepared now t id).1 (s.putPrepared now t id).2 := by
  have hserve (counters : Counters) : Store.serve now (.reschedule t.key t) { s with counters } =
      Store.reschedule { s with counters } now t.key t := if_neg (Bool.eq_false_iff.1 hrun)
  simp only [Store.reschedule, hold, hjob, ne_eq, not_true_eq_false, if_false] at hserve
  unfold Store.putPrepared
  cases hprep : Store.prepare now t with
  | answer stored =>
    obtain ⟨_, _, -, -, rfl⟩ := Store.prepare_eq_answer_iff.1 hprep
    simp only [hprep, Table.insert_erase] at hserve
    exact leads_of_answer hserve
  | refused e =>
    simp only [hprep] at hserve
    exact leads_of_refusal hserve
  | crashed crash =>
    simp only [hprep] at hserve
    exact leads_of_crash hserve

/-- A trigger of another job is left alone. -/
theorem leads_reschedule_of_ne {t : Trigger} {old : Stored} (hold : s.triggers[t.key]? = some old)
    (hjob : old.trigger.jobKey ≠ t.jobKey) :
    (call (.reschedule t.key t)).Leads now s (.ok (.error (.jobMismatch t.key.display))) s := by
  have hserve (counters : Counters) : Store.serve now (.reschedule t.key t) { s with counters } =
      Store.reschedule { s with counters } now t.key t := if_neg (Bool.eq_false_iff.1 hrun)
  simp only [Store.reschedule, hold, hjob, ne_eq, not_false_eq_true, if_true] at hserve
  exact leads_of_refusal hserve

theorem leads_jobKeys (matcher : GroupMatcher) : (call (.jobKeys matcher)).Leads now s
    (.ok (.ok (s.jobs.keys.filter fun k => matcher.accepts k.group))) s :=
  leads_of_answer fun _ => if_neg (Bool.eq_false_iff.1 hrun)

theorem leads_deleteJob (k : Key) :
    (call (.deleteJob k)).Leads now s (.ok (.ok (s.jobs.contains k))) (s.remove k) :=
  leads_of_answer fun _ => if_neg (Bool.eq_false_iff.1 hrun)

theorem leads_deleteJobs (keys : List Key) :
    (call (.deleteJobs keys)).Leads now s (.ok (.ok (s.removeAll keys).2)) (s.removeAll keys).1 := by
  have hserve (counters : Counters) : Store.serve now (.deleteJobs keys) { s with counters } =
      ⟨.answer (s.removeAll keys).2, { (s.removeAll keys).1 with
        counters := { counters with bulkDeletes := counters.bulkDeletes + 1 } }, []⟩ := by
    refine (if_neg (Bool.eq_false_iff.1 hrun)).trans ?_
    simp only [Store.deleteJobs, Store.reply, Store.count, Store.removeAll_counters]
  exact leads_of_answer hserve

end Running

/-! ### The calls that are made -/

/-- **A run makes these calls** from a memory, whatever the counters are. -/
def Calls (x : Attempt α) (now : Instant) (s : Store) (calls : List Call) : Prop :=
  ∀ counters, x.run.calls (Store.engine now) { s with counters } = calls

theorem Calls.bind {x : Attempt α} {f : α → Attempt β} {a : α} {calls calls' : List Call} (hx : x.Calls now s calls)
    (hleads : x.Leads now s (.ok (.ok a)) s') (hf : (f a).Calls now s' calls') :
    (x >>= f).Calls now s (calls ++ calls') := by
  intro counters
  obtain ⟨counters', hexec⟩ := hleads counters
  rw [ExceptT.run_bind, Program.calls_bind, hx counters, hexec]
  exact congrArg (calls ++ ·) (hf counters')

theorem calls_pure (a : α) : (pure a : Attempt α).Calls now s [] := fun _ => rfl

theorem calls_report (e : Event) : (report e).Calls now s [] := fun _ => rfl

theorem calls_call (c : Call) : (call c).Calls now s [c] := by
  intro counters
  change (Program.ask c Program.done).calls _ _ = [c]
  simp only [Program.calls]
  split <;> rfl

end Attempt

end JobRoster
