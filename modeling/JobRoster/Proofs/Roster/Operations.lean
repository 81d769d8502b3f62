import JobRoster.Proofs.Roster.Keeping

/-!
# What is done to an engine, one thing after another

An engine in memory is worked with from outside by operations: calls, requests to rosters over it
(`Operation.run_request_eq`), the treatment of missed fire times, forgetting everything, and shutting down. What each of
some operations keeps is kept by all of them (`after_induction`). The memories that come of operations on an empty one
are those that are reached (`reached_iff_exists_after`), so what holds of these holds after any operations. Requests
that are not about a job leave alone what is declared of it, and so does the treatment of missed fire times
(`redatedAt_after`).

Main statements:

* `tables_sound_after`: after any operations, with whatever triggers, everything is stored under its own key, no trigger
  is without its job, and its schedule is that of its expression.
* `triggers_paired_after`: if all triggers that are passed are made for jobs, then triggers have the keys of their jobs,
  no job has two of them, and a job that is not durable has one.
-/

namespace JobRoster

/-- Something that is done to an engine in memory. -/
inductive Operation where
  /-- A call at a time. -/
  | call (c : Call) (now : Instant)
  /-- A request to a roster while nobody else makes one, all its calls at one time. -/
  | request (r : Roster) (q : Roster.Request) (now : Instant)
  /-- The treatment of missed fire times. -/
  | applyMisfires (now : Instant)
  /-- Everything is forgotten. -/
  | clear
  /-- The engine is shut down. -/
  | shutDown

namespace Operation

/-- The memory after an operation, also when it crashes. -/
def run : Operation → Store → Store
  | call c now, s => (s.serve now c).state
  | request r q now, s => ((r.program q).exec (Store.engine now) s).2
  | applyMisfires now, s => (s.applyMisfires now).state
  | clear, s => s.clear.1
  | shutDown, s => s.shutDown.1

/-- The memory after a request is that in which a roster leaves the engine if it carries out the request. -/
theorem run_request_eq {r : Roster} {q : Roster.Request} {now : Instant} {lock : LockState} {s : Store}
    {run : Program.Run (Roster.World Store) Roster.Answer}
    (h : r.perform (Store.engine now) q ⟨lock, s⟩ = some run) : (request r q now).run s = run.state.engine :=
  (congrArg Prod.snd (Roster.perform_eq_some h).1).symm

/-- An operation passes no trigger but those that are allowed, apart from what rosters pass. -/
def Passes (allowed : Trigger → Prop) : Operation → Prop
  | call c _ => c.Passes allowed
  | _ => True

/-- An operation is a request to a roster, or treats missed fire times. -/
def Routine : Operation → Prop
  | request .. | applyMisfires _ => True
  | _ => False

/-- An operation is a request that is not about a job, or treats missed fire times. -/
def Spares (k : Key) : Operation → Prop
  | request r q _ => ¬ q.Concerns r k
  | applyMisfires _ => True
  | _ => False

variable {op : Operation}

theorem Spares.routine {k : Key} (h : op.Spares k) : op.Routine := by
  cases op with
  | request | applyMisfires => trivial
  | _ => exact h.elim

theorem Routine.passes {allowed : Trigger → Prop} (h : op.Routine) : op.Passes allowed := by
  cases op with
  | call c now => exact h.elim
  | _ => trivial

/-- Any operation passes only triggers that are allowed, where all are. -/
theorem passes_any (op : Operation) : op.Passes fun _ => True := by
  cases op with
  | call c now => exact c.passes_any
  | _ => trivial

/-- No routine operation shuts an engine down. -/
theorem Routine.running (h : op.Routine) {s : Store} (hs : s.Reached Trigger.Mirrors) (hrun : s.stopped = false) :
    (op.run s).stopped = false := by
  cases op with
  | request r q now =>
    obtain ⟨hm, -⟩ := hs.mirrored_supported
    exact (r.program_stopped q hs.sound hm now).trans hrun
  | applyMisfires now => exact (Store.applyMisfires_stopped now s).trans hrun
  | _ => exact h.elim

end Operation

namespace Store

variable {allowed : Trigger → Prop} {s : Store}

/-- The memory after operations, one after another. -/
def after (s : Store) (ops : List Operation) : Store := ops.foldl (fun s op => op.run s) s

@[simp] theorem after_nil (s : Store) : s.after [] = s := rfl

@[simp] theorem after_cons (s : Store) (op : Operation) (ops : List Operation) :
    s.after (op :: ops) = (op.run s).after ops := rfl

@[simp] theorem after_concat (s : Store) (ops : List Operation) (op : Operation) :
    s.after (ops ++ [op]) = op.run (s.after ops) := by
  simp [after, List.foldl_append]

/-- **What is kept by each of some operations** is kept by one after another. -/
theorem after_induction {I : Store → Prop} {ops : List Operation} (hrun : ∀ op ∈ ops, ∀ s, I s → I (op.run s))
    (hs : I s) : I (s.after ops) := by
  induction ops generalizing s with
  | nil => exact hs
  | cons op ops ih =>
    obtain ⟨hop, hops⟩ := List.forall_mem_cons.1 hrun
    exact ih hops (hop s hs)

/-- **An operation leaves a memory among those that are reached.** -/
theorem Reached.run (hs : s.Reached allowed) (hallowed : ∀ t, t.Mirrors → allowed t) {op : Operation}
    (hop : op.Passes allowed) : (op.run s).Reached allowed := by
  cases op with
  | call c now => exact hs.call now c hop
  | request r q now => exact hs.program hallowed r q
  | applyMisfires now => exact hs.applyMisfires now
  | clear => exact hs.clear
  | shutDown => exact hs.shutDown

theorem Reached.after (hs : s.Reached allowed) (hallowed : ∀ t, t.Mirrors → allowed t) {ops : List Operation}
    (hops : ∀ op ∈ ops, op.Passes allowed) : (s.after ops).Reached allowed :=
  after_induction (fun op hop _ hs => hs.run hallowed (hops op hop)) hs

/-- Any operations on an empty memory lead to one that is reached, where all triggers are allowed. -/
theorem reached_after (threshold : Int) (ops : List Operation) : ((empty threshold).after ops).Reached fun _ => True :=
  (Reached.empty threshold).after (fun _ _ => trivial) fun op _ => op.passes_any

/-- **The memories that are reached** are those that come of operations on an empty one. -/
theorem reached_iff_exists_after (hallowed : ∀ t, t.Mirrors → allowed t) :
    s.Reached allowed ↔
      ∃ threshold ops, (∀ op ∈ ops, op.Passes allowed) ∧ (empty threshold).after ops = s := by
  constructor
  · intro h
    -- each way to reach a memory is one more operation at the end
    have snoc {s : Store} (op : Operation) (hop : op.Passes allowed)
        (h : ∃ threshold ops, (∀ op ∈ ops, op.Passes allowed) ∧ (empty threshold).after ops = s) :
        ∃ threshold ops, (∀ op ∈ ops, op.Passes allowed) ∧ (empty threshold).after ops = op.run s := by
      obtain ⟨threshold, ops, hops, rfl⟩ := h
      refine ⟨threshold, ops ++ [op], fun op' hop' => ?_, after_concat _ ops op⟩
      obtain hmem | hmem := List.mem_append.1 hop'
      · exact hops op' hmem
      · obtain rfl := List.mem_singleton.1 hmem
        exact hop
    induction h with
    | empty threshold => exact ⟨threshold, [], by simp, rfl⟩
    | call now c hc _ ih => exact snoc (.call c now) hc ih
    | applyMisfires now _ ih => exact snoc (.applyMisfires now) trivial ih
    | clear _ ih => exact snoc .clear trivial ih
    | shutDown _ ih => exact snoc .shutDown trivial ih
  · rintro ⟨threshold, ops, hops, rfl⟩
    exact (Reached.empty threshold).after hallowed hops

/-! ### What operations leave alone -/

/-- **The same under a key**, but for when the trigger fires next. -/
structure RedatedAt (k : Key) (s s' : Store) : Prop where
  /-- The job is the same. -/
  job : s'.jobs[k]? = s.jobs[k]?
  /-- What is declared of the trigger is the same. -/
  declared : s'.triggers[k]?.map Stored.declared = s.triggers[k]?.map Stored.declared

theorem RedatedAt.refl (k : Key) (s : Store) : RedatedAt k s s := ⟨rfl, rfl⟩

theorem RedatedAt.trans {k : Key} {s' s'' : Store} (h : RedatedAt k s s') (h' : RedatedAt k s' s'') :
    RedatedAt k s s'' :=
  ⟨h'.job.trans h.job, h'.declared.trans h.declared⟩

/-- The trigger itself is the same as well. -/
theorem RedatedAt.trigger {k : Key} {s' : Store} (h : RedatedAt k s s') :
    s'.triggers[k]?.map Stored.trigger = s.triggers[k]?.map Stored.trigger := by
  have hfst (o : Option Stored) : o.map Stored.trigger = (o.map Stored.declared).map Prod.fst := by
    rw [Option.map_map]
    rfl
  rw [hfst, hfst, h.declared]

/-- An operation that spares a key leaves what is under it as it is. -/
theorem redatedAt_run (hs : s.Reached Trigger.Mirrors) {k : Key} {op : Operation} (hop : op.Spares k) :
    RedatedAt k s (op.run s) := by
  cases op with
  | request r q now =>
    obtain ⟨hm, -⟩ := hs.mirrored_supported
    obtain ⟨hjob, htrigger⟩ := Roster.agreeAt_exec_of_not_concerns hs.sound hm hop now
    exact ⟨hjob.symm, congrArg _ htrigger.symm⟩
  | applyMisfires now =>
    have hredated := redated_applyMisfires now s
    exact ⟨congrArg (·[k]?) hredated.jobs, hredated.declared k⟩
  | _ => exact hop.elim

/-- **Operations that spare a key** leave what is under it as it is, however they end. -/
theorem redatedAt_after (hs : s.Reached Trigger.Mirrors) {k : Key} {ops : List Operation}
    (hops : ∀ op ∈ ops, op.Spares k) : RedatedAt k s (s.after ops) := by
  refine (after_induction (I := fun s' => s'.Reached Trigger.Mirrors ∧ RedatedAt k s s') ?_ ⟨hs, .refl k s⟩).2
  rintro op hop s' ⟨hs', hredated⟩
  exact ⟨hs'.run (fun _ h => h) (hops op hop).routine.passes, hredated.trans (redatedAt_run hs' (hops op hop))⟩

/-- After routine operations an engine goes on taking calls. -/
theorem running_after (hs : s.Reached Trigger.Mirrors) (hrun : s.stopped = false) {ops : List Operation}
    (hops : ∀ op ∈ ops, op.Routine) : (s.after ops).stopped = false := by
  refine (after_induction (I := fun s' => s'.Reached Trigger.Mirrors ∧ s'.stopped = false) ?_ ⟨hs, hrun⟩).2
  rintro op hop s' ⟨hs', hrun'⟩
  exact ⟨hs'.run (fun _ h => h) (hops op hop).passes, (hops op hop).running hs' hrun'⟩

/-! ### What holds after any operations -/

/-- **The tables make sense after any operations**, whatever triggers are passed: everything is stored under its own
key, the job that a trigger fires is stored, and the cron expression of a trigger can be read and has the stored
schedule. -/
theorem tables_sound_after (threshold : Int) (ops : List Operation) : ((empty threshold).after ops).Sound :=
  (reached_after threshold ops).sound

/-- **Triggers and jobs belong together one to one.** -/
structure Paired (s : Store) : Prop where
  /-- A trigger has the key of its job. -/
  mirrors : ∀ {k : Key} {stored : Stored}, s.triggers[k]? = some stored → stored.trigger.key = stored.trigger.jobKey
  /-- No two triggers fire one job. -/
  unique : ∀ {k k' : Key} {stored stored' : Stored}, s.triggers[k]? = some stored → s.triggers[k']? = some stored' →
    stored.trigger.jobKey = stored'.trigger.jobKey → k = k'
  /-- A job that is not durable has a trigger that fires it. -/
  fired : ∀ {k : Key} {job : Job}, s.jobs[k]? = some job → job.durable = false →
    ∃ (k' : Key) (stored : Stored), s.triggers[k']? = some stored ∧ stored.trigger.jobKey = job.key

/-- A trigger that fires a job is stored under the key of the job. -/
theorem Sound.eq_of_jobKey (hs : s.Sound) (hm : s.Mirrored) {k k' : Key} {stored : Stored}
    (h : s.triggers[k]? = some stored) (hjob : stored.trigger.jobKey = k') : k = k' :=
  (hs.jobKey_of_mirrored hm h).symm.trans hjob

theorem Reached.paired (h : s.Reached Trigger.Mirrors) : s.Paired := by
  obtain ⟨hm, hd⟩ := h.mirrored_supported
  refine ⟨fun hk => hm hk, fun hk hk' heq => ?_, fun hk hdurable => ?_⟩
  · exact h.sound.eq_of_jobKey hm hk (heq.trans (h.sound.jobKey_of_mirrored hm hk'))
  · obtain ⟨stored, hstored⟩ := Table.mem_iff_exists.1 (hd hk hdurable)
    exact ⟨_, stored, hstored, (h.sound.jobKey_of_mirrored hm hstored).trans (h.sound.jobKey hk).symm⟩

/-- **Triggers and jobs belong together after any operations** that pass only triggers with the keys of their jobs, as
those that are made for jobs. -/
theorem triggers_paired_after (threshold : Int) {ops : List Operation} (hops : ∀ op ∈ ops, op.Passes Trigger.Mirrors) :
    ((empty threshold).after ops).Paired :=
  ((Reached.empty threshold).after (fun _ h => h) hops).paired

/-- A job is declared durable and gets a trigger; then it is replaced by one that is not durable, and its trigger by
another one. A second job is declared to a roster, and missed fire times are treated. -/
theorem triggers_paired_after_replacements : ∃ (threshold : Int) (ops : List Operation) (k : Key),
    (∀ op ∈ ops, op.Passes Trigger.Mirrors) ∧
      ((((empty threshold).after ops).jobs[k]?).map Job.durable = some false ∧
        (((empty threshold).after ops).triggers[k]?).map (fun stored => stored.trigger.cron) = some "@hourly" ∧
          ((empty threshold).after ops).triggers.size = 2) ∧
        ((empty threshold).after ops).Paired := by
  let now : Instant := ⟨4133894300, 0, by decide, by decide, by decide, by decide⟩
  let k : Key := ⟨"nightly", "eu"⟩
  let job (durable : Bool) : Job := ⟨k, "backup", ∅, durable⟩
  let t (cron : String) : Trigger := { Trigger.forJob k cron now none with policy := .fireOnceNow }
  let other : Declaration :=
    { jobType := "backup", name := "mirror", group := "eu", cron := "@daily", start := now, stop := none, data := none }
  let ops : List Operation :=
    [.call (.addJob (job true) false) now, .call (.schedule (t "@daily")) now, .call (.addJob (job false) true) now,
      .call (.reschedule k (t "@hourly")) now, .request .standard (.register other) now, .applyMisfires now]
  have hops : ∀ op ∈ ops, op.Passes Trigger.Mirrors := by
    simp only [ops, List.forall_mem_cons]
    exact ⟨trivial, rfl, trivial, rfl, trivial, trivial, by simp⟩
  exact ⟨0, ops, k, hops, by decide +kernel, triggers_paired_after 0 hops⟩

end Store

end JobRoster
