import JobRoster.Proofs.Roster.Operations
import Mathlib.Data.List.DropRight

/-!
# What is stored is what was declared

A log has the requests that were made to an engine, each with what a roster ended it with (`noted_of_perform`). What is
stored under a key follows from the declarations of that job in the log, from those since the job was to be deleted the
last time (`declaredSince`): the job is that of the first of them with the data of all of them, also of those that were
not carried out, and the trigger is that of the last of them that led to one (`Store.Follows`).

Main statements:

* `Follows.run` and `Follows.after`: an operation, and a run of operations, keeps to what its log says.
* `stored_follows_log`: so it is with any requests to an engine that was new, and with missed fire times treated
  meanwhile.
-/

namespace JobRoster

/-! ### Logs -/

/-- A request that was made. -/
structure Entry where
  /-- The roster to which it was made. -/
  roster : Roster
  /-- What was asked for. -/
  request : Roster.Request
  /-- What it ended with. -/
  result : Except Crash Roster.Answer

/-- What is written down of an operation: a request with what it ends with, and nothing otherwise. -/
def Operation.noted? (s : Store) : Operation → Option Entry
  | request r q now => some ⟨r, q, ((r.program q).exec (Store.engine now) s).1⟩
  | _ => none

/-- What is written down of operations, one after another. -/
def Store.log (s : Store) : List Operation → List Entry
  | [] => []
  | op :: ops => (op.noted? s).toList ++ (op.run s).log ops

/-- What is written down of a request is what a roster ends it with. -/
theorem noted_of_perform {r : Roster} {q : Roster.Request} {now : Instant} {lock : LockState} {s : Store}
    {run : Program.Run (Roster.World Store) Roster.Answer}
    (h : r.perform (Store.engine now) q ⟨lock, s⟩ = some run) :
    (Operation.request r q now).noted? s = some ⟨r, q, run.result⟩ := by
  have hresult : run.result = ((r.program q).exec (Store.engine now) s).1 :=
    congrArg Prod.fst (Roster.perform_eq_some h).1
  rw [hresult]
  rfl

/-! ### Declarations of a job -/

/-- A declaration that was made. -/
structure Declared where
  /-- What was declared. -/
  declaration : Declaration
  /-- Its outcome, if it was carried out. -/
  outcome : Option Outcome

namespace Declared

/-- Whether a declaration was carried out. -/
def carriedOut (c : Declared) : Bool := c.outcome.isSome

/-- Whether a declaration led to a new trigger, in the place of another one or not. -/
def putTrigger (c : Declared) : Bool := c.outcome.any fun o => o.trigger = .scheduled || o.trigger = .rescheduled

/-- What was declared under a name. -/
def value? (name : String) (c : Declared) : Option Datum := c.declaration.data.bind (·[name]?)

variable {p : Declared → Bool} {made : List Declared} {c : Declared}

/-- The last of some declarations that has a property. -/
def lastWith (p : Declared → Bool) (made : List Declared) : Option Declared := (made.filter p).getLast?

theorem lastWith_concat_of_true (h : p c = true) : lastWith p (made ++ [c]) = some c := by
  rw [lastWith, List.filter_append, List.filter_cons_of_pos h]
  exact List.getLast?_concat

theorem lastWith_concat_of_false (h : p c = false) : lastWith p (made ++ [c]) = lastWith p made := by
  rw [lastWith, List.filter_append, List.filter_cons_of_neg (Bool.eq_false_iff.1 h)]
  exact congrArg List.getLast? (List.append_nil _)

end Declared

/-- The declaration of a job, if that is what was asked for. -/
def Entry.declared? (k : Key) (e : Entry) : Option Declared :=
  match e.request with
  | .register d => if d.key = k then some ⟨d, outcome? e.result⟩ else none
  | _ => none

/-- **The declarations of a job since it was to be deleted the last time**, in the order in which they were made. -/
def declaredSince (k : Key) (log : List Entry) : List Declared :=
  (log.rtakeWhile fun e => ¬ e.request.Deletes e.roster k).filterMap (Entry.declared? k)

section Declarations

variable {k : Key} {log : List Entry} {e : Entry}

theorem declaredSince_of_deletes (h : e.request.Deletes e.roster k) : declaredSince k (log ++ [e]) = [] := by
  rw [declaredSince, List.rtakeWhile_concat, if_neg (by simpa using h), List.filterMap_nil]

theorem declaredSince_of_not_deletes (h : ¬ e.request.Deletes e.roster k) :
    declaredSince k (log ++ [e]) = declaredSince k log ++ (e.declared? k).toList := by
  rw [declaredSince, List.rtakeWhile_concat, if_pos (by simpa using h), List.filterMap_append, declaredSince]
  cases hdeclared : e.declared? k <;> simp [hdeclared]

/-- A request that is not about a job leaves its declarations as they are. -/
theorem declaredSince_of_not_concerns (h : ¬ e.request.Concerns e.roster k) :
    declaredSince k (log ++ [e]) = declaredSince k log := by
  have hdeclared : e.declared? k = none := by
    unfold Entry.declared?
    split
    · next d hd =>
      rw [hd] at h
      exact if_neg h
    · rfl
  rw [declaredSince_of_not_deletes fun hdeletes => h hdeletes.concerns, hdeclared]
  exact List.append_nil _

theorem declaredSince_of_register (log : List Entry) (r : Roster) (d : Declaration)
    (result : Except Crash Roster.Answer) :
    declaredSince d.key (log ++ [⟨r, .register d, result⟩]) = declaredSince d.key log ++ [⟨d, outcome? result⟩] := by
  have hkept : ¬ (Entry.mk r (.register d) result).request.Deletes r d.key := not_false
  rw [declaredSince_of_not_deletes hkept]
  simp [Entry.declared?]

end Declarations

/-! ### What follows from declarations -/

/-- Under a name, a payload holds what is asked for, or nothing. -/
def Payload.Shows (p : Payload) (name : String) : Option Datum → Prop
  | some value => p.holds name value = true
  | none => p[name]? = none

theorem Payload.Shows.congr {p q : Payload} {name : String} {value : Option Datum} (h : p.Shows name value)
    (hpq : p[name]? = q[name]?) : q.Shows name value := by
  cases value with
  | none => exact hpq.symm.trans h
  | some value => exact (Payload.holds_congr hpq).symm.trans h

/-- **A job follows from declarations.** -/
structure JobFollows (made : List Declared) (job : Option Job) : Prop where
  /-- It is there if there are any. -/
  there : job.isSome = true ↔ made ≠ []
  /-- It is of the kind that the first of them says. -/
  jobType : ∀ j ∈ job, made.head?.map (fun c => c.declaration.jobType) = some j.jobType
  /-- Under each name it holds what the last of them says that has something under it, and nothing if there is none. -/
  data : ∀ j ∈ job, ∀ name, j.data.Shows name (made.filterMap (Declared.value? name)).getLast?

/-- **A trigger follows from declarations.** -/
structure TriggerFollows (made : List Declared) (trigger : Option Trigger) : Prop where
  /-- It is there if one of them was carried out. -/
  there : trigger.isSome = true ↔ ∃ c ∈ made, c.carriedOut = true
  /-- It has the cron expression of the last one that was carried out, ignoring case. -/
  cron : ∀ t ∈ trigger, ∃ c ∈ Declared.lastWith Declared.carriedOut made,
    Text.sameIgnoringCase t.cron c.declaration.cron = true
  /-- It has the window of the last one that led to a new trigger. -/
  window : ∀ t ∈ trigger, ∃ c ∈ Declared.lastWith Declared.putTrigger made,
    t.start = c.declaration.start ∧ t.stop = c.declaration.stop

/-- **What is stored under a key follows from declarations.** -/
structure Store.Follows (made : List Declared) (k : Key) (s : Store) : Prop where
  /-- The job does. -/
  job : JobFollows made s.jobs[k]?
  /-- The trigger does. -/
  trigger : TriggerFollows made (s.triggers[k]?.map Stored.trigger)

theorem jobFollows_nil : JobFollows [] none where
  there := by simp
  jobType _ h := by cases h
  data _ h := by cases h

theorem triggerFollows_nil : TriggerFollows [] none where
  there := by simp
  cron _ h := by cases h
  window _ h := by cases h

section Follows

variable {made : List Declared} {d : Declaration} {now : Instant}

/-- A job that follows from no declaration is not there. -/
theorem JobFollows.eq_nil (h : JobFollows made none) : made = [] := by
  by_contra hne
  exact Bool.false_ne_true (h.there.2 hne)

/-- **One more declaration brings the job in line**, carried out or not. -/
theorem JobFollows.declare {job : Option Job} (h : JobFollows made job) (d : Declaration) (outcome : Option Outcome) :
    JobFollows (made ++ [⟨d, outcome⟩]) (some (d.jobAfter job)) where
  there := by simp
  jobType := by
    rintro _ ⟨⟩
    cases job with
    | none =>
      obtain rfl := h.eq_nil
      rfl
    | some old =>
      rw [List.head?_append, Option.map_or, h.jobType old rfl]
      rfl
  data := by
    rintro _ ⟨⟩ name
    rw [List.filterMap_append]
    cases hvalue : Declared.value? name ⟨d, outcome⟩ with
    | some value =>
      obtain ⟨data, hdata, hname⟩ := Option.bind_eq_some_iff.1 hvalue
      have hholds : (d.jobAfter job).data.Shows name (some value) := d.jobAfter_holds job hdata hname
      simpa [hvalue] using hholds
    | none =>
      have hnot : ¬ d.Declares name := by
        rintro ⟨data, value, hdata, hname⟩
        simp [Declared.value?, hdata, hname] at hvalue
      have hsame : (d.jobAfter job).data[name]? = job.bind (·.data[name]?) := d.jobAfter_getElem? hnot
      rw [show [Declared.mk d outcome].filterMap (Declared.value? name) = [] by simp [hvalue], List.append_nil]
      cases job with
      | none =>
        obtain rfl := h.eq_nil
        exact hsame
      | some old => exact (h.data old rfl name).congr hsame.symm

/-- A declaration that was not carried out leaves the trigger as it was. -/
theorem TriggerFollows.fail {trigger : Option Trigger} (h : TriggerFollows made trigger) (d : Declaration) :
    TriggerFollows (made ++ [⟨d, none⟩]) trigger where
  there := by
    rw [h.there]
    simp [Declared.carriedOut]
  cron := by
    rw [Declared.lastWith_concat_of_false rfl]
    exact h.cron
  window := by
    rw [Declared.lastWith_concat_of_false rfl]
    exact h.window

/-- **A declaration that was carried out brings the trigger in line.** -/
theorem TriggerFollows.declare {before after : Option Stored} (h : TriggerFollows made (before.map Stored.trigger))
    {o : Outcome} (heffect : d.TriggerEffect now before after o.trigger o.next) :
    TriggerFollows (made ++ [⟨d, some o⟩]) (after.map Stored.trigger) := by
  have hkept := heffect.keeps_after
  cases hafter : after with
  | none =>
    rw [hafter] at hkept
    cases hkept
  | some stored =>
    rw [hafter] at hkept heffect
    refine ⟨by simp [Declared.carriedOut], ?_, ?_⟩
    · rintro _ ⟨⟩
      exact ⟨_, Declared.lastWith_concat_of_true rfl, hkept⟩
    · cases hkeeps : d.keeps before with
      | true =>
        obtain rfl := heffect.kept hkeeps
        have hput : Declared.putTrigger ⟨d, some o⟩ = false := by
          simp [Declared.putTrigger, heffect.change_of_keeps hkeeps]
        rw [Declared.lastWith_concat_of_false hput]
        exact h.window
      | false =>
        have hput : Declared.putTrigger ⟨d, some o⟩ = true := by
          simpa [Declared.putTrigger] using heffect.change_of_not_keeps hkeeps
        obtain ⟨schedule, first, -, -, hstored⟩ := heffect.put hkeeps
        cases hstored
        rintro _ ⟨⟩
        exact ⟨_, Declared.lastWith_concat_of_true hput, rfl, rfl⟩

end Follows

/-! ### What is stored follows from the log -/

namespace Store

variable {s s' : Store} {k : Key} {made : List Declared} {log : List Entry} {now : Instant}

/-- When a trigger fires next is not declared. -/
theorem Follows.of_redatedAt (h : s.Follows made k) (hsame : s.RedatedAt k s') : s'.Follows made k := by
  refine ⟨?_, ?_⟩
  · rw [hsame.job]
    exact h.job
  · rw [hsame.trigger]
    exact h.trigger

/-- **A declaration that is made** brings its job in line, and its trigger if it is carried out. -/
theorem Follows.register {d : Declaration} (h : s.Follows made d.key) (hs : s.Reached Trigger.Mirrors)
    (hrun : s.stopped = false) (r : Roster) (now : Instant) :
    ((r.program (.register d)).exec (engine now) s).2.Follows
      (made ++ [⟨d, outcome? ((r.program (.register d)).exec (engine now) s).1⟩]) d.key := by
  obtain ⟨hm, hd⟩ := hs.mirrored_supported
  obtain ⟨counters, hexec⟩ := d.exec_program now r hs.sound hm
  have hjob : (d.afterwards now s).2.jobs[d.key]? = some (d.jobAfter s.jobs[d.key]?) := d.afterwards_job hrun hd
  have hending := d.ending_afterwards now s
  rw [hexec]
  generalize d.afterwards now s = ended at hjob hending ⊢
  obtain ⟨result, s'⟩ := ended
  refine ⟨?_, ?_⟩
  · rw [hjob]
    exact h.job.declare d _
  · rcases result with crash | source | o
    · rw [hending.triggers fun _ h => by cases h]
      exact h.trigger.fail d
    · rw [hending.triggers fun _ h => by cases h]
      exact h.trigger.fail d
    · exact h.trigger.declare hending.reconciled.trigger

/-- Where nothing is stored, nothing was declared. -/
theorem follows_nil (hjob : s.jobs[k]? = none) (htrigger : s.triggers[k]? = none) : s.Follows [] k := by
  refine ⟨?_, ?_⟩
  · rw [hjob]
    exact jobFollows_nil
  · rw [htrigger]
    exact triggerFollows_nil

/-- **A job that is to be deleted** is gone then, with its trigger. -/
theorem follows_nil_of_deletes (hs : s.Reached Trigger.Mirrors) (hrun : s.stopped = false) {r : Roster}
    {q : Roster.Request} (hq : q.Deletes r k) (now : Instant) :
    ((r.program q).exec (engine now) s).2.Follows [] k := by
  obtain ⟨hm, -⟩ := hs.mirrored_supported
  have hother (d : Declaration) : q ≠ .register d := by
    rintro rfl
    exact hq
  obtain ⟨counters, hexec⟩ := Roster.exec_deletion (r := r) hrun hother now
  obtain ⟨hjob, htrigger⟩ := Roster.nothing_left_of_deletes hs.sound hm hq
  rw [hexec]
  exact follows_nil hjob htrigger

/-- **After an operation, what is stored follows from the log** with the operation written down. -/
theorem Follows.run (h : s.Follows (declaredSince k log) k) (hs : s.Reached Trigger.Mirrors)
    (hrun : s.stopped = false) {op : Operation} (hop : op.Routine) :
    (op.run s).Follows (declaredSince k (log ++ (op.noted? s).toList)) k := by
  have hspares (hop : op.Spares k) : (op.run s).Follows (declaredSince k log) k :=
    h.of_redatedAt (redatedAt_run hs hop)
  cases op with
  | request r q now =>
    rw [Operation.noted?, Option.toList_some]
    by_cases hdeletes : q.Deletes r k
    · rw [declaredSince_of_deletes hdeletes]
      exact follows_nil_of_deletes hs hrun hdeletes now
    · by_cases hconcerns : q.Concerns r k
      · obtain ⟨d, rfl, rfl⟩ := hconcerns.exists_register hdeletes
        rw [declaredSince_of_register]
        exact h.register hs hrun r now
      · rw [declaredSince_of_not_concerns hconcerns]
        exact hspares hconcerns
  | applyMisfires now =>
    rw [show (Operation.applyMisfires now).noted? s = none from rfl, Option.toList_none, List.append_nil]
    exact hspares trivial
  | _ => exact hop.elim

/-- **After operations, what is stored follows from the log** with all of them written down. -/
theorem Follows.after {ops : List Operation} (h : s.Follows (declaredSince k log) k) (hs : s.Reached Trigger.Mirrors)
    (hrun : s.stopped = false) (hops : ∀ op ∈ ops, op.Routine) :
    (s.after ops).Follows (declaredSince k (log ++ s.log ops)) k := by
  induction ops generalizing s log with
  | nil => simpa [Store.log] using h
  | cons op ops ih =>
    obtain ⟨hop, hops⟩ := List.forall_mem_cons.1 hops
    rw [after_cons, Store.log, ← List.append_assoc]
    exact ih (h.run hs hrun hop) (hs.run (fun _ h => h) hop.passes) (hop.running hs hrun) hops

/-- **What is stored under a key follows from the log**, after any requests to an engine that was new, carried out or
not, with missed fire times treated meanwhile; and no trigger but the one under the key fires the job. -/
theorem stored_follows_log (threshold : Int) {ops : List Operation} (hops : ∀ op ∈ ops, op.Routine) (k : Key) :
    ((empty threshold).after ops).Follows (declaredSince k ((empty threshold).log ops)) k ∧
      ∀ {k' : Key} {stored : Stored}, ((empty threshold).after ops).triggers[k']? = some stored →
        (stored.trigger.jobKey = k ↔ k' = k) := by
  have hs : (empty threshold).Reached Trigger.Mirrors := .empty threshold
  have hnew : (empty threshold).Follows (declaredSince k []) k :=
    follows_nil Std.ExtTreeMap.getElem?_empty Std.ExtTreeMap.getElem?_empty
  refine ⟨hnew.after hs rfl hops, fun hk' => ?_⟩
  have hreached := hs.after (fun _ h => h) fun op hop => (hops op hop).passes
  rw [hreached.sound.jobKey_of_mirrored (hreached.mirrored_supported.1) hk']

/-- A job is declared and deleted with its group. It is declared anew, then with more data but with a schedule that
cannot be read, then with another schedule, and then with that one in capital letters and with another window. -/
theorem stored_follows_log_of_retries : ∃ (threshold : Int) (ops : List Operation) (k : Key),
    (∀ op ∈ ops, op.Routine) ∧
      (declaredSince k ((empty threshold).log ops)).map (fun c => (c.carriedOut, c.putTrigger)) =
        [(true, true), (false, false), (true, true), (true, false)] ∧
      ((empty threshold).after ops).Follows (declaredSince k ((empty threshold).log ops)) k ∧
        ∀ {k' : Key} {stored : Stored}, ((empty threshold).after ops).triggers[k']? = some stored →
          (stored.trigger.jobKey = k ↔ k' = k) := by
  let now : Instant := ⟨4133894300, 0, by decide, by decide, by decide, by decide⟩
  let d (jobType cron : String) (stop : Option Instant) (retries : Int) : Declaration :=
    { jobType, name := "nightly", group := "eu", cron, start := now, stop,
      data := some ((∅ : Payload).insert "retries" (.integer retries)) }
  let ops : List Operation :=
    [.request .standard (.register (d "mirror" "@daily" none 1)) now, .request .standard (.deleteGroup "eu") now,
      .request .standard (.register (d "backup" "@hourly" none 2)) now,
      .request .standard (.register (d "mirror" "every now and then" none 3)) now, .applyMisfires now,
      .request .standard (.register (d "backup" "@daily" none 3)) now,
      .request .standard (.register (d "backup" "@DAILY" (some now) 4)) now]
  have hops : ∀ op ∈ ops, op.Routine := by simp [ops, Operation.Routine]
  exact ⟨0, ops, ⟨"nightly", "eu"⟩, hops, by decide +kernel, stored_follows_log 0 hops _⟩

end Store

end JobRoster
