import JobRoster.Proofs.Engine.Misfires
import JobRoster.Proofs.Roster.Operations

/-!
# After an engine has been shut down

An engine that has been shut down stays so. It refuses every call and changes nothing over it, so rosters that work on
it come to nothing either: declarations are refused, and deletions end with false. That leaves two operations which are
no calls (`Operation.bypasses`): everything can be forgotten, and missed fire times can be treated. What comes of any
operations is what comes of these alone (`after_of_stopped`).

The treatment of missed fire times does not ask whether the engine has been shut down (`applyMisfires_with_stopped`). It
goes on to put off fire times that are missed and to tell that triggers are due (`exists_due_after_shutDown`).

Main statement: `closed_after_shutDown`, which says all this of every memory that comes of operations among which the
engine was shut down.
-/

namespace JobRoster

/-! ### What goes past the calls -/

/-- An operation is no call and makes none: it treats missed fire times, or forgets everything. -/
def Operation.bypasses : Operation → Bool
  | applyMisfires _ | clear => true
  | call .. | request .. | shutDown => false

namespace Store

variable {s : Store} {now cutoff : Instant} {k : Key} {op : Operation} {missed : List (Key × Stored)}

/-- Treating triggers has nothing to do with whether the engine has been shut down. -/
theorem treatMissed_with_stopped (missed : List (Key × Stored)) (s : Store) (stopped : Bool) :
    treatMissed now cutoff missed { s with stopped } =
      { treatMissed now cutoff missed s with
        state := { (treatMissed now cutoff missed s).state with stopped } } := by
  induction missed generalizing s with
  | nil => rfl
  | cons entry rest ih =>
    have hput (stored : Stored) : ({ s with stopped } : Store).putTrigger entry.1 stored =
        { s.putTrigger entry.1 stored with stopped } := rfl
    simp only [treatMissed, hput, ih]
    split
    · rfl
    · split
      · rfl
      · split
        · split <;> rfl
        · split <;> rfl

/-- **Missed fire times are treated alike** whether or not the engine has been shut down. -/
theorem applyMisfires_with_stopped (now : Instant) (s : Store) (stopped : Bool) :
    ({ s with stopped } : Store).applyMisfires now =
      { s.applyMisfires now with state := { (s.applyMisfires now).state with stopped } } := by
  unfold applyMisfires
  dsimp only
  split
  · rfl
  · exact treatMissed_with_stopped _ s stopped

/-- A trigger that has not missed its fire time is left alone. -/
theorem applyMisfires_of_not_overdue {stored : Stored} (hk : s.triggers[k]? = some stored)
    (hkept : ∀ cutoff, now.sub s.threshold = .ok cutoff → ¬ stored.Overdue cutoff) :
    (s.applyMisfires now).state.triggers[k]? = some stored := by
  refine applyMisfires_induction (I := fun s' => s'.triggers[k]? = some stored) ?_ hk
  intro cutoff hcutoff k' old new s' hold hnew hs'
  have hne : k' ≠ k := by
    rintro rfl
    cases hold.symm.trans hk
    cases hnew with
    | skips hmissed hlate _ _ | due hmissed hlate _ => exact hkept cutoff hcutoff ⟨_, hmissed, hlate⟩
  rw [putTrigger, Table.getElem?_insert_of_ne hne, hs']

/-- What is told to be due has missed its fire time, and is to fire at once then. -/
theorem overdue_of_mem_due {due : List Key} (h : (s.applyMisfires now).reply = .answer due) (hk : k ∈ due) :
    ∃ cutoff stored, now.sub s.threshold = .ok cutoff ∧ s.triggers[k]? = some stored ∧ stored.Overdue cutoff ∧
      stored.trigger.policy = .fireOnceNow := by
  unfold applyMisfires at h
  split at h
  · cases h
  · next cutoff hcutoff =>
    obtain ⟨due', hdue', -, hmem⟩ := treatMissed_due (.refl _) ⟨due, h⟩
    cases h.symm.trans hdue'
    obtain ⟨stored, hstored⟩ := (hmem k).1 hk
    exact ⟨cutoff, stored, hcutoff, hstored⟩

/-! ### An engine that takes no calls -/

/-- No operation starts an engine again. -/
theorem stopped_run (hstopped : s.stopped = true) (op : Operation) : (op.run s).stopped = true := by
  cases op with
  | call c now => exact (serve_stopped now c s).trans hstopped
  | request r q now => exact (congrArg Prod.fst (exec_standing now (r.program q) s)).trans hstopped
  | applyMisfires now => exact (applyMisfires_stopped now s).trans hstopped
  | clear => exact hstopped
  | shutDown => rfl

/-- An operation that does not go past the calls does nothing. -/
theorem run_of_stopped (hstopped : s.stopped = true) (hop : op.bypasses = false) : op.run s = s := by
  cases op with
  | call c now =>
    rw [Operation.run, serve_of_stopped hstopped]
    rfl
  | request r q now => exact exec_of_stopped hstopped (r.program q)
  | applyMisfires now => cases hop
  | clear => cases hop
  | shutDown =>
    obtain ⟨jobs, triggers, counters, stopped, threshold⟩ := s
    cases hstopped
    rfl

/-- **What comes of any operations** is what comes of those that go past the calls. -/
theorem after_of_stopped (hstopped : s.stopped = true) (ops : List Operation) :
    s.after ops = s.after (ops.filter Operation.bypasses) := by
  induction ops generalizing s with
  | nil => rfl
  | cons op ops ih =>
    cases hop : op.bypasses with
    | true => rw [List.filter_cons_of_pos hop, after_cons, after_cons, ih (stopped_run hstopped op)]
    | false =>
      rw [List.filter_cons_of_neg (Bool.eq_false_iff.1 hop), after_cons, run_of_stopped hstopped hop, ih hstopped]

/-- The engine has been shut down after operations among which it was. -/
theorem stopped_after {ops : List Operation} (h : .shutDown ∈ ops) (s : Store) : (s.after ops).stopped = true := by
  obtain ⟨before, later, rfl⟩ := List.append_of_mem h
  rw [after, List.foldl_append, List.foldl_cons]
  exact after_induction (I := fun s => s.stopped = true) (fun op _ _ hs => stopped_run hs op) rfl

/-! ### Requests to rosters -/

/-- A declaration is refused, and nothing comes of it. -/
theorem exec_register_of_stopped (hstopped : s.stopped = true) (r : Roster) (d : Declaration) (now : Instant) :
    (r.program (.register d)).exec (engine now) s =
      (.ok (.registered (.error (.refused d.key (.unavailable "the scheduler has been shut down")))), s) := by
  have hleads : d.reconcile.Leads now s (.ok (.error (.unavailable "the scheduler has been shut down"))) s :=
    ((Attempt.leads_of_stopped hstopped _).bind_error _).bind_error _
  obtain ⟨counters, hexec⟩ := hleads s.counters
  refine Prod.ext ?_ (exec_of_stopped hstopped _)
  rw [d.exec_register, show s = { s with counters := s.counters } from rfl, hexec]
  rfl

/-- A deletion ends with false, and nothing comes of it. -/
theorem exec_delete_of_stopped (hstopped : s.stopped = true) {q : Roster.Request} (hq : ∀ d, q ≠ .register d)
    (r : Roster) (now : Instant) : (r.program q).exec (engine now) s = (.ok (.deleted false), s) := by
  obtain ⟨counters, hexec⟩ := Roster.exec_deletion_of_stopped (r := r) hstopped hq now
  exact Prod.ext (by rw [hexec]) (exec_of_stopped hstopped _)

/-- Where nobody holds the lock, a request that leaves the engine alone leaves all as it was. -/
theorem perform_of_exec {r : Roster} {q : Roster.Request} {result : Except Crash Roster.Answer}
    (h : (r.program q).exec (engine now) s = (result, s)) :
    ∃ run, r.perform (engine now) q ⟨.free, s⟩ = some run ∧ run.state = ⟨.free, s⟩ ∧ run.result = result := by
  obtain ⟨run, hrun, hresult, hstate⟩ := r.perform_free (engine now) q s
  rw [h] at hresult hstate
  exact ⟨run, hrun, hstate, hresult⟩

/-! ### What is left -/

/-- **An engine has closed**: what it refuses, and what can still happen to its memory. -/
structure Closed (s : Store) : Prop where
  /-- Every call is refused, and nothing comes of it. -/
  call : ∀ now c, s.serve now c = s.refuse (.unavailable "the scheduler has been shut down")
  /-- Every declaration is refused, and nothing comes of it. -/
  register : ∀ (r : Roster) (d : Declaration) (now : Instant), ∃ run,
    r.perform (engine now) (.register d) ⟨.free, s⟩ = some run ∧ run.state = ⟨.free, s⟩ ∧
      run.result = .ok (.registered (.error (.refused d.key (.unavailable "the scheduler has been shut down"))))
  /-- Every deletion ends with false, and nothing comes of it. -/
  delete : ∀ (r : Roster) (q : Roster.Request) (now : Instant), (∀ d, q ≠ .register d) → ∃ run,
    r.perform (engine now) q ⟨.free, s⟩ = some run ∧ run.state = ⟨.free, s⟩ ∧ run.result = .ok (.deleted false)
  /-- Nothing happens as long as neither missed fire times are treated nor everything is forgotten. -/
  frozen : ∀ ops, (∀ op ∈ ops, op.bypasses = false) → s.after ops = s
  /-- As long as not everything is forgotten, all stays as it is but for when triggers fire next. -/
  redated : ∀ ops, .clear ∉ ops → Redated s (s.after ops)
  /-- When a trigger fires next stays as it is, too, unless missed fire times are treated when it has missed that. -/
  kept : ∀ ops, .clear ∉ ops → ∀ (k : Key) (stored : Stored), s.triggers[k]? = some stored →
    (∀ now cutoff, .applyMisfires now ∈ ops → now.sub s.threshold = .ok cutoff → ¬ stored.Overdue cutoff) →
      (s.after ops).triggers[k]? = some stored
  /-- Missed fire times are treated as if the engine had not been shut down. -/
  treated : ∀ now, s.applyMisfires now =
    { ({ s with stopped := false } : Store).applyMisfires now with
      state := { (({ s with stopped := false } : Store).applyMisfires now).state with stopped := true } }
  /-- So what is told to be due has missed its fire time, and is to fire at once then. -/
  due : ∀ now due, (s.applyMisfires now).reply = .answer due → ∀ k ∈ due, ∃ cutoff stored,
    now.sub s.threshold = .ok cutoff ∧ s.triggers[k]? = some stored ∧ stored.Overdue cutoff ∧
      stored.trigger.policy = .fireOnceNow

theorem redated_run_of_stopped (hstopped : s.stopped = true) (hop : op ≠ .clear) : Redated s (op.run s) := by
  cases op with
  | applyMisfires now => exact redated_applyMisfires now s
  | clear => exact absurd rfl hop
  | call | request | shutDown =>
    rw [run_of_stopped hstopped rfl]
    exact .refl s

theorem redated_after_of_stopped (hstopped : s.stopped = true) {ops : List Operation} (hops : .clear ∉ ops) :
    Redated s (s.after ops) := by
  refine (after_induction (I := fun s' => s'.stopped = true ∧ Redated s s') ?_ ⟨hstopped, .refl s⟩).2
  rintro op hop s' ⟨hstopped', hredated⟩
  have hne : op ≠ .clear := fun h => hops (h ▸ hop)
  exact ⟨stopped_run hstopped' op, hredated.trans (redated_run_of_stopped hstopped' hne)⟩

/-- A trigger stays as it is through one operation, unless missed fire times are treated when it has missed its own. -/
theorem getElem?_run_of_stopped (hstopped : s.stopped = true) (hop : op ≠ .clear) {stored : Stored}
    (hk : s.triggers[k]? = some stored) (hkept : ∀ now cutoff, op = .applyMisfires now →
      now.sub s.threshold = .ok cutoff → ¬ stored.Overdue cutoff) : (op.run s).triggers[k]? = some stored := by
  cases op with
  | applyMisfires now => exact applyMisfires_of_not_overdue hk fun cutoff => hkept now cutoff rfl
  | clear => exact absurd rfl hop
  | call | request | shutDown => rw [run_of_stopped hstopped rfl, hk]

/-- No operation changes a threshold. -/
theorem run_threshold (op : Operation) (s : Store) : (op.run s).threshold = s.threshold := by
  cases op with
  | call c now => exact serve_threshold now c s
  | request r q now => exact congrArg Prod.snd (exec_standing now (r.program q) s)
  | applyMisfires now => exact applyMisfires_threshold now s
  | clear | shutDown => rfl

theorem getElem?_after_of_stopped (hstopped : s.stopped = true) {ops : List Operation} (hops : .clear ∉ ops)
    {stored : Stored} (hk : s.triggers[k]? = some stored) (hkept : ∀ now cutoff, .applyMisfires now ∈ ops →
      now.sub s.threshold = .ok cutoff → ¬ stored.Overdue cutoff) : (s.after ops).triggers[k]? = some stored := by
  refine (after_induction (I := fun s' => s'.stopped = true ∧ s'.threshold = s.threshold ∧
    s'.triggers[k]? = some stored) ?_ ⟨hstopped, rfl, hk⟩).2.2
  rintro op hop s' ⟨hstopped', hthreshold, hk'⟩
  refine ⟨stopped_run hstopped' op, (run_threshold op s').trans hthreshold, ?_⟩
  refine getElem?_run_of_stopped hstopped' (fun h => hops (h ▸ hop)) hk' fun now cutoff hop' hcutoff => ?_
  exact hkept now cutoff (hop' ▸ hop) (hthreshold ▸ hcutoff)

/-- **An engine that takes no calls has closed.** -/
theorem closed_of_stopped (hstopped : s.stopped = true) : s.Closed where
  call := serve_of_stopped hstopped
  register r d now := perform_of_exec (exec_register_of_stopped hstopped r d now)
  delete r _ now hq := perform_of_exec (exec_delete_of_stopped hstopped hq r now)
  frozen ops hops := by
    rw [after_of_stopped hstopped, List.filter_eq_nil_iff.2 fun op hop => Bool.eq_false_iff.1 (hops op hop), after_nil]
  redated _ hops := redated_after_of_stopped hstopped hops
  kept _ hops _ _ hk := getElem?_after_of_stopped hstopped hops hk
  treated now := by
    have hs : s = { ({ s with stopped := false } : Store) with stopped := true } := by
      obtain ⟨jobs, triggers, counters, stopped, threshold⟩ := s
      cases hstopped
      rfl
    conv_lhs => rw [hs]
    exact applyMisfires_with_stopped now _ true
  due _ _ h _ hk := overdue_of_mem_due h hk

/-- **An engine has closed once it has been shut down**, whatever was done before and after that. -/
theorem closed_after_shutDown (threshold : Int) {ops : List Operation} (h : .shutDown ∈ ops) :
    ((empty threshold).after ops).Closed :=
  closed_of_stopped (stopped_after h _)

/-- A job is declared, and another one gets a trigger that is to fire at once when it has missed its fire time. The
engine is shut down; then the job is declared again with another schedule, all groups are to be deleted, and missed fire
times are treated. -/
theorem closed_after_shutDown_and_requests : ∃ (threshold : Int) (ops : List Operation), .shutDown ∈ ops ∧
    (((empty threshold).after ops).triggers.size = 2 ∧
      (((empty threshold).after ops).triggers[(⟨"nightly", "eu"⟩ : Key)]?).map (fun stored => stored.trigger.cron) =
        some "@daily") ∧ ((empty threshold).after ops).Closed := by
  let now : Instant := ⟨4133894300, 0, by decide, by decide, by decide, by decide⟩
  let later : Instant := ⟨4133980700, 0, by decide, by decide, by decide, by decide⟩
  let nightly : Declaration :=
    { jobType := "backup", name := "nightly", group := "eu", cron := "@daily", start := now, stop := none
      data := none }
  let mirror : Key := ⟨"mirror", "eu"⟩
  let ops : List Operation :=
    [.request .standard (.register nightly) now, .call (.addJob ⟨mirror, "backup", ∅, true⟩ false) now,
      .call (.schedule { Trigger.forJob mirror "@hourly" now none with policy := .fireOnceNow }) now, .shutDown,
      .request .standard (.register { nightly with cron := "@hourly" }) later,
      .request .standard (.deleteGroup "") later, .applyMisfires later]
  have hops : .shutDown ∈ ops := by simp [ops]
  exact ⟨0, ops, hops, by decide +kernel, closed_after_shutDown 0 hops⟩

/-- **An engine that has been shut down still tells that a trigger is due**, and puts off its next fire time: a trigger
that is to fire at once when it has missed its fire time, which is treated half an hour after that. -/
theorem exists_due_after_shutDown : ∃ (threshold : Int) (ops : List Operation) (now : Instant) (k : Key),
    0 ≤ threshold ∧ .shutDown ∈ ops ∧ (((empty threshold).after ops).applyMisfires now).reply = .answer [k] ∧
      (((empty threshold).after ops).applyMisfires now).state.nextFire k ≠
        ((empty threshold).after ops).nextFire k := by
  let before : Instant := ⟨1700000000, 0, by decide, by decide, by decide, by decide⟩
  let start : Instant := ⟨2208988800, 0, by decide, by decide, by decide, by decide⟩
  let now : Instant := ⟨2208990600, 0, by decide, by decide, by decide, by decide⟩
  let k : Key := ⟨"job_1", "jobgroup_1"⟩
  let ops : List Operation := [.call (.addJob ⟨k, "ScheduleJob", ∅, true⟩ false) before,
    .call (.schedule { Trigger.forJob k "0 0 * * * ?" start none with policy := .fireOnceNow }) before, .shutDown]
  exact ⟨standardThreshold, ops, now, k, by decide, by simp [ops], by decide +kernel, by decide +kernel⟩

end Store

end JobRoster
