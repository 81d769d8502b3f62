import JobRoster.Proofs.Engine.Faults
import JobRoster.Proofs.Roster.Redeclaration

/-!
# Trying again

Attempts to carry out a declaration in which calls fail, and which are hence not carried out. Nothing is rolled back, so
that such an attempt may leave the job brought in line behind; but it gets no further (`Declaration.Begun`), since the
trigger is put with the last call. From there the declaration leads where it leads from the start, so that trying until
it is carried out is the same as carrying it out once (`retry_converges`).
-/

namespace JobRoster

open Attempt

namespace Declaration

variable {d : Declaration} {s s' s'' : Store} {now : Instant}

/-! ### How far an attempt gets -/

/-- **How far a declaration gets** that is not carried out. -/
inductive Begun (d : Declaration) (s : Store) : Store → Prop
  /-- Nothing has happened. -/
  | untouched (counters : Counters) : Begun d s { s with counters }
  /-- The job was brought in line. -/
  | withJob (counters : Counters) : s.stopped = false → Begun d s { d.withJob s with counters }

theorem withJob_withJob (d : Declaration) (s : Store) : d.withJob (d.withJob s) = d.withJob s := by
  have hjob : (d.withJob s).jobs[d.key]? = some (d.jobAfter s.jobs[d.key]?) := Std.ExtTreeMap.getElem?_insert_self
  unfold withJob at hjob ⊢
  simp only [hjob, jobAfter_jobAfter]
  rw [Table.insert_of_getElem? hjob]

theorem Begun.trans (h : d.Begun s s') (h' : d.Begun s' s'') : d.Begun s s'' := by
  cases h with
  | untouched counters =>
    cases h' with
    | untouched counters' => exact .untouched counters'
    | withJob counters' hrun => exact .withJob counters' hrun
  | withJob counters hrun =>
    cases h' with
    | untouched counters' => exact .withJob counters' hrun
    | withJob counters' _ =>
      have htwice : ({ d.withJob { d.withJob s with counters } with counters := counters' } : Store) =
          { d.withJob (d.withJob s) with counters := counters' } := rfl
      rw [htwice, withJob_withJob]
      exact .withJob counters' hrun

/-- The first half brings the job in line, or leaves everything as it was. -/
theorem endures_reconcileJob {Left : Store → Prop} (hleft : ∀ counters, Left { s with counters })
    (hrun : s.stopped = false) (hs : s.Sound) (hblocked : d.blocked s = false) :
    d.reconcileJob.Endures now s Left fun _ s' => ∃ counters, s' = { d.withJob s with counters } := by
  unfold withJob
  rw [reconcileJob_eq]
  refine endures_call_bind hleft (leads_jobExists hrun d.key) ?_
  cases hjob : s.jobs[d.key]? with
  | none =>
    rw [Table.contains_eq_false_iff.2 hjob, if_neg Bool.false_ne_true]
    refine endures_call_bind hleft (leads_addJob_of_none hrun hjob) ?_
    exact endures_report_bind (endures_pure fun counters => ⟨counters, rfl⟩)
  | some old =>
    rw [Table.contains_iff_exists.2 ⟨old, hjob⟩, if_pos rfl]
    refine endures_call_bind hleft (leads_getJob hrun d.key) ?_
    simp only [hjob]
    cases hchange : d.jobChange (some old) with
    | created => cases jobChange_eq_created_iff.1 hchange
    | unchanged =>
      rw [takeOver, hchange, if_neg (by decide), jobChange_eq_unchanged_iff.1 hchange, Table.insert_of_getElem? hjob]
      exact endures_pure fun counters => ⟨counters, rfl⟩
    | merged =>
      rw [takeOver, if_pos hchange]
      refine endures_call_bind hleft (leads_addJob_of_merged hrun hs hblocked hjob hchange) ?_
      exact endures_report_bind (endures_pure fun counters => ⟨counters, rfl⟩)

/-- The second half is done, or leaves everything as it was. -/
theorem endures_reconcileTrigger {Left : Store → Prop} (hleft : ∀ counters, Left { s with counters })
    (hrun : s.stopped = false) (hs : s.Sound) (hm : s.Mirrored) (hjob : d.key ∈ s.jobs) :
    d.reconcileTrigger.Endures now s Left fun _ _ => True := by
  -- where the last call is not answered, no trigger was put
  have hput (hne : ∀ next, (s.putPrepared now d.trigger id).1 ≠ .ok (.ok next)) (counters : Counters) :
      Left { (s.putPrepared now d.trigger id).2 with counters } := by
    unfold Store.putPrepared at hne ⊢
    cases hprep : Store.prepare now d.trigger with
    | answer stored =>
      rw [hprep] at hne
      exact absurd rfl (hne stored.next)
    | refused e | crashed crash => exact hleft counters
  refine endures_call_bind hleft (leads_triggerExists hrun d.key) ?_
  cases hold : s.triggers[d.key]? with
  | none =>
    rw [Table.contains_eq_false_iff.2 hold, if_neg Bool.false_ne_true]
    have hschedule : (call (.schedule d.trigger)).Endures now s Left fun _ _ => True :=
      endures_call hleft (leads_schedule hrun hjob hold) (fun _ _ _ => trivial) hput
    exact hschedule.bind fun next s' _ => endures_report_bind (endures_pure fun _ => trivial)
  | some old =>
    rw [Table.contains_iff_exists.2 ⟨old, hold⟩, if_pos rfl]
    refine endures_call_bind hleft (leads_getTrigger hrun d.key) ?_
    simp only [hold, Option.map_some]
    split
    · exact endures_report_bind (endures_pure fun _ => trivial)
    · have hreschedule : (call (.reschedule d.key d.trigger)).Endures now s Left fun _ _ => True :=
        endures_call hleft (leads_reschedule (t := d.trigger) hrun hold (hs.jobKey_of_mirrored hm hold))
          (fun _ _ _ => trivial) hput
      exact hreschedule.bind fun next s' _ => endures_report_bind (endures_pure fun _ => trivial)

/-- **A declaration is carried out, or has only begun**, whichever calls fail. -/
theorem endures_reconcile (hs : s.Sound) (hm : s.Mirrored) (hblocked : d.blocked s = false) (now : Instant) :
    d.reconcile.Endures now s (d.Begun s) fun _ _ => True := by
  cases hrun : s.stopped with
  | true =>
    have hcall : (call (.jobExists d.key)).Endures now s (d.Begun s) fun _ _ => False :=
      endures_call .untouched (leads_of_stopped hrun _) (fun a h => by cases h) fun _ => .untouched
    have hjob : d.reconcileJob.Endures now s (d.Begun s) fun _ _ => False := hcall.bind fun _ _ h => h.elim
    exact hjob.bind fun _ _ h => h.elim
  | false =>
    refine (endures_reconcileJob .untouched hrun hs hblocked).bind ?_
    rintro change _ ⟨counters, rfl⟩
    have hbegun (counters' : Counters) : d.Begun s { d.withJob s with counters := counters' } := .withJob counters' hrun
    have hjob : d.key ∈ (d.withJob s).jobs := Std.ExtTreeMap.mem_insert_self
    have hsound : (d.withJob s).Sound := withJob_sound hs
    have htrigger : d.reconcileTrigger.Endures now { d.withJob s with counters } (d.Begun s) fun _ _ => True :=
      endures_reconcileTrigger hbegun hrun ⟨hsound.jobKey, hsound.triggerKey, hsound.owner, hsound.schedule⟩ hm hjob
    exact htrigger.bind fun _ _ _ => endures_pure fun _ => trivial

/-! ### Where it leads from there -/

/-- Nothing is in the way of data that the job has already. -/
theorem blocked_withJob (d : Declaration) (s : Store) : d.blocked (d.withJob s) = false := by
  have hjob : (d.withJob s).jobs[d.key]? = some (d.jobAfter s.jobs[d.key]?) := Std.ExtTreeMap.getElem?_insert_self
  have hunchanged := jobChange_eq_unchanged_iff.2 (jobAfter_jobAfter (d := d) s.jobs[d.key]?)
  simp [blocked, hjob, hunchanged]

/-- A declaration that is made in a memory is carried out. -/
def Succeeds (d : Declaration) (now : Instant) (s : Store) : Prop := ∃ o, (d.afterwards now s).1 = .ok (.ok o)

/-- Where a declaration leads depends on the triggers, and on the job as it is when brought in line. -/
theorem afterwards_congr {counters : Counters} (hrun : s.stopped = false) (hrun' : s'.stopped = false)
    (hblocked : d.blocked s = false) (hblocked' : d.blocked s' = false) (htriggers : s'.triggers = s.triggers)
    (hjob : d.withJob s' = { d.withJob s with counters }) (now : Instant) :
    (d.Succeeds now s' ↔ d.Succeeds now s) ∧
      ∃ counters, (d.afterwards now s').2 = { (d.afterwards now s).2 with counters } := by
  simp only [Succeeds, afterwards, hrun, hrun', hblocked, hblocked', htriggers, hjob, if_neg Bool.false_ne_true]
  cases d.keeps s.triggers[d.key]? with
  | true => exact ⟨⟨fun _ => ⟨_, rfl⟩, fun _ => ⟨_, rfl⟩⟩, counters, rfl⟩
  | false =>
    simp only [if_neg Bool.false_ne_true, Store.putPrepared]
    cases Store.prepare now d.trigger with
    | answer stored => exact ⟨⟨fun _ => ⟨_, rfl⟩, fun _ => ⟨_, rfl⟩⟩, counters, rfl⟩
    | refused e | crashed crash => exact ⟨by simp, counters, rfl⟩

/-- **Where a declaration has begun, it leads where it leads from the start.** -/
theorem Begun.afterwards (h : d.Begun s s') (hblocked : d.blocked s = false) (now : Instant) :
    (d.Succeeds now s' ↔ d.Succeeds now s) ∧
      ∃ counters, (d.afterwards now s').2 = { (d.afterwards now s).2 with counters } := by
  cases h with
  | untouched counters =>
    -- an engine that was shut down stays as it is
    by_cases hrun : s.stopped = true
    · simp only [Succeeds, Declaration.afterwards, if_pos hrun]
      exact ⟨by simp, counters, rfl⟩
    · have hrun := Bool.eq_false_iff.2 hrun
      have hrun' : ({ s with counters } : Store).stopped = false := hrun
      exact afterwards_congr hrun hrun' hblocked hblocked rfl rfl now
  | withJob counters hrun =>
    have hrun' : ({ d.withJob s with counters } : Store).stopped = false := hrun
    have htwice : d.withJob { d.withJob s with counters } = { d.withJob (d.withJob s) with counters } := rfl
    rw [withJob_withJob] at htwice
    exact afterwards_congr hrun hrun' hblocked (d.blocked_withJob s) rfl htwice now

end Declaration

/-! ### Attempts -/

section Attempts

variable {s : Store} {lock : LockState} {r : Roster} {d : Declaration} {now : Instant} {n : ℕ}
  {faults : ℕ → Option (Except Crash EngineError)}

/-- **A request whose calls may fail leaves a memory among those that are reached.** -/
theorem Store.Reached.perform_failing {allowed : Trigger → Prop} {q : Roster.Request}
    {run : Program.Run (Roster.World (Store × ℕ)) Roster.Answer} (hs : s.Reached allowed)
    (hallowed : ∀ t, t.Mirrors → allowed t)
    (h : r.perform ((Store.engine now).failing faults) q ⟨lock, (s, n)⟩ = some run) :
    run.state.engine.1.Reached allowed := by
  have hstate : run.state.engine = ((r.program q).exec ((Store.engine now).failing faults) (s, n)).2 :=
    congrArg Prod.snd (Roster.perform_eq_some h).1
  rw [hstate]
  refine (Program.Obeys.exec (I := fun s : Store × ℕ => s.1.Reached allowed) ?_ (r.program_makes q) hs).1
  intro c s hc hs
  obtain ⟨hstate, hreply⟩ | ⟨hstate, hreply⟩ := (Store.engine now).failing_cases faults c s
  · refine ⟨hstate ▸ hs, ?_⟩
    cases hr : (((Store.engine now).failing faults).serve c s).reply with
    | answer a => exact absurd hr (hreply a)
    | refused e => cases c <;> trivial
    | crashed crash => trivial
  · rw [hstate, hreply]
    exact ⟨hs.call now c (hc.passes fun d _ => hallowed d.trigger rfl), Store.serve_fits hs.sound now c⟩

/-- **An attempt that is not carried out has only begun.** -/
theorem begun_of_failing {run : Program.Run (Roster.World (Store × ℕ)) Roster.Answer} (hs : s.Reached Trigger.Mirrors)
    (h : r.perform ((Store.engine now).failing faults) (.register d) ⟨lock, (s, n)⟩ = some run)
    (hfailed : ∀ o, run.result ≠ .ok (.registered (.ok o))) : d.Begun s run.state.engine.1 := by
  obtain ⟨hm, hsupported⟩ := hs.mirrored_supported
  have hblocked : d.blocked s = false := Declaration.not_blocked_of_supported hsupported
  have hendures := Declaration.endures_reconcile hs.sound hm hblocked now faults n s.counters
  obtain ⟨hends, -⟩ := Roster.perform_eq_some h
  rw [Declaration.exec_register, Prod.mk.injEq] at hends
  obtain ⟨hresult, hstate⟩ := hends
  rw [hstate]
  revert hendures hresult
  rcases d.reconcile.run.exec ((Store.engine now).failing faults) (s, n) with ⟨crash | (e | o), s', n'⟩
  · exact fun hbegun _ => hbegun
  · exact fun hbegun _ => hbegun
  · exact fun _ hresult => absurd hresult (hfailed o)

/-- **Attempts to carry out a declaration**, one after another, each of them at its own time and with its own calls
that fail. None of them succeeds. -/
inductive Declaration.Tried (d : Declaration) (r : Roster) (w : Roster.World Store) : Roster.World Store → Prop
  /-- There was none. -/
  | start : Tried d r w w
  /-- After some, there was another one. -/
  | again {w' : Roster.World Store} {run : Program.Run (Roster.World (Store × ℕ)) Roster.Answer} (now : Instant)
      (faults : ℕ → Option (Except Crash EngineError)) : Tried d r w w' →
      r.perform ((Store.engine now).failing faults) (.register d) ⟨w'.lock, (w'.engine, 0)⟩ = some run →
      (∀ o, run.result ≠ .ok (.registered (.ok o))) → Tried d r w ⟨run.state.lock, run.state.engine.1⟩

/-- Attempts from a free lock leave it free, keep the memory among those that are reached, and have only begun. -/
theorem Declaration.Tried.begun {w : Roster.World Store} (h : d.Tried r ⟨.free, s⟩ w)
    (hs : s.Reached Trigger.Mirrors) :
    w.lock = .free ∧ w.engine.Reached Trigger.Mirrors ∧ d.Begun s w.engine := by
  induction h with
  | start => exact ⟨rfl, hs, .untouched s.counters⟩
  | @again w' run now faults _ hrun hfailed ih =>
    obtain ⟨hfree, hreached, hbegun⟩ := ih
    refine ⟨?_, hreached.perform_failing (fun _ h => h) hrun, hbegun.trans (begun_of_failing hreached hrun hfailed)⟩
    -- the lock is free after the attempt since it was so before, whatever engine is behind it
    rw [hfree] at hrun
    obtain ⟨run', hrun', -, hstate⟩ :=
      r.perform_free ((Store.engine now).failing faults) (.register d) (w'.engine, 0)
    cases hrun.symm.trans hrun'
    exact congrArg Roster.World.lock hstate

/-- Where nobody holds the lock, a run that is not carried out is an attempt. -/
theorem Declaration.Tried.again_of_exec {w : Roster.World Store} (h : d.Tried r w ⟨.free, s⟩) (now : Instant)
    (faults : ℕ → Option (Except Crash EngineError))
    (hfailed : outcome? ((r.program (.register d)).exec ((Store.engine now).failing faults) (s, 0)).1 = none) :
    d.Tried r w ⟨.free, ((r.program (.register d)).exec ((Store.engine now).failing faults) (s, 0)).2.1⟩ := by
  obtain ⟨run, hrun, hresult, hstate⟩ := r.perform_free ((Store.engine now).failing faults) (.register d) (s, 0)
  have hagain := h.again now faults hrun fun o ho => by
    rw [← hresult, ho] at hfailed
    cases hfailed
  rwa [hstate] at hagain

/-- Where nobody holds the lock, a request to carry out a declaration leads where the declaration leads. -/
theorem exists_run_of_reached (hs : s.Reached Trigger.Mirrors) (r : Roster) (d : Declaration) (now : Instant) :
    ∃ run, r.perform (Store.engine now) (.register d) ⟨.free, s⟩ = some run ∧
      ((∃ o, run.result = .ok (.registered (.ok o))) ↔ d.Succeeds now s) ∧
        run.state.engine.jobs = (d.afterwards now s).2.jobs ∧
          run.state.engine.triggers = (d.afterwards now s).2.triggers := by
  obtain ⟨run, hrun, hresult, hstate⟩ := r.perform_free (Store.engine now) (.register d) s
  obtain ⟨counters, hexec⟩ := d.exec_program now r hs.sound hs.mirrored
  rw [hexec] at hresult hstate
  refine ⟨run, hrun, ⟨?_, ?_⟩, by rw [hstate], by rw [hstate]⟩
  · rintro ⟨o, ho⟩
    exact ⟨o, Declaration.answer_eq_outcome (hresult.symm.trans ho)⟩
  · rintro ⟨o, ho⟩
    exact ⟨o, by rw [hresult, ho]; rfl⟩

/-- **Trying again until it is carried out** leads where carrying it out once leads: after any attempts that failed, the
declaration is carried out exactly if it would have been at first, and the jobs and the triggers, with their next fire
times, are the same then. -/
theorem retry_converges {w : Roster.World Store} (hs : s.Reached Trigger.Mirrors) (htried : d.Tried r ⟨.free, s⟩ w)
    (now : Instant) : ∃ last once, r.perform (Store.engine now) (.register d) w = some last ∧
      r.perform (Store.engine now) (.register d) ⟨.free, s⟩ = some once ∧
        ((∃ o, last.result = .ok (.registered (.ok o))) ↔ ∃ o, once.result = .ok (.registered (.ok o))) ∧
          last.state.engine.jobs = once.state.engine.jobs ∧
            last.state.engine.triggers = once.state.engine.triggers := by
  obtain ⟨lock, s'⟩ := w
  obtain ⟨rfl, hreached, hbegun⟩ := htried.begun hs
  have hblocked : d.blocked s = false := Declaration.not_blocked_of_supported hs.mirrored_supported.2
  obtain ⟨hsame, counters, hafter⟩ := hbegun.afterwards hblocked now
  obtain ⟨once, honce, hsucceeds, hjobs, htriggers⟩ := exists_run_of_reached hs r d now
  obtain ⟨last, hlast, hsucceeds', hjobs', htriggers'⟩ := exists_run_of_reached hreached r d now
  refine ⟨last, once, hlast, honce, (hsucceeds'.trans hsame).trans hsucceeds.symm, ?_, ?_⟩
  · rw [hjobs', hjobs, hafter]
  · rw [htriggers', htriggers, hafter]

/-- A job with the schedule `@hourly` is declared with data and with the schedule `@daily`. At first that fails when the
job is to take over the data, then when the trigger is to be replaced, so that the job has the data while the trigger is
the old one, and then it is carried out. -/
theorem retry_converges_after_failures : ∃ (now : Instant) (s : Store) (d : Declaration) (w : Roster.World Store),
    s.Reached Trigger.Mirrors ∧ d.Tried .standard ⟨.free, s⟩ w ∧
      w.engine.jobs[d.key]?.map (fun job => job.data.contains "retries") = some true ∧
        w.engine.triggers[d.key]?.map (fun stored => stored.trigger.cron) = some "@hourly" ∧
          ∃ last once, Roster.standard.perform (Store.engine now) (.register d) w = some last ∧
            Roster.standard.perform (Store.engine now) (.register d) ⟨.free, s⟩ = some once ∧
              (∃ o, last.result = .ok (.registered (.ok o))) ∧
                last.state.engine.jobs = once.state.engine.jobs ∧
                  last.state.engine.triggers = once.state.engine.triggers := by
  let now : Instant := ⟨4133894300, 0, by decide, by decide, by decide, by decide⟩
  let d (cron : String) (data : Option Payload) : Declaration :=
    { jobType := "backup", name := "nightly", group := "eu", cron, start := now, stop := none, data }
  let hourly := d "@hourly" none
  let daily := d "@daily" (some ((∅ : Payload).insert "retries" (.integer 3)))
  let faultAt (number n : ℕ) : Option (Except Crash EngineError) :=
    if n = number then some (.ok (.internal "no connection")) else none
  let s := ((Roster.standard.program (.register hourly)).exec (Store.engine now) .fresh).2
  have hs : s.Reached Trigger.Mirrors := (Store.Reached.empty _).program (fun _ h => h) _ _
  have hstart : daily.Tried .standard ⟨.free, s⟩ ⟨.free, s⟩ := .start
  have hfirst := hstart.again_of_exec now (faultAt 2) (by decide +kernel)
  have hsecond := hfirst.again_of_exec now (faultAt 5) (by decide +kernel)
  obtain ⟨last, once, hlast, honce, hsucceeds, hjobs, htriggers⟩ := retry_converges hs hsecond now
  have hcomputed : (outcome? ((Roster.standard.program (.register daily)).exec (Store.engine now) s).1).isSome := by
    decide +kernel
  obtain ⟨o, ho⟩ := Option.isSome_iff_exists.1 hcomputed
  have hresult : once.result = .ok (.registered (.ok o)) :=
    (congrArg Prod.fst (Roster.perform_eq_some honce).1).trans (eq_of_outcome? ho)
  exact ⟨now, s, daily, _, hs, hsecond, by decide +kernel, by decide +kernel, last, once, hlast, honce,
    hsucceeds.2 ⟨o, hresult⟩, hjobs, htriggers⟩

end Attempts

end JobRoster
