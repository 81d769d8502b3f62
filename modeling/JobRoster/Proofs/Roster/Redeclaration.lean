import JobRoster.Proofs.Roster.Operations

/-!
# Declaring twice

A memory is settled for a declaration (`Declaration.Settled`) if there is nothing left to be done: the job has taken
over the data, and there is a trigger with the cron expression. A declaration that was carried out settles the memory
(`Reconciled.settled`), what is under its key decides whether it is settled (`Settled.of_redatedAt`), and to carry out a
declaration for which the memory is settled is only to read (`Settled.exec_program`). Hence to declare a job again does
nothing, also when there were requests for other jobs meanwhile (`register_again`).
-/

namespace JobRoster

open Attempt

namespace Declaration

variable {d : Declaration} {s s' : Store} {now : Instant} {o : Outcome}

/-- **There is nothing left to be done** for a declaration. -/
structure Settled (d : Declaration) (s : Store) : Prop where
  /-- The engine takes calls. -/
  running : s.stopped = false
  /-- The job is there, and what is declared would not change it. -/
  job : ∃ job, s.jobs[d.key]? = some job ∧ d.jobChange (some job) = .unchanged
  /-- A trigger with the declared cron expression, ignoring case, is there. -/
  trigger : d.keeps s.triggers[d.key]? = true

/-! ### What settles a memory -/

theorem dataAfter_dataAfter (old : Payload) : d.dataAfter (d.dataAfter old) = d.dataAfter old := by
  unfold dataAfter
  split
  · next data _ => exact Payload.merge_merge old data
  · rfl

/-- A new job holds the declared data already. -/
theorem dataAfter_job : d.dataAfter d.job.data = d.job.data := by
  unfold dataAfter Declaration.job
  split
  · next data hdata =>
    rw [hdata]
    exact Payload.merge_of_holds fun _ _ => Payload.holds_of_getElem?
  · rfl

/-- **To declare a job twice is to declare it once.** -/
theorem jobAfter_jobAfter (old : Option Job) : d.jobAfter (some (d.jobAfter old)) = d.jobAfter old := by
  cases old with
  | none => exact congrArg (fun data => { d.job with data }) dataAfter_job
  | some old => exact congrArg (fun data => { old with data }) (dataAfter_dataAfter old.data)

/-- **A declaration that was carried out settles the memory.** -/
theorem Reconciled.settled (h : d.Reconciled now s s' o) (hrun : s'.stopped = false) : d.Settled s' :=
  ⟨hrun, ⟨_, h.job.job, jobChange_eq_unchanged_iff.2 (jobAfter_jobAfter _)⟩, h.trigger.keeps_after⟩

/-- Only where the engine takes calls is a declaration carried out. -/
theorem stopped_of_afterwards (h : (d.afterwards now s).1 = .ok (.ok o)) : s.stopped = false := by
  cases hstopped : s.stopped with
  | true =>
    rw [afterwards, if_pos hstopped] at h
    cases h
  | false => rfl

/-- Whether a memory is settled depends on what is under the key of the declaration, but not on when the trigger fires
next. -/
theorem Settled.of_redatedAt (h : d.Settled s) (hsame : s.RedatedAt d.key s') (hrun : s'.stopped = false) :
    d.Settled s' := by
  have hkeeps (o : Option Stored) :
      d.keeps o = (o.map Stored.trigger).any fun t => Text.sameIgnoringCase t.cron d.cron := by
    cases o <;> rfl
  refine ⟨hrun, by rw [hsame.job]; exact h.job, ?_⟩
  rw [hkeeps, hsame.trigger, ← hkeeps]
  exact h.trigger

/-! ### Declaring where nothing is left to be done -/

/-- **Where nothing is left to be done, nothing happens**: a request to carry out the declaration only reads. -/
theorem Settled.exec_program (h : d.Settled s) (r : Roster) (now : Instant) :
    s.Untouched ((r.program (.register d)).exec (Store.engine now) s).2 ∧
      ((r.program (.register d)).exec (Store.engine now) s).1 =
        .ok (.registered (.ok ⟨.unchanged, .unchanged, none⟩)) := by
  obtain ⟨job, hjob, hunchanged⟩ := h.job
  have hreconcile : d.reconcile.ReadsTo s ⟨.unchanged, .unchanged, none⟩ :=
    (readsTo_reconcileJob hjob hunchanged).bind ((readsTo_reconcileTrigger h.trigger).bind (readsTo_pure _))
  have hregister : d.register.Obeys Call.Reads s.Tells fun r => r = .ok ⟨.unchanged, .unchanged, none⟩ := by
    refine Program.Obeys.bind hreconcile ?_
    rintro _ rfl
    rfl
  have hprogram : (r.program (.register d)).Obeys Call.Reads s.Tells
      fun answer => answer = .registered (.ok ⟨.unchanged, .unchanged, none⟩) := by
    refine Program.Obeys.bind hregister ?_
    rintro _ rfl
    rfl
  obtain ⟨huntouched, _, hresult, rfl⟩ := Store.exec_reads h.running hprogram now
  exact ⟨huntouched, hresult⟩

end Declaration

/-! ### Requests -/

section Requests

variable {s : Store} {lock : LockState} {r : Roster} {now : Instant} {d : Declaration} {o : Outcome}
  {run : Program.Run (Roster.World Store) Roster.Answer}

/-- A request that carries out a declaration settles the memory for it. -/
theorem settled_of_register (hs : s.Reached Trigger.Mirrors)
    (hrun : r.perform (Store.engine now) (.register d) ⟨lock, s⟩ = some run)
    (hok : run.result = .ok (.registered (.ok o))) : d.Settled run.state.engine := by
  obtain ⟨hm, -⟩ := hs.mirrored_supported
  have hends := (Roster.perform_eq_some hrun).1
  have hstate : run.state.engine = ((r.program (.register d)).exec (Store.engine now) s).2 := congrArg Prod.snd hends
  refine (reconciled_of_register hs.sound hm hrun hok).settled ?_
  rw [hstate, r.program_stopped _ hs.sound hm]
  obtain ⟨counters, hexec⟩ := d.exec_program now r hs.sound hm
  have hresult : run.result = d.answer (d.afterwards now s).1 := congrArg Prod.fst (hends.trans hexec)
  exact Declaration.stopped_of_afterwards (Declaration.answer_eq_outcome (hresult.symm.trans hok))

/-- **To declare a job again does nothing**: after a declaration was carried out, and after any operations that are not
about its job, however these end, carrying it out again tells that nothing happened, leaves all jobs and triggers as
they are, next fire times included, and counts no change. -/
theorem register_again (hs : s.Reached Trigger.Mirrors)
    (hrun : r.perform (Store.engine now) (.register d) ⟨lock, s⟩ = some run)
    (hok : run.result = .ok (.registered (.ok o))) {between : List Operation}
    (hbetween : ∀ op ∈ between, op.Spares d.key) (r' : Roster) (now' : Instant) :
    ∃ again, r'.perform (Store.engine now') (.register d) ⟨.free, run.state.engine.after between⟩ = some again ∧
      again.result = .ok (.registered (.ok ⟨.unchanged, .unchanged, none⟩)) ∧
        (run.state.engine.after between).Untouched again.state.engine := by
  have hreached : run.state.engine.Reached Trigger.Mirrors := hs.perform (fun _ h => h) hrun
  have hsettled := settled_of_register hs hrun hok
  have hsame := Store.redatedAt_after hreached hbetween
  have hrunning := Store.running_after hreached hsettled.running fun op hop => (hbetween op hop).routine
  obtain ⟨huntouched, hresult⟩ := (hsettled.of_redatedAt hsame hrunning).exec_program r' now'
  obtain ⟨again, hagain, hanswer, hstate⟩ := r'.perform_free (Store.engine now') (.register d) _
  exact ⟨again, hagain, hanswer.trans hresult, hstate ▸ huntouched⟩

/-- A job with the schedule `@hourly` is declared with data and with the schedule `@daily`. Before that is declared
again, another job is declared with a schedule that cannot be read, so that it is left without a trigger, a third one is
declared and deleted, and missed fire times are treated. -/
theorem register_again_after_others : ∃ (now : Instant) (s : Store) (d : Declaration) (o : Outcome)
    (run : Program.Run (Roster.World Store) Roster.Answer) (between : List Operation), s.Reached Trigger.Mirrors ∧
      Roster.standard.perform (Store.engine now) (.register d) ⟨.free, s⟩ = some run ∧
        run.result = .ok (.registered (.ok o)) ∧ (o.job = .merged ∧ o.trigger = .rescheduled) ∧
          (∀ op ∈ between, op.Spares d.key) ∧
            ∃ again, Roster.standard.perform (Store.engine now) (.register d)
                ⟨.free, run.state.engine.after between⟩ = some again ∧
              again.result = .ok (.registered (.ok ⟨.unchanged, .unchanged, none⟩)) ∧
                (run.state.engine.after between).Untouched again.state.engine := by
  let now : Instant := ⟨4133894300, 0, by decide, by decide, by decide, by decide⟩
  let d (name cron : String) (data : Option Payload) : Declaration :=
    { jobType := "backup", name, group := "eu", cron, start := now, stop := none, data }
  let hourly := d "nightly" "@hourly" none
  let daily := d "nightly" "@daily" (some ((∅ : Payload).insert "retries" (.integer 3)))
  let between : List Operation :=
    [.request .standard (.register (d "mirror" "every now and then" none)) now,
      .request .standard (.register (d "archive" "@hourly" none)) now,
      .request .standard (.deleteJob "archive" "eu") now, .applyMisfires now]
  have hbetween : ∀ op ∈ between, op.Spares daily.key := by
    simp only [between, List.forall_mem_cons]
    refine ⟨?_, ?_, ?_, trivial, by simp⟩ <;> simp [Operation.Spares, Roster.Request.Concerns,
      Roster.Request.Deletes, Declaration.key, daily, d]
  let s := ((Roster.standard.program (.register hourly)).exec (Store.engine now) .fresh).2
  have hs : s.Reached Trigger.Mirrors := (Store.Reached.empty _).program (fun _ h => h) _ _
  have hcomputed : (outcome? ((Roster.standard.program (.register daily)).exec (Store.engine now) s).1).map
      (fun o => (o.job, o.trigger)) = some (.merged, .rescheduled) := by decide +kernel
  obtain ⟨o, ho, hchange⟩ := Option.map_eq_some_iff.1 hcomputed
  obtain ⟨run, hrun, hresult, -⟩ := Roster.standard.perform_free (Store.engine now) (.register daily) s
  have hok := hresult.trans (eq_of_outcome? ho)
  exact ⟨now, s, daily, o, run, between, hs, hrun, hok, Prod.mk.inj hchange, hbetween,
    register_again hs hrun hok hbetween .standard now⟩

end Requests

end JobRoster
