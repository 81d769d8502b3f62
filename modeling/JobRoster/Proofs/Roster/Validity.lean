import JobRoster.Proofs.Cron.LetterCase
import JobRoster.Proofs.Engine.Misfires
import JobRoster.Proofs.Roster.Reconciliation

/-!
# What becomes of the expression of a declaration

The expression of a declaration is read when its trigger is prepared, which is the last of the stages that carrying out
the declaration can get to. A trigger with the same expression, ignoring case, is kept before that. What is stored was
read once, and case makes no difference to what is read, so no other schedule is kept than the declared one
(`kept_fires_alike`). But keywords are read in small letters only: if a keyword is declared again in capital letters,
then its trigger is kept although the declared expression cannot be read.

Of an expression that cannot be read nothing is said either where carrying out the declaration ends at an earlier stage.
These are reached only with triggers that do not have the keys of their jobs (`stage_of_mirrored`).

Main statements:

* `kept_fires_alike`: expressions that differ in case only denote the same fire times, if they denote any, and a trigger
  that is kept has those of the declared expression.
* `unreadable_reported`: a declaration that is carried out has an expression that can be read, and where it cannot be
  read that is reported, with the exceptions above (`exists_unreported`).
-/

namespace JobRoster

open Cron

/-! ### Schedules -/

/-- **Two schedules fire alike.** -/
structure Cron.Schedule.Alike (s s' : Schedule) : Prop where
  /-- They admit the same values of each field. -/
  admitted : ∀ (f : Field) (v : Nat), v ∈ s.admitted f ↔ v ∈ s'.admitted f
  /-- The same instants belong to them. -/
  mem : ∀ t : Instant, t ∈ s ↔ t ∈ s'
  /-- In any window, after any instant, they have the same first fire time. -/
  firstFire : ∀ (after start : Instant) (stop : Option Instant),
    s.firstFire after start stop = s'.firstFire after start stop

theorem Cron.Schedule.Alike.refl (s : Schedule) : s.Alike s :=
  ⟨fun _ _ => Iff.rfl, fun _ => Iff.rfl, fun _ _ _ => rfl⟩

/-- Expressions that differ in case only have schedules that fire alike, if both can be read. -/
theorem alike_of_sameIgnoringCase {x y : String} {s s' : Schedule} (h : Text.sameIgnoringCase x y = true)
    (hx : readCron x = .ok s) (hy : readCron y = .ok s') : s.Alike s' := by
  obtain rfl := readCron_congr h hx hy
  exact .refl s

/-! ### Stages -/

namespace Declaration

variable {d : Declaration} {s : Store} {now : Instant} {stage : Stage} {o : Outcome} {e : EngineError}

theorem stage_eq_stopped_iff : d.stage s = .stopped ↔ s.stopped = true := by
  unfold stage
  split_ifs with hstopped <;> simp [hstopped]

theorem keeps_of_stage (h : d.stage s = .kept) : d.keeps s.triggers[d.key]? = true := by
  unfold stage at h
  split_ifs at h with hstopped hblocked hkeeps howns
  exact hkeeps

/-- Where triggers have the keys of their jobs, and jobs which are not durable have triggers, nothing ends a running
declaration before its trigger is kept or prepared. -/
theorem stage_of_mirrored (hs : s.Reached Trigger.Mirrors) : d.stage s ≠ .blocked ∧ d.stage s ≠ .foreign := by
  obtain ⟨hm, hd⟩ := hs.mirrored_supported
  unfold stage
  rw [if_pos (owns_of_mirrored hs.sound hm), not_blocked_of_supported hd, if_neg Bool.false_ne_true]
  split_ifs <;> simp

/-- A declaration is carried out at two stages: the trigger is kept, or it is prepared and put. -/
theorem stage_of_verdict (h : (d.verdict now s stage).1 = .ok (.ok o)) :
    stage = .kept ∧ o.trigger = .unchanged ∨
      stage = .prepared ∧ o.trigger ≠ .unchanged ∧ ∃ stored, Store.prepare now d.trigger = .answer stored := by
  cases stage with
  | kept =>
    cases h
    exact .inl ⟨rfl, rfl⟩
  | prepared =>
    simp only [verdict, Store.putPrepared] at h
    split at h <;> cases h
    next stored hprep =>
      refine .inr ⟨rfl, ?_, stored, hprep⟩
      cases s.triggers[d.key]? <;> simp [triggerChange]
  | stopped | blocked | foreign => cases h

/-- The trigger that is kept was read from an expression that is the declared one, ignoring case. -/
theorem exists_of_stage_kept (hs : s.Sound) (h : d.stage s = .kept) : ∃ old, s.triggers[d.key]? = some old ∧
    Text.sameIgnoringCase old.trigger.cron d.cron = true ∧ readCron old.trigger.cron = .ok old.schedule := by
  obtain ⟨old, hold, hsame⟩ := exists_of_keeps (keeps_of_stage h)
  exact ⟨old, hold, hsame, hs.schedule hold⟩

/-- **How a request ends whose expression cannot be read**, given the error with which reading it ends, where the engine
takes calls. -/
inductive Unread (d : Declaration) (s : Store) (e : EngineError) : Except Crash Roster.Answer → Prop where
  /-- That is reported. -/
  | reported : d.stage s = .prepared → Unread d s e (.ok (.registered (.error (.refused d.key e))))
  /-- The trigger is kept, whose keyword is the declared one but for capital letters. -/
  | kept {o : Outcome} : d.stage s = .kept → CapitalKeyword d.cron → o.trigger = .unchanged →
      Unread d s e (.ok (.registered (.ok o)))
  /-- The job cannot take over the data, which comes first. -/
  | blocked : d.stage s = .blocked →
      Unread d s e (.ok (.registered (.error (.refused d.key (.notDurable d.key.display)))))
  /-- The trigger that is there fires another job, which comes first. -/
  | foreign : d.stage s = .foreign →
      Unread d s e (.ok (.registered (.error (.refused d.key (.jobMismatch d.key.display)))))

theorem unread_verdict (hs : s.Sound) (hrun : s.stopped = false) (hread : readCron d.cron = .error e) :
    d.Unread s e (d.answer (d.verdict now s (d.stage s)).1) := by
  cases hstage : d.stage s with
  | stopped =>
    rw [stage_eq_stopped_iff, hrun] at hstage
    cases hstage
  | blocked => exact .blocked hstage
  | foreign => exact .foreign hstage
  | kept =>
    refine .kept hstage ?_ rfl
    obtain ⟨old, -, hsame, hold⟩ := exists_of_stage_kept hs hstage
    refine (readCron_or_capitalKeyword hsame hold).resolve_left fun hok => ?_
    cases hread.symm.trans hok
  | prepared =>
    have hprep : Store.prepare now d.trigger = .refused e := Store.prepare_of_unreadable hread
    simp only [verdict, Store.putPrepared, hprep, answer]
    exact .reported hstage

end Declaration

/-! ### Requests -/

section Requests

variable {s : Store} {lock : LockState} {r : Roster} {now : Instant} {d : Declaration} {o : Outcome}
  {run : Program.Run (Roster.World Store) Roster.Answer} {allowed : Trigger → Prop}

/-- **Case makes no difference to fire times**: expressions that differ in case only have schedules that fire alike, if
both can be read. So where a request tells that a trigger is unchanged, and its expression can be read, the stored
trigger has a schedule that fires like that of the declared expression, and its next fire time is on that schedule
unless it is due because it has missed one. -/
theorem kept_fires_alike :
    (∀ (x y : String) (s s' : Schedule), Text.sameIgnoringCase x y = true → readCron x = .ok s → readCron y = .ok s' →
      s.Alike s') ∧
    ∀ (allowed : Trigger → Prop) (s : Store) (lock : LockState) (r : Roster) (now : Instant) (d : Declaration)
      (run : Program.Run (Roster.World Store) Roster.Answer) (o : Outcome) (schedule : Schedule),
      s.Reached allowed → r.perform (Store.engine now) (.register d) ⟨lock, s⟩ = some run →
        run.result = .ok (.registered (.ok o)) → o.trigger = .unchanged → readCron d.cron = .ok schedule →
          ∃ stored, run.state.engine.triggers[d.key]? = some stored ∧ stored.schedule.Alike schedule ∧
            ∀ t ∈ stored.next, t ∈ schedule ∨ stored.trigger.policy = .fireOnceNow := by
  refine ⟨fun x y s s' => alike_of_sameIgnoringCase, ?_⟩
  intro allowed s lock r now d run o schedule hs hrun hok hunchanged hread
  obtain ⟨hresult, counters, hstate⟩ := verdict_of_register hs.sound hrun
  have hverdict := Declaration.answer_eq_outcome (hresult.symm.trans hok)
  obtain ⟨hstage, -⟩ | ⟨-, hchanged, -⟩ := Declaration.stage_of_verdict hverdict
  · obtain ⟨old, hold, hsame, hreadOld⟩ := Declaration.exists_of_stage_kept hs.sound hstage
    obtain rfl := readCron_congr hsame hreadOld hread
    have htriggers : run.state.engine.triggers = s.triggers := by
      rw [hstate, hstage]
      rfl
    refine ⟨old, htriggers ▸ hold, .refl _, fun t ht => ?_⟩
    cases hpolicy : old.trigger.policy with
    | doNothing => exact .inl ((hs.dated hold).next hpolicy t ht)
    | fireOnceNow => exact .inr rfl
  · exact absurd hunchanged hchanged

/-- A weekly job is declared with a day in mixed case, and again with the day in capital letters. -/
theorem kept_fires_alike_on_fridays : ∃ (now : Instant) (s : Store) (d : Declaration) (o : Outcome)
    (run : Program.Run (Roster.World Store) Roster.Answer) (schedule : Schedule), s.Reached Trigger.Mirrors ∧
      Roster.standard.perform (Store.engine now) (.register d) ⟨.free, s⟩ = some run ∧
        run.result = .ok (.registered (.ok o)) ∧ o.trigger = .unchanged ∧ readCron d.cron = .ok schedule ∧
          s.triggers[d.key]?.map (fun old => old.trigger.cron) = some "0 0 4 ? * Fri" ∧ d.cron = "0 0 4 ? * FRI" ∧
            ∃ stored, run.state.engine.triggers[d.key]? = some stored ∧ stored.schedule.Alike schedule ∧
              ∀ t ∈ stored.next, t ∈ schedule ∨ stored.trigger.policy = .fireOnceNow := by
  let now : Instant := ⟨4133894300, 0, by decide, by decide, by decide, by decide⟩
  let d (cron : String) : Declaration :=
    { jobType := "backup", name := "nightly", group := "eu", cron, start := now, stop := none, data := none }
  let again := d "0 0 4 ? * FRI"
  let s := ((Roster.standard.program (.register (d "0 0 4 ? * Fri"))).exec (Store.engine now) .fresh).2
  have hs : s.Reached Trigger.Mirrors := (Store.Reached.empty _).program (fun _ h => h) _ _
  have hcomputed : (outcome? ((Roster.standard.program (.register again)).exec (Store.engine now) s).1).map
      Outcome.trigger = some .unchanged := by decide +kernel
  obtain ⟨o, ho, hunchanged⟩ := Option.map_eq_some_iff.1 hcomputed
  obtain ⟨run, hrun, hresult, -⟩ := Roster.standard.perform_free (Store.engine now) (.register again) s
  have hok := hresult.trans (eq_of_outcome? ho)
  obtain ⟨schedule, hread⟩ : ∃ schedule, readCron again.cron = .ok schedule := exists_eq_ok_iff.2 (by decide +kernel)
  exact ⟨now, s, again, o, run, schedule, hs, hrun, hok, hunchanged, hread, by decide +kernel, rfl,
    kept_fires_alike.2 _ s _ _ now again run o schedule hs hrun hok hunchanged hread⟩

/-- **A declaration that is carried out has an expression that can be read**, from every memory that is reached, unless
the expression is a keyword with capital letters and the trigger under its key, which has the same keyword, is kept. An
expression that cannot be read is reported by an engine that takes calls, unless that trigger is kept or the request is
refused before it comes to the expression, which only happens where triggers without the keys of their jobs were
passed. -/
theorem unreadable_reported (hs : s.Reached allowed)
    (hrun : r.perform (Store.engine now) (.register d) ⟨lock, s⟩ = some run) :
    (∀ o, run.result = .ok (.registered (.ok o)) → (∃ schedule, readCron d.cron = .ok schedule) ∨
      d.stage s = .kept ∧ CapitalKeyword d.cron ∧ o.trigger = .unchanged) ∧
    (s.stopped = false → ∀ e, readCron d.cron = .error e →
      (∃ report, e = .invalidCron d.cron report) ∧ d.Unread s e run.result) ∧
    (s.Reached Trigger.Mirrors → d.stage s ≠ .blocked ∧ d.stage s ≠ .foreign) := by
  obtain ⟨hresult, -⟩ := verdict_of_register hs.sound hrun
  refine ⟨fun o hok => ?_, fun hrunning e hread => ?_, Declaration.stage_of_mirrored⟩
  · obtain ⟨hstage, hunchanged⟩ | ⟨-, -, stored, hprep⟩ :=
      Declaration.stage_of_verdict (Declaration.answer_eq_outcome (hresult.symm.trans hok))
    · obtain ⟨old, -, hsame, hold⟩ := Declaration.exists_of_stage_kept hs.sound hstage
      obtain hread | hcapital := readCron_or_capitalKeyword hsame hold
      · exact .inl ⟨_, hread⟩
      · exact .inr ⟨hstage, hcapital, hunchanged⟩
    · obtain ⟨schedule, -, hread, -⟩ := Store.prepare_eq_answer_iff.1 hprep
      exact .inl ⟨schedule, hread⟩
  · rw [hresult]
    exact ⟨Store.invalidCron_of_readCron hread, Declaration.unread_verdict hs.sound hrunning hread⟩

/-- A job that was declared with the schedule `@daily` is declared again with `@nightly`, which is no keyword. -/
theorem unreadable_reported_again : ∃ (now : Instant) (s : Store) (d : Declaration) (e : EngineError)
    (run : Program.Run (Roster.World Store) Roster.Answer), s.Reached Trigger.Mirrors ∧
      Roster.standard.perform (Store.engine now) (.register d) ⟨.free, s⟩ = some run ∧
        run.result = .ok (.registered (.error (.refused d.key e))) ∧
          (s.stopped = false ∧ readCron d.cron = .error e) ∧
            ((∀ o, run.result = .ok (.registered (.ok o)) → (∃ schedule, readCron d.cron = .ok schedule) ∨
              d.stage s = .kept ∧ CapitalKeyword d.cron ∧ o.trigger = .unchanged) ∧
            (s.stopped = false → ∀ e, readCron d.cron = .error e →
              (∃ report, e = .invalidCron d.cron report) ∧ d.Unread s e run.result) ∧
            (s.Reached Trigger.Mirrors → d.stage s ≠ .blocked ∧ d.stage s ≠ .foreign)) := by
  let now : Instant := ⟨4133894300, 0, by decide, by decide, by decide, by decide⟩
  let d (cron : String) : Declaration :=
    { jobType := "backup", name := "nightly", group := "eu", cron, start := now, stop := none, data := none }
  let nonsense := d "@nightly"
  let e : EngineError := .invalidCron "@nightly" "@nightly\n^\n"
  let s := ((Roster.standard.program (.register (d "@daily"))).exec (Store.engine now) .fresh).2
  have hs : s.Reached Trigger.Mirrors := (Store.Reached.empty _).program (fun _ h => h) _ _
  have hfailure : failure? ((Roster.standard.program (.register nonsense)).exec (Store.engine now) s).1 =
      some (.refused nonsense.key e) := by decide +kernel
  obtain ⟨run, hrun, hresult, -⟩ := Roster.standard.perform_free (Store.engine now) (.register nonsense) s
  have hrunning : s.stopped = false ∧ readCron nonsense.cron = .error e := ⟨by decide +kernel, by decide +kernel⟩
  exact ⟨now, s, nonsense, e, run, hs, hrun, hresult.trans (eq_of_failure? hfailure), hrunning,
    unreadable_reported hs hrun⟩

/-- **Expressions that cannot be read and are not reported**, by an engine that takes calls: the keyword `@daily` is
declared again in capital letters; a job that is not durable has lost the trigger of another job that was under its key,
and is declared with data; a job is declared under whose key there is the trigger of another job. -/
theorem exists_unreported :
    (∃ (now : Instant) (s : Store) (d : Declaration) (o : Outcome)
      (run : Program.Run (Roster.World Store) Roster.Answer), s.Reached Trigger.Mirrors ∧ s.stopped = false ∧
        Roster.standard.perform (Store.engine now) (.register d) ⟨.free, s⟩ = some run ∧
          run.result = .ok (.registered (.ok o)) ∧ ∀ schedule, readCron d.cron ≠ .ok schedule) ∧
    (∃ (now : Instant) (s : Store) (d : Declaration) (run : Program.Run (Roster.World Store) Roster.Answer),
      s.Reached (fun _ => True) ∧ s.stopped = false ∧
        Roster.standard.perform (Store.engine now) (.register d) ⟨.free, s⟩ = some run ∧
          run.result = .ok (.registered (.error (.refused d.key (.notDurable d.key.display)))) ∧
            ∀ schedule, readCron d.cron ≠ .ok schedule) ∧
    ∃ (now : Instant) (s : Store) (d : Declaration) (run : Program.Run (Roster.World Store) Roster.Answer),
      s.Reached (fun _ => True) ∧ s.stopped = false ∧
        Roster.standard.perform (Store.engine now) (.register d) ⟨.free, s⟩ = some run ∧
          run.result = .ok (.registered (.error (.refused d.key (.jobMismatch d.key.display)))) ∧
            ∀ schedule, readCron d.cron ≠ .ok schedule := by
  let now : Instant := ⟨4133894300, 0, by decide, by decide, by decide, by decide⟩
  let d (cron : String) : Declaration :=
    { jobType := "ScheduleJob", name := "job_1", group := "jobgroup_1", cron, start := now, stop := none
      data := some ((∅ : Payload).insert "a" (.integer 1)) }
  let capital := d "@DAILY"
  let other : Key := ⟨"job_2", "jobgroup_1"⟩
  let borrowed : Trigger := { Trigger.forJob other "@daily" now none with key := capital.key }
  let after (calls : List Call) : Store := calls.foldl (fun s c => (s.serve now c).state) .fresh
  have hafter (calls : List Call) : (after calls).Reached fun _ => True := by
    refine List.foldlRecOn calls _ (.empty _) fun s hs c _ => ?_
    exact hs.call now c c.passes_any
  have hcron : ∀ schedule, readCron capital.cron ≠ .ok schedule :=
    CapitalKeyword.not_readable (by decide +kernel)
  refine ⟨?_, ?_, ?_⟩
  · let s := ((Roster.standard.program (.register (d "@daily"))).exec (Store.engine now) .fresh).2
    have hs : s.Reached Trigger.Mirrors := (Store.Reached.empty _).program (fun _ h => h) _ _
    have hdone : (outcome? ((Roster.standard.program (.register capital)).exec (Store.engine now) s).1).isSome := by
      decide +kernel
    obtain ⟨o, ho⟩ := Option.isSome_iff_exists.1 hdone
    obtain ⟨run, hrun, hresult, -⟩ := Roster.standard.perform_free (Store.engine now) (.register capital) s
    exact ⟨now, s, capital, o, run, hs, by decide +kernel, hrun, hresult.trans (eq_of_outcome? ho), hcron⟩
  · let s := after [.addJob ⟨other, "ScheduleJob", ∅, true⟩ false, .schedule borrowed,
      .addJob ⟨capital.key, "ScheduleJob", ∅, false⟩ false, .deleteJob other]
    have hfailure : failure? ((Roster.standard.program (.register capital)).exec (Store.engine now) s).1 =
        some (.refused capital.key (.notDurable capital.key.display)) := by decide +kernel
    obtain ⟨run, hrun, hresult, -⟩ := Roster.standard.perform_free (Store.engine now) (.register capital) s
    exact ⟨now, s, capital, run, hafter _, by decide +kernel, hrun, hresult.trans (eq_of_failure? hfailure), hcron⟩
  · let s := after [.addJob ⟨other, "ScheduleJob", ∅, true⟩ false, .schedule { borrowed with cron := "@hourly" }]
    have hfailure : failure? ((Roster.standard.program (.register capital)).exec (Store.engine now) s).1 =
        some (.refused capital.key (.jobMismatch capital.key.display)) := by decide +kernel
    obtain ⟨run, hrun, hresult, -⟩ := Roster.standard.perform_free (Store.engine now) (.register capital) s
    exact ⟨now, s, capital, run, hafter _, by decide +kernel, hrun, hresult.trans (eq_of_failure? hfailure), hcron⟩

end Requests

end JobRoster
