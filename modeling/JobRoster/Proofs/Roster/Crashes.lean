import JobRoster.Proofs.Cron.LetterCase
import JobRoster.Proofs.Cron.Slots
import JobRoster.Proofs.Roster.Reconciliation

/-!
# Searches that leave the range of instants

The search for the first fire time of a trigger goes back a second from the beginning of its window, and on for a second
from the later of that and the present. Neither step is checked against the range of instants, and both can leave it
(`firstFire_eq_error_iff`): the first one from a window that begins in the first second of all, the second one in the
last second of all, or from a window that begins in the leap second at its end. The engine crashes then, over the calls
that prepare a trigger and over no others (`serve_eq_crashed_iff`).

Main statements:

* `register_crashes_iff`: a declaration is carried out or an error is told, from every memory that is reached, unless its
  expression can be read and the search leaves the range; then the job has been brought in line, and no trigger has
  changed. Such a declaration exists (`exists_crash`).
* `registered_of_inside`: that leaves out all windows but those that begin at the edges of the range.
-/

namespace JobRoster

/-! ### A second back and forth -/

namespace Instant

variable {t : Instant} {o : Overflow} {n : Int}

theorem sub_eq_error_iff :
    t.sub n = .error o ↔ o = .difference ∧ ¬ InRange (t.shift (-n)).1 (t.shift (-n)).2 := by
  rw [← of?_eq_none_iff, sub]
  split
  · next hsome => simp [hsome]
  · next hnone => simp [hnone, eq_comm]

theorem add_eq_error_iff : t.add n = .error o ↔ o = .sum ∧ ¬ InRange (t.shift n).1 (t.shift n).2 := by
  rw [← of?_eq_none_iff, add]
  split
  · next hsome => simp [hsome]
  · next hnone => simp [hnone, eq_comm]

/-- A second can be taken from all instants but those of the first second. -/
theorem sub_perSecond_eq_error_iff : t.sub perSecond = .error o ↔ o = .difference ∧ t.second = first.second := by
  have hfirst := t.first_le
  have hlast := t.le_last
  have hlt := t.nanos_lt
  have hleap := t.leap_at_end
  rw [sub_eq_error_iff, shift_neg_perSecond]
  refine and_congr_right fun _ => ?_
  unfold InRange first
  split
  · next h =>
    have hn : perSecond ≤ t.nanos := isLeap_iff.1 h
    unfold perSecond at *
    dsimp only
    omega
  · next h =>
    have hn : ¬ perSecond ≤ t.nanos := mt isLeap_iff.2 h
    unfold perSecond at *
    dsimp only
    omega

theorem add_perSecond_eq_error_iff : t.add perSecond = .error o ↔ o = .sum ∧ t.second = last.second := by
  have hlast : t.second ≤ last.second := t.le_last
  have hok := t.exists_add_perSecond_iff
  constructor
  · intro h
    refine ⟨(add_eq_error_iff.1 h).1, Int.le_antisymm hlast (Int.not_lt.1 fun hlt => ?_)⟩
    obtain ⟨u, hu⟩ := hok.2 hlt
    cases h.symm.trans hu
  · rintro ⟨rfl, hlast⟩
    cases h : t.add perSecond with
    | error o =>
      obtain ⟨rfl, -⟩ := add_eq_error_iff.1 h
      rfl
    | ok u => exact absurd (hok.1 ⟨u, h⟩) (by omega)

end Instant

/-! ### The search -/

/-- **A search for fire times leaves the range of instants**, given the present and the beginning of the window. -/
inductive Overflows (now start : Instant) : Overflow → Prop where
  /-- The window begins in the first second of all, so that there is none before it. -/
  | difference : start.second = Instant.first.second → Overflows now start .difference
  /-- There is no second after the present, or after that before the window. -/
  | sum : start.second ≠ Instant.first.second →
      now.second = Instant.last.second ∨ start.second = Instant.last.second ∧ start.isLeap = true →
        Overflows now start .sum

/-- Searches stay in range that are made before the last second of all, from windows that begin neither in the first
second of all nor in the leap second at the end. -/
theorem not_overflows {now start : Instant} (hnow : now.second ≠ Instant.last.second)
    (hfirst : start.second ≠ Instant.first.second) (hlast : start.second = Instant.last.second → start.isLeap = false)
    (o : Overflow) : ¬ Overflows now start o := by
  intro h
  cases h with
  | difference h => exact hfirst h
  | sum _ h =>
    obtain h | ⟨hsecond, hleap⟩ := h
    · exact hnow h
    · exact Bool.false_ne_true ((hlast hsecond).symm.trans hleap)

/-- The second from which a search goes on is the last one of all in two cases. -/
theorem Instant.second_later_eq_last_iff {now start before : Instant} (hbefore : start.sub perSecond = .ok before) :
    (now.later before).second = last.second ↔
      now.second = last.second ∨ start.second = last.second ∧ start.isLeap = true := by
  have hnow : now.second ≤ last.second := now.le_last
  have hstart : start.second ≤ last.second := start.le_last
  rw [second_later, second_of_sub_perSecond hbefore]
  cases start.isLeap with
  | true =>
    simp only [if_true, and_true]
    omega
  | false =>
    simp only [Bool.false_eq_true, if_false, and_false, or_false]
    omega

/-- **The search for a fire time fails exactly where it leaves the range of instants**, whatever the schedule is. -/
theorem Cron.Schedule.firstFire_eq_error_iff {s : Schedule} {now start : Instant} {stop : Option Instant}
    {o : Overflow} : s.firstFire now start stop = .error o ↔ Overflows now start o := by
  unfold firstFire
  cases hbefore : start.sub Instant.perSecond with
  | error o' =>
    obtain ⟨rfl, hfirst⟩ := Instant.sub_perSecond_eq_error_iff.1 hbefore
    constructor
    · rintro ⟨⟩
      exact .difference hfirst
    · intro h
      cases h with
      | difference _ => rfl
      | sum hne _ => exact absurd hfirst hne
  | ok before =>
    have hfirst : start.second ≠ Instant.first.second := by
      intro h
      cases hbefore.symm.trans (Instant.sub_perSecond_eq_error_iff.2 ⟨rfl, h⟩)
    cases hnext : (now.later before).add Instant.perSecond with
    | error o' =>
      obtain ⟨rfl, hlast⟩ := Instant.add_perSecond_eq_error_iff.1 hnext
      rw [Instant.second_later_eq_last_iff hbefore] at hlast
      simp only [bind, Except.bind, hnext]
      constructor
      · rintro ⟨⟩
        exact .sum hfirst hlast
      · intro h
        cases h with
        | difference h => exact absurd h hfirst
        | sum _ _ => rfl
    | ok next =>
      have hlast : ¬ (now.later before).second = Instant.last.second := by
        intro h
        cases hnext.symm.trans (Instant.add_perSecond_eq_error_iff.2 ⟨rfl, h⟩)
      rw [Instant.second_later_eq_last_iff hbefore] at hlast
      simp only [bind, Except.bind, hnext]
      constructor
      · intro h
        split at h <;> cases h
      · intro h
        cases h with
        | difference h => exact absurd h hfirst
        | sum _ h => exact absurd h hlast

/-! ### Calls -/

namespace Store

variable {s : Store} {now : Instant} {c : Call} {t : Trigger} {crash : Crash} {allowed : Trigger → Prop}

/-- **A call comes to preparing a trigger.** -/
inductive Prepares (s : Store) : Call → Trigger → Prop where
  /-- It passes a new trigger of a job that is there. -/
  | schedule {t : Trigger} : s.stopped = false → t.jobKey ∈ s.jobs → t.key ∉ s.triggers → Prepares s (.schedule t) t
  /-- It passes a trigger to take the place of one of the same job. -/
  | reschedule {k : Key} {t : Trigger} {old : Stored} : s.stopped = false → s.triggers[k]? = some old →
      old.trigger.jobKey = t.jobKey → Prepares s (.reschedule k t) t

/-- **The engine crashes over a call exactly if it does over the trigger that the call comes to preparing.** -/
theorem serve_eq_crashed_iff :
    (s.serve now c).reply = .crashed crash ↔ ∃ t, s.Prepares c t ∧ prepare now t = .crashed crash := by
  unfold serve
  constructor
  · intro h
    split at h
    · cases h
    · next hrun =>
      rw [Bool.not_eq_true] at hrun
      cases c with
      | schedule t =>
        simp only [schedule] at h
        split_ifs at h with hjob hnew
        · cases h
        · cases h
        · refine ⟨t, .schedule hrun (by simpa using hjob) (by simpa using hnew), ?_⟩
          split at h <;> cases h
          assumption
      | reschedule k t =>
        simp only [reschedule] at h
        split at h
        · cases h
        · next old hold =>
          split_ifs at h with hjob
          · cases h
          · refine ⟨t, .reschedule hrun hold (not_not.1 hjob), ?_⟩
            split at h <;> cases h
            assumption
      | addJob job replace =>
        simp only [addJob] at h
        split_ifs at h <;> cases h
      | _ => cases h
  · rintro ⟨t, hprepares, hcrash⟩
    cases hprepares with
    | schedule hrun hjob hnew =>
      rw [← Std.ExtTreeMap.contains_iff_mem] at hjob
      simp [schedule, hrun, hjob, hnew, hcrash]
    | reschedule hrun hold hjob =>
      simp [reschedule, hrun, hold, hjob, hcrash]

/-- The engine crashes over a trigger exactly if its expression can be read and the search for its first fire time
leaves the range of instants. -/
theorem prepare_eq_crashed_iff_overflows : prepare now t = .crashed crash ↔
    (∃ schedule, readCron t.cron = .ok schedule) ∧ ∃ o, Overflows now t.start o ∧ crash = .overflow o := by
  simp only [prepare_eq_crashed_iff, Cron.Schedule.firstFire_eq_error_iff]
  constructor
  · rintro ⟨schedule, o, hread, h⟩
    exact ⟨⟨schedule, hread⟩, o, h⟩
  · rintro ⟨⟨schedule, hread⟩, o, h⟩
    exact ⟨schedule, o, hread, h⟩

end Store

/-! ### Requests -/

namespace Declaration

variable {d : Declaration} {s : Store} {now : Instant} {stage : Stage}

/-- **Carrying out a declaration crashes the engine**: it comes to the declared trigger, whose expression can be read,
and the search for the first fire time leaves the range of instants. -/
structure Crashes (d : Declaration) (now : Instant) (s : Store) (o : Overflow) : Prop where
  /-- No trigger is kept, and nothing is refused before. -/
  stage : d.stage s = .prepared
  /-- The expression can be read. -/
  readable : ∃ schedule, readCron d.cron = .ok schedule
  /-- The search leaves the range. -/
  overflows : Overflows now d.start o

theorem crashes_iff {o : Overflow} :
    d.Crashes now s o ↔ d.stage s = .prepared ∧ Store.prepare now d.trigger = .crashed (.overflow o) := by
  rw [Store.prepare_eq_crashed_iff_overflows]
  constructor
  · rintro ⟨hstage, hreadable, hoverflows⟩
    exact ⟨hstage, hreadable, o, hoverflows, rfl⟩
  · rintro ⟨hstage, hreadable, o', hoverflows, ⟨⟩⟩
    exact ⟨hstage, hreadable, hoverflows⟩

/-- What a declaration ends with in a crash: only its job has been brought in line. -/
theorem Crashes.verdict {o : Overflow} (h : d.Crashes now s o) :
    d.verdict now s (d.stage s) = (.error (.overflow o), d.withJob s) := by
  obtain ⟨hstage, hprep⟩ := crashes_iff.1 h
  rw [hstage, Declaration.verdict, Store.putPrepared, hprep]

/-- A declaration over which the engine does not crash is answered. -/
theorem exists_answer_of_not_crashes (h : ∀ o, ¬ d.Crashes now s o) :
    ∃ answer, d.answer (d.verdict now s (d.stage s)).1 = .ok (.registered answer) := by
  cases hstage : d.stage s with
  | stopped | blocked | kept | foreign => exact ⟨_, rfl⟩
  | prepared =>
    simp only [Declaration.verdict, Store.putPrepared]
    cases hprep : Store.prepare now d.trigger with
    | answer stored => exact ⟨_, rfl⟩
    | refused e => exact ⟨_, rfl⟩
    | crashed crash =>
      obtain ⟨-, o, -, rfl⟩ := Store.prepare_eq_crashed_iff_overflows.1 hprep
      exact absurd (crashes_iff.2 ⟨hstage, hprep⟩) (h o)

end Declaration

section Requests

variable {s : Store} {now : Instant} {allowed : Trigger → Prop}

/-- **Declarations are answered** that are made before the last second of all, with windows that begin neither in the
first second of all nor in the leap second at the end. -/
theorem registered_of_inside (hs : s.Reached allowed) (hnow : now.second ≠ Instant.last.second) (r : Roster)
    {d : Declaration} (hfirst : d.start.second ≠ Instant.first.second)
    (hlast : d.start.second = Instant.last.second → d.start.isLeap = false) :
    ∃ run answer, r.perform (Store.engine now) (.register d) ⟨.free, s⟩ = some run ∧
      run.result = .ok (.registered answer) := by
  obtain ⟨run, hrun, -, -⟩ := r.perform_free (Store.engine now) (.register d) s
  have hcrashes (o : Overflow) : ¬ d.Crashes now s o := fun h => not_overflows hnow hfirst hlast o h.overflows
  obtain ⟨answer, hanswer⟩ := Declaration.exists_answer_of_not_crashes hcrashes
  exact ⟨run, answer, hrun, (verdict_of_register hs.sound hrun).1.trans hanswer⟩

/-- **Where the engine crashes**, from every memory that is reached: over a call exactly if that comes to preparing a
trigger whose expression can be read and the search for its first fire time leaves the range of instants, and over a
request to carry out a declaration exactly if that comes to such a call, when the job has been brought in line and no
trigger has changed. Any other such request is answered. -/
theorem register_crashes_iff (hs : s.Reached allowed) :
    (∀ (c : Call) (crash : Crash), (s.serve now c).reply = .crashed crash ↔ ∃ t o, s.Prepares c t ∧
      (∃ schedule, readCron t.cron = .ok schedule) ∧ Overflows now t.start o ∧ crash = .overflow o) ∧
    ∀ (r : Roster) (d : Declaration), ∃ run,
      r.perform (Store.engine now) (.register d) ⟨.free, s⟩ = some run ∧
        (∀ crash, run.result = .error crash ↔ ∃ o, d.Crashes now s o ∧ crash = .overflow o) ∧
        (∀ o, d.Crashes now s o → run.state.engine.jobs = (d.withJob s).jobs ∧
          run.state.engine.triggers = s.triggers) ∧
        ((∀ o, ¬ d.Crashes now s o) → ∃ answer, run.result = .ok (.registered answer)) := by
  refine ⟨fun c crash => ?_, fun r d => ?_⟩
  · rw [Store.serve_eq_crashed_iff]
    simp only [Store.prepare_eq_crashed_iff_overflows]
    constructor
    · rintro ⟨t, hprepares, hread, o, hoverflows⟩
      exact ⟨t, o, hprepares, hread, hoverflows⟩
    · rintro ⟨t, o, hprepares, hread, hoverflows⟩
      exact ⟨t, hprepares, hread, o, hoverflows⟩
  · obtain ⟨run, hrun, -, -⟩ := r.perform_free (Store.engine now) (.register d) s
    obtain ⟨hresult, counters, hstate⟩ := verdict_of_register hs.sound hrun
    have hcrashes {o : Overflow} (h : d.Crashes now s o) : run.result = .error (.overflow o) := by
      rw [hresult, h.verdict]
      rfl
    have hanswer (h : ∀ o, ¬ d.Crashes now s o) : ∃ answer, run.result = .ok (.registered answer) := by
      rw [hresult]
      exact Declaration.exists_answer_of_not_crashes h
    refine ⟨run, hrun, fun crash => ⟨fun hcrash => ?_, ?_⟩, fun o h => ?_, hanswer⟩
    · by_contra hnone
      obtain ⟨answer, hok⟩ := hanswer fun o h => hnone ⟨o, h, by cases hcrash.symm.trans (hcrashes h); rfl⟩
      cases hcrash.symm.trans hok
    · rintro ⟨o, h, rfl⟩
      exact hcrashes h
    · rw [hstate, h.verdict]
      exact ⟨rfl, rfl⟩

/-- A job that was declared with the schedule `@daily` is declared again with another one, with data, and with a window
that begins in the leap second at the end of all: it takes over the data, and the engine crashes. -/
theorem register_crashes_iff_at_the_end : ∃ (now : Instant) (s : Store) (d : Declaration)
    (run : Program.Run (Roster.World Store) Roster.Answer), s.Reached Trigger.Mirrors ∧ d.Crashes now s .sum ∧
      Roster.standard.perform (Store.engine now) (.register d) ⟨.free, s⟩ = some run ∧
        run.result = .error (.overflow .sum) ∧
          run.state.engine.jobs = (d.withJob s).jobs ∧ run.state.engine.triggers = s.triggers := by
  let now : Instant := ⟨4133894300, 0, by decide, by decide, by decide, by decide⟩
  let d (cron : String) (start : Instant) (data : Option Payload) : Declaration :=
    { jobType := "backup", name := "nightly", group := "eu", cron, start, stop := none, data }
  let again := d "0 0 * * * ?" Instant.last (some ((∅ : Payload).insert "retries" (.integer 3)))
  let s := ((Roster.standard.program (.register (d "@daily" now none))).exec (Store.engine now) .fresh).2
  have hs : s.Reached Trigger.Mirrors := (Store.Reached.empty _).program (fun _ h => h) _ _
  have hcrashes : again.Crashes now s .sum := by
    refine ⟨by decide +kernel, Cron.exists_eq_ok_iff.2 (by decide +kernel), .sum (by decide) (.inr (by decide))⟩
  obtain ⟨run, hrun, hcrash, hleft, -⟩ := (register_crashes_iff hs).2 .standard again
  exact ⟨now, s, again, run, hs, hcrashes, hrun, (hcrash _).2 ⟨_, hcrashes, rfl⟩, hleft _ hcrashes⟩

/-- **A declaration over which the engine crashes**: the first one that is made, with a window that begins with the first
moment of all. The job is made, and its trigger is not. -/
theorem exists_crash : ∃ (now : Instant) (d : Declaration) (run : Program.Run (Roster.World Store) Roster.Answer),
    Store.fresh.Reached Trigger.Mirrors ∧ d.start = Instant.first ∧
      Roster.standard.perform (Store.engine now) (.register d) ⟨.free, .fresh⟩ = some run ∧
        run.result = .error (.overflow .difference) ∧ d.key ∈ run.state.engine.jobs ∧
          d.key ∉ run.state.engine.triggers := by
  let now : Instant := ⟨1700000000, 0, by decide, by decide, by decide, by decide⟩
  let d : Declaration :=
    { jobType := "ScheduleJob", name := "job_1", group := "jobgroup_1", cron := "0 0 0 1 1 ? 2040"
      start := Instant.first, stop := none, data := none }
  have hs : Store.fresh.Reached Trigger.Mirrors := .empty _
  have hcrashes : d.Crashes now .fresh .difference :=
    ⟨by decide +kernel, Cron.exists_eq_ok_iff.2 (by decide +kernel), .difference rfl⟩
  obtain ⟨run, hrun, -, -⟩ := Roster.standard.perform_free (Store.engine now) (.register d) .fresh
  obtain ⟨hresult, counters, hstate⟩ := verdict_of_register hs.sound hrun
  rw [hcrashes.verdict] at hresult hstate
  refine ⟨now, d, run, hs, rfl, hrun, hresult, ?_, ?_⟩
  · rw [hstate]
    exact Std.ExtTreeMap.mem_insert_self
  · rw [hstate]
    exact Std.ExtTreeMap.not_mem_empty

end Requests

end JobRoster
