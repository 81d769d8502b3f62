import JobRoster.Proofs.Cron.Series
import JobRoster.Proofs.Roster.Operations

/-!
# Next fire times

When a stored trigger fires next is found out in three ways: by the search through its schedule when it is stored, by
the same search when it has missed a fire time, and, if it is to fire at once then, as the time of the treatment itself.
The search ends with an instant of the schedule in the window of the trigger. The time of the treatment need not lie in
the window, nor on the schedule.

Main statements:

* `pending_after`: after any operations, a next fire time lies in the window, or it is a time at which missed fire times
  were treated, and not before the window. It can lie after the window (`exists_pending_past_stop`).
* `onSchedule_after`: if jobs are declared to rosters only, then next fire times are instants of the schedules in the
  windows, and no trigger is ever due because it has missed a fire time.
* `next_keeps_after`: a trigger that waits when it has missed a fire time keeps to the list of its fire times, which has
  been made by one search after another.
-/

namespace JobRoster

/-- **An instant lies in the window of a trigger.** -/
def Trigger.Admits (t : Trigger) (i : Instant) : Prop := t.start ≤ i ∧ ∀ last ∈ t.stop, i ≤ last

instance (t : Trigger) (i : Instant) : Decidable (t.Admits i) := inferInstanceAs (Decidable (_ ∧ _))

/-! ### Windows -/

/-- **When a stored trigger fires next** lies in its window; or, if it fires at once when it has missed a fire time, it
is one of some times, and not before the window. -/
def Stored.Pending (treated : Instant → Prop) (stored : Stored) : Prop :=
  ∀ i ∈ stored.next, stored.trigger.Admits i ∨
    stored.trigger.policy = .fireOnceNow ∧ stored.trigger.start ≤ i ∧ treated i

namespace Stored

variable {now cutoff : Instant} {t : Trigger} {old new stored : Stored} {treated : Instant → Prop}

theorem pending_of_prepare (h : Store.prepare now t = .answer stored) : stored.Pending treated := by
  obtain ⟨schedule, next, -, hfirst, rfl⟩ := Store.prepare_eq_answer_iff.1 h
  rintro i ⟨⟩
  exact .inl (Cron.Schedule.within_of_firstFire hfirst)

theorem Pending.start_le (h : old.Pending treated) {i : Instant} (hi : old.next = some i) : old.trigger.start ≤ i := by
  obtain hadmits | ⟨-, hstart, -⟩ := h i hi
  · exact hadmits.1
  · exact hstart

/-- A trigger that is treated fires next in its window, or at the time of the treatment, which is later than the fire
time that it has missed. -/
theorem Pending.treat (h : old.Pending treated) (hcutoff : cutoff ≤ now) (hnow : treated now)
    (hnew : Store.Treated now cutoff old new) : new.Pending treated := by
  cases hnew with
  | skips _ _ _ hfirst =>
    rintro i rfl
    exact .inl (Cron.Schedule.within_of_firstFire hfirst)
  | @due missed hmissed hlate hpolicy =>
    rintro i ⟨⟩
    have hmissed : old.trigger.start ≤ missed := h.start_le hmissed
    have hlate : missed ≤ now := Instant.le_trans (Instant.le_of_lt hlate) hcutoff
    exact .inr ⟨hpolicy, Instant.le_trans hmissed hlate, hnow⟩

end Stored

namespace Store

variable {s : Store} {treated : Instant → Prop}

/-- Fire times count as missed only when they are past, and when triggers fire next is as it should be. -/
structure Punctual (treated : Instant → Prop) (s : Store) : Prop where
  /-- The threshold is not negative. -/
  threshold : 0 ≤ s.threshold
  /-- Next fire times are in windows, or among the given times. -/
  pending : s.Every (Stored.Pending treated)

theorem Punctual.call (hs : s.Punctual treated) (now : Instant) (c : Call) :
    (s.serve now c).state.Punctual treated where
  threshold := by
    rw [serve_threshold]
    exact hs.threshold
  pending := (serve_change now c s).every c.passes_any (fun _ _ _ => Stored.pending_of_prepare) hs.pending

theorem Punctual.applyMisfires (hs : s.Punctual treated) {now : Instant} (hnow : treated now) :
    (s.applyMisfires now).state.Punctual treated where
  threshold := by
    rw [applyMisfires_threshold]
    exact hs.threshold
  pending := every_applyMisfires (fun _ hcutoff _ _ hnew hold =>
    hold.treat (Instant.sub_le hs.threshold hcutoff) hnow hnew) hs.pending

theorem Punctual.run (hs : s.Punctual treated) {op : Operation} (hop : ∀ now, op = .applyMisfires now → treated now) :
    (op.run s).Punctual treated := by
  cases op with
  | call c now => exact hs.call now c
  | request r q now => exact Program.exec_keeps (I := Punctual treated) (fun c _ hs => hs.call now c) (r.program q) hs
  | applyMisfires now => exact hs.applyMisfires (hop now rfl)
  | clear => exact ⟨hs.threshold, every_of_eq_empty rfl⟩
  | shutDown => exact ⟨hs.threshold, hs.pending⟩

/-- **When triggers fire next after any operations**, where fire times count as missed when they are past: in their
windows; or, if they fire at once when they have missed a fire time, at a time at which missed fire times were treated,
and not before the window. -/
theorem pending_after {threshold : Int} (hthreshold : 0 ≤ threshold) (ops : List Operation) :
    ((empty threshold).after ops).Every (Stored.Pending fun now => .applyMisfires now ∈ ops) := by
  refine (after_induction (I := Punctual fun now => .applyMisfires now ∈ ops) ?_
    ⟨hthreshold, every_of_eq_empty rfl⟩).pending
  intro op hop s hs
  exact hs.run fun now h => h ▸ hop

/-- Two jobs get triggers, one of them with a window that ends; one trigger is to fire at once when it has missed a fire
time, the other one is not. Missed fire times are treated twice. -/
theorem pending_after_treatments : ∃ (threshold : Int) (ops : List Operation) (now : Instant), 0 ≤ threshold ∧
    (((empty threshold).after ops).nextFire ⟨"nightly", "eu"⟩ = some now ∧
      ((empty threshold).after ops).nextFire ⟨"mirror", "eu"⟩ = none) ∧
        ((empty threshold).after ops).Every (Stored.Pending fun now => .applyMisfires now ∈ ops) := by
  let now : Instant := ⟨4133894300, 0, by decide, by decide, by decide, by decide⟩
  let later : Instant := ⟨4133980700, 0, by decide, by decide, by decide, by decide⟩
  let nightly : Key := ⟨"nightly", "eu"⟩
  let mirror : Key := ⟨"mirror", "eu"⟩
  let ops : List Operation :=
    [.call (.addJob ⟨nightly, "backup", ∅, true⟩ false) now, .call (.addJob ⟨mirror, "backup", ∅, true⟩ false) now,
      .call (.schedule { Trigger.forJob nightly "@hourly" now none with policy := .fireOnceNow }) now,
      .call (.schedule (.forJob mirror "@hourly" now (some later))) now, .applyMisfires now, .applyMisfires later]
  exact ⟨0, ops, later, by decide, by decide +kernel, pending_after (by decide) ops⟩

/-- **A next fire time after the window**: a trigger with a window of half an hour that is to fire at once when it has
missed a fire time is treated a year later. -/
theorem exists_pending_past_stop : ∃ (threshold : Int) (ops : List Operation) (k : Key) (stored : Stored) (i : Instant),
    0 ≤ threshold ∧ ((empty threshold).after ops).triggers[k]? = some stored ∧ stored.next = some i ∧
      ¬ stored.trigger.Admits i := by
  let now : Instant := ⟨1700000000, 0, by decide, by decide, by decide, by decide⟩
  let start : Instant := ⟨2208988800, 0, by decide, by decide, by decide, by decide⟩
  let stop : Instant := ⟨2208990600, 0, by decide, by decide, by decide, by decide⟩
  let later : Instant := ⟨2240611200, 0, by decide, by decide, by decide, by decide⟩
  let k : Key := ⟨"job_1", "jobgroup_1"⟩
  let t : Trigger := { Trigger.forJob k "0 0 * * * ?" start (some stop) with policy := .fireOnceNow }
  let ops : List Operation :=
    [.call (.addJob ⟨k, "ScheduleJob", ∅, true⟩ false) now, .call (.schedule t) now, .applyMisfires later]
  have hread : ((fresh.after ops).triggers[k]?).map (fun stored => (stored.trigger, stored.next)) =
    some (t, some later) := by decide +kernel
  obtain ⟨stored, hstored, hpair⟩ := Option.map_eq_some_iff.1 hread
  obtain ⟨htrigger, hnext⟩ := Prod.ext_iff.1 hpair
  refine ⟨standardThreshold, ops, k, stored, later, by decide, hstored, hnext, ?_⟩
  rw [show stored.trigger = t from htrigger]
  decide

end Store

/-! ### Schedules -/

/-- **A stored trigger keeps to its schedule**: it waits when it has missed a fire time, and when it fires next is an
instant of its schedule in its window. -/
structure Stored.OnSchedule (stored : Stored) : Prop where
  /-- The trigger waits for its next fire time when it has missed one. -/
  policy : stored.trigger.policy = .doNothing
  /-- The stored schedule is that of the cron expression. -/
  schedule : readCron stored.trigger.cron = .ok stored.schedule
  /-- It fires next at an instant of the schedule in the window, if ever. -/
  next : ∀ i ∈ stored.next, i ∈ stored.schedule ∧ stored.trigger.Admits i

/-- A trigger is the one that is wanted by a declaration. -/
def Trigger.Declared (t : Trigger) : Prop := ∃ d : Declaration, t = d.trigger

/-- The search through the schedule of a trigger ends with an instant of the schedule in the window of the trigger. -/
theorem Trigger.mem_of_firstFire {t : Trigger} {schedule : Cron.Schedule} (hread : readCron t.cron = .ok schedule)
    {now i : Instant} (h : schedule.firstFire now t.start t.stop = .ok (some i)) : i ∈ schedule ∧ t.Admits i :=
  ⟨(Cron.Schedule.ranged_of_readCron hread).mem_of_firstFire h, Cron.Schedule.within_of_firstFire h⟩

namespace Stored

variable {now cutoff : Instant} {t : Trigger} {old new stored : Stored}

theorem onSchedule_of_prepare (ht : t.Declared) (h : Store.prepare now t = .answer stored) : stored.OnSchedule := by
  obtain ⟨d, rfl⟩ := ht
  obtain ⟨schedule, next, hread, hfirst, rfl⟩ := Store.prepare_eq_answer_iff.1 h
  refine ⟨rfl, hread, ?_⟩
  rintro i ⟨⟩
  exact Trigger.mem_of_firstFire hread hfirst

theorem OnSchedule.treat (h : old.OnSchedule) (hnew : Store.Treated now cutoff old new) : new.OnSchedule := by
  cases hnew with
  | skips _ _ _ hfirst =>
    refine ⟨h.policy, h.schedule, ?_⟩
    rintro i rfl
    exact Trigger.mem_of_firstFire h.schedule hfirst
  | due _ _ hpolicy => cases h.policy.symm.trans hpolicy

end Stored

namespace Store

variable {s : Store} {ops : List Operation}

/-- Where all stored triggers keep to their schedules, none is due because it has missed a fire time. -/
theorem Every.applyMisfires_reply (hs : s.Every Stored.OnSchedule) (now : Instant) :
    (s.applyMisfires now).reply = .answer [] ∨ ∃ o, (s.applyMisfires now).reply = .crashed (.overflow o) := by
  have hnone (cutoff : Instant) : (s.triggers.toList.filter fun entry => entry.2.isDue cutoff) = [] := by
    rw [List.filter_eq_nil_iff]
    intro entry hentry
    rw [Std.ExtTreeMap.mem_toList_iff_getElem?_eq_some] at hentry
    simp [Stored.isDue, (hs hentry).policy]
  obtain ⟨cutoff, hreply⟩ | hcrashed := s.applyMisfires_reply now
  · left
    rw [hreply, hnone, List.map_nil]
  · exact .inr hcrashed

/-- By routine operations only declared triggers are passed. -/
theorem reached_declared_after (threshold : Int) (hops : ∀ op ∈ ops, op.Routine) :
    ((empty threshold).after ops).Reached Trigger.Declared := by
  refine after_induction (fun op hop s hs => ?_) (.empty threshold)
  cases op with
  | request r q now => exact hs.program_of_declared (fun d _ => ⟨d, rfl⟩) r
  | applyMisfires now => exact hs.applyMisfires now
  | _ => exact (hops _ hop).elim

/-- **If jobs are declared to rosters only**, then triggers fire next at instants of their schedules in their windows,
and none is ever due because it has missed a fire time, whatever the threshold is. -/
theorem onSchedule_after (threshold : Int) (hops : ∀ op ∈ ops, op.Routine) :
    ((empty threshold).after ops).Every Stored.OnSchedule ∧ ∀ now,
      (((empty threshold).after ops).applyMisfires now).reply = .answer [] ∨
        ∃ o, (((empty threshold).after ops).applyMisfires now).reply = .crashed (.overflow o) := by
  have hevery : ((empty threshold).after ops).Every Stored.OnSchedule :=
    (reached_declared_after threshold hops).every (fun _ _ _ => Stored.onSchedule_of_prepare)
      fun _ _ _ _ hnew hold => hold.treat hnew
  exact ⟨hevery, hevery.applyMisfires_reply⟩

/-- A job is declared twice with different expressions, a second one with a window that ends. Missed fire times are
treated in between, a day later and then at an earlier time, and with a threshold by which fire times to come count as
missed. -/
theorem onSchedule_after_jumps : ∃ (threshold : Int) (ops : List Operation), threshold < 0 ∧ (∀ op ∈ ops, op.Routine) ∧
    ((empty threshold).after ops).triggers.size = 2 ∧ ((empty threshold).after ops).Every Stored.OnSchedule ∧ ∀ now,
      (((empty threshold).after ops).applyMisfires now).reply = .answer [] ∨
        ∃ o, (((empty threshold).after ops).applyMisfires now).reply = .crashed (.overflow o) := by
  let now : Instant := ⟨4133894300, 0, by decide, by decide, by decide, by decide⟩
  let later : Instant := ⟨4133980700, 0, by decide, by decide, by decide, by decide⟩
  let daily : Declaration :=
    { jobType := "backup", name := "nightly", group := "eu", cron := "@daily", start := now, stop := none
      data := none }
  let ops : List Operation :=
    [.request .standard (.register daily) now, .applyMisfires later,
      .request .standard (.register { daily with cron := "@hourly" }) later,
      .request .standard (.register { daily with name := "mirror", stop := some later }) now, .applyMisfires now]
  have hops : ∀ op ∈ ops, op.Routine := by simp [ops, Operation.Routine]
  exact ⟨-Instant.perSecond, ops, by decide, hops, by decide +kernel, onSchedule_after _ hops⟩

end Store

/-! ### Fire times that are listed -/

/-- **A list of all fire times** of a trigger from an instant on. -/
structure Trigger.Timetable (t : Trigger) (after : Instant) (fires : List (Option Instant)) : Prop where
  /-- They are listed one after another, for the schedule of the cron expression and the window. -/
  listed : ∃ schedule n, readCron t.cron = .ok schedule ∧ schedule.fireTimes t.start t.stop n after = .ok fires
  /-- The first search is in reach. -/
  inReach : Cron.Schedule.InReach after t.start
  /-- None is left out at the end. -/
  all : none ∈ fires

section Timetable

variable {t : Trigger} {after now cutoff : Instant} {fires : List (Option Instant)} {times : Instant → Prop}

/-- A search for a fire time of a trigger ends with the first entry of the list that is not over. -/
theorem Trigger.Timetable.find?_eq (h : t.Timetable after fires) {schedule : Cron.Schedule}
    (hread : readCron t.cron = .ok schedule) (hle : after ≤ now) {r : Option Instant}
    (hr : schedule.firstFire now t.start t.stop = .ok r) : fires.find? (fun fire => fire.all (now < ·)) = some r := by
  obtain ⟨schedule', n, hread', hfires⟩ := h.listed
  cases hread.symm.trans hread'
  exact (Cron.Schedule.ranged_of_readCron hread).find?_fireTimes h.inReach hfires h.all hle hr

/-- What is stored of a trigger has the schedule of its expression, and fires next at the first of some fire times that
was not over at one of some times. -/
def Stored.Keeps (t : Trigger) (fires : List (Option Instant)) (times : Instant → Prop) (stored : Stored) : Prop :=
  stored.trigger = t → readCron t.cron = .ok stored.schedule ∧
    ∃ now, times now ∧ fires.find? (fun fire => fire.all (now < ·)) = some stored.next

theorem Trigger.Timetable.keeps_of_prepare (h : t.Timetable after fires) (hle : after ≤ now) (hnow : times now)
    {t' : Trigger} {stored : Stored} (hstored : Store.prepare now t' = .answer stored) : stored.Keeps t fires times := by
  obtain ⟨schedule, next, hread, hfirst, rfl⟩ := Store.prepare_eq_answer_iff.1 hstored
  rintro rfl
  exact ⟨hread, now, hnow, h.find?_eq hread hle hfirst⟩

theorem Trigger.Timetable.keeps_of_treated (h : t.Timetable after fires) (hle : after ≤ now) (hnow : times now)
    (hpolicy : t.policy = .doNothing) {old new : Stored} (hnew : Store.Treated now cutoff old new)
    (hold : old.Keeps t fires times) : new.Keeps t fires times := by
  cases hnew with
  | skips _ _ _ hfirst =>
    rintro rfl
    obtain ⟨hread, -⟩ := hold rfl
    exact ⟨hread, now, hnow, h.find?_eq hread hle hfirst⟩
  | due _ _ hdue =>
    rintro rfl
    cases hpolicy.symm.trans hdue

/-- The time at which something is done, if it matters. -/
def Operation.time? : Operation → Option Instant
  | call _ now | request _ _ now | applyMisfires now => some now
  | clear | shutDown => none

namespace Store

variable {s : Store} {ops : List Operation}

/-- One call at a time that is not before the one from which fire times are listed. -/
theorem every_keeps_serve (ht : t.Timetable after fires) (hle : after ≤ now) (hnow : times now) (c : Call)
    (hs : s.Every (Stored.Keeps t fires times)) : (s.serve now c).state.Every (Stored.Keeps t fires times) :=
  (serve_change now c s).every c.passes_any (fun _ _ _ => ht.keeps_of_prepare hle hnow) hs

/-- One operation at such a time. -/
theorem every_keeps_run (ht : t.Timetable after fires) (hpolicy : t.policy = .doNothing) {op : Operation}
    (hop : ∀ now ∈ op.time?, after ≤ now ∧ times now) (hs : s.Every (Stored.Keeps t fires times)) :
    (op.run s).Every (Stored.Keeps t fires times) := by
  cases op with
  | call c now =>
    obtain ⟨hle, hnow⟩ := hop now rfl
    exact every_keeps_serve ht hle hnow c hs
  | request r q now =>
    obtain ⟨hle, hnow⟩ := hop now rfl
    exact Program.exec_keeps (I := Every (Stored.Keeps t fires times))
      (fun c _ hs => every_keeps_serve ht hle hnow c hs) (r.program q) hs
  | applyMisfires now =>
    obtain ⟨hle, hnow⟩ := hop now rfl
    exact every_applyMisfires (fun _ _ _ _ hnew hold => ht.keeps_of_treated hle hnow hpolicy hnew hold) hs
  | clear => exact every_of_eq_empty rfl
  | shutDown => exact hs

/-- **A trigger that waits when it has missed a fire time keeps to the list of its fire times**, after any operations
at times that are not before the one from which they are listed: it fires next at the first of them that was not over at
the time of one of the operations. -/
theorem next_keeps_after (threshold : Int) (ht : t.Timetable after fires) (hpolicy : t.policy = .doNothing)
    (hops : ∀ op ∈ ops, ∀ now ∈ op.time?, after ≤ now) :
    ((empty threshold).after ops).Every fun stored => stored.trigger = t →
      ∃ op ∈ ops, ∃ now ∈ op.time?, fires.find? (fun fire => fire.all (now < ·)) = some stored.next := by
  have hkeeps : ((empty threshold).after ops).Every
      (Stored.Keeps t fires fun now => ∃ op ∈ ops, now ∈ op.time?) :=
    after_induction (I := Every _) (fun op hop _ hs =>
      every_keeps_run ht hpolicy (fun now hnow => ⟨hops op hop now hnow, op, hop, hnow⟩) hs) (every_of_eq_empty rfl)
  intro k stored hk htrigger
  obtain ⟨-, now, ⟨op, hop, hnow⟩, hfind⟩ := hkeeps hk htrigger
  exact ⟨op, hop, now, hnow, hfind⟩

end Store

end Timetable

end JobRoster
