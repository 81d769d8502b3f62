import JobRoster.Engine.Misfire
import Mathlib.Tactic.Common

/-!
# The tables of an engine in memory

What a call does to the tables of jobs and triggers, refusals and crashes included (`Change`): each kind of call that
changes anything is one case, with everything that the engine has checked before. What later modules say of all calls
goes through these cases.

Main statements:

* `serve_change`: a call changes the tables in one of these ways, and nothing else but the counters.
* `removeAll_jobs` and `removeAll_triggers`: what is left after a deletion, key by key.
-/

namespace JobRoster

/-! ### Tables -/

namespace Table

variable {α : Type} {t : Table α} {a k : Key} {v w : α}

theorem getElem?_insert_of_ne (h : a ≠ k) : (t.insert a v)[k]? = t[k]? := by
  simp [Std.ExtTreeMap.getElem?_insert, h]

theorem getElem?_erase_of_ne (h : a ≠ k) : (t.erase a)[k]? = t[k]? := by
  simp [Std.ExtTreeMap.getElem?_erase, h]

theorem getElem?_erase_eq_some_iff : (t.erase a)[k]? = some v ↔ a ≠ k ∧ t[k]? = some v := by
  by_cases h : a = k <;> simp [Std.ExtTreeMap.getElem?_erase, h]

/-- An entry of a table with one more entry is that one or an entry of the table. -/
theorem eq_or_of_getElem?_insert (h : (t.insert a v)[k]? = some w) : a = k ∧ v = w ∨ a ≠ k ∧ t[k]? = some w := by
  by_cases hak : a = k
  · subst hak
    rw [Std.ExtTreeMap.getElem?_insert_self, Option.some.injEq] at h
    exact .inl ⟨rfl, h⟩
  · rw [getElem?_insert_of_ne hak] at h
    exact .inr ⟨hak, h⟩

/-- Putting back what a table has already. -/
theorem insert_of_getElem? (h : t[a]? = some v) : t.insert a v = t := by
  ext k : 1
  by_cases hak : a = k
  · rw [← hak, Std.ExtTreeMap.getElem?_insert_self, h]
  · rw [getElem?_insert_of_ne hak]

/-- What is taken away makes no difference if it is put back. -/
theorem insert_erase (t : Table α) (a : Key) (v : α) : (t.erase a).insert a v = t.insert a v := by
  ext k : 1
  by_cases hak : a = k <;> simp [Std.ExtTreeMap.getElem?_insert, Std.ExtTreeMap.getElem?_erase, hak]

theorem contains_eq_false_iff : t.contains a = false ↔ t[a]? = none := by
  rw [Std.ExtTreeMap.contains_eq_isSome_getElem?, Option.isSome_eq_false_iff, Option.isNone_iff_eq_none]

theorem contains_iff_exists : t.contains a = true ↔ ∃ v, t[a]? = some v := by
  rw [Std.ExtTreeMap.contains_eq_isSome_getElem?, Option.isSome_iff_exists]

theorem mem_iff_exists : a ∈ t ↔ ∃ v, t[a]? = some v := by
  rw [← Std.ExtTreeMap.contains_iff_mem, contains_iff_exists]

end Table

/-- The jobs that a call deletes, if it is to delete jobs. -/
def Call.deletes : Call → Option (List Key)
  | deleteJob key => some [key]
  | deleteJobs keys => some keys
  | _ => none

namespace Store

/-! ### Preparing a trigger -/

/-- A prepared trigger has the schedule of its cron expression, and its first fire time. -/
theorem prepare_eq_answer_iff {now : Instant} {t : Trigger} {stored : Stored} :
    prepare now t = .answer stored ↔ ∃ schedule next, readCron t.cron = .ok schedule ∧
      schedule.firstFire now t.start t.stop = .ok (some next) ∧ stored = ⟨t, schedule, some next⟩ := by
  unfold prepare
  cases readCron t.cron with
  | error e => simp
  | ok schedule =>
    cases hf : schedule.firstFire now t.start t.stop with
    | error o => simp [hf]
    | ok next =>
      cases next with
      | none => simp [hf]
      | some next => simp [hf, eq_comm]

/-- The engine crashes over a trigger when its cron expression can be read and the search for its first fire time
leaves the range of instants. -/
theorem prepare_eq_crashed_iff {now : Instant} {t : Trigger} {crash : Crash} :
    prepare now t = .crashed crash ↔ ∃ schedule o, readCron t.cron = .ok schedule ∧
      schedule.firstFire now t.start t.stop = .error o ∧ crash = .overflow o := by
  unfold prepare
  cases readCron t.cron with
  | error e => simp
  | ok schedule =>
    cases hf : schedule.firstFire now t.start t.stop with
    | error o => simp [hf, eq_comm]
    | ok next => cases next <;> simp [hf]

/-- A trigger whose cron expression cannot be read is refused. -/
theorem prepare_of_unreadable {now : Instant} {t : Trigger} {e : EngineError} (h : readCron t.cron = .error e) :
    prepare now t = .refused e := by rw [prepare, h]

/-- Of an expression that cannot be read it is told that, and why. -/
theorem invalidCron_of_readCron {expression : String} {e : EngineError} (h : readCron expression = .error e) :
    ∃ report, e = .invalidCron expression report := by
  unfold readCron at h
  dsimp only at h
  split at h
  · cases h
  · cases h
    exact ⟨_, rfl⟩

/-- A trigger is refused when its cron expression cannot be read, or when it has no fire time left. -/
theorem eq_of_prepare_refused {now : Instant} {t : Trigger} {e : EngineError} (h : prepare now t = .refused e) :
    (∃ report, e = .invalidCron t.cron report) ∨ e = .willNeverFire t.key.display := by
  unfold prepare at h
  split at h
  · next hread =>
    cases h
    exact .inl (invalidCron_of_readCron hread)
  · split at h
    · cases h
    · cases h
      exact .inr rfl
    · cases h

/-! ### Deletions -/

variable {s s' : Store} {now : Instant} {k : Key}

theorem remove_jobs (s : Store) (key k : Key) : (s.remove key).jobs[k]? = if key = k then none else s.jobs[k]? := by
  simp [remove, Std.ExtTreeMap.getElem?_erase]

theorem remove_triggers (s : Store) (key k : Key) :
    (s.remove key).triggers[k]? = s.triggers[k]?.filter fun stored => stored.trigger.jobKey ≠ key := by
  simp [remove]

theorem removeAll_jobs (s : Store) (keys : List Key) (k : Key) :
    (s.removeAll keys).1.jobs[k]? = if k ∈ keys then none else s.jobs[k]? := by
  induction keys generalizing s with
  | nil => simp [removeAll]
  | cons key keys ih =>
    rw [removeAll, ih, remove_jobs]
    by_cases hk : key = k
    · simp [hk]
    · simp [hk, Ne.symm hk]

theorem removeAll_triggers (s : Store) (keys : List Key) (k : Key) :
    (s.removeAll keys).1.triggers[k]? = s.triggers[k]?.filter fun stored => stored.trigger.jobKey ∉ keys := by
  induction keys generalizing s with
  | nil => cases hk : s.triggers[k]? <;> simp [removeAll, hk, Option.filter]
  | cons key keys ih =>
    rw [removeAll, ih, remove_triggers, Option.filter_filter]
    congr 1
    ext stored
    simp

/-- **All of some jobs were there when their turns came** exactly if they were there at first, and none was named
twice. -/
theorem removeAll_snd_iff {keys : List Key} :
    (s.removeAll keys).2 = true ↔ keys.Nodup ∧ ∀ k ∈ keys, k ∈ s.jobs := by
  induction keys generalizing s with
  | nil => simp [removeAll]
  | cons key keys ih =>
    have hmem (k : Key) : k ∈ (s.remove key).jobs ↔ key ≠ k ∧ k ∈ s.jobs := by
      simp [remove, Std.ExtTreeMap.mem_erase]
    rw [show (s.removeAll (key :: keys)).2 = (s.jobs.contains key && ((s.remove key).removeAll keys).2) from rfl,
      Bool.and_eq_true, Std.ExtTreeMap.contains_iff_mem, ih, List.nodup_cons, List.forall_mem_cons]
    simp only [hmem]
    constructor
    · rintro ⟨hkey, hnodup, hall⟩
      exact ⟨⟨fun h => (hall key h).1 rfl, hnodup⟩, hkey, fun k hk => (hall k hk).2⟩
    · rintro ⟨⟨hnot, hnodup⟩, hkey, hall⟩
      exact ⟨hkey, hnodup, fun k hk => ⟨fun h => hnot (h ▸ hk), hall k hk⟩⟩

/-- What no call changes: whether an engine has been shut down, and its threshold. -/
def standing (s : Store) : Bool × Int := (s.stopped, s.threshold)

theorem removeAll_standing (s : Store) (keys : List Key) : (s.removeAll keys).1.standing = s.standing := by
  induction keys generalizing s with
  | nil => rfl
  | cons key keys ih => exact ih (s.remove key)

/-- A deletion does not look at the counters. -/
theorem removeAll_counters (s : Store) (keys : List Key) (counters : Counters) :
    ({ s with counters } : Store).removeAll keys = ({ (s.removeAll keys).1 with counters }, (s.removeAll keys).2) := by
  induction keys generalizing s with
  | nil => rfl
  | cons key keys ih =>
    have hrest := ih (s.remove key)
    simp only [removeAll]
    rw [show ({ s with counters } : Store).remove key = { s.remove key with counters } from rfl, hrest]

/-! ### Calls -/

/-- **What a call does to the tables**: nothing, as when it is refused, or what its kind does once all is checked. -/
inductive Change (now : Instant) (s s' : Store) : Call → Prop where
  /-- Nothing. -/
  | none {c : Call} : s'.jobs = s.jobs → s'.triggers = s.triggers → Change now s s' c
  /-- A job is stored; it is durable or has a trigger. -/
  | addJob {job : Job} {replace : Bool} : (job.durable = false → job.key ∈ s.triggers) →
      s'.jobs = s.jobs.insert job.key job → s'.triggers = s.triggers → Change now s s' (.addJob job replace)
  /-- A new trigger of a job that is there is stored. -/
  | schedule {t : Trigger} {stored : Stored} : t.jobKey ∈ s.jobs → s.triggers[t.key]? = .none →
      prepare now t = .answer stored → s'.jobs = s.jobs → s'.triggers = s.triggers.insert t.key stored →
        Change now s s' (.schedule t)
  /-- A trigger takes the place of one of the same job. -/
  | reschedule {key : Key} {t : Trigger} {old stored : Stored} : s.triggers[key]? = some old →
      old.trigger.jobKey = t.jobKey → prepare now t = .answer stored → s'.jobs = s.jobs →
        s'.triggers = (s.triggers.erase key).insert t.key stored → Change now s s' (.reschedule key t)
  /-- Jobs are deleted with the triggers that fire them. -/
  | delete {c : Call} {keys : List Key} : c.deletes = some keys →
      (∀ k : Key, s'.jobs[k]? = if k ∈ keys then .none else s.jobs[k]?) →
      (∀ k : Key, s'.triggers[k]? = s.triggers[k]?.filter fun stored => stored.trigger.jobKey ∉ keys) →
        Change now s s' c

theorem addJob_change (s : Store) (now : Instant) (job : Job) (replace : Bool) :
    Change now s (s.addJob job replace).state (.addJob job replace) := by
  unfold addJob
  dsimp only
  split
  · exact .none rfl rfl
  · split
    · exact .none rfl rfl
    · next hd =>
      refine .addJob (fun hdur => ?_) rfl rfl
      simpa [hdur] using hd

theorem schedule_change (s : Store) (now : Instant) (t : Trigger) :
    Change now s (s.schedule now t).state (.schedule t) := by
  unfold schedule
  split
  · exact .none rfl rfl
  · next hjob =>
    split
    · exact .none rfl rfl
    · next htrigger =>
      split
      · exact .none rfl rfl
      · exact .none rfl rfl
      · next stored hprep =>
        obtain ⟨_, _, -, -, rfl⟩ := prepare_eq_answer_iff.1 hprep
        refine .schedule (by simpa using hjob) ?_ hprep rfl rfl
        simpa using htrigger

theorem reschedule_change (s : Store) (now : Instant) (key : Key) (t : Trigger) :
    Change now s (s.reschedule now key t).state (.reschedule key t) := by
  unfold reschedule
  split
  · exact .none rfl rfl
  · next old hold =>
    split
    · exact .none rfl rfl
    · next hjob =>
      split
      · exact .none rfl rfl
      · exact .none rfl rfl
      · next stored hprep =>
        obtain ⟨_, _, -, -, rfl⟩ := prepare_eq_answer_iff.1 hprep
        exact .reschedule hold (not_not.1 hjob) hprep rfl rfl

/-- **A call changes the tables in one of these ways.** -/
theorem serve_change (now : Instant) (c : Call) (s : Store) : Change now s (s.serve now c).state c := by
  unfold serve
  split
  · exact .none rfl rfl
  · cases c with
    | jobExists key => exact .none rfl rfl
    | triggerExists key => exact .none rfl rfl
    | getJob key => exact .none rfl rfl
    | addJob job replace => exact s.addJob_change now job replace
    | getTrigger key => exact .none rfl rfl
    | schedule t => exact s.schedule_change now t
    | reschedule key t => exact s.reschedule_change now key t
    | deleteJob key =>
      refine .delete rfl (fun k => ?_) fun k => ?_
      · simp [deleteJob, reply, remove_jobs, count, eq_comm]
      · simp [deleteJob, reply, remove_triggers, count]
    | deleteJobs keys =>
      refine .delete rfl (fun k => ?_) fun k => ?_
      · simp [deleteJobs, reply, removeAll_jobs, count]
      · simp [deleteJobs, reply, removeAll_triggers, count]
    | jobKeys matcher => exact .none rfl rfl

/-- A job that is there after a call was there before, unless it has been added. -/
theorem Change.mem_jobs {c : Call} (h : Change now s s' c) (hk : k ∈ s'.jobs) :
    k ∈ s.jobs ∨ ∃ job replace, c = .addJob job replace ∧ job.key = k := by
  cases h with
  | none hj _ => exact .inl (hj ▸ hk)
  | addJob _ hj _ =>
    rw [hj, Std.ExtTreeMap.mem_insert, Std.compare_eq_iff_eq] at hk
    exact hk.elim (fun hkey => .inr ⟨_, _, rfl, hkey⟩) .inl
  | schedule _ _ _ hj _ => exact .inl (hj ▸ hk)
  | reschedule _ _ _ hj _ => exact .inl (hj ▸ hk)
  | delete _ hj _ =>
    obtain ⟨job, hjob⟩ := Table.mem_iff_exists.1 hk
    rw [hj, Option.ite_none_left_eq_some] at hjob
    exact .inl (Table.mem_iff_exists.2 ⟨job, hjob.2⟩)

/-- An engine that has been shut down refuses every call, and nothing comes of it. -/
theorem serve_of_stopped (hstopped : s.stopped = true) (now : Instant) (c : Call) :
    s.serve now c = s.refuse (.unavailable "the scheduler has been shut down") :=
  if_pos hstopped

/-- No call shuts an engine down or changes its threshold. -/
theorem serve_standing (now : Instant) (c : Call) (s : Store) : (s.serve now c).state.standing = s.standing := by
  unfold serve
  split
  · rfl
  · cases c with
    | addJob job replace =>
      dsimp only [addJob]
      split_ifs <;> rfl
    | schedule t =>
      dsimp only [schedule]
      split_ifs
      · rfl
      · rfl
      · split <;> rfl
    | reschedule key t =>
      dsimp only [reschedule]
      split
      · rfl
      · split_ifs
        · rfl
        · split <;> rfl
    | deleteJobs keys => exact removeAll_standing _ keys
    | _ => rfl

theorem serve_stopped (now : Instant) (c : Call) (s : Store) : (s.serve now c).state.stopped = s.stopped :=
  congrArg Prod.fst (serve_standing now c s)

theorem serve_threshold (now : Instant) (c : Call) (s : Store) : (s.serve now c).state.threshold = s.threshold :=
  congrArg Prod.snd (serve_standing now c s)

end Store

end JobRoster
