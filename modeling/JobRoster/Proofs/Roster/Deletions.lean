import JobRoster.Proofs.Engine.Leads
import JobRoster.Proofs.Roster.Requests
import JobRoster.Proofs.Settings.Naming

/-!
# What a deletion leads to

A request that deletes finds out which of the jobs that it is for are there (`Request.targets`), and deletes these with
the triggers that fire them (`exec_deletion`), by one call if there are any, and by none otherwise (`calls_deletion`).
Where triggers have the keys of their jobs, nothing is left then under a key that the request is for
(`nothing_left_of_deletes`), and nothing has happened under any other one (`agreeAt_of_not_deletes`).

Main statement: `deletion_effect`, which says all this of the jobs that are meant by the request (`Request.Means`).
-/

namespace JobRoster

open Attempt

namespace Roster

variable {r : Roster} {q : Request} {s : Store} {now : Instant} {k : Key}

/-- The jobs that are there and that a request is to delete. -/
def Request.targets (r : Roster) (s : Store) : Request → List Key
  | .register _ => []
  | .deleteJob name group => if s.jobs.contains ⟨name, group⟩ then [⟨name, group⟩] else []
  | .deleteGroup group => s.jobs.keys.filter fun k => (r.groupMatch.matcher group).accepts k.group

theorem mem_targets_iff : k ∈ q.targets r s ↔ q.Deletes r k ∧ k ∈ s.jobs := by
  cases q with
  | register d => simp [Request.targets, Request.Deletes]
  | deleteJob name group =>
    simp only [Request.targets, Request.Deletes]
    split
    · next hthere =>
      rw [List.mem_singleton]
      exact ⟨fun hk => ⟨hk, hk ▸ Std.ExtTreeMap.contains_iff_mem.1 hthere⟩, And.left⟩
    · next habsent =>
      refine ⟨fun hk => absurd hk List.not_mem_nil, ?_⟩
      rintro ⟨hk, hmem⟩
      exact absurd (Std.ExtTreeMap.contains_iff_mem.2 (hk ▸ hmem)) habsent
  | deleteGroup group => simp [Request.targets, Request.Deletes, and_comm]

theorem nodup_targets : (q.targets r s).Nodup := by
  cases q with
  | register d => exact List.nodup_nil
  | deleteJob name group =>
    simp only [Request.targets]
    split <;> simp
  | deleteGroup group => exact Std.ExtTreeMap.nodup_keys.filter _

/-- Each of the jobs that are there and that a request is to delete is there when its turn comes. -/
theorem removeAll_targets : (s.removeAll (q.targets r s)).2 = true :=
  Store.removeAll_snd_iff.2 ⟨nodup_targets, fun _ hk => (mem_targets_iff.1 hk).2⟩

/-! ### What is left -/

/-- What a deletion of jobs leaves under the key of none of them. -/
theorem agreeAt_removeAll (hs : s.Sound) (hm : s.Mirrored) {keys : List Key} (hk : k ∉ keys) :
    s.AgreeAt k (s.removeAll keys).1 :=
  ⟨by rw [Store.removeAll_jobs, if_neg hk], by rw [Store.removeAll_triggers, hs.filter_of_not_mem hm hk]⟩

/-- **Nothing has happened** under a key that a request is not for. -/
theorem agreeAt_of_not_deletes (hs : s.Sound) (hm : s.Mirrored) (hq : ¬ q.Deletes r k) :
    s.AgreeAt k (s.removeAll (q.targets r s)).1 :=
  agreeAt_removeAll hs hm fun hk => hq (mem_targets_iff.1 hk).1

/-- **Nothing is left** under a key that a request is for. -/
theorem nothing_left_of_deletes (hs : s.Sound) (hm : s.Mirrored) (hq : q.Deletes r k) :
    (s.removeAll (q.targets r s)).1.jobs[k]? = none ∧ (s.removeAll (q.targets r s)).1.triggers[k]? = none := by
  have htarget (hk : k ∈ s.jobs) : k ∈ q.targets r s := mem_targets_iff.2 ⟨hq, hk⟩
  constructor
  · rw [Store.removeAll_jobs, ite_eq_left_iff]
    exact fun hk => Std.ExtTreeMap.getElem?_eq_none fun hmem => hk (htarget hmem)
  · rw [Store.removeAll_triggers, Option.filter_eq_none_iff]
    intro stored hstored
    have hjob : stored.trigger.jobKey = k := hs.jobKey_of_mirrored hm hstored
    simpa [hjob] using htarget (hjob ▸ hs.owner hstored)

/-! ### The requests -/

/-- Deleting one job deletes it if it is there. -/
theorem leads_one (hrun : s.stopped = false) (k : Key) :
    (Deletion.one k).Leads now s (.ok (.ok (s.removeAll (if s.jobs.contains k then [k] else [])).2))
      (s.removeAll (if s.jobs.contains k then [k] else [])).1 := by
  refine (leads_jobExists hrun k).bind ?_
  cases hthere : s.jobs.contains k with
  | true =>
    rw [if_pos rfl, if_pos rfl]
    have hall : (s.removeAll [k]).2 = s.jobs.contains k := Bool.and_true _
    rw [hall]
    exact leads_deleteJob hrun k
  | false =>
    rw [if_neg Bool.false_ne_true, if_neg Bool.false_ne_true]
    exact leads_pure true

/-- Deleting groups deletes the jobs in them, if there are any. -/
theorem leads_groups (hrun : s.stopped = false) (matcher : GroupMatcher) :
    (Deletion.groups matcher).Leads now s
      (.ok (.ok (s.removeAll (s.jobs.keys.filter fun k => matcher.accepts k.group)).2))
      (s.removeAll (s.jobs.keys.filter fun k => matcher.accepts k.group)).1 := by
  refine (leads_jobKeys hrun matcher).bind ?_
  generalize (s.jobs.keys.filter fun k => matcher.accepts k.group) = keys
  cases keys with
  | nil => exact leads_pure true
  | cons key keys => exact (leads_report _).bind (leads_deleteJobs hrun _)

/-- A deletion that is not refused ends with what it tells. -/
theorem exec_orFalse {x : Attempt Bool} {b : Bool} {s' : Store} (hx : x.Leads now s (.ok (.ok b)) s')
    (failed : String → Event) :
    ∃ counters, (Deletion.orFalse x failed >>= fun b => pure (Answer.deleted b)).exec (Store.engine now) s =
      (.ok (.deleted b), { s' with counters }) := by
  obtain ⟨counters, hexec⟩ := hx s.counters
  refine ⟨counters, ?_⟩
  rw [Program.exec_bind, Deletion.orFalse, Program.exec_bind]
  rw [show s = { s with counters := s.counters } from rfl, hexec]
  rfl

/-- A deletion that is refused ends with false. -/
theorem exec_orFalse_of_error {x : Attempt Bool} {e : EngineError} {s' : Store} (hx : x.Leads now s (.ok (.error e)) s')
    (failed : String → Event) :
    ∃ counters, (Deletion.orFalse x failed >>= fun b => pure (Answer.deleted b)).exec (Store.engine now) s =
      (.ok (.deleted false), { s' with counters }) := by
  obtain ⟨counters, hexec⟩ := hx s.counters
  refine ⟨counters, ?_⟩
  rw [Program.exec_bind, Deletion.orFalse, Program.exec_bind]
  rw [show s = { s with counters := s.counters } from rfl, hexec]
  rfl

/-- Where the engine takes no calls, a request that deletes ends with false. -/
theorem exec_deletion_of_stopped (hstopped : s.stopped = true) (hq : ∀ d, q ≠ .register d) (now : Instant) :
    ∃ counters, (r.program q).exec (Store.engine now) s = (.ok (.deleted false), { s with counters }) := by
  cases q with
  | register d => exact absurd rfl (hq d)
  | deleteJob name group => exact exec_orFalse_of_error ((leads_of_stopped hstopped _).bind_error _) _
  | deleteGroup group => exact exec_orFalse_of_error ((leads_of_stopped hstopped _).bind_error _) _

/-- **A request that deletes** deletes the jobs that it is for and that are there, with the triggers that fire them. -/
theorem exec_deletion (hrun : s.stopped = false) (hq : ∀ d, q ≠ .register d) (now : Instant) :
    ∃ counters, (r.program q).exec (Store.engine now) s =
      (.ok (.deleted (s.removeAll (q.targets r s)).2), { (s.removeAll (q.targets r s)).1 with counters }) := by
  cases q with
  | register d => exact absurd rfl (hq d)
  | deleteJob name group => exact exec_orFalse (leads_one hrun ⟨name, group⟩) _
  | deleteGroup group => exact exec_orFalse (leads_groups hrun _) _

/-- **Where nobody holds the lock**, a request that deletes is carried out and ends with true. -/
theorem perform_deletion (hrun : s.stopped = false) (hq : ∀ d, q ≠ .register d) (r : Roster) (now : Instant) :
    ∃ run, r.perform (Store.engine now) q ⟨.free, s⟩ = some run ∧ run.result = .ok (.deleted true) ∧
      run.state.engine = ((r.program q).exec (Store.engine now) s).2 := by
  obtain ⟨run, hperform, hresult, hstate⟩ := r.perform_free (Store.engine now) q s
  obtain ⟨counters, hexec⟩ := exec_deletion (r := r) hrun hq now
  refine ⟨run, hperform, ?_, congrArg World.engine hstate⟩
  rw [hresult, hexec, removeAll_targets]

/-! ### The calls -/

/-- The calls by which a request deletes jobs. -/
def Request.deletions (keys : List Key) : Request → List Call
  | .register _ => []
  | .deleteJob .. => keys.map .deleteJob
  | .deleteGroup _ => if keys.isEmpty then [] else [.deleteJobs keys]

/-- The call by which a request that deletes finds out which jobs are there. -/
def Request.inquiry (r : Roster) : Request → List Call
  | .register _ => []
  | .deleteJob name group => [.jobExists ⟨name, group⟩]
  | .deleteGroup group => [.jobKeys (r.groupMatch.matcher group)]

theorem calls_one (hrun : s.stopped = false) (k : Key) :
    (Deletion.one k).Calls now s ([.jobExists k] ++ if s.jobs.contains k then [.deleteJob k] else []) := by
  refine (calls_call _).bind (leads_jobExists hrun k) ?_
  cases s.jobs.contains k with
  | true => exact (calls_report _).bind (leads_report _) (calls_call _)
  | false => exact calls_pure _

theorem calls_groups (hrun : s.stopped = false) (matcher : GroupMatcher) :
    (Deletion.groups matcher).Calls now s
      ([.jobKeys matcher] ++ if (s.jobs.keys.filter fun k => matcher.accepts k.group).isEmpty then []
        else [.deleteJobs (s.jobs.keys.filter fun k => matcher.accepts k.group)]) := by
  refine (calls_call _).bind (leads_jobKeys hrun matcher) ?_
  split
  · exact calls_pure _
  · exact (calls_report _).bind (leads_report _) (calls_call _)

/-- What is made of the end of a deletion makes no calls. -/
theorem calls_orFalse {x : Attempt Bool} {calls : List Call} (hx : x.Calls now s calls) (failed : String → Event) :
    (Deletion.orFalse x failed >>= fun b => pure (Answer.deleted b)).calls (Store.engine now) s = calls := by
  rw [Program.calls_bind_of_silent fun _ _ => rfl, Deletion.orFalse, Program.calls_bind_of_silent]
  · exact hx s.counters
  · intro result s
    cases result <;> rfl

/-- **A request that deletes** makes two calls: it asks which jobs are there, and if there are any it deletes them. -/
theorem calls_deletion (hrun : s.stopped = false) (hq : ∀ d, q ≠ .register d) (now : Instant) :
    (r.program q).calls (Store.engine now) s = q.inquiry r ++ q.deletions (q.targets r s) := by
  cases q with
  | register d => exact absurd rfl (hq d)
  | deleteJob name group =>
    refine (calls_orFalse (calls_one hrun ⟨name, group⟩) _).trans ?_
    rw [Request.targets, Request.deletions, Request.inquiry]
    split <;> rfl
  | deleteGroup group => exact calls_orFalse (calls_groups hrun _) _

/-! ### What a deletion does -/

/-- **A job is meant by a request that deletes**: it has the name in the group, or its group is one of those that are
meant. -/
def Request.Means (r : Roster) (k : Key) : Request → Prop
  | .register _ => False
  | .deleteJob name group => k.name = name ∧ k.group = group
  | .deleteGroup group => r.groupMatch.Reaches group k.group

theorem deletes_iff_means : q.Deletes r k ↔ q.Means r k := by
  cases q with
  | register d => exact Iff.rfl
  | deleteJob name group =>
    cases k
    exact Iff.of_eq (Key.mk.injEq ..)
  | deleteGroup group => exact GroupMatch.accepts_matcher_iff

/-- **What a deletion does** from one memory to another one, by some calls. -/
structure Erased (r : Roster) (q : Request) (s s' : Store) (calls : List Call) : Prop where
  /-- No job that is meant is left. -/
  job : ∀ k, q.Means r k → s'.jobs[k]? = none
  /-- No trigger is left under the key of such a job. -/
  trigger : ∀ k, q.Means r k → s'.triggers[k]? = none
  /-- No trigger is left that fires such a job. -/
  fired : ∀ (k : Key) (stored : Stored), s'.triggers[k]? = some stored → ¬ q.Means r stored.trigger.jobKey
  /-- Every other job and every other trigger is what it was, its next fire time included. -/
  others : ∀ k, ¬ q.Means r k → s.AgreeAt k s'
  /-- The calls that delete are for the jobs that were there and that are meant, each of them once: there is one call if
  there were any such jobs, and none otherwise. -/
  calls : ∃ keys : List Key, keys.Nodup ∧ (∀ k, k ∈ keys ↔ k ∈ s.jobs ∧ q.Means r k) ∧
    calls.filter (fun c => c.deletes.isSome) = q.deletions keys

theorem deletions_filter (keys : List Key) :
    (q.deletions keys).filter (fun c => c.deletes.isSome) = q.deletions keys := by
  refine List.filter_eq_self.2 fun c hc => ?_
  cases q with
  | register d => cases hc
  | deleteJob name group =>
    obtain ⟨k, -, rfl⟩ := List.mem_map.1 hc
    rfl
  | deleteGroup group =>
    simp only [Request.deletions] at hc
    split at hc
    · cases hc
    · rw [List.mem_singleton.1 hc]
      rfl

theorem inquiry_filter : (q.inquiry r).filter (fun c => c.deletes.isSome) = [] := by
  cases q <;> rfl

/-- A request that deletes does so, where the tables make sense and triggers have the keys of their jobs. -/
theorem erased_of_deletion (hs : s.Sound) (hm : s.Mirrored) (hrun : s.stopped = false) (hq : ∀ d, q ≠ .register d)
    (now : Instant) : r.Erased q s ((r.program q).exec (Store.engine now) s).2
      ((r.program q).calls (Store.engine now) s) := by
  obtain ⟨counters, hexec⟩ := exec_deletion (r := r) hrun hq now
  rw [hexec, calls_deletion hrun hq]
  have hgone {k : Key} (hk : q.Means r k) := nothing_left_of_deletes hs hm (deletes_iff_means.2 hk)
  refine ⟨fun k hk => (hgone hk).1, fun k hk => (hgone hk).2, fun k stored hstored hmeans => ?_, fun k hk => ?_, ?_⟩
  · -- a trigger that is left has the key of its job
    rw [Store.removeAll_triggers, Option.filter_eq_some_iff] at hstored
    rw [hs.jobKey_of_mirrored hm hstored.1] at hmeans
    have hnone := (hgone hmeans).2
    rw [Store.removeAll_triggers, Option.filter_eq_none_iff] at hnone
    exact hnone stored hstored.1 hstored.2
  · exact agreeAt_of_not_deletes hs hm fun h => hk (deletes_iff_means.1 h)
  · refine ⟨q.targets r s, nodup_targets, fun k => ?_, ?_⟩
    · rw [mem_targets_iff, deletes_iff_means, and_comm]
    · rw [List.filter_append, inquiry_filter, deletions_filter, List.nil_append]

/-- **What a deletion does**, from every memory that is reached: it ends with true, the jobs that are meant are gone
with their triggers, and all else is as it was. -/
theorem deletion_effect (hs : s.Reached Trigger.Mirrors) (hrun : s.stopped = false) (hq : ∀ d, q ≠ .register d)
    (r : Roster) (now : Instant) :
    ∃ run, r.perform (Store.engine now) q ⟨.free, s⟩ = some run ∧ run.result = .ok (.deleted true) ∧
      r.Erased q s run.state.engine ((r.program q).calls (Store.engine now) s) := by
  obtain ⟨run, hperform, hresult, hstate⟩ := perform_deletion hrun hq r now
  refine ⟨run, hperform, hresult, ?_⟩
  rw [hstate]
  exact erased_of_deletion hs.sound hs.mirrored hrun hq now

/-- One job each is declared in three groups, and the jobs of a group are deleted whose name another one ends with. -/
theorem deletion_effect_by_suffix : ∃ (now : Instant) (s : Store) (q : Request), s.Reached Trigger.Mirrors ∧
    s.stopped = false ∧ (∀ d, q ≠ .register d) ∧
      (s.triggers.size = 3 ∧ q.targets .standard s = [⟨"mirror", "old_eu"⟩, ⟨"nightly", "eu"⟩]) ∧
        ∃ run, Roster.standard.perform (Store.engine now) q ⟨.free, s⟩ = some run ∧
          run.result = .ok (.deleted true) ∧ Roster.standard.Erased q s run.state.engine
            ((Roster.standard.program q).calls (Store.engine now) s) := by
  let now : Instant := ⟨4133894300, 0, by decide, by decide, by decide, by decide⟩
  let declare (name group : String) (s : Store) : Store :=
    ((Roster.standard.program (.register
      { jobType := "backup", name, group, cron := "@daily", start := now, stop := none, data := none })).exec
        (Store.engine now) s).2
  have hdeclare {s : Store} (name group : String) (hs : s.Reached Trigger.Mirrors) :
      (declare name group s).Reached Trigger.Mirrors := hs.program (fun _ h => h) _ _
  let s := declare "archive" "us" (declare "mirror" "old_eu" (declare "nightly" "eu" .fresh))
  have hs : s.Reached Trigger.Mirrors := hdeclare _ _ (hdeclare _ _ (hdeclare _ _ (.empty _)))
  have hrun : s.stopped = false := by decide +kernel
  have hq : ∀ d, Request.deleteGroup "eu" ≠ .register d := by
    intro d h
    cases h
  exact ⟨now, s, .deleteGroup "eu", hs, hrun, hq, by decide +kernel, deletion_effect hs hrun hq .standard now⟩

end Roster

end JobRoster
