import JobRoster.Proofs.Engine.Locality
import JobRoster.Proofs.Engine.Unanswered

/-!
# Deleting many jobs at once

A call that deletes many jobs leaves what is left when these are deleted one after another, each by a call of its own
(`serveAll_deletions`), and it is answered with whether all of these calls are answered with true: each job has to be
there when its turn comes (`found`), so none may be named twice. Since it only matters which jobs are named, and whether
one is named twice, they may be named in any order (`serve_deleteJobs_perm`).

Main statement: `deleteJobs_eq_deletions`.
-/

namespace JobRoster

/-- A deletion of one job with what came back. -/
def Exchange.deletion (key : Key) (reply : Reply Bool) : Exchange := ⟨.deleteJob key, reply⟩

namespace Store

variable {s s' : Store} {now : Instant} {keys keys' : List Key}

/-- The calls that delete jobs one after another, each at its own time. -/
def deletions (asked : List (Instant × Key)) : List (Instant × Call) :=
  asked.map fun (now, key) => (now, .deleteJob key)

/-- Jobs that are deleted one after another, and whether each of them was there when its turn came. -/
def found (s : Store) : List Key → List (Key × Bool)
  | [] => []
  | key :: keys => (key, s.jobs.contains key) :: (s.remove key).found keys

theorem removeAll_snd (s : Store) (keys : List Key) : (s.removeAll keys).2 = (s.found keys).all Prod.snd := by
  induction keys generalizing s with
  | nil => rfl
  | cons key keys ih => rw [found, List.all_cons, ← ih (s.remove key), removeAll]

/-- What is found depends on the tables. -/
theorem Agree.found (h : Agree .all s s') (keys : List Key) : s.found keys = s'.found keys := by
  induction keys generalizing s s' with
  | nil => rfl
  | cons key keys ih => rw [Store.found, Store.found, h.jobs_contains trivial, ih (h.remove key)]

/-! ### One after another -/

theorem serve_deleteJob (hrun : s.stopped = false) (now : Instant) (key : Key) :
    (s.serve now (.deleteJob key)).reply = .answer (s.jobs.contains key) ∧
      Agree .all (s.serve now (.deleteJob key)).state (s.remove key) := by
  rw [serve, if_neg (Bool.eq_false_iff.1 hrun)]
  exact ⟨rfl, fun _ _ => ⟨rfl, rfl⟩, rfl⟩

/-- **Deleting jobs one after another** tells of each whether it was there when its turn came, and leaves what is left
without all of them. -/
theorem serveAll_deletions (hrun : s.stopped = false) (asked : List (Instant × Key)) :
    (serveAll (deletions asked) s).1 =
        (s.found (asked.map Prod.snd)).map (fun (key, there) => .deletion key (.answer there)) ∧
      Agree .all (serveAll (deletions asked) s).2 (s.removeAll (asked.map Prod.snd)).1 := by
  induction asked generalizing s with
  | nil => exact ⟨rfl, fun _ _ => ⟨rfl, rfl⟩, rfl⟩
  | cons first asked ih =>
    obtain ⟨now, key⟩ := first
    obtain ⟨hreply, hstate⟩ := serve_deleteJob hrun now key
    obtain ⟨hexchanges, hrest⟩ := ih ((serve_stopped now (.deleteJob key) s).trans hrun)
    constructor
    · rw [hstate.found] at hexchanges
      change ⟨.deleteJob key, (s.serve now (.deleteJob key)).reply⟩ :: (serveAll (deletions asked) _).1 = _
      rw [hreply, hexchanges]
      rfl
    · exact hrest.trans (hstate.removeAll fun _ _ => trivial).1

/-- An engine that takes no calls refuses all of them. -/
theorem serveAll_deletions_of_stopped (hstopped : s.stopped = true) (asked : List (Instant × Key)) :
    serveAll (deletions asked) s =
      ((asked.map Prod.snd).map fun key =>
        .deletion key (.refused (.unavailable "the scheduler has been shut down")), s) := by
  induction asked with
  | nil => rfl
  | cons first asked ih =>
    obtain ⟨now, key⟩ := first
    change (_ :: (serveAll (deletions asked) _).1, (serveAll (deletions asked) _).2) = _
    rw [serve_of_stopped hstopped]
    change (_ :: (serveAll (deletions asked) s).1, (serveAll (deletions asked) s).2) = _
    rw [ih]
    rfl

/-! ### All at once -/

theorem serve_deleteJobs (hrun : s.stopped = false) (now : Instant) (keys : List Key) :
    (s.serve now (.deleteJobs keys)).reply = .answer (s.removeAll keys).2 ∧
      Agree .all (s.serve now (.deleteJobs keys)).state (s.removeAll keys).1 := by
  rw [serve, if_neg (Bool.eq_false_iff.1 hrun)]
  -- the call is counted first
  have hcounted : Agree .all (s.count fun c => { c with bulkDeletes := c.bulkDeletes + 1 }) s :=
    ⟨fun _ _ => ⟨rfl, rfl⟩, rfl⟩
  have hkeys : ∀ k ∈ keys, Scope.all.Covers k := fun _ _ => trivial
  obtain ⟨hstate, hall⟩ := hcounted.removeAll hkeys
  exact ⟨congrArg Reply.answer hall, hstate⟩

/-- It does not matter in which order jobs are deleted. -/
theorem removeAll_perm (h : keys.Perm keys') (s : Store) : s.removeAll keys = s.removeAll keys' := by
  refine Prod.ext (eq_of_agreeAt (fun k => ⟨?_, ?_⟩) ?_ ?_) (Bool.eq_iff_iff.2 ?_)
  · simp only [removeAll_jobs, h.mem_iff]
  · simp only [removeAll_triggers, h.mem_iff]
  · have hcounters (keys : List Key) : (s.removeAll keys).1.counters = s.counters :=
      congrArg (fun removed => removed.1.counters) (removeAll_counters s keys s.counters)
    rw [hcounters, hcounters]
  · rw [removeAll_standing, removeAll_standing]
  · simp only [removeAll_snd_iff, h.nodup_iff, h.mem_iff]

/-- **Jobs may be named in any order** when many are deleted. -/
theorem serve_deleteJobs_perm (h : keys.Perm keys') (s : Store) (now : Instant) :
    s.serve now (.deleteJobs keys) = s.serve now (.deleteJobs keys') := by
  unfold serve
  split
  · rfl
  · simp only [deleteJobs, removeAll_perm h]

/-- **To delete many jobs at once is to delete them one after another**, whatever triggers fire them and however often
they are named. The same jobs and triggers are left, the answer is true if all answers to the single calls are, and that
is so if no job is named twice and all are there. An engine that takes no calls refuses the one call as it refuses all
of the others. The order in which the jobs are named changes nothing at all. -/
theorem deleteJobs_eq_deletions (s : Store) (now : Instant) (asked : List (Instant × Key)) :
    let keys := asked.map Prod.snd
    let single := serveAll (deletions asked) s
    let bulk := s.serve now (.deleteJobs keys)
    (bulk.state.jobs = single.2.jobs ∧ bulk.state.triggers = single.2.triggers) ∧
      (s.stopped = false →
        single.1 = (s.found keys).map (fun (key, there) => .deletion key (.answer there)) ∧
          bulk.reply = .answer ((s.found keys).all Prod.snd) ∧
          ((s.found keys).all Prod.snd = true ↔ keys.Nodup ∧ ∀ k ∈ keys, k ∈ s.jobs)) ∧
      (s.stopped = true →
        single.1 = keys.map (fun key =>
          .deletion key (.refused (.unavailable "the scheduler has been shut down"))) ∧
          bulk.reply = .refused (.unavailable "the scheduler has been shut down")) ∧
      ∀ keys', keys.Perm keys' → s.serve now (.deleteJobs keys') = bulk := by
  intro keys single bulk
  refine ⟨?_, fun hrun => ?_, fun hstopped => ?_, fun keys' h => (serve_deleteJobs_perm h s now).symm⟩
  · cases hrun : s.stopped with
    | false =>
      exact ((serve_deleteJobs hrun now keys).2.trans (serveAll_deletions hrun asked).2.symm).tables_eq
    | true =>
      simp only [bulk, single, serveAll_deletions_of_stopped hrun, serve_of_stopped hrun]
      exact ⟨rfl, rfl⟩
  · rw [← removeAll_snd]
    exact ⟨(serveAll_deletions hrun asked).1, (serve_deleteJobs hrun now keys).1, removeAll_snd_iff⟩
  · simp only [bulk, single, serveAll_deletions_of_stopped hstopped, serve_of_stopped hstopped]
    exact ⟨rfl, rfl⟩

/-- Two jobs are there, one of them with a trigger that has another key. That one is named twice, and one is named that
is not there; what is left is the other job. Both jobs that are there can be deleted in any order, but not any more when
the engine has been shut down. -/
theorem deleteJobs_eq_deletions_of_repeated : ∃ (now : Instant) (s : Store) (repeated once : List (Instant × Key)),
    s.Reached (fun _ => True) ∧ (s.jobs.size = 2 ∧ s.triggers.size = 1) ∧
      (¬ (repeated.map Prod.snd).Nodup ∧ s.stopped = false ∧
        (s.serve now (.deleteJobs (repeated.map Prod.snd))).reply = .answer false ∧
        (s.serve now (.deleteJobs (repeated.map Prod.snd))).state.triggers =
          (serveAll (deletions repeated) s).2.triggers ∧
        (serveAll (deletions repeated) s).2.jobs.size = 1 ∧ (serveAll (deletions repeated) s).2.triggers.size = 0) ∧
      ((once.map Prod.snd).Perm (once.map Prod.snd).reverse ∧
        (s.serve now (.deleteJobs (once.map Prod.snd).reverse)).reply = .answer true) ∧
      (s.shutDown.1.stopped = true ∧ (s.shutDown.1.serve now (.deleteJobs (once.map Prod.snd))).reply =
        .refused (.unavailable "the scheduler has been shut down")) := by
  let now : Instant := ⟨4133894300, 0, by decide, by decide, by decide, by decide⟩
  let nightly : Key := ⟨"nightly", "eu"⟩
  let mirror : Key := ⟨"mirror", "eu"⟩
  let add (k : Key) : Call := .addJob ⟨k, "backup", ∅, true⟩ false
  let trigger : Trigger := { Trigger.forJob nightly "@daily" now none with key := ⟨"midnight", "any"⟩ }
  let s := (((fresh.serve now (add nightly)).state.serve now (add mirror)).state.serve now (.schedule trigger)).state
  let repeated := [(now, nightly), (now, ⟨"nightly", "us"⟩), (now, nightly)]
  let once := [(now, nightly), (now, mirror)]
  have hs : s.Reached fun _ => True :=
    (((Reached.empty _).call now _ (Call.passes_any _)).call now _ (Call.passes_any _)).call now _ (Call.passes_any _)
  have hrun : s.stopped = false := by decide +kernel
  obtain ⟨⟨-, htriggers⟩, hanswers, -, -⟩ := deleteJobs_eq_deletions s now repeated
  obtain ⟨-, hanswer, -⟩ := hanswers hrun
  obtain ⟨-, honce, -, hperm⟩ := deleteJobs_eq_deletions s now once
  obtain ⟨-, hall, -⟩ := honce hrun
  obtain ⟨-, -, hrefused, -⟩ := deleteJobs_eq_deletions s.shutDown.1 now once
  have hreverse : (once.map Prod.snd).Perm (once.map Prod.snd).reverse := (List.reverse_perm _).symm
  refine ⟨now, s, repeated, once, hs, by decide +kernel, ⟨by decide, hrun, ?_, htriggers, by decide +kernel⟩,
    ⟨hreverse, ?_⟩, rfl, (hrefused rfl).2⟩
  · rw [hanswer, show (s.found (repeated.map Prod.snd)).all Prod.snd = false by decide +kernel]
  · rw [hperm _ hreverse, hall, show (s.found (once.map Prod.snd)).all Prod.snd = true by decide +kernel]

end Store

end JobRoster
