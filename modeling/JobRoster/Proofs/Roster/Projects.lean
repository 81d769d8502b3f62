import JobRoster.Proofs.Roster.Deletions
import JobRoster.Proofs.Roster.Operations
import JobRoster.Proofs.Settings.Naming

/-!
# Projects apart from each other

The jobs of the schedules of a project are declared under keys that are made from the two ids (`scheduleKey`). No key is
made for two schedules (`scheduleKey_inj`), and the request to delete the jobs of a project means the keys of this
project and of no other one (`means_deleteProject_iff`), also where groups are deleted by the ends of their names. If
jobs are only ever declared for schedules, then every key is that of a project (`ofProject_after`), and a project is
deleted without touching another one.

Main statement: `projects_apart`.
-/

namespace JobRoster

namespace Roster

variable {r : Roster} {p q s t : Int64} {d d' : Declaration} {k : Key}

/-! ### Keys made from ids -/

/-- The key under which the job of a schedule of a project is declared. -/
def scheduleKey (r : Roster) (project schedule : Int64) : Key :=
  ⟨r.naming.jobName (.integer schedule.toInt), r.naming.groupName (.integer project.toInt)⟩

/-- **A key of a project**: that of one of its schedules. -/
def OfProject (r : Roster) (project : Int64) (k : Key) : Prop := ∃ schedule, k = r.scheduleKey project schedule

/-- **A declaration for a schedule of a project**: the one that a roster makes for it, or one that differs from that in
its window or its data. -/
def Schedules (r : Roster) (project schedule : Int64) (d : Declaration) : Prop :=
  ∃ jobType flow cron start stop data,
    d = { r.scheduleDeclaration jobType project flow schedule cron start with stop, data }

theorem Schedules.key_eq (h : r.Schedules p s d) : d.key = r.scheduleKey p s := by
  obtain ⟨_, _, _, _, _, _, rfl⟩ := h
  rfl

/-- **Different schedules, and schedules of different projects, have different keys.** -/
theorem scheduleKey_inj : r.scheduleKey p s = r.scheduleKey q t ↔ p = q ∧ s = t := by
  unfold scheduleKey
  rw [Key.mk.injEq, Naming.jobName_inj, Naming.groupName_inj, Int64.toInt_inj, Int64.toInt_inj]
  exact And.comm

theorem Schedules.key_eq_iff (h : r.Schedules p s d) (h' : r.Schedules q t d') : d.key = d'.key ↔ p = q ∧ s = t := by
  rw [h.key_eq, h'.key_eq, scheduleKey_inj]

/-- The name of the group of a project ends with that of another project only if they are the same. -/
theorem groupName_endsWith_iff_eq :
    (∃ front, r.naming.groupName (.integer p.toInt) = front ++ r.naming.groupName (.integer q.toInt)) ↔ p = q :=
  Naming.groupName_endsWith_iff.trans Int64.toInt_inj

/-- **The request to delete the jobs of a project** means the keys of this project and of no other one, whichever way
groups are matched. -/
theorem means_deleteProject_iff (h : r.OfProject p k) : (r.deleteProject (.integer q.toInt)).Means r k ↔ p = q := by
  obtain ⟨s, rfl⟩ := h
  exact Naming.reaches_groupName_iff.trans Int64.toInt_inj

end Roster

/-! ### Jobs that are declared for schedules -/

/-- **An operation makes no jobs but for schedules of projects**: it declares only such, and stores no job otherwise. -/
def Operation.ForProjects (r : Roster) : Operation → Prop
  | call c _ => ∀ job replace, c ≠ .addJob job replace
  | request _ q _ => ∀ d, q = .register d → ∃ project schedule, r.Schedules project schedule d
  | _ => True

namespace Store

variable {r : Roster} {s : Store} {k : Key}

/-- A job that is there after such an operation was there before, or has the key of a project. -/
theorem ofProject_of_run (hs : s.Sound) {op : Operation} (hop : op.ForProjects r) (hk : k ∈ (op.run s).jobs) :
    k ∈ s.jobs ∨ ∃ p, r.OfProject p k := by
  cases op with
  | call c now =>
    obtain hk | ⟨job, replace, hc, -⟩ := (serve_change now c s).mem_jobs hk
    · exact .inl hk
    · exact absurd hc (hop job replace)
  | request r' q now =>
    obtain hk | ⟨d, hd, rfl⟩ := Roster.mem_jobs_of_exec hs hk
    · exact .inl hk
    · obtain ⟨p, schedule, hschedules⟩ := hop d hd
      exact .inr ⟨p, schedule, hschedules.key_eq⟩
  | applyMisfires now => exact .inl ((redated_applyMisfires now s).jobs ▸ hk)
  | clear => simp [Operation.run, clear] at hk
  | shutDown => exact .inl hk

/-- **Every job has the key of a project** after such operations. -/
theorem ofProject_after (threshold : Int) {ops : List Operation} (hops : ∀ op ∈ ops, op.ForProjects r) :
    ∀ k ∈ ((empty threshold).after ops).jobs, ∃ p, r.OfProject p k := by
  refine (after_induction (I := fun s => s.Reached (fun _ => True) ∧ ∀ k ∈ s.jobs, ∃ p, r.OfProject p k) ?_
    ⟨.empty threshold, by simp [empty]⟩).2
  rintro op hop s ⟨hs, hjobs⟩
  refine ⟨hs.run (fun _ _ => trivial) op.passes_any, fun k hk => ?_⟩
  obtain hk | hproject := ofProject_of_run hs.sound (hops op hop) hk
  · exact hjobs k hk
  · exact hproject

end Store

/-! ### What the deletion of a project does -/

namespace Roster

variable {r : Roster} {q : Int64} {s : Store} {k : Key}

/-- **What the deletion of a project does** from one memory to another one. A trigger is of the project of the job that
it fires. -/
structure Cleared (r : Roster) (q : Int64) (s s' : Store) : Prop where
  /-- No job of the project is left. -/
  job : ∀ k, r.OfProject q k → s'.jobs[k]? = none
  /-- No trigger of the project is left. -/
  trigger : ∀ (k : Key) (stored : Stored), s'.triggers[k]? = some stored → ¬ r.OfProject q stored.trigger.jobKey
  /-- The jobs of every other project are what they were. -/
  other_jobs : ∀ p k, p ≠ q → r.OfProject p k → s'.jobs[k]? = s.jobs[k]?
  /-- The triggers of every other project are what they were, their next fire times included. -/
  other_triggers : ∀ (p : Int64) (k : Key) (stored : Stored), p ≠ q → r.OfProject p stored.trigger.jobKey →
    (s'.triggers[k]? = some stored ↔ s.triggers[k]? = some stored)

/-- The request to delete the jobs of a project deletes those of its jobs that are there. -/
theorem mem_targets_deleteProject_iff {p : Int64} (h : r.OfProject p k) :
    k ∈ (r.deleteProject (.integer q.toInt)).targets r s ↔ p = q ∧ k ∈ s.jobs := by
  rw [mem_targets_iff, deletes_iff_means, means_deleteProject_iff h]

/-- The request deletes the jobs and the triggers of the project, wherever the jobs that triggers fire are there. -/
theorem cleared_of_deletion (hs : s.Sound) (hrun : s.stopped = false) (r : Roster) (q : Int64) (now : Instant) :
    r.Cleared q s ((r.program (r.deleteProject (.integer q.toInt))).exec (Store.engine now) s).2 := by
  obtain ⟨counters, hexec⟩ := exec_deletion (r := r) (q := r.deleteProject (.integer q.toInt)) hrun
    (fun _ h => by cases h) now
  rw [hexec]
  refine ⟨fun k hk => ?_, fun k stored hstored hk => ?_, fun p k hne hk => ?_, fun p k stored hne hk => ?_⟩
  · rw [Store.removeAll_jobs, ite_eq_left_iff, mem_targets_deleteProject_iff hk]
    exact fun habsent => Std.ExtTreeMap.getElem?_eq_none fun hmem => habsent ⟨rfl, hmem⟩
  · rw [Store.removeAll_triggers, Option.filter_eq_some_iff, decide_eq_true_eq, mem_targets_deleteProject_iff hk]
      at hstored
    exact hstored.2 ⟨rfl, hs.owner hstored.1⟩
  · rw [Store.removeAll_jobs, if_neg]
    exact fun htarget => hne ((mem_targets_deleteProject_iff hk).1 htarget).1
  · rw [Store.removeAll_triggers, Option.filter_eq_some_iff, decide_eq_true_eq, mem_targets_deleteProject_iff hk]
    exact and_iff_left fun htarget => hne htarget.1

/-- **Projects are apart from each other.** Keys tell schedules and projects apart, no name of the group of a project
ends with that of another one, and if jobs were only declared for schedules, then the deletion of a project leaves none
of its jobs and triggers, and all those of other projects. -/
theorem projects_apart (r : Roster) (threshold : Int) {ops : List Operation} (hops : ∀ op ∈ ops, op.ForProjects r)
    (hrun : ((Store.empty threshold).after ops).stopped = false) :
    (∀ p q s t d d', r.Schedules p s d → r.Schedules q t d' → (d.key = d'.key ↔ p = q ∧ s = t)) ∧
      (∀ p q : Int64, (∃ front, r.naming.groupName (.integer p.toInt) =
        front ++ r.naming.groupName (.integer q.toInt)) ↔ p = q) ∧
      (∀ k ∈ ((Store.empty threshold).after ops).jobs, ∃ p, r.OfProject p k) ∧
      ∀ (q : Int64) (now : Instant), ∃ run,
        r.perform (Store.engine now) (r.deleteProject (.integer q.toInt)) ⟨.free, (Store.empty threshold).after ops⟩ =
          some run ∧
        run.result = .ok (.deleted true) ∧ r.Cleared q ((Store.empty threshold).after ops) run.state.engine := by
  refine ⟨fun p q s t d d' h h' => h.key_eq_iff h', fun p q => groupName_endsWith_iff_eq,
    Store.ofProject_after threshold hops, fun q now => ?_⟩
  obtain ⟨run, hperform, hresult, hstate⟩ := perform_deletion (q := r.deleteProject (.integer q.toInt)) hrun
    (fun _ h => by cases h) r now
  refine ⟨run, hperform, hresult, ?_⟩
  rw [hstate]
  exact cleared_of_deletion (Store.reached_after threshold ops).sound hrun r q now

/-- Schedules of three projects are declared whose ids end alike, one with a window, the stems of names themselves end
with an underscore and a digit, and missed fire times are treated. -/
theorem projects_apart_of_similar_ids : ∃ (r : Roster) (threshold : Int) (ops : List Operation),
    r.groupMatch = .suffix ∧ (∀ op ∈ ops, op.ForProjects r) ∧
      ((Store.empty threshold).after ops).stopped = false ∧
        (((Store.empty threshold).after ops).jobs.keys.map Key.group = ["p_7_-7", "p_7_17", "p_7_7"] ∧
          ((Store.empty threshold).after ops).triggers.size = 3) ∧
        ∀ (q : Int64) (now : Instant), ∃ run,
          r.perform (Store.engine now) (r.deleteProject (.integer q.toInt)) ⟨.free, (Store.empty threshold).after ops⟩ =
            some run ∧
          run.result = .ok (.deleted true) ∧ r.Cleared q ((Store.empty threshold).after ops) run.state.engine := by
  let now : Instant := ⟨4133894300, 0, by decide, by decide, by decide, by decide⟩
  let later : Instant := ⟨4133980700, 0, by decide, by decide, by decide, by decide⟩
  let r : Roster := { Roster.standard with naming := ⟨"job_1", "p_7"⟩ }
  let d (project schedule : Int64) : Declaration := r.scheduleDeclaration "backup" project 1 schedule "@daily" now
  let bounded : Declaration := { d (-7) 5 with stop := some later }
  have hd (project schedule : Int64) : r.Schedules project schedule (d project schedule) :=
    ⟨"backup", 1, "@daily", now, none, _, rfl⟩
  have hbounded : r.Schedules (-7) 5 bounded := ⟨"backup", 1, "@daily", now, some later, _, rfl⟩
  let ops : List Operation := [.request r (.register (d 7 5)) now, .request r (.register (d 17 5)) now,
    .request r (.register bounded) now, .applyMisfires later]
  have hops : ∀ op ∈ ops, op.ForProjects r := by
    simp only [ops, List.forall_mem_cons, Operation.ForProjects, Request.register.injEq, forall_eq']
    exact ⟨⟨7, 5, hd 7 5⟩, ⟨17, 5, hd 17 5⟩, ⟨-7, 5, hbounded⟩, trivial, by simp⟩
  have hrun : ((Store.empty 0).after ops).stopped = false := by decide +kernel
  exact ⟨r, 0, ops, rfl, hops, hrun, by decide +kernel, (projects_apart r 0 hops hrun).2.2.2⟩

end Roster

end JobRoster
