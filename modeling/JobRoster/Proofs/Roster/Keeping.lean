import JobRoster.Proofs.Roster.Deletions
import JobRoster.Proofs.Roster.Reconciliation

/-!
# What requests leave alone

A request touches nothing but what is under the keys that it is about (`Roster.agreeAt_exec_of_not_concerns`). A job
goes away by a request that deletes it, and by no other one, and what it holds under a name changes by a declaration of
the job with data under that name, and by no other request (`Roster.perform_keeps`). A declaration that was carried out
leaves the job there with the data that were declared (`Declaration.Reconciled.holds`).
-/

namespace JobRoster

variable {k : Key} {s : Store} {now : Instant}

/-! ### Declarations -/

namespace Declaration

variable {d : Declaration} {s' : Store} {result : Except Crash (Except EngineError Outcome)} {job : Job}

/-- A declaration has data under a name. -/
def Declares (d : Declaration) (name : String) : Prop := ∃ data value, d.data = some data ∧ data[name]? = some value

/-- However a declaration ends, the jobs are what they were, or its own job has been brought in line. -/
theorem Ending.jobs (h : d.Ending now s (result, s')) : s'.jobs = s.jobs ∨ s'.jobs = (d.withJob s).jobs := by
  cases h with
  | stopped | blocked _ => exact .inl rfl
  | _ => exact .inr rfl

theorem dataAfter_getElem? {old : Payload} {name : String} (h : ¬ d.Declares name) :
    (d.dataAfter old)[name]? = old[name]? := by
  unfold dataAfter
  split
  · next data hdata =>
    rw [Payload.getElem?_merge]
    split
    · next value hvalue => exact absurd ⟨data, value, hdata, hvalue⟩ h
    · rfl
  · rfl

/-- A job that is there stays there, with what it holds under names that are not declared. -/
theorem Ending.keeps_job (h : d.Ending now s (result, s')) (hjob : s.jobs[k]? = some job) :
    ∃ job', s'.jobs[k]? = some job' ∧
      ∀ name, ¬ (d.key = k ∧ d.Declares name) → job'.data[name]? = job.data[name]? := by
  obtain hjobs | hjobs := h.jobs
  · exact ⟨job, hjobs ▸ hjob, fun _ _ => rfl⟩
  · by_cases hk : d.key = k
    · subst hk
      refine ⟨d.jobAfter (some job), ?_, fun name hname => dataAfter_getElem? fun hdata => hname ⟨rfl, hdata⟩⟩
      rw [hjobs, withJob, hjob]
      exact Std.ExtTreeMap.getElem?_insert_self
    · refine ⟨job, ?_, fun _ _ => rfl⟩
      rw [hjobs, withJob, Table.getElem?_insert_of_ne hk, hjob]

/-- Under a name that is not declared, the job after a declaration has what it had before. -/
theorem jobAfter_getElem? {old : Option Job} {name : String} (h : ¬ d.Declares name) :
    (d.jobAfter old).data[name]? = old.bind (·.data[name]?) := by
  cases old with
  | none =>
    unfold jobAfter Declaration.job
    cases hdata : d.data with
    | none => exact Std.ExtTreeMap.getElem?_empty
    | some data =>
      refine Option.eq_none_iff_forall_not_mem.2 fun value hvalue => ?_
      exact h ⟨data, value, hdata, hvalue⟩
  | some old => exact dataAfter_getElem? h

/-- The job after a declaration holds what was declared, also if it was there before. -/
theorem jobAfter_holds (old : Option Job) {data : Payload} (hdata : d.data = some data) {name : String} {value : Datum}
    (hvalue : data[name]? = some value) : (d.jobAfter old).data.holds name value = true := by
  cases old with
  | none =>
    have hnew : (d.jobAfter none).data = data := by simp [jobAfter, Declaration.job, hdata]
    rw [hnew]
    exact Payload.holds_of_getElem? hvalue
  | some old =>
    have hmerged : (d.jobAfter (some old)).data = (old.data.merge data).1 := by simp [jobAfter, dataAfter, hdata]
    rw [hmerged]
    exact Payload.merge_holds old.data hvalue

/-- **What was declared is there** once the declaration was carried out. -/
theorem Reconciled.holds {o : Outcome} (h : d.Reconciled now s s' o) {data : Payload} (hdata : d.data = some data)
    {name : String} {value : Datum} (hvalue : data[name]? = some value) :
    ∃ job, s'.jobs[d.key]? = some job ∧ job.data.holds name value = true :=
  ⟨_, h.job.job, jobAfter_holds _ hdata hvalue⟩

end Declaration

/-! ### Requests -/

namespace Roster

/-- A request declares data of a job under a name. -/
def Request.Declares (k : Key) (name : String) : Request → Prop
  | register d => d.key = k ∧ d.Declares name
  | _ => False

/-- **A request touches nothing** under a key that it is not about, however it ends. -/
theorem agreeAt_exec_of_not_concerns {r : Roster} {q : Request} (hs : s.Sound) (hm : s.Mirrored)
    (hq : ¬ q.Concerns r k) (now : Instant) : s.AgreeAt k ((r.program q).exec (Store.engine now) s).2 := by
  cases hstopped : s.stopped with
  | true =>
    rw [Store.exec_of_stopped hstopped]
    exact ⟨rfl, rfl⟩
  | false =>
    by_cases hdeclares : ∃ d, q = .register d
    · obtain ⟨d, rfl⟩ := hdeclares
      obtain ⟨counters, hexec⟩ := d.exec_program now r hs hm
      rw [hexec]
      exact (d.ending_afterwards now s).agreeAt (Ne.symm hq)
    · obtain ⟨counters, hexec⟩ := exec_deletion (r := r) hstopped (fun d hd => hdeclares ⟨d, hd⟩) now
      rw [hexec]
      exact agreeAt_of_not_deletes hs hm fun hdeletes => hq hdeletes.concerns

/-- **A job that is there stays there** unless a request is to delete it, with what it holds under names that the
request does not declare. -/
theorem perform_keeps {r : Roster} {q : Request} {lock : LockState} {run : Program.Run (World Store) Answer}
    (hs : s.Sound) (hm : s.Mirrored) (hrun : r.perform (Store.engine now) q ⟨lock, s⟩ = some run)
    (hq : ¬ q.Deletes r k) {job : Job} (hjob : s.jobs[k]? = some job) :
    ∃ job', run.state.engine.jobs[k]? = some job' ∧
      ∀ name, ¬ q.Declares k name → job'.data[name]? = job.data[name]? := by
  have hstate : run.state.engine = ((r.program q).exec (Store.engine now) s).2 :=
    congrArg Prod.snd (perform_eq_some hrun).1
  by_cases hconcerns : q.Concerns r k
  · obtain ⟨d, rfl, rfl⟩ := hconcerns.exists_register hq
    obtain ⟨result, s', hending, -, hjobs, -⟩ := ending_of_register hs hm hrun
    rw [hjobs]
    exact hending.keeps_job hjob
  · refine ⟨job, ?_, fun _ _ => rfl⟩
    rw [hstate, ← (agreeAt_exec_of_not_concerns hs hm hconcerns now).1, hjob]

end Roster

end JobRoster
