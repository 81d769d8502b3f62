import JobRoster.Proofs.Roster.Operations
import JobRoster.Proofs.Roster.Tallies

/-!
# Requests about different jobs

A request to declare or to delete one job (`Request.identity?`) depends on nothing but what is stored under the identity
of the job: what it ends with, what it leaves there and what it counts (`Roster.exec_congr_at`). It touches nothing
else, as long as triggers have the keys of their jobs. So two such requests about different jobs do not notice each
other (`Roster.exec_after_other`).

Main statements:

* `distinct_requests_commute`: whichever of two requests about different jobs comes first, both end alike, and the
  memory is the same in the end.
* `Store.after_perm`: any number of such requests may be made in any order.
-/

namespace JobRoster

variable {k : Key} {s s' : Store} {now : Instant}

/-! ### What a declaration depends on -/

namespace Declaration

variable {d : Declaration}

theorem stage_congr (h : s.AgreeAt d.key s') (hstopped : s.stopped = s'.stopped) : d.stage s = d.stage s' := by
  unfold stage blocked
  simp only [Std.ExtTreeMap.contains_eq_isSome_getElem?, h.1, h.2, hstopped]

theorem tally_congr (h : s.AgreeAt d.key s') (stage : Stage) : d.tally now s stage = d.tally now s' stage := by
  unfold tally
  rw [h.1, h.2]

theorem agreeAt_withJob_of_agreeAt (h : s.AgreeAt d.key s') : (d.withJob s).AgreeAt d.key (d.withJob s') := by
  refine ⟨?_, h.2⟩
  rw [withJob, withJob, Std.ExtTreeMap.getElem?_insert_self, Std.ExtTreeMap.getElem?_insert_self, h.1]

/-- What a declaration ends with at a stage, and what it leaves under its identity, depends on what is there. -/
theorem verdict_congr (h : s.AgreeAt d.key s') (now : Instant) (stage : Stage) :
    (d.verdict now s stage).1 = (d.verdict now s' stage).1 ∧
      (d.verdict now s stage).2.AgreeAt d.key (d.verdict now s' stage).2 := by
  have hjob := agreeAt_withJob_of_agreeAt h
  cases stage with
  | stopped | blocked => exact ⟨rfl, h⟩
  | kept => exact ⟨by rw [verdict, verdict, h.1], hjob⟩
  | foreign => exact ⟨rfl, hjob⟩
  | prepared =>
    rw [verdict, verdict, h.1, h.2, Store.putPrepared, Store.putPrepared]
    cases Store.prepare now d.trigger with
    | answer stored =>
      have hput (t : Table Stored) : (t.insert d.key stored)[d.key]? = some stored :=
        Std.ExtTreeMap.getElem?_insert_self
      exact ⟨rfl, hjob.1, (hput _).trans (hput _).symm⟩
    | refused e | crashed crash => exact ⟨rfl, hjob⟩

end Declaration

/-! ### What a request about one job depends on -/

namespace Roster

variable {r : Roster} {q : Request}

/-- The identity of the one job that a request is about, if it is about one. -/
def Request.identity? : Request → Option Key
  | .register d => some d.key
  | .deleteJob name group => some ⟨name, group⟩
  | .deleteGroup _ => none

theorem concerns_iff_of_identity (hq : q.identity? = some k) {k' : Key} : q.Concerns r k' ↔ k' = k := by
  cases q with
  | register d =>
    cases hq
    exact eq_comm
  | deleteJob name group =>
    cases hq
    exact Iff.rfl
  | deleteGroup group => cases hq

/-- What a deletion of a job depends on is whether the engine takes calls, and whether the job is there. -/
theorem exec_deleteJob_congr {name group : String} (hs : s.Reached Trigger.Mirrors) (hs' : s'.Reached Trigger.Mirrors)
    (h : s.AgreeAt ⟨name, group⟩ s') (hstopped : s.stopped = s'.stopped) (r : Roster) (now : Instant) :
    ((r.program (.deleteJob name group)).exec (Store.engine now) s).1 =
        ((r.program (.deleteJob name group)).exec (Store.engine now) s').1 ∧
      ((r.program (.deleteJob name group)).exec (Store.engine now) s).2.AgreeAt ⟨name, group⟩
        ((r.program (.deleteJob name group)).exec (Store.engine now) s').2 := by
  have hq : ∀ d, Request.deleteJob name group ≠ .register d := by
    intro d hd
    cases hd
  cases hrun : s.stopped with
  | true =>
    obtain ⟨counters, hexec⟩ := exec_deletion_of_stopped (r := r) hrun hq now
    obtain ⟨counters', hexec'⟩ := exec_deletion_of_stopped (r := r) (hstopped ▸ hrun) hq now
    rw [hexec, hexec']
    exact ⟨rfl, h⟩
  | false =>
    obtain ⟨counters, hexec⟩ := exec_deletion (r := r) hrun hq now
    obtain ⟨counters', hexec'⟩ := exec_deletion (r := r) (hstopped ▸ hrun) hq now
    rw [hexec, hexec', removeAll_targets, removeAll_targets]
    -- nothing is left of the job on either side
    have hdeletes : (Request.deleteJob name group).Deletes r ⟨name, group⟩ := rfl
    obtain ⟨hjob, htrigger⟩ := nothing_left_of_deletes hs.sound hs.mirrored hdeletes
    obtain ⟨hjob', htrigger'⟩ := nothing_left_of_deletes hs'.sound hs'.mirrored hdeletes
    exact ⟨rfl, hjob.trans hjob'.symm, htrigger.trans htrigger'.symm⟩

/-- **A request about one job depends on nothing but that job and its trigger**: what it ends with, what it leaves under
the identity of the job, and what it counts. -/
theorem exec_congr_at (hq : q.identity? = some k) (hs : s.Reached Trigger.Mirrors) (hs' : s'.Reached Trigger.Mirrors)
    (h : s.AgreeAt k s') (hstopped : s.stopped = s'.stopped) (r : Roster) (now : Instant) :
    ((r.program q).exec (Store.engine now) s).1 = ((r.program q).exec (Store.engine now) s').1 ∧
      ((r.program q).exec (Store.engine now) s).2.AgreeAt k ((r.program q).exec (Store.engine now) s').2 ∧
        q.tally r now s = q.tally r now s' := by
  cases q with
  | register d =>
    obtain rfl : d.key = k := Option.some.inj hq
    obtain ⟨counters, hexec⟩ := d.exec_program_verdict now r hs.sound
    obtain ⟨counters', hexec'⟩ := d.exec_program_verdict now r hs'.sound
    rw [hexec, hexec', Request.tally, Request.tally, Declaration.stage_congr h hstopped]
    obtain ⟨hresult, hagree⟩ := Declaration.verdict_congr h now (d.stage s')
    exact ⟨congrArg d.answer hresult, hagree, Declaration.tally_congr h _⟩
  | deleteJob name group =>
    obtain rfl : (⟨name, group⟩ : Key) = k := Option.some.inj hq
    obtain ⟨hresult, hagree⟩ := exec_deleteJob_congr hs hs' h hstopped r now
    refine ⟨hresult, hagree, ?_⟩
    simp only [Request.tally, Request.targets, Std.ExtTreeMap.contains_eq_isSome_getElem?, h.1, hstopped]
  | deleteGroup group => cases hq

/-! ### One request after another -/

variable {a b : Request} {k' : Key}

theorem counters_run_request (hs : s.Reached Trigger.Mirrors) (q : Request) :
    ((Operation.request r q now).run s).counters = s.counters + q.tally r now s := exec_counters hs.sound q

section Comm

open Operation (request)

variable (ha : a.identity? = some k) (hb : b.identity? = some k') (hne : k ≠ k') (hs : s.Reached Trigger.Mirrors)
  (r r' : Roster) (now now' : Instant)
include ha hb hne hs

/-- **A request does not notice one before it** that is about another job: it ends alike, leaves the same of its own
job, and counts the same. -/
theorem exec_after_other :
    ((r.program a).exec (Store.engine now) ((request r' b now').run s)).1 =
        ((r.program a).exec (Store.engine now) s).1 ∧
      ((request r a now).run ((request r' b now').run s)).AgreeAt k ((request r a now).run s) ∧
        a.tally r now ((request r' b now').run s) = a.tally r now s := by
  have hother : ¬ b.Concerns r' k := fun h => hne ((concerns_iff_of_identity hb).1 h)
  refine exec_congr_at ha (hs.program (fun _ h => h) r' b) hs ?_ ?_ r now
  · exact (agreeAt_exec_of_not_concerns hs.sound hs.mirrored hother now').symm
  · exact congrArg Prod.fst (Store.exec_standing now' (r'.program b) s)

/-- Whichever of the two comes first, the same is left of the one job. -/
theorem agreeAt_run_comm : ((request r' b now').run ((request r a now).run s)).AgreeAt k
    ((request r a now).run ((request r' b now').run s)) := by
  have hother : ¬ b.Concerns r' k := fun h => hne ((concerns_iff_of_identity hb).1 h)
  have hsa : ((request r a now).run s).Reached Trigger.Mirrors := hs.program (fun _ h => h) r a
  obtain ⟨-, hagree, -⟩ := exec_after_other ha hb hne hs r r' now now'
  exact (agreeAt_exec_of_not_concerns hsa.sound hsa.mirrored hother now').symm.trans hagree.symm

/-- **Whichever of two requests about different jobs comes first**, the memory is the same in the end. -/
theorem run_request_comm : (request r' b now').run ((request r a now).run s) =
    (request r a now).run ((request r' b now').run s) := by
  have hsa : ((request r a now).run s).Reached Trigger.Mirrors := hs.program (fun _ h => h) r a
  have hsb : ((request r' b now').run s).Reached Trigger.Mirrors := hs.program (fun _ h => h) r' b
  refine Store.eq_of_agreeAt (fun x => ?_) ?_ ?_
  · by_cases hx : x = k
    · subst hx
      exact agreeAt_run_comm ha hb hne hs r r' now now'
    · by_cases hx' : x = k'
      · subst hx'
        exact (agreeAt_run_comm hb ha hne.symm hs r' r now' now).symm
      · -- under any other key neither of them has done anything
        have hnota : ¬ a.Concerns r x := fun h => hx ((concerns_iff_of_identity ha).1 h)
        have hnotb : ¬ b.Concerns r' x := fun h => hx' ((concerns_iff_of_identity hb).1 h)
        have hab := (agreeAt_exec_of_not_concerns hs.sound hs.mirrored hnota now).trans
          (agreeAt_exec_of_not_concerns hsa.sound hsa.mirrored hnotb now')
        have hba := (agreeAt_exec_of_not_concerns hs.sound hs.mirrored hnotb now').trans
          (agreeAt_exec_of_not_concerns hsb.sound hsb.mirrored hnota now)
        exact hab.symm.trans hba
  · obtain ⟨-, -, htallya⟩ := exec_after_other ha hb hne hs r r' now now'
    obtain ⟨-, -, htallyb⟩ := exec_after_other hb ha hne.symm hs r' r now' now
    calc ((request r' b now').run ((request r a now).run s)).counters
        = s.counters + a.tally r now s + b.tally r' now' ((request r a now).run s) := by
          rw [counters_run_request hsa, counters_run_request hs]
      _ = s.counters + b.tally r' now' s + a.tally r now ((request r' b now').run s) := by
          rw [htallya, htallyb, add_right_comm]
      _ = ((request r a now).run ((request r' b now').run s)).counters := by
          rw [counters_run_request hsb, counters_run_request hs]
  · simp only [Operation.run, Store.exec_standing]

end Comm

/-- **Requests about different jobs commute**, from every memory that is reached: two requests to declare or to delete
one job each, at whatever times, end alike whichever of them comes first, be it that they are carried out, refused or
broken off, and the memory is the same in the end, with its jobs, its triggers, their next fire times and all
counters. -/
theorem distinct_requests_commute (ha : a.identity? = some k) (hb : b.identity? = some k') (hne : k ≠ k')
    (hs : s.Reached Trigger.Mirrors) (r : Roster) (now now' : Instant) :
    ∃ ra rab rb rba : Program.Run (World Store) Answer,
      (r.perform (Store.engine now) a ⟨.free, s⟩ = some ra ∧ r.perform (Store.engine now') b ra.state = some rab) ∧
      (r.perform (Store.engine now') b ⟨.free, s⟩ = some rb ∧ r.perform (Store.engine now) a rb.state = some rba) ∧
      ra.result = rba.result ∧ rb.result = rab.result ∧ rab.state = rba.state := by
  obtain ⟨ra, hra, hresulta, hstatea⟩ := r.perform_free (Store.engine now) a s
  obtain ⟨rb, hrb, hresultb, hstateb⟩ := r.perform_free (Store.engine now') b s
  obtain ⟨rab, hrab, hresultab, hstateab⟩ :=
    r.perform_free (Store.engine now') b ((r.program a).exec (Store.engine now) s).2
  obtain ⟨rba, hrba, hresultba, hstateba⟩ :=
    r.perform_free (Store.engine now) a ((r.program b).exec (Store.engine now') s).2
  rw [← hstatea] at hrab
  rw [← hstateb] at hrba
  refine ⟨ra, rab, rb, rba, ⟨hra, hrab⟩, ⟨hrb, hrba⟩, ?_, ?_, ?_⟩
  · rw [hresulta, hresultba]
    exact (exec_after_other ha hb hne hs r r now now').1.symm
  · rw [hresultb, hresultab]
    exact (exec_after_other hb ha hne.symm hs r r now' now).1.symm
  · rw [hstateab, hstateba]
    exact congrArg (World.mk LockState.free) (run_request_comm ha hb hne hs r r now now')

/-- A job is there. It is declared again with another schedule and with data, and in the same group another one is
declared with a schedule that cannot be read, so that it is made without a trigger. -/
theorem distinct_requests_commute_in_group : ∃ (now : Instant) (s : Store) (a b : Request) (k k' : Key),
    a.identity? = some k ∧ b.identity? = some k' ∧ k ≠ k' ∧ s.Reached Trigger.Mirrors ∧
      (k.group = k'.group ∧ s.jobs.size = 1) ∧ ∃ ra rab rb rba : Program.Run (World Store) Answer,
        (standard.perform (Store.engine now) a ⟨.free, s⟩ = some ra ∧
          standard.perform (Store.engine now) b ra.state = some rab) ∧
        (standard.perform (Store.engine now) b ⟨.free, s⟩ = some rb ∧
          standard.perform (Store.engine now) a rb.state = some rba) ∧
        ra.result = rba.result ∧ rb.result = rab.result ∧ rab.state = rba.state := by
  let now : Instant := ⟨4133894300, 0, by decide, by decide, by decide, by decide⟩
  let d (name cron : String) (data : Option Payload) : Declaration :=
    { jobType := "backup", name, group := "eu", cron, start := now, stop := none, data }
  let hourly := d "nightly" "@hourly" (some ((∅ : Payload).insert "retries" (.integer 3)))
  let nonsense := d "mirror" "every now and then" none
  let s := ((standard.program (.register (d "nightly" "@daily" none))).exec (Store.engine now) .fresh).2
  have hs : s.Reached Trigger.Mirrors := (Store.Reached.empty _).program (fun _ h => h) _ _
  have hne : hourly.key ≠ nonsense.key := by decide
  exact ⟨now, s, .register hourly, .register nonsense, hourly.key, nonsense.key, rfl, rfl, hne, hs,
    ⟨rfl, by decide +kernel⟩, distinct_requests_commute rfl rfl hne hs standard now now⟩

end Roster

/-! ### Any number of requests -/

namespace Operation

/-- The identity of the one job that an operation is about, if it is a request about one. -/
def identity? : Operation → Option Key
  | request _ q _ => q.identity?
  | _ => none

/-- What is about one job is a request. -/
theorem exists_request_of_identity {op : Operation} (h : op.identity? = some k) :
    ∃ r q now, op = request r q now ∧ q.identity? = some k := by
  cases op with
  | request r q now => exact ⟨r, q, now, rfl, h⟩
  | _ => cases h

theorem run_comm {op op' : Operation} {k' : Key} (h : op.identity? = some k) (h' : op'.identity? = some k')
    (hne : k ≠ k') (hs : s.Reached Trigger.Mirrors) : op'.run (op.run s) = op.run (op'.run s) := by
  obtain ⟨r, q, now, rfl, hq⟩ := exists_request_of_identity h
  obtain ⟨r', q', now', rfl, hq'⟩ := exists_request_of_identity h'
  exact Roster.run_request_comm hq hq' hne hs r r' now now'

end Operation

/-- **Requests about different jobs may be made in any order**, each of them at its own time: the memory is the same in
the end. -/
theorem Store.after_perm {ops ops' : List Operation} (hperm : ops.Perm ops') (hops : ∀ op ∈ ops, op.identity?.isSome)
    (hdistinct : (ops.map Operation.identity?).Nodup) (hs : s.Reached Trigger.Mirrors) :
    s.after ops = s.after ops' := by
  induction hperm generalizing s with
  | nil => rfl
  | cons op hperm ih =>
    obtain ⟨hop, hrest⟩ := List.forall_mem_cons.1 hops
    obtain ⟨k, hk⟩ := Option.isSome_iff_exists.1 hop
    obtain ⟨r, q, now, rfl, -⟩ := Operation.exists_request_of_identity hk
    exact ih hrest (List.nodup_cons.1 hdistinct).2 (hs.run (fun _ h => h) trivial)
  | swap op op' ops =>
    obtain ⟨hop', hrest⟩ := List.forall_mem_cons.1 hops
    obtain ⟨k', hk'⟩ := Option.isSome_iff_exists.1 hop'
    obtain ⟨k, hk⟩ := Option.isSome_iff_exists.1 (List.forall_mem_cons.1 hrest).1
    have hne : k' ≠ k := by
      rintro rfl
      exact (List.nodup_cons.1 hdistinct).1 (by simp [hk, hk'])
    rw [after_cons, after_cons, after_cons, after_cons, Operation.run_comm hk' hk hne hs]
  | trans hperm _ ih ih' =>
    rw [ih hops hdistinct hs]
    exact ih' (fun op hop => hops op (hperm.mem_iff.2 hop)) ((hperm.map _).nodup_iff.1 hdistinct) hs

end JobRoster
