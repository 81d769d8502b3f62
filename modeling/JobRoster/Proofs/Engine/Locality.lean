import JobRoster.Proofs.Engine.History

/-!
# Calls within a scope

A call is within a scope if all keys that it names are in the groups of the scope; to list keys is to name them all.
What a call within a scope leads to depends on the memory in that scope alone (`Agree.serve_congr`), and nothing outside
of it is touched (`serve_frame`), as long as triggers have the keys of their jobs: a deletion goes through all triggers,
but it finds none to delete outside of the groups of the jobs. The same holds of programs that make only such calls
(`exec_congr`, `exec_frame`).
-/

namespace JobRoster

/-- The keys in the groups of a scope. -/
def Scope.Covers : Scope → Key → Prop
  | group g, k => k.group = g
  | all, _ => True

/-- **A call within a scope** names only keys of the scope. -/
def Call.Within (scope : Scope) : Call → Prop
  | jobExists k | triggerExists k | getJob k | getTrigger k | deleteJob k => scope.Covers k
  | addJob job _ => scope.Covers job.key
  | schedule t => scope.Covers t.key ∧ scope.Covers t.jobKey
  | reschedule k t => scope.Covers k ∧ scope.Covers t.key
  | deleteJobs keys => ∀ k ∈ keys, scope.Covers k
  | jobKeys _ => scope = .all

/-- Every call is within the scope of all groups. -/
theorem Call.within_all (c : Call) : c.Within .all := by
  cases c with
  | schedule t => exact ⟨trivial, trivial⟩
  | reschedule k t => exact ⟨trivial, trivial⟩
  | deleteJobs keys => exact fun _ _ => trivial
  | jobKeys matcher => exact rfl
  | _ => exact trivial

namespace Store

variable {s s' s'' : Store} {now : Instant} {scope : Scope} {c : Call}

/-! ### Memories that agree -/

/-- Two memories have the same under a key. -/
def AgreeAt (k : Key) (s s' : Store) : Prop := s.jobs[k]? = s'.jobs[k]? ∧ s.triggers[k]? = s'.triggers[k]?

theorem AgreeAt.symm {k : Key} (h : AgreeAt k s s') : AgreeAt k s' s := ⟨h.1.symm, h.2.symm⟩

theorem AgreeAt.trans {k : Key} (h : AgreeAt k s s') (h' : AgreeAt k s' s'') : AgreeAt k s s'' :=
  ⟨h.1.trans h'.1, h.2.trans h'.2⟩

/-- Memories that have the same under each key, the same counters and the same standing are the same. -/
theorem eq_of_agreeAt (hagree : ∀ k, s.AgreeAt k s') (hcounters : s.counters = s'.counters)
    (hstanding : s.standing = s'.standing) : s = s' := by
  obtain ⟨jobs, triggers, counters, stopped, threshold⟩ := s
  obtain ⟨jobs', triggers', counters', stopped', threshold'⟩ := s'
  obtain rfl : jobs = jobs' := Std.ExtTreeMap.ext_getElem? fun k => (hagree k).1
  obtain rfl : triggers = triggers' := Std.ExtTreeMap.ext_getElem? fun k => (hagree k).2
  obtain rfl : counters = counters' := hcounters
  obtain ⟨rfl, rfl⟩ := Prod.mk.inj hstanding
  rfl

/-- **Two memories agree in a scope**: they have the same under its keys, and both take calls or both do not. -/
structure Agree (scope : Scope) (s s' : Store) : Prop where
  /-- They have the same under each key. -/
  at_key : ∀ k, scope.Covers k → AgreeAt k s s'
  /-- Both have been shut down, or none. -/
  stopped : s.stopped = s'.stopped

theorem Agree.symm (h : Agree scope s s') : Agree scope s' s := ⟨fun k hk => (h.at_key k hk).symm, h.stopped.symm⟩

theorem Agree.trans (h : Agree scope s s') (h' : Agree scope s' s'') : Agree scope s s'' :=
  ⟨fun k hk => (h.at_key k hk).trans (h'.at_key k hk), h.stopped.trans h'.stopped⟩

theorem Agree.jobs_contains (h : Agree scope s s') {k : Key} (hk : scope.Covers k) :
    s.jobs.contains k = s'.jobs.contains k := by
  rw [Std.ExtTreeMap.contains_eq_isSome_getElem?, Std.ExtTreeMap.contains_eq_isSome_getElem?, (h.at_key k hk).1]

theorem Agree.triggers_contains (h : Agree scope s s') {k : Key} (hk : scope.Covers k) :
    s.triggers.contains k = s'.triggers.contains k := by
  rw [Std.ExtTreeMap.contains_eq_isSome_getElem?, Std.ExtTreeMap.contains_eq_isSome_getElem?, (h.at_key k hk).2]

/-- Memories that agree in all groups have the same tables. -/
theorem Agree.tables_eq (h : Agree .all s s') : s.jobs = s'.jobs ∧ s.triggers = s'.triggers :=
  ⟨Std.ExtTreeMap.ext_getElem? fun k => (h.at_key k trivial).1,
    Std.ExtTreeMap.ext_getElem? fun k => (h.at_key k trivial).2⟩

/-- Tables that are changed alike go on agreeing. -/
theorem Agree.insert_job (h : Agree scope s s') (k : Key) (job : Job) :
    Agree scope { s with jobs := s.jobs.insert k job } { s' with jobs := s'.jobs.insert k job } := by
  refine ⟨fun k' hk' => ⟨?_, (h.at_key k' hk').2⟩, h.stopped⟩
  rw [Std.ExtTreeMap.getElem?_insert, Std.ExtTreeMap.getElem?_insert, (h.at_key k' hk').1]

theorem Agree.putTrigger (h : Agree scope s s') (k : Key) (stored : Stored) :
    Agree scope (s.putTrigger k stored) (s'.putTrigger k stored) := by
  refine ⟨fun k' hk' => ⟨(h.at_key k' hk').1, ?_⟩, h.stopped⟩
  rw [Store.putTrigger, Store.putTrigger, Std.ExtTreeMap.getElem?_insert, Std.ExtTreeMap.getElem?_insert,
    (h.at_key k' hk').2]

theorem Agree.erase_trigger (h : Agree scope s s') (k : Key) :
    Agree scope { s with triggers := s.triggers.erase k } { s' with triggers := s'.triggers.erase k } := by
  refine ⟨fun k' hk' => ⟨(h.at_key k' hk').1, ?_⟩, h.stopped⟩
  rw [Std.ExtTreeMap.getElem?_erase, Std.ExtTreeMap.getElem?_erase, (h.at_key k' hk').2]

theorem Agree.remove (h : Agree scope s s') (k : Key) : Agree scope (s.remove k) (s'.remove k) := by
  refine ⟨fun k' hk' => ⟨?_, ?_⟩, h.stopped⟩
  · rw [remove_jobs, remove_jobs, (h.at_key k' hk').1]
  · rw [remove_triggers, remove_triggers, (h.at_key k' hk').2]

theorem Agree.removeAll (h : Agree scope s s') {keys : List Key} (hkeys : ∀ k ∈ keys, scope.Covers k) :
    Agree scope (s.removeAll keys).1 (s'.removeAll keys).1 ∧ (s.removeAll keys).2 = (s'.removeAll keys).2 := by
  induction keys generalizing s s' with
  | nil => exact ⟨h, rfl⟩
  | cons k keys ih =>
    obtain ⟨hk, hkeys⟩ := List.forall_mem_cons.1 hkeys
    obtain ⟨hstate, hall⟩ := ih (h.remove k) hkeys
    refine ⟨hstate, ?_⟩
    change (s.jobs.contains k && ((s.remove k).removeAll keys).2) =
      (s'.jobs.contains k && ((s'.remove k).removeAll keys).2)
    rw [hall, h.jobs_contains hk]

/-! ### One call -/

theorem addJob_congr (h : Agree scope s s') {job : Job} (hjob : scope.Covers job.key) (replace : Bool) :
    (s.addJob job replace).reply = (s'.addJob job replace).reply ∧
      Agree scope (s.addJob job replace).state (s'.addJob job replace).state := by
  unfold addJob
  simp only [h.jobs_contains hjob, h.triggers_contains hjob]
  split
  · exact ⟨rfl, h⟩
  · split
    · exact ⟨rfl, h⟩
    · have hinsert := h.insert_job job.key job
      exact ⟨rfl, hinsert.at_key, hinsert.stopped⟩

theorem schedule_congr (h : Agree scope s s') {t : Trigger} (hkey : scope.Covers t.key) (hjob : scope.Covers t.jobKey) :
    (s.schedule now t).reply = (s'.schedule now t).reply ∧
      Agree scope (s.schedule now t).state (s'.schedule now t).state := by
  unfold schedule
  rw [h.jobs_contains hjob, h.triggers_contains hkey]
  split
  · exact ⟨rfl, h⟩
  · split
    · exact ⟨rfl, h⟩
    · split
      · exact ⟨rfl, h⟩
      · exact ⟨rfl, h⟩
      · next stored _ =>
        have hput := h.putTrigger stored.trigger.key stored
        exact ⟨rfl, hput.at_key, hput.stopped⟩

theorem reschedule_congr (h : Agree scope s s') {k : Key} (hk : scope.Covers k) (t : Trigger) :
    (s.reschedule now k t).reply = (s'.reschedule now k t).reply ∧
      Agree scope (s.reschedule now k t).state (s'.reschedule now k t).state := by
  unfold reschedule
  rw [(h.at_key k hk).2]
  split
  · exact ⟨rfl, h⟩
  · split
    · exact ⟨rfl, h⟩
    · split
      · exact ⟨rfl, h⟩
      · exact ⟨rfl, h⟩
      · next stored _ =>
        have hput := (h.erase_trigger k).putTrigger stored.trigger.key stored
        exact ⟨rfl, hput.at_key, hput.stopped⟩

/-- **What a call within a scope leads to** depends on the memory in the scope alone. -/
theorem Agree.serve_congr (h : Agree scope s s') (now : Instant) (hc : c.Within scope) :
    (s.serve now c).reply = (s'.serve now c).reply ∧ Agree scope (s.serve now c).state (s'.serve now c).state := by
  unfold serve
  rw [h.stopped]
  split
  · exact ⟨rfl, h⟩
  · cases c with
    | jobExists k => exact ⟨congrArg Reply.answer (h.jobs_contains hc), h.at_key, h.stopped⟩
    | triggerExists k => exact ⟨congrArg Reply.answer (h.triggers_contains hc), h.at_key, h.stopped⟩
    | getJob k => exact ⟨congrArg Reply.answer (h.at_key k hc).1, h.at_key, h.stopped⟩
    | getTrigger k =>
      refine ⟨congrArg Reply.answer ?_, h.at_key, h.stopped⟩
      exact congrArg (Option.map Stored.trigger) (h.at_key k hc).2
    | addJob job replace => exact addJob_congr h hc replace
    | schedule t => exact schedule_congr h hc.1 hc.2
    | reschedule k t => exact reschedule_congr h hc.1 t
    | deleteJob k =>
      have hcount : Agree scope (s.count fun c => { c with jobDeletes := c.jobDeletes + 1 })
          (s'.count fun c => { c with jobDeletes := c.jobDeletes + 1 }) := ⟨h.at_key, h.stopped⟩
      exact ⟨congrArg Reply.answer (h.jobs_contains hc), hcount.remove k⟩
    | deleteJobs keys =>
      have hcount : Agree scope (s.count fun c => { c with bulkDeletes := c.bulkDeletes + 1 })
          (s'.count fun c => { c with bulkDeletes := c.bulkDeletes + 1 }) := ⟨h.at_key, h.stopped⟩
      exact ⟨congrArg Reply.answer (hcount.removeAll hc).2, (hcount.removeAll hc).1⟩
    | jobKeys matcher =>
      obtain rfl : scope = .all := hc
      refine ⟨congrArg Reply.answer ?_, h.at_key, h.stopped⟩
      exact congrArg (fun jobs : Table Job => jobs.keys.filter fun k => matcher.accepts k.group) h.tables_eq.1

/-- **A call within a scope touches nothing outside of it.** -/
theorem serve_frame (hs : s.Sound) (hm : s.Mirrored) (hc : c.Within scope) {k : Key} (hk : ¬ scope.Covers k) :
    AgreeAt k s (s.serve now c).state := by
  have hne {k' : Key} (hk' : scope.Covers k') : k' ≠ k := fun heq => hk (heq ▸ hk')
  cases serve_change now c s with
  | none hj ht => exact ⟨by rw [hj], by rw [ht]⟩
  | addJob _ hj ht => exact ⟨by rw [hj, Table.getElem?_insert_of_ne (hne hc)], by rw [ht]⟩
  | schedule _ _ _ hj ht => exact ⟨by rw [hj], by rw [ht, Table.getElem?_insert_of_ne (hne hc.1)]⟩
  | reschedule _ _ _ hj ht =>
    refine ⟨by rw [hj], ?_⟩
    rw [ht, Table.getElem?_insert_of_ne (hne hc.2), Table.getElem?_erase_of_ne (hne hc.1)]
  | @delete _ keys hdeletes hj ht =>
    have hmem : k ∉ keys := by
      intro hmem
      cases c with
      | deleteJob k' =>
        cases hdeletes
        exact hne hc (List.mem_singleton.1 hmem).symm
      | deleteJobs keys' =>
        cases hdeletes
        exact hk (hc k hmem)
      | _ => cases hdeletes
    exact ⟨by rw [hj, if_neg hmem], by rw [ht, hs.filter_of_not_mem hm hmem]⟩

end Store

/-! ### Programs -/

/-- What comes back fits the call: a job with the key that was asked for, and keys that the matcher selects. -/
def Call.Fits : (c : Call) → Except EngineError c.Answer → Prop
  | getJob k, .ok (some job) => job.key = k
  | jobKeys matcher, .ok keys => ∀ k ∈ keys, matcher.accepts k.group = true
  | _, _ => True

/-- A call stays in a scope: it is within the scope, and it passes only triggers with the keys of their jobs. -/
def Call.StaysIn (scope : Scope) (c : Call) : Prop := c.Within scope ∧ c.Passes Trigger.Mirrors

/-- **A program stays in a scope** if its calls do, as long as what comes back from them fits. -/
def Program.StaysIn {α : Type} (scope : Scope) (p : Program α) : Prop :=
  p.Obeys (Call.StaysIn scope) Call.Fits fun _ => True

namespace Store

variable {α : Type} {p : Program α} {s s' : Store} {scope : Scope}

theorem serve_fits (hs : s.Sound) (now : Instant) (c : Call) : (s.serve now c).reply.Meets c.Fits := by
  cases hr : (s.serve now c).reply with
  | answer a =>
    cases c with
    | getJob k =>
      cases a with
      | none => trivial
      | some job =>
        unfold serve at hr
        split at hr
        · cases hr
        · exact hs.jobKey (Reply.answer.inj hr)
    | jobKeys matcher =>
      unfold serve at hr
      split at hr
      · cases hr
      · obtain rfl := Reply.answer.inj hr
        exact fun k hk => (List.mem_filter.1 hk).2
    | _ => trivial
  | refused e => cases c <;> trivial
  | crashed crash => trivial

/-- What a program that stays in a scope ends with depends on the memory in the scope alone. -/
theorem exec_congr (now : Instant) (hp : p.StaysIn scope) (h : Agree scope s s') (hs : s.Sound) :
    (p.exec (engine now) s).1 = (p.exec (engine now) s').1 ∧
      Agree scope (p.exec (engine now) s).2 (p.exec (engine now) s').2 := by
  suffices hrun : (p.exec (engine now) s).1 = (p.exec (engine now) s').1 ∧
      Agree scope (p.exec (engine now) s).2 (p.exec (engine now) s').2 ∧ (p.exec (engine now) s).2.Sound from
    ⟨hrun.1, hrun.2.1⟩
  refine Program.Obeys.simulate (I := fun s s' => Agree scope s s' ∧ s.Sound) ?_ hp ⟨h, hs⟩
  rintro c s s' hc ⟨h, hs⟩
  obtain ⟨hreply, hstate⟩ := h.serve_congr now hc.1
  exact ⟨hreply, ⟨hstate, (serve_change now c s).sound hs⟩, serve_fits hs now c⟩

/-- A program that stays in a scope touches nothing outside of it, and the tables go on making sense. -/
theorem exec_frame (now : Instant) (hp : p.StaysIn scope) (hs : s.Sound) (hm : s.Mirrored) :
    (∀ k, ¬ scope.Covers k → AgreeAt k s (p.exec (engine now) s).2) ∧ (p.exec (engine now) s).2.Sound ∧
      (p.exec (engine now) s).2.Mirrored ∧ (p.exec (engine now) s).2.stopped = s.stopped := by
  refine (Program.Obeys.exec (I := fun s' => (∀ k, ¬ scope.Covers k → AgreeAt k s s') ∧ s'.Sound ∧ s'.Mirrored ∧
    s'.stopped = s.stopped) ?_ hp ⟨fun k _ => ⟨rfl, rfl⟩, hs, hm, rfl⟩).1
  rintro c s' hc ⟨hframe, hs, hm, hstopped⟩
  have hchange := serve_change now c s'
  exact ⟨⟨fun k hk => (hframe k hk).trans (serve_frame hs hm hc.1 hk), hchange.sound hs, hchange.mirrored hc.2 hm,
    (serve_stopped now c s').trans hstopped⟩, serve_fits hs now c⟩

end Store

end JobRoster
