import JobRoster.Proofs.Engine.Leads

/-!
# Calls that only read

A call that asks or looks something up changes nothing but the counter of its kind, which is none of those that count
changes, and its answer is read off the tables (`serve_reads`). What a program does that makes no other calls can hence
be read off the tables as well: it leaves them alone and counts no change (`exec_reads`). For attempts there are rules
that go through them call by call (`Attempt.ReadsTo`); where they lead over an engine that takes calls needs no working
out then (`ReadsTo.leads`).
-/

namespace JobRoster

/-- A call only reads. -/
def Call.Reads : Call → Prop
  | jobExists _ | triggerExists _ | getJob _ | getTrigger _ | jobKeys _ => True
  | _ => False

namespace Counters

variable {c c' c'' : Counters}

/-- **No change is counted** from some counters to others: none of the six that count changes has moved. -/
structure Unmoved (c c' : Counters) : Prop where
  /-- No job was added. -/
  jobsAdded : c'.jobsAdded = c.jobsAdded
  /-- No job was replaced. -/
  jobsReplaced : c'.jobsReplaced = c.jobsReplaced
  /-- No trigger was scheduled. -/
  triggersScheduled : c'.triggersScheduled = c.triggersScheduled
  /-- No trigger was rescheduled. -/
  triggersRescheduled : c'.triggersRescheduled = c.triggersRescheduled
  /-- No deletion of one job. -/
  jobDeletes : c'.jobDeletes = c.jobDeletes
  /-- No deletion of several jobs. -/
  bulkDeletes : c'.bulkDeletes = c.bulkDeletes

theorem Unmoved.refl (c : Counters) : Unmoved c c := ⟨rfl, rfl, rfl, rfl, rfl, rfl⟩

theorem Unmoved.trans (h : Unmoved c c') (h' : Unmoved c' c'') : Unmoved c c'' :=
  ⟨h'.jobsAdded.trans h.jobsAdded, h'.jobsReplaced.trans h.jobsReplaced,
    h'.triggersScheduled.trans h.triggersScheduled, h'.triggersRescheduled.trans h.triggersRescheduled,
    h'.jobDeletes.trans h.jobDeletes, h'.bulkDeletes.trans h.bulkDeletes⟩

end Counters

namespace Store

variable {s s' : Store} {now : Instant} {c : Call}

/-- What the tables of a memory tell in reply to a call that reads. -/
def Tells (s : Store) : (c : Call) → Except EngineError c.Answer → Prop
  | .jobExists k, r => r = .ok (s.jobs.contains k)
  | .triggerExists k, r => r = .ok (s.triggers.contains k)
  | .getJob k, r => r = .ok s.jobs[k]?
  | .getTrigger k, r => r = .ok (s.triggers[k]?.map Stored.trigger)
  | .jobKeys matcher, r => r = .ok (s.jobs.keys.filter fun k => matcher.accepts k.group)
  | _, _ => True

/-- **Nothing has happened** from one memory to another one but that calls were counted which change nothing. -/
structure Untouched (s s' : Store) : Prop where
  /-- The jobs are the same. -/
  jobs : s'.jobs = s.jobs
  /-- The triggers are the same, with the same next fire times. -/
  triggers : s'.triggers = s.triggers
  /-- Both have been shut down, or none. -/
  stopped : s'.stopped = s.stopped
  /-- The threshold is the same. -/
  threshold : s'.threshold = s.threshold
  /-- No change was counted. -/
  counters : s.counters.Unmoved s'.counters

theorem Untouched.refl (s : Store) : Untouched s s := ⟨rfl, rfl, rfl, rfl, .refl _⟩

theorem Untouched.trans {s'' : Store} (h : Untouched s s') (h' : Untouched s' s'') : Untouched s s'' :=
  ⟨h'.jobs.trans h.jobs, h'.triggers.trans h.triggers, h'.stopped.trans h.stopped, h'.threshold.trans h.threshold,
    h.counters.trans h'.counters⟩

theorem Untouched.eq (h : Untouched s s') : s' = { s with counters := s'.counters } := by
  obtain ⟨jobs, triggers, counters, stopped, threshold⟩ := s'
  obtain ⟨rfl, rfl, rfl, rfl, -⟩ := h
  rfl

/-- What the tables tell depends on the tables alone. -/
theorem Untouched.tells (h : Untouched s s') {r : Except EngineError c.Answer} (hr : s'.Tells c r) : s.Tells c r := by
  unfold Tells at hr ⊢
  rw [← h.jobs, ← h.triggers]
  exact hr

/-- **A call that only reads** is answered from the tables, and touches nothing. -/
theorem serve_reads (hrun : s.stopped = false) (hc : c.Reads) (now : Instant) :
    (∃ a, (s.serve now c).reply = .answer a ∧ s.Tells c (.ok a)) ∧ Untouched s (s.serve now c).state := by
  unfold serve
  rw [if_neg (Bool.eq_false_iff.1 hrun)]
  cases c with
  | jobExists k | triggerExists k | getJob k | getTrigger k | jobKeys matcher =>
    exact ⟨⟨_, rfl, rfl⟩, rfl, rfl, rfl, rfl, ⟨rfl, rfl, rfl, rfl, rfl, rfl⟩⟩
  | _ => exact hc.elim

/-- **A program that only reads**, as long as the replies are those that the tables tell, touches nothing, is not
broken off, and ends as it does upon these replies. -/
theorem exec_reads {α : Type} {Q : α → Prop} {p : Program α} (hrun : s.stopped = false)
    (hp : p.Obeys Call.Reads s.Tells Q) (now : Instant) :
    Untouched s (p.exec (engine now) s).2 ∧ ∃ a, (p.exec (engine now) s).1 = .ok a ∧ Q a := by
  -- what the tables tell is fixed by the first memory, while the program runs in later ones
  suffices h : ∀ s', Untouched s s' → Untouched s (p.exec (engine now) s').2 ∧
      ∃ a, (p.exec (engine now) s').1 = .ok a ∧ Q a from h s (.refl s)
  induction p with
  | done a => exact fun s' hs' => ⟨hs', a, rfl, hp⟩
  | note e rest ih => exact ih hp
  | ask c next ih =>
    intro s' hs'
    obtain ⟨hc, hnext⟩ := hp
    obtain ⟨⟨a, hreply, htells⟩, hserved⟩ := serve_reads (hs'.stopped.trans hrun) hc now
    rw [Program.exec_ask]
    simp only [engine, hreply]
    exact ih (.ok a) (hnext _ (hs'.tells htells)) _ (hs'.trans hserved)

end Store

namespace Attempt

variable {α β : Type} {s : Store} {now : Instant}

/-- **An attempt reads to a value**: it only reads, and ends with the value when it is told what the tables tell. -/
def ReadsTo (x : Attempt α) (s : Store) (a : α) : Prop := x.run.Obeys Call.Reads s.Tells fun r => r = .ok a

/-- An attempt that only reads leads nowhere else. -/
theorem ReadsTo.leads {x : Attempt α} {a : α} (hx : x.ReadsTo s a) (hrun : s.stopped = false) :
    x.Leads now s (.ok (.ok a)) s := by
  intro counters
  have hrun' : ({ s with counters } : Store).stopped = false := hrun
  have hx' : x.ReadsTo { s with counters } a := hx
  obtain ⟨huntouched, _, hresult, rfl⟩ := Store.exec_reads hrun' hx' now
  exact ⟨_, Prod.ext hresult huntouched.eq⟩

theorem ReadsTo.bind {x : Attempt α} {f : α → Attempt β} {a : α} {b : β} (hx : x.ReadsTo s a)
    (hf : (f a).ReadsTo s b) : (x >>= f).ReadsTo s b := by
  unfold ReadsTo
  rw [ExceptT.run_bind]
  refine Program.Obeys.bind hx ?_
  rintro _ rfl
  exact hf

theorem readsTo_pure (a : α) : (pure a : Attempt α).ReadsTo s a := rfl

theorem readsTo_report (e : Event) : (report e).ReadsTo s () := rfl

theorem readsTo_jobExists (k : Key) : (call (.jobExists k)).ReadsTo s (s.jobs.contains k) := ⟨trivial, fun _ h => h⟩

theorem readsTo_triggerExists (k : Key) : (call (.triggerExists k)).ReadsTo s (s.triggers.contains k) :=
  ⟨trivial, fun _ h => h⟩

theorem readsTo_getJob (k : Key) : (call (.getJob k)).ReadsTo s s.jobs[k]? := ⟨trivial, fun _ h => h⟩

theorem readsTo_getTrigger (k : Key) : (call (.getTrigger k)).ReadsTo s (s.triggers[k]?.map Stored.trigger) :=
  ⟨trivial, fun _ h => h⟩

end Attempt

end JobRoster
