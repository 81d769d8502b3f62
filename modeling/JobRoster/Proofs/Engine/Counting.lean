import JobRoster.Proofs.Engine.Leads
import JobRoster.Proofs.Engine.Locality
import JobRoster.Proofs.Engine.Unanswered
import Mathlib.Algebra.Group.Basic

/-!
# What is counted

Counters are only ever added to, and nothing depends on them. What a call adds is told by the tables and by whether the
call is answered (`serve_counts`), so what a run adds is told by where it leads. For attempts there are rules that go
along with those for where they lead (`Attempt.Counts`): one for calls, and two for one attempt after another.
-/

namespace JobRoster

namespace Counters

/-! ### Adding counters -/

instance : Zero Counters := ⟨{}⟩

instance : Add Counters where
  add c c' :=
    { existenceChecks := c.existenceChecks + c'.existenceChecks
      jobReads := c.jobReads + c'.jobReads
      triggerReads := c.triggerReads + c'.triggerReads
      jobsAdded := c.jobsAdded + c'.jobsAdded
      jobsReplaced := c.jobsReplaced + c'.jobsReplaced
      triggersScheduled := c.triggersScheduled + c'.triggersScheduled
      triggersRescheduled := c.triggersRescheduled + c'.triggersRescheduled
      jobDeletes := c.jobDeletes + c'.jobDeletes
      bulkDeletes := c.bulkDeletes + c'.bulkDeletes
      keyEnumerations := c.keyEnumerations + c'.keyEnumerations }

theorem add_def (c c' : Counters) : c + c' = ⟨c.existenceChecks + c'.existenceChecks, c.jobReads + c'.jobReads,
    c.triggerReads + c'.triggerReads, c.jobsAdded + c'.jobsAdded, c.jobsReplaced + c'.jobsReplaced,
    c.triggersScheduled + c'.triggersScheduled, c.triggersRescheduled + c'.triggersRescheduled,
    c.jobDeletes + c'.jobDeletes, c.bulkDeletes + c'.bulkDeletes, c.keyEnumerations + c'.keyEnumerations⟩ := rfl

instance : AddCommMonoid Counters where
  add_assoc a b c := by simp only [add_def, Nat.add_assoc]
  zero_add a := by
    change (⟨0 + _, 0 + _, 0 + _, 0 + _, 0 + _, 0 + _, 0 + _, 0 + _, 0 + _, 0 + _⟩ : Counters) = a
    simp only [Nat.zero_add]
  add_zero _ := rfl
  add_comm a b := by simp only [add_def, Nat.add_comm]
  nsmul := nsmulRec

@[simp] theorem mutations_add (c c' : Counters) : (c + c').mutations = c.mutations + c'.mutations := by
  simp only [mutations, add_def]
  omega

end Counters

/-- **What a call counts** over a memory, if it is answered. -/
def Call.counted (s : Store) : Call → Counters
  | jobExists _ | triggerExists _ => { existenceChecks := 1 }
  | getJob _ => { jobReads := 1 }
  | getTrigger _ => { triggerReads := 1 }
  | addJob job _ => if s.jobs.contains job.key then { jobsReplaced := 1 } else { jobsAdded := 1 }
  | schedule _ => { triggersScheduled := 1 }
  | reschedule k _ => if s.triggers.contains k then { triggersRescheduled := 1 } else 0
  | deleteJob _ => { jobDeletes := 1 }
  | deleteJobs _ => { bulkDeletes := 1 }
  | jobKeys _ => { keyEnumerations := 1 }

/-- What a call counts, given what it ends with. -/
def Call.tally (s : Store) (c : Call) : Except Crash (Except EngineError c.Answer) → Counters
  | .ok (.ok _) => c.counted s
  | _ => 0

/-- What a call leads to is counted, on top of what was counted before, if the call is answered. -/
def Effect.Counts {α : Type} (e : Effect Store α) (s : Store) (counted : Counters) : Prop :=
  e.state.counters = s.counters + bif e.reply.isAnswer then counted else 0

/-! ### One call -/

namespace Store

variable {now : Instant}

theorem addJob_counts (s : Store) (job : Job) (replace : Bool) : (s.addJob job replace).Counts s
    (if s.jobs.contains job.key then { jobsReplaced := 1 } else { jobsAdded := 1 }) := by
  unfold addJob Effect.Counts
  dsimp only
  split
  · rfl
  · split
    · rfl
    · dsimp only [count, Reply.isAnswer]
      split <;> rfl

theorem schedule_counts (s : Store) (now : Instant) (t : Trigger) :
    (s.schedule now t).Counts s { triggersScheduled := 1 } := by
  unfold schedule
  split
  · rfl
  · split
    · rfl
    · split <;> rfl

theorem reschedule_counts (s : Store) (now : Instant) (k : Key) (t : Trigger) :
    (s.reschedule now k t).Counts s (if s.triggers.contains k then { triggersRescheduled := 1 } else 0) := by
  unfold reschedule
  split
  · next hold =>
    rw [Table.contains_eq_false_iff.2 hold]
    rfl
  · next old hold =>
    rw [Table.contains_iff_exists.2 ⟨old, hold⟩]
    split
    · rfl
    · split <;> rfl

/-- **A call counts** under its kind if it is answered, and nothing if it is not. -/
theorem serve_counts (s : Store) (now : Instant) (c : Call) : (s.serve now c).Counts s (c.counted s) := by
  unfold serve
  split
  · rfl
  · cases c with
    | addJob job replace => exact s.addJob_counts job replace
    | schedule t => exact s.schedule_counts now t
    | reschedule k t => exact s.reschedule_counts now k t
    | deleteJobs keys =>
      have hcounters := congrArg (fun removed => removed.1.counters) (removeAll_counters s keys
        { s.counters with bulkDeletes := s.counters.bulkDeletes + 1 })
      exact hcounters
    | _ => rfl

end Store

/-! ### Attempts -/

namespace Attempt

variable {α β : Type} {now : Instant} {s s' : Store} {x : Attempt α} {f : α → Attempt β}
  {counted counted' : Counters}

/-- **A run counts** so much from a memory, whatever was counted before. -/
def Counts (x : Attempt α) (now : Instant) (s : Store) (counted : Counters) : Prop :=
  ∀ counters, (x.run.exec (Store.engine now) { s with counters }).2.counters = counters + counted

/-- Where a call leads tells what it counts. -/
theorem counts_call {c : Call} {result : Except Crash (Except EngineError c.Answer)}
    (h : (call c).Leads now s result s') : (call c).Counts now s (c.tally s result) := by
  intro counters
  obtain ⟨counters', hexec⟩ := h counters
  have hcounts := ({ s with counters } : Store).serve_counts now c
  rw [Effect.Counts] at hcounts
  rw [Program.exec_call] at hexec ⊢
  dsimp only [Store.engine] at hexec ⊢
  cases hreply : (({ s with counters } : Store).serve now c).reply
  all_goals
    rw [hreply] at hexec hcounts
    obtain ⟨rfl, -⟩ := Prod.mk.inj hexec
    exact hcounts

theorem counts_pure (a : α) : (pure a : Attempt α).Counts now s 0 := fun _ => rfl

theorem counts_report (e : Event) : (report e).Counts now s 0 := fun _ => rfl

/-- One attempt after another counts what both count. -/
theorem Counts.bind {a : α} (hx : x.Counts now s counted) (hleads : x.Leads now s (.ok (.ok a)) s')
    (hf : (f a).Counts now s' counted') : (x >>= f).Counts now s (counted + counted') := by
  intro counters
  have hcounters := hx counters
  obtain ⟨counters', hexec⟩ := hleads counters
  rw [hexec] at hcounters
  rw [Program.exec_attempt_bind, hexec, ← add_assoc]
  exact hcounters ▸ hf counters'

/-- An attempt that is stopped by an error counts what it counts, whatever was to come after it. -/
theorem Counts.bind_error {e : EngineError} (f : α → Attempt β) (hx : x.Counts now s counted)
    (hleads : x.Leads now s (.ok (.error e)) s') : (x >>= f).Counts now s counted := by
  intro counters
  have hcounters := hx counters
  obtain ⟨counters', hexec⟩ := hleads counters
  rw [hexec] at hcounters
  rw [Program.exec_attempt_bind, hexec]
  exact hcounters

/-- An attempt that is followed by one that counts nothing counts what it counts. -/
theorem Counts.bind_silent (hx : x.Counts now s counted) (hf : ∀ a s, (f a).Counts now s 0) :
    (x >>= f).Counts now s counted := by
  intro counters
  have hcounters := hx counters
  rw [Program.exec_attempt_bind]
  rcases hexec : x.run.exec (Store.engine now) { s with counters } with ⟨⟨⟩ | ⟨⟨⟩ | ⟨a⟩⟩, s'⟩
  all_goals rw [hexec] at hcounters
  · exact hcounters
  · exact hcounters
  · exact (hf a s' s'.counters).trans hcounters

/-- An event and a value count nothing. -/
theorem counts_report_pure (e : Event) (a : α) : (report e >>= fun _ => pure a).Counts now s 0 :=
  (counts_report e).bind_silent fun _ _ => counts_pure a

/-- An event, and what follows. -/
theorem counts_report_bind (e : Event) {f : Unit → Attempt α} (hf : (f ()).Counts now s counted) :
    (report e >>= f).Counts now s counted := by
  rw [← zero_add counted]
  exact (counts_report e).bind (leads_report e) hf

/-- A call that is answered, and what follows. -/
theorem counts_call_bind {c : Call} {a : c.Answer} {f : c.Answer → Attempt α}
    (hleads : (call c).Leads now s (.ok (.ok a)) s') (hf : (f a).Counts now s' counted) :
    (call c >>= f).Counts now s (c.counted s + counted) :=
  (counts_call hleads).bind hleads hf

/-- A call that is refused, so that nothing follows. -/
theorem counts_call_bind_error {c : Call} {e : EngineError} (f : c.Answer → Attempt α)
    (hleads : (call c).Leads now s (.ok (.error e)) s') : (call c >>= f).Counts now s 0 :=
  (counts_call hleads).bind_error f hleads

/-- A trigger that is put is counted once it is prepared. -/
theorem tally_putPrepared {c : Call} {t : Trigger} {answer : Option Instant → c.Answer} :
    c.tally s (s'.putPrepared now t answer).1 =
      bif (Store.prepare now t).isAnswer then c.counted s else 0 := by
  unfold Store.putPrepared
  cases Store.prepare now t <;> rfl

end Attempt

end JobRoster
