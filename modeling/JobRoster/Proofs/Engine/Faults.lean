import JobRoster.Proofs.Engine.Leads

/-!
# Calls that fail

An engine some of whose calls fail, without reaching it (`Engine.failing`). An attempt endures that if it is done or
stops in a memory of some kind, whichever of its calls fail (`Attempt.Endures`); there are rules for calls, which use
where the calls lead over an engine in memory that does not fail.
-/

namespace JobRoster

/-- **An engine some of whose calls fail**, by refusal or crash, as told by the number of calls before them. A call that
fails leaves the engine as it is. -/
def Engine.failing {σ : Type} (engine : Engine σ) (faults : ℕ → Option (Except Crash EngineError)) :
    Engine (σ × ℕ) where
  serve c s :=
    match faults s.2 with
    | some (.ok e) => ⟨.refused e, (s.1, s.2 + 1), []⟩
    | some (.error crash) => ⟨.crashed crash, (s.1, s.2 + 1), []⟩
    | none =>
      let effect := engine.serve c s.1
      ⟨effect.reply, (effect.state, s.2 + 1), effect.events⟩

/-- A call either fails, or is served. -/
theorem Engine.failing_cases {σ : Type} (engine : Engine σ) (faults : ℕ → Option (Except Crash EngineError)) (c : Call)
    (s : σ × ℕ) :
    (((engine.failing faults).serve c s).state.1 = s.1 ∧ ∀ a, ((engine.failing faults).serve c s).reply ≠ .answer a) ∨
      ((engine.failing faults).serve c s).state.1 = (engine.serve c s.1).state ∧
        ((engine.failing faults).serve c s).reply = (engine.serve c s.1).reply := by
  simp only [failing]
  split
  · exact .inl ⟨rfl, fun a h => by cases h⟩
  · exact .inl ⟨rfl, fun a h => by cases h⟩
  · exact .inr ⟨rfl, rfl⟩

namespace Attempt

variable {α β : Type} {now : Instant} {s s' : Store} {Left : Store → Prop} {Done : α → Store → Prop}
  {Done' : β → Store → Prop}

/-- **An attempt endures failures** of calls: whichever they are, it is done in a memory, or it is left in one. -/
def Endures (x : Attempt α) (now : Instant) (s : Store) (Left : Store → Prop) (Done : α → Store → Prop) : Prop :=
  ∀ faults n counters, match x.run.exec ((Store.engine now).failing faults) ({ s with counters }, n) with
    | (.ok (.ok a), s') => Done a s'.1
    | (_, s') => Left s'.1

theorem Endures.bind {x : Attempt α} {f : α → Attempt β} (hx : x.Endures now s Left Done)
    (hf : ∀ a s', Done a s' → (f a).Endures now s' Left Done') : (x >>= f).Endures now s Left Done' := by
  intro faults n counters
  have hx := hx faults n counters
  rw [Program.exec_attempt_bind]
  revert hx
  rcases x.run.exec ((Store.engine now).failing faults) ({ s with counters }, n) with ⟨crash | (e | a), s', n'⟩
  · exact id
  · exact id
  · exact fun hdone => hf a s' hdone faults n' s'.counters

theorem endures_pure {a : α} (ha : ∀ counters, Done a { s with counters }) :
    (pure a : Attempt α).Endures now s Left Done := fun _ _ counters => ha counters

theorem endures_report_bind {e : Event} {f : Unit → Attempt α} (hf : (f ()).Endures now s Left Done) :
    (report e >>= f).Endures now s Left Done := hf

/-- A call may fail, and nothing has happened then, or it leads where it leads. -/
theorem endures_call {c : Call} {Done : c.Answer → Store → Prop} {result : Except Crash (Except EngineError c.Answer)}
    (hleft : ∀ counters, Left { s with counters }) (hleads : (call c).Leads now s result s')
    (hdone : ∀ a, result = .ok (.ok a) → ∀ counters, Done a { s' with counters })
    (hstop : (∀ a, result ≠ .ok (.ok a)) → ∀ counters, Left { s' with counters }) :
    (call c).Endures now s Left Done := by
  intro faults n counters
  obtain ⟨counters', hleads⟩ := hleads counters
  rw [Program.exec_call] at hleads ⊢
  obtain ⟨hstate, hreply⟩ | ⟨hstate, hreply⟩ :=
    (Store.engine now).failing_cases faults c ({ s with counters }, n)
  · cases hr : (((Store.engine now).failing faults).serve c ({ s with counters }, n)).reply with
    | answer a => exact absurd hr (hreply a)
    | refused e | crashed crash =>
      simp only [hstate]
      exact hleft counters
  · rw [hreply]
    cases hr : ((Store.engine now).serve c { s with counters }).reply with
    | answer a =>
      simp only [hr] at hleads
      obtain ⟨rfl, hs'⟩ := Prod.mk.inj hleads
      simp only [hstate, hs']
      exact hdone a rfl counters'
    | refused e | crashed crash =>
      simp only [hr] at hleads
      obtain ⟨rfl, hs'⟩ := Prod.mk.inj hleads
      simp only [hstate, hs']
      exact hstop (fun a h => by cases h) counters'

theorem endures_call_bind {c : Call} {a : c.Answer} {f : c.Answer → Attempt α}
    (hleft : ∀ counters, Left { s with counters }) (hleads : (call c).Leads now s (.ok (.ok a)) s')
    (hf : (f a).Endures now s' Left Done) : (call c >>= f).Endures now s Left Done := by
  have hcall : (call c).Endures now s Left fun a' s'' => a' = a ∧ ∃ counters, s'' = { s' with counters } :=
    endures_call hleft hleads (fun a' ha' counters => by cases ha'; exact ⟨rfl, counters, rfl⟩)
      fun hne => absurd rfl (hne a)
  refine hcall.bind ?_
  rintro _ _ ⟨rfl, counters, rfl⟩
  exact hf

end Attempt

end JobRoster
