import JobRoster.Proofs.Engine.Program
import Mathlib.Data.List.Chain

/-!
# What a program and an engine tell each other

The exchanges of a run: each call with what came back for it, in order. A program speaks by a rule (`Program.Speaks`) if
each of its calls is one that may follow the exchange before it, whatever came back there, and if it ends as befits the
last exchange. The rule is then kept in a run over any engine (`Speaks.chain`, `Speaks.ends`), so that nothing needs to
be known of the engine. For attempts there are rules that go through them call by call.
-/

namespace JobRoster

variable {σ α β : Type}

/-- A call with what came back. -/
structure Exchange where
  /-- The call. -/
  call : Call
  /-- What came back. -/
  reply : Reply call.Answer

namespace Program

/-- **The exchanges of a run**, in order. -/
def exchanges (engine : Engine σ) : Program α → σ → List Exchange
  | done _, _ => []
  | note _ rest, s => rest.exchanges engine s
  | ask c next, s =>
    ⟨c, (engine.serve c s).reply⟩ :: match (engine.serve c s).reply with
      | .answer a => (next (.ok a)).exchanges engine (engine.serve c s).state
      | .refused e => (next (.error e)).exchanges engine (engine.serve c s).state
      | .crashed _ => []

/-! ### Speaking by a rule -/

/-- **A program speaks by a rule**: after the last exchange, if there was one, it makes only calls that may follow it,
and ends as it befits it. -/
def Speaks (May : Option Exchange → Call → Prop) (Ends : Option Exchange → Except Crash α → Prop) :
    Option Exchange → Program α → Prop
  | last, done a => Ends last (.ok a)
  | last, note _ rest => rest.Speaks May Ends last
  | last, ask c next =>
    May last c ∧ (∀ a, (next (.ok a)).Speaks May Ends (some ⟨c, .answer a⟩)) ∧
      (∀ e, (next (.error e)).Speaks May Ends (some ⟨c, .refused e⟩)) ∧
      ∀ crash, Ends (some ⟨c, .crashed crash⟩) (.error crash)

variable {May : Option Exchange → Call → Prop} {Ends : Option Exchange → Except Crash α → Prop}
  {Ends' : Option Exchange → Except Crash β → Prop} {last : Option Exchange} {p : Program α}

theorem Speaks.bind {f : α → Program β} (hp : p.Speaks May Ends last)
    (hf : ∀ last a, Ends last (.ok a) → (f a).Speaks May Ends' last)
    (hcrash : ∀ last crash, Ends last (.error crash) → Ends' last (.error crash)) :
    (p >>= f).Speaks May Ends' last := by
  change (p.bind f).Speaks May Ends' last
  -- along the first program, with what comes last so far left open
  induction p generalizing last with
  | done a => exact hf last a hp
  | note e rest ih => exact ih hp
  | ask c next ih =>
    exact ⟨hp.1, fun a => ih _ (hp.2.1 a), fun e => ih _ (hp.2.2.1 e), fun crash => hcrash _ _ (hp.2.2.2 crash)⟩

/-- The first call of a run may follow what was before it, and each other one may follow the exchange before it. -/
theorem Speaks.chain (hp : p.Speaks May Ends last) (engine : Engine σ) (s : σ) :
    (∀ y ∈ (p.exchanges engine s).head?, May last y.call) ∧
      (p.exchanges engine s).IsChain fun x y => May (some x) y.call := by
  have hempty (last : Option Exchange) : ∀ y ∈ ([] : List Exchange).head?, May last y.call := by
    rintro y ⟨⟩
  induction p generalizing last s with
  | done a => exact ⟨hempty last, List.isChain_nil⟩
  | note e rest ih => exact ih hp s
  | ask c next ih =>
    obtain ⟨hmay, hanswer, hrefused, -⟩ := hp
    simp only [exchanges]
    refine ⟨fun y hy => ?_, List.isChain_cons.2 ?_⟩
    · cases hy
      exact hmay
    · cases (engine.serve c s).reply with
      | answer a => exact ih (.ok a) (hanswer a) _
      | refused e => exact ih (.error e) (hrefused e) _
      | crashed crash => exact ⟨hempty _, List.isChain_nil⟩

/-- A run ends as it befits its last exchange, or what was before it if there was none. -/
theorem Speaks.ends (hp : p.Speaks May Ends last) (engine : Engine σ) (s : σ) :
    Ends ((p.exchanges engine s).getLast?.or last) (p.exec engine s).1 := by
  induction p generalizing last s with
  | done a => exact hp
  | note e rest ih =>
    rw [exec_note]
    exact ih hp s
  | ask c next ih =>
    obtain ⟨-, hanswer, hrefused, hcrashed⟩ := hp
    -- what comes after the first exchange has that one before it
    have hlast (x : Exchange) (log : List Exchange) : (x :: log).getLast?.or last = log.getLast?.or (some x) := by
      rw [List.getLast?_cons]
      cases log.getLast? <;> rfl
    rw [exchanges, exec_ask, hlast]
    cases (engine.serve c s).reply with
    | answer a => exact ih (.ok a) (hanswer a) _
    | refused e => exact ih (.error e) (hrefused e) _
    | crashed crash => exact hcrashed crash

end Program

/-! ### Chains of exchanges -/

section Chain

variable {May : Option Exchange → Call → Prop} {log : List Exchange} {last : Option Exchange} {x : Exchange}

/-- Each call of a chain may follow something. -/
theorem exists_may_of_mem (hfirst : ∀ y ∈ log.head?, May last y.call)
    (hchain : log.IsChain fun x y => May (some x) y.call) (hx : x ∈ log) : ∃ last, May last x.call := by
  induction log generalizing last with
  | nil => cases hx
  | cons y log ih =>
    obtain ⟨hhead, htail⟩ := List.isChain_cons.1 hchain
    obtain rfl | hx := List.mem_cons.1 hx
    · exact ⟨last, hfirst x rfl⟩
    · exact ih hhead htail hx

/-- Each exchange of a chain but the last one may be followed by something. -/
theorem exists_may_of_mem_dropLast (hchain : log.IsChain fun x y => May (some x) y.call) (hx : x ∈ log.dropLast) :
    ∃ c, May (some x) c := by
  induction log with
  | nil => cases hx
  | cons y log ih =>
    obtain ⟨hhead, htail⟩ := List.isChain_cons.1 hchain
    cases log with
    | nil => cases hx
    | cons z log =>
      obtain rfl | hx := List.mem_cons.1 hx
      · exact ⟨z.call, hhead z rfl⟩
      · exact ih htail hx

end Chain

/-! ### Attempts -/

/-- **What stops an attempt at an exchange**: the error with which the call is refused, the crash of the engine over it,
or the error that is told when the answer is of no use. -/
def Exchange.stop? (useless? : Exchange → Option EngineError) (x : Exchange) : Option (Except Crash EngineError) :=
  match x.reply with
  | .refused e => some (.ok e)
  | .crashed crash => some (.error crash)
  | .answer _ => (useless? x).map .ok

namespace Attempt

variable {May : Option Exchange → Call → Prop} {useless? : Exchange → Option EngineError} {last : Option Exchange}
  {Done : Option Exchange → α → Prop} {Done' : Option Exchange → β → Prop}

/-- How an attempt ends that either is done or stops at its last exchange. -/
def EndsIn (useless? : Exchange → Option EngineError) (Done : Option Exchange → α → Prop)
    (last : Option Exchange) :
    Except Crash (Except EngineError α) → Prop
  | .ok (.ok a) => Done last a
  | .ok (.error e) => last.bind (Exchange.stop? useless?) = some (.ok e)
  | .error crash => last.bind (Exchange.stop? useless?) = some (.error crash)

/-- An attempt speaks by a rule, and is done or stops. -/
def Speaks (May : Option Exchange → Call → Prop) (useless? : Exchange → Option EngineError)
    (Done : Option Exchange → α → Prop) (last : Option Exchange) (x : Attempt α) : Prop :=
  x.run.Speaks May (EndsIn useless? Done) last

theorem Speaks.bind {x : Attempt α} {f : α → Attempt β} (hx : x.Speaks May useless? Done last)
    (hf : ∀ last a, Done last a → (f a).Speaks May useless? Done' last) :
    (x >>= f).Speaks May useless? Done' last := by
  unfold Speaks
  rw [ExceptT.run_bind]
  refine Program.Speaks.bind hx (fun last r hr => ?_) fun _ _ hstop => hstop
  cases r with
  | ok a => exact hf last a hr
  | error e => exact hr

theorem speaks_pure {a : α} (ha : Done last a) : (pure a : Attempt α).Speaks May useless? Done last := ha

theorem speaks_throw {e : EngineError} (he : last.bind (Exchange.stop? useless?) = some (.ok e)) :
    (throw e : Attempt α).Speaks May useless? Done last := he

/-- After a call that does not stop it, the last exchange of an attempt is the call with its answer. -/
theorem speaks_call {c : Call} {Done : Option Exchange → c.Answer → Prop} (hc : May last c)
    (hdone : ∀ a, Done (some ⟨c, .answer a⟩) a) : (call c).Speaks May useless? Done last :=
  ⟨hc, hdone, fun _ => rfl, fun _ => rfl⟩

theorem speaks_call_bind {c : Call} {f : c.Answer → Attempt α} (hc : May last c)
    (hf : ∀ a, (f a).Speaks May useless? Done (some ⟨c, .answer a⟩)) :
    (call c >>= f).Speaks May useless? Done last :=
  ⟨hc, hf, fun _ => rfl, fun _ => rfl⟩

/-- After an event the last exchange is still the last one. -/
theorem speaks_report_bind {e : Event} {f : Unit → Attempt α} (hf : (f ()).Speaks May useless? Done last) :
    (report e >>= f).Speaks May useless? Done last := hf

end Attempt

end JobRoster
