import JobRoster.Proofs.Roster.Requests

/-!
# Sessions

Requests to a roster one after another, each of them made directly or in the background, on an engine that may answer,
refuse or crash as it likes. However a request ends, its guard ends with it, so that the lock is as it was at first and
the next request, whatever it is about, does not wait. A crash is passed on to whoever made the request directly. In the
background it ends the request alone, and is told as a failure.

Main statement: `session_leaves_lock_free`.
-/

namespace JobRoster.Roster

variable {σ : Type}

/-- How a request is made. -/
inductive Way where
  /-- Whoever makes it sees how it ends. -/
  | direct
  /-- It runs in the background. -/
  | background
  deriving DecidableEq, Repr

/-- What is told to whoever made a request that has ended. -/
def Way.told : Way → Request → Except Crash Answer → Except Crash Answer
  | direct, _, result => result
  | background, q, result => .ok (inBackground q result).1

/-- A request that was carried out. -/
structure Served (σ : Type) where
  /-- How it was made. -/
  way : Way
  /-- What was asked for. -/
  request : Request
  /-- How it went. -/
  run : Program.Run (World σ) Answer

/-- **Carries out requests one after another.** There is no result when one of them finds the lock held. -/
def attend (r : Roster) (engine : Engine σ) : List (Way × Request) → World σ → Option (List (Served σ))
  | [], _ => some []
  | (way, q) :: asked, w => do
    let run ← r.perform engine q w
    let later ← r.attend engine asked run.state
    return ⟨way, q, run⟩ :: later

/-- **A request has ended well for the others**, also if it was broken off. -/
structure Served.Over (r : Roster) (engine : Engine σ) (e : Served σ) : Prop where
  /-- Nobody holds the epoch or has locked a mutex, and no group has an entry. -/
  free : e.run.state.lock = .free
  /-- No request would wait now. -/
  next : ∀ q : Request, ∃ run, r.perform engine q e.run.state = some run
  /-- An answer is told as it is. -/
  answered : ∀ a, e.run.result = .ok a → e.way.told e.request e.run.result = .ok a
  /-- A crash reaches whoever made the request directly. -/
  crashed : ∀ crash, e.run.result = .error crash → e.way = .direct →
    e.way.told e.request e.run.result = .error crash
  /-- In the background a declaration that crashed was aborted. -/
  aborted : ∀ crash d, e.run.result = .error crash → e.way = .background → e.request = .register d →
    e.way.told e.request e.run.result = .ok (.registered (.error (.aborted crash.message)))
  /-- In the background a deletion that crashed has failed. -/
  failed : ∀ crash, e.run.result = .error crash → e.way = .background → (∀ d, e.request ≠ .register d) →
    e.way.told e.request e.run.result = .ok (.deleted false)

/-- A request leaves a free lock free, and is told about as it should be. -/
theorem over_of_free {r : Roster} {engine : Engine σ} {e : Served σ} (hfree : e.run.state.lock = .free) :
    e.Over r engine where
  free := hfree
  next q := by
    obtain ⟨run, hrun, -⟩ := r.perform_free engine q e.run.state.engine
    rw [← hfree] at hrun
    exact ⟨run, hrun⟩
  answered a ha := by
    rw [ha]
    cases e.way <;> rfl
  crashed crash hcrash hway := by rw [hcrash, hway]; rfl
  aborted crash d hcrash hway hq := by rw [hcrash, hway, hq]; rfl
  failed crash hcrash hway hq := by
    rw [hcrash, hway]
    cases hreq : e.request with
    | register d => exact absurd hreq (hq d)
    | deleteJob name group => rfl
    | deleteGroup group => rfl

/-- **The lock is free after every request of a session**, whatever the engine does, and every request is carried
out. -/
theorem session_leaves_lock_free (r : Roster) (engine : Engine σ) (asked : List (Way × Request)) (s : σ) :
    ∃ served, r.attend engine asked ⟨.free, s⟩ = some served ∧
      served.map (fun e => (e.way, e.request)) = asked ∧ ∀ e ∈ served, e.Over r engine := by
  induction asked generalizing s with
  | nil => exact ⟨[], rfl, rfl, fun e he => absurd he List.not_mem_nil⟩
  | cons first asked ih =>
    obtain ⟨way, q⟩ := first
    obtain ⟨run, hrun, -, hstate⟩ := r.perform_free engine q s
    obtain ⟨later, hlater, hasked, hover⟩ := ih run.state.engine
    -- the rest begins where the first request has left off, which is with a free lock
    have hfree : run.state.lock = .free := by rw [hstate]
    have hworld : (⟨.free, run.state.engine⟩ : World σ) = run.state := by rw [← hfree]
    rw [hworld] at hlater
    refine ⟨⟨way, q, run⟩ :: later, ?_, congrArg ((way, q) :: ·) hasked, fun e he => ?_⟩
    · simp only [attend, hrun, hlater, Option.bind_eq_bind, Option.bind_some, Option.pure_def]
    · obtain rfl | he := List.mem_cons.1 he
      · exact over_of_free hfree
      · exact hover e he

end JobRoster.Roster
