import JobRoster.Roster.OfProcess
import Mathlib.Logic.Function.Basic
import Mathlib.Logic.Relation
import Mathlib.Tactic.Common

/-!
# One roster for all callers

Any number of callers, each with a list of requests about the roster of the process. A request is one atomic step, and
the steps of the callers come in any order. What has been asked and what came back is kept as turns, which go on from
each other (`Chain`): once there is a roster, it stays and is what everyone is given (`Chain.of_some`), and while there
is none nobody has settled on one (`Chain.eq_none_iff_settles`).

Main statement: `roster_set_once`.
-/

namespace JobRoster.OfProcess

open Relation

/-! ### Requests -/

/-- What a caller can ask for. -/
inductive Request (ρ : Type) where
  /-- To install a roster. -/
  | install (roster : ρ)
  /-- The roster, if there is one yet. -/
  | get
  /-- The roster, which is made in this way if there is none. -/
  | getOrMake (make : Unit → ρ)

/-- What comes back. -/
inductive Response (ρ : Type) where
  /-- The roster has been installed, or one is given back. -/
  | installed (result : Except ρ Unit)
  /-- The roster, if there is one yet. -/
  | found (roster : Option ρ)
  /-- The roster. -/
  | given (roster : ρ)

variable {ι ρ : Type} {slot slot' : Slot ρ} {roster : ρ}

/-- What comes back for a request, and the roster of the process then. -/
def serve (slot : Slot ρ) : Request ρ → Response ρ × Slot ρ
  | .install roster => (.installed (install slot roster).1, (install slot roster).2.1)
  | .get => (.found (get? slot), slot)
  | .getOrMake make => (.given (getOrMake slot make).1, (getOrMake slot make).2.1)

/-- A request that was made. -/
structure Turn (ι ρ : Type) where
  /-- Who made it. -/
  caller : ι
  /-- What was asked for. -/
  request : Request ρ
  /-- The roster of the process before. -/
  before : Slot ρ
  /-- What came back. -/
  response : Response ρ
  /-- The roster of the process afterwards. -/
  after : Slot ρ

/-- The turn of a caller. -/
def turn (slot : Slot ρ) (caller : ι) (q : Request ρ) : Turn ι ρ :=
  ⟨caller, q, slot, (serve slot q).1, (serve slot q).2⟩

namespace Turn

/-- There was no roster, and now there is one. -/
def Installs (t : Turn ι ρ) : Prop := t.before = none ∧ t.after ≠ none

/-- **A turn settles on a roster**: it was asked to install it, and that succeeded, or it was asked to make one if there
is none, and this one came back. -/
def Settles (t : Turn ι ρ) (roster : ρ) : Prop :=
  t.request = .install roster ∧ t.response = .installed (.ok ()) ∨
    ∃ make, t.request = .getOrMake make ∧ t.response = .given roster

/-- **A turn shares a roster**: it is what comes back to whoever asks for one, and to whoever wants to install one that
one is given back. -/
def Shares (t : Turn ι ρ) (roster : ρ) : Prop :=
  match t.request with
  | .install rejected => t.response = .installed (.error rejected)
  | .get => t.response = .found (some roster)
  | .getOrMake _ => t.response = .given roster

end Turn

/-! ### One turn -/

/-- **Once there is a roster**, it stays, and a turn shares it. -/
theorem turn_some (roster : ρ) (caller : ι) (q : Request ρ) :
    (turn (some roster) caller q).after = some roster ∧ (turn (some roster) caller q).Shares roster := by
  cases q with
  | install rejected => exact ⟨rfl, rfl⟩
  | get => exact ⟨rfl, rfl⟩
  | getOrMake make => exact ⟨rfl, rfl⟩

/-- What a turn settles on is the roster of the process afterwards. -/
theorem after_of_settles {caller : ι} {q : Request ρ} (h : (turn slot caller q).Settles roster) :
    (turn slot caller q).after = some roster := by
  cases q with
  | install other =>
    rcases h with ⟨hrequest, hresponse⟩ | ⟨make, hrequest, -⟩
    · cases hrequest
      cases slot with
      | none => rfl
      | some installed => cases hresponse
    · cases hrequest
  | get => rcases h with ⟨hrequest, -⟩ | ⟨make, hrequest, -⟩ <;> cases hrequest
  | getOrMake make =>
    rcases h with ⟨hrequest, -⟩ | ⟨-, -, hresponse⟩
    · cases hrequest
    · cases slot with
      | none =>
        cases hresponse
        rfl
      | some installed =>
        cases hresponse
        rfl

/-- Where there was no roster, a turn after which there is one has settled on one. -/
theorem exists_settles {caller : ι} {q : Request ρ} (h : (turn none caller q).after ≠ none) :
    ∃ roster, (turn none caller q).Settles roster := by
  cases q with
  | install roster => exact ⟨roster, .inl ⟨rfl, rfl⟩⟩
  | get => exact absurd rfl h
  | getOrMake make => exact ⟨make (), .inr ⟨make, rfl, rfl⟩⟩

/-- An installation succeeds where there is no roster. -/
theorem installed_iff {caller : ι} :
    (turn slot caller (.install roster)).response = .installed (.ok ()) ↔ slot = none := by
  cases slot with
  | none => exact ⟨fun _ => rfl, fun _ => rfl⟩
  | some installed =>
    constructor
    · intro h
      cases h
    · intro h
      cases h

/-! ### Turns one after another -/

/-- **Turns that go on from each other**, from one roster of the process to another one. -/
inductive Chain : Slot ρ → List (Turn ι ρ) → Slot ρ → Prop where
  /-- No turn. -/
  | nil {slot : Slot ρ} : Chain slot [] slot
  /-- A turn, and then the others. -/
  | cons {slot slot' : Slot ρ} {turns : List (Turn ι ρ)} (caller : ι) (q : Request ρ) :
      Chain (turn slot caller q).after turns slot' → Chain slot (turn slot caller q :: turns) slot'

variable {turns earlier later : List (Turn ι ρ)} {t : Turn ι ρ}

theorem Chain.concat (h : Chain slot turns slot') (caller : ι) (q : Request ρ) :
    Chain slot (turns ++ [turn slot' caller q]) (turn slot' caller q).after := by
  induction h with
  | nil => exact .cons caller q .nil
  | cons first request _ ih => exact .cons first request ih

/-- Turns can be cut at each of them. -/
theorem Chain.exists_of_append (h : Chain slot (earlier ++ t :: later) slot') :
    ∃ mid, Chain slot earlier mid ∧ t = turn mid t.caller t.request ∧ Chain t.after later slot' := by
  induction earlier generalizing slot with
  | nil =>
    cases h with
    | cons caller q h => exact ⟨slot, .nil, rfl, h⟩
  | cons first earlier ih =>
    cases h with
    | cons caller q h =>
      obtain ⟨mid, hearlier, ht, hlater⟩ := ih h
      exact ⟨mid, .cons caller q hearlier, ht, hlater⟩

/-- **Once there is a roster**, it stays, and all turns share it. -/
theorem Chain.of_some (h : Chain (some roster) turns slot') :
    slot' = some roster ∧ ∀ t ∈ turns, t.before = some roster ∧ t.Shares roster := by
  induction turns with
  | nil =>
    cases h
    simp
  | cons first turns ih =>
    cases h with
    | cons caller q h =>
      obtain ⟨hafter, hshares⟩ := turn_some roster caller q
      rw [hafter] at h
      obtain ⟨hslot', hlater⟩ := ih h
      exact ⟨hslot', List.forall_mem_cons.2 ⟨⟨rfl, hshares⟩, hlater⟩⟩

/-- A turn that settles on a roster is followed by ones that share it. -/
theorem Chain.of_settles (h : Chain slot (earlier ++ t :: later) slot') (ht : t.Settles roster) :
    slot' = some roster ∧ ∀ u ∈ later, u.before = some roster ∧ u.Shares roster := by
  obtain ⟨mid, -, heq, hlater⟩ := h.exists_of_append
  rw [heq] at ht hlater
  rw [after_of_settles ht] at hlater
  exact hlater.of_some

/-- **There is no roster yet** exactly if no turn has installed one. -/
theorem Chain.eq_none_iff_installs (h : Chain none turns slot') : slot' = none ↔ ∀ t ∈ turns, ¬ t.Installs := by
  induction turns with
  | nil =>
    cases h
    simp
  | cons first turns ih =>
    cases h with
    | cons caller q h =>
      rw [List.forall_mem_cons]
      cases hafter : (turn none caller q).after with
      | none =>
        rw [hafter] at h
        have hfirst : ¬ (turn none caller q).Installs := fun hinstalls => hinstalls.2 hafter
        rw [ih h, and_iff_right hfirst]
      | some roster =>
        rw [hafter] at h
        have hfirst : (turn none caller q).Installs := ⟨rfl, by simp [hafter]⟩
        simp [h.of_some.1, hfirst]

/-- **There is no roster yet** exactly if no turn has settled on one. -/
theorem Chain.eq_none_iff_settles (h : Chain none turns slot') :
    slot' = none ↔ ∀ t ∈ turns, ∀ roster, ¬ t.Settles roster := by
  constructor
  · rintro rfl t ht roster hsettles
    obtain ⟨earlier, later, rfl⟩ := List.append_of_mem ht
    exact nomatch (h.of_settles hsettles).1
  · intro hnone
    refine h.eq_none_iff_installs.2 fun t ht hinstalls => ?_
    obtain ⟨earlier, later, rfl⟩ := List.append_of_mem ht
    obtain ⟨mid, -, heq, -⟩ := h.exists_of_append
    obtain ⟨hbefore, hafter⟩ := hinstalls
    obtain rfl : mid = none := by
      rw [heq] at hbefore
      exact hbefore
    rw [heq] at hafter
    obtain ⟨roster, hsettles⟩ := exists_settles hafter
    exact hnone t ht roster (heq ▸ hsettles)

/-- Of two turns at most one installs a roster. -/
theorem Chain.pairwise (h : Chain slot turns slot') : turns.Pairwise fun t u => ¬ (t.Installs ∧ u.Installs) := by
  induction h with
  | nil => exact .nil
  | cons caller q h ih =>
    refine .cons (fun u hu => ?_) ih
    rintro ⟨hfirst, hlater⟩
    obtain ⟨roster, hafter⟩ := Option.ne_none_iff_exists'.1 hfirst.2
    rw [hafter] at h
    have hbefore := ((h.of_some).2 u hu).1
    exact nomatch hbefore.symm.trans hlater.1

/-! ### Set once -/

/-- **The roster of the process is set once.** -/
structure SetOnce (turns : List (Turn ι ρ)) : Prop where
  /-- Of two turns at most one installs a roster. -/
  once : turns.Pairwise fun t u => ¬ (t.Installs ∧ u.Installs)
  /-- An installation succeeds exactly if nothing has been installed before. -/
  installs : ∀ earlier t later roster, turns = earlier ++ t :: later → t.request = .install roster →
    (t.response = .installed (.ok ()) ↔ ∀ u ∈ earlier, ¬ u.Installs)
  /-- Otherwise the roster that was to be installed is given back, and nothing changes. -/
  rejects : ∀ earlier t later roster, turns = earlier ++ t :: later → t.request = .install roster →
    t.response ≠ .installed (.ok ()) → t.response = .installed (.error roster) ∧ t.after = t.before
  /-- No roster is found before a turn has settled on one. -/
  before : ∀ earlier t later, turns = earlier ++ t :: later → (∀ u ∈ earlier, ∀ roster, ¬ u.Settles roster) →
    t.request = .get → t.response = .found none
  /-- From then on all turns share that one. -/
  shared : ∀ earlier t later roster, turns = earlier ++ t :: later → t.Settles roster → ∀ u ∈ later, u.Shares roster

theorem Chain.setOnce (h : Chain none turns slot') : SetOnce turns where
  once := h.pairwise
  installs earlier t later roster hturns hrequest := by
    subst hturns
    obtain ⟨mid, hearlier, heq, -⟩ := h.exists_of_append
    rw [heq, hrequest, installed_iff, hearlier.eq_none_iff_installs]
  rejects earlier t later roster hturns hrequest hresponse := by
    subst hturns
    obtain ⟨mid, -, heq, -⟩ := h.exists_of_append
    rw [heq, hrequest] at hresponse ⊢
    cases mid with
    | none => exact absurd rfl hresponse
    | some installed => exact ⟨rfl, rfl⟩
  before earlier t later hturns hnone hrequest := by
    subst hturns
    obtain ⟨mid, hearlier, heq, -⟩ := h.exists_of_append
    obtain rfl := hearlier.eq_none_iff_settles.2 hnone
    rw [heq, hrequest]
    rfl
  shared earlier t later roster hturns hsettles u hu := by
    subst hturns
    exact ((h.of_settles hsettles).2 u hu).2

/-! ### Callers -/

/-- The process with its callers. -/
structure Process (ι ρ : Type) where
  /-- The roster of the process. -/
  slot : Slot ρ
  /-- What each caller has not asked for yet, in order. -/
  left : ι → List (Request ρ)
  /-- The turns so far, in order. -/
  turns : List (Turn ι ρ)

/-- Nobody has begun, and there is no roster. -/
def start (asked : ι → List (Request ρ)) : Process ι ρ := ⟨none, asked, []⟩

variable [DecidableEq ι]

/-- **A step**: one caller makes its next request. -/
inductive Step : Process ι ρ → Process ι ρ → Prop where
  /-- It is the turn of the caller. -/
  | mk {p : Process ι ρ} (caller : ι) {q : Request ρ} {rest : List (Request ρ)} : p.left caller = q :: rest →
      Step p ⟨(turn p.slot caller q).after, Function.update p.left caller rest, p.turns ++ [turn p.slot caller q]⟩

/-- What is reached when the callers make their requests in any order. -/
def Reached (asked : ι → List (Request ρ)) (p : Process ι ρ) : Prop := ReflTransGen Step (start asked) p

variable {asked : ι → List (Request ρ)} {p : Process ι ρ}

/-- The turns go on from each other, and lead from no roster to that of the process. -/
theorem Reached.chain (h : Reached asked p) : Chain none p.turns p.slot := by
  induction h with
  | refl => exact .nil
  | tail _ hstep ih =>
    cases hstep with
    | mk caller hleft => exact ih.concat caller _

/-- The turns of a caller are those of its requests, in its own order. -/
theorem Reached.turns_of_caller (h : Reached asked p) (caller : ι) :
    (p.turns.filter fun t => t.caller = caller).map Turn.request ++ p.left caller = asked caller := by
  induction h with
  | refl => rfl
  | tail _ hstep ih =>
    cases hstep with
    | mk other hleft =>
      by_cases hother : other = caller
      · subst hother
        simpa [turn, hleft] using ih
      · simpa [turn, hother, Function.update_of_ne (Ne.symm hother)] using ih

/-- **The roster of the process is set once**, whatever the callers ask for and in whatever order they come: at most one
of them installs one, and from the first that settles on one they all share it. What each of them asks for is asked in
its own order. -/
theorem roster_set_once (h : Reached asked p) :
    SetOnce p.turns ∧ ∀ caller,
      (p.turns.filter fun t => t.caller = caller).map Turn.request ++ p.left caller = asked caller :=
  ⟨h.chain.setOnce, h.turns_of_caller⟩

/-- One caller finds no roster, has one made, and finds that. The other one wants to install one in the meantime, which
is given back to it, and is given the other one when it would have one made. -/
theorem roster_set_once_in_a_race : ∃ (asked : Bool → List (Request Nat)) (p : Process Bool Nat), Reached asked p ∧
    (p.turns.map Turn.caller = [false, false, true, false, true] ∧ p.turns.map Turn.response =
      [.found none, .given 1, .installed (.error 2), .found (some 1), .given 1]) ∧ SetOnce p.turns := by
  let asked : Bool → List (Request Nat)
    | false => [.get, .getOrMake fun _ => 1, .get]
    | true => [.install 2, .getOrMake fun _ => 3]
  have h₀ : Reached asked (start asked) := .refl
  have h₁ := h₀.tail (.mk false rfl)
  have h₂ := h₁.tail (.mk false rfl)
  have h₃ := h₂.tail (.mk true rfl)
  have h₄ := h₃.tail (.mk false rfl)
  have h₅ := h₄.tail (.mk true rfl)
  exact ⟨asked, _, h₅, ⟨rfl, rfl⟩, (roster_set_once h₅).1⟩

end JobRoster.OfProcess
