import JobRoster.Proofs.Engine.Locality
import JobRoster.Proofs.MutationLock.Memory

/-!
# Requests to a roster

What holds of every request to a roster, whatever it asks for. Which calls it makes (`program_makes`) is enough to say
that they stay in its scope (`program_staysIn`), that an engine in memory is kept among those that are reached
(`Reached.perform`), and that no job is there afterwards but the old ones and a declared one (`mem_jobs_of_exec`). Where
nobody holds the lock a request gets its guard and gives it back (`perform_free`). Which jobs it is about is decided
before it runs (`Request.Concerns`).
-/

namespace JobRoster

open Attempt

variable {α β : Type} {scope : Scope} {P : Call → Prop}

/-! ### What the calls of an attempt have in common -/

namespace Attempt

/-- An attempt makes only calls in `P` as long as what comes back fits, and ends with a value in `Q` unless it is
stopped. -/
def Obeys (P : Call → Prop) (x : Attempt α) (Q : α → Prop) : Prop :=
  x.run.Obeys P Call.Fits fun r => ∀ a, r = .ok a → Q a

theorem Obeys.bind {x : Attempt α} {f : α → Attempt β} {Q : α → Prop} {Q' : β → Prop} (hx : x.Obeys P Q)
    (hf : ∀ a, Q a → (f a).Obeys P Q') : (x >>= f).Obeys P Q' := by
  unfold Obeys
  rw [ExceptT.run_bind]
  refine Program.Obeys.bind hx fun r hr => ?_
  cases r with
  | ok a => exact hf a (hr a rfl)
  | error e => exact fun a ha => by cases ha

theorem obeys_pure {a : α} {Q : α → Prop} (ha : Q a) : (pure a : Attempt α).Obeys P Q := by
  intro b hb
  cases hb
  exact ha

theorem obeys_throw {e : EngineError} {Q : α → Prop} : (throw e : Attempt α).Obeys P Q := by
  intro b hb
  cases hb

theorem obeys_report (e : Event) : (report e).Obeys P fun _ => True := fun _ _ => trivial

theorem obeys_call {c : Call} (hc : P c) : (call c).Obeys P fun a => c.Fits (.ok a) := by
  refine ⟨hc, fun r hr a ha => ?_⟩
  cases ha
  exact hr

theorem Obeys.mono {x : Attempt α} {Q : α → Prop} (hx : x.Obeys P Q) : x.Obeys P fun _ => True :=
  Program.Obeys.mono hx (fun _ hc => hc) fun _ _ _ _ => trivial

end Attempt

/-! ### Declarations -/

namespace Declaration

variable (d : Declaration)

/-- **The calls that are made to carry out a declaration**: they are about the declared job and its trigger, and no
other trigger is passed than the wanted one. -/
def Makes : Call → Prop
  | .jobExists k | .getJob k | .triggerExists k | .getTrigger k => k = d.key
  | .addJob job _ => job.key = d.key
  | .schedule t => t = d.trigger
  | .reschedule k t => k = d.key ∧ t = d.trigger
  | _ => False

theorem reconcileJob_makes : d.reconcileJob.Obeys d.Makes fun _ => True := by
  refine Obeys.bind (obeys_call rfl) fun there _ => ?_
  split
  · refine Obeys.bind (obeys_call rfl) fun stored hstored => ?_
    split
    · exact obeys_throw
    · split
      · -- the job that takes over data has the key under which it was found
        refine Obeys.bind (obeys_call hstored) fun _ _ => Obeys.bind (obeys_report _) fun _ _ => ?_
        exact obeys_pure trivial
      · exact obeys_pure trivial
  · refine Obeys.bind (obeys_call rfl) fun _ _ => Obeys.bind (obeys_report _) fun _ _ => ?_
    exact obeys_pure trivial

theorem reconcileTrigger_makes : d.reconcileTrigger.Obeys d.Makes fun _ => True := by
  refine Obeys.bind (obeys_call rfl) fun there _ => ?_
  split
  · refine Obeys.bind (obeys_call rfl) fun stored _ => ?_
    split
    · exact obeys_throw
    · split
      · exact Obeys.bind (obeys_report _) fun _ _ => obeys_pure trivial
      · refine Obeys.bind (obeys_call ⟨rfl, rfl⟩) fun _ _ => Obeys.bind (obeys_report _) fun _ _ => ?_
        exact obeys_pure trivial
  · refine Obeys.bind (obeys_call rfl) fun _ _ => Obeys.bind (obeys_report _) fun _ _ => ?_
    exact obeys_pure trivial

theorem register_makes : d.register.Obeys d.Makes Call.Fits fun _ => True := by
  have hreconcile : d.reconcile.Obeys d.Makes fun _ => True :=
    d.reconcileJob_makes.bind fun _ _ => d.reconcileTrigger_makes.bind fun _ _ => obeys_pure trivial
  refine Program.Obeys.bind hreconcile fun r _ => ?_
  cases r <;> trivial

variable {d} {c : Call}

/-- The calls stay in the group of the declared job. -/
theorem Makes.staysIn (hc : d.Makes c) : c.StaysIn (.group d.group) := by
  cases c with
  | jobExists | getJob | triggerExists | getTrigger | addJob => exact ⟨congrArg Key.group hc, trivial⟩
  | schedule t =>
    obtain rfl : t = d.trigger := hc
    exact ⟨⟨rfl, rfl⟩, rfl⟩
  | reschedule k t =>
    obtain ⟨rfl, rfl⟩ : k = d.key ∧ t = d.trigger := hc
    exact ⟨⟨rfl, rfl⟩, rfl⟩
  | _ => exact hc.elim

/-- No other trigger is passed than the wanted one. -/
theorem Makes.passes (hc : d.Makes c) {allowed : Trigger → Prop} (ht : allowed d.trigger) : c.Passes allowed := by
  cases c with
  | schedule t => exact (show t = d.trigger from hc) ▸ ht
  | reschedule k t => exact (show k = d.key ∧ t = d.trigger from hc).2 ▸ ht
  | _ => trivial

end Declaration

/-! ### Deletions -/

namespace Deletion

theorem one_obeys {key : Key} (hexists : P (.jobExists key)) (hdelete : P (.deleteJob key)) :
    (one key).Obeys P fun _ => True := by
  refine Obeys.bind (obeys_call hexists) fun there _ => ?_
  split
  · exact Obeys.bind (obeys_report _) fun _ _ => (obeys_call hdelete).mono
  · exact obeys_pure trivial

theorem groups_obeys {matcher : GroupMatcher} (hkeys : P (.jobKeys matcher))
    (hdelete : ∀ keys : List Key, (∀ k ∈ keys, matcher.accepts k.group = true) → P (.deleteJobs keys)) :
    (groups matcher).Obeys P fun _ => True := by
  refine Obeys.bind (obeys_call hkeys) fun keys hfits => ?_
  split
  · exact obeys_pure trivial
  · exact Obeys.bind (obeys_report _) fun _ _ => (obeys_call (hdelete keys hfits)).mono

/-- A deletion makes no calls upon an error. -/
theorem orFalse_obeys {attempt : Attempt Bool} (h : attempt.Obeys P fun _ => True) (failed : String → Event) :
    (orFalse attempt failed).Obeys P Call.Fits fun _ => True := by
  refine Program.Obeys.bind h fun r _ => ?_
  cases r <;> trivial

end Deletion

namespace Roster

variable (r : Roster)

/-- **The calls that a request makes.** -/
def Request.Makes (r : Roster) : Request → Call → Prop
  | .register d, c => d.Makes c
  | .deleteJob name group, .jobExists k | .deleteJob name group, .deleteJob k => k = ⟨name, group⟩
  | .deleteGroup group, .jobKeys matcher => matcher = r.groupMatch.matcher group
  | .deleteGroup group, .deleteJobs keys => ∀ k ∈ keys, (r.groupMatch.matcher group).accepts k.group = true
  | _, _ => False

theorem program_makes (q : Request) : (r.program q).Obeys (q.Makes r) Call.Fits fun _ => True := by
  cases q with
  | register d => exact Program.Obeys.bind d.register_makes fun _ _ => trivial
  | deleteJob name group =>
    have hone : (Deletion.one ⟨name, group⟩).Obeys ((Request.deleteJob name group).Makes r) fun _ => True :=
      Deletion.one_obeys rfl rfl
    exact Program.Obeys.bind (Deletion.orFalse_obeys hone _) fun _ _ => trivial
  | deleteGroup group =>
    have hgroups : (Deletion.groups (r.groupMatch.matcher group)).Obeys ((Request.deleteGroup group).Makes r)
        fun _ => True := Deletion.groups_obeys rfl fun _ h => h
    exact Program.Obeys.bind (Deletion.orFalse_obeys hgroups _) fun _ _ => trivial

variable {r} {q : Request} {c : Call}

theorem Request.Makes.staysIn (hc : q.Makes r c) : c.StaysIn q.scope := by
  cases q with
  | register d => exact Declaration.Makes.staysIn hc
  | deleteJob name group =>
    cases c with
    | jobExists | deleteJob => exact ⟨congrArg Key.group hc, trivial⟩
    | _ => exact hc.elim
  | deleteGroup group =>
    cases c with
    | jobKeys matcher => exact ⟨rfl, trivial⟩
    | deleteJobs keys => exact ⟨fun _ _ => trivial, trivial⟩
    | _ => exact hc.elim

/-- A request passes no trigger but the one of the job that it declares, if it declares one. -/
theorem Request.Makes.passes (hc : q.Makes r c) {allowed : Trigger → Prop}
    (hq : ∀ d, q = .register d → allowed d.trigger) : c.Passes allowed := by
  cases q with
  | register d => exact Declaration.Makes.passes hc (hq d rfl)
  | _ =>
    cases c with
    | schedule | reschedule => exact hc.elim
    | _ => trivial

/-- A request adds no job but the one that it declares, if it declares one. -/
theorem Request.Makes.exists_register {job : Job} {replace : Bool} (hc : q.Makes r (.addJob job replace)) :
    ∃ d, q = .register d ∧ job.key = d.key := by
  cases q with
  | register d => exact ⟨d, rfl, hc⟩
  | _ => exact hc.elim

/-- **The calls of a request stay in its scope.** -/
theorem program_staysIn (r : Roster) (q : Request) : (r.program q).StaysIn q.scope :=
  (r.program_makes q).mono (fun _ hc => hc.staysIn) fun _ h => h

/-! ### What a request is about -/

section About

variable {r : Roster} {q : Request} {k : Key}

/-- A request is to delete a job. -/
def Request.Deletes (r : Roster) (k : Key) : Request → Prop
  | register _ => False
  | deleteJob name group => k = ⟨name, group⟩
  | deleteGroup group => (r.groupMatch.matcher group).accepts k.group = true

instance (r : Roster) (k : Key) : (q : Request) → Decidable (q.Deletes r k)
  | .register _ => inferInstanceAs (Decidable False)
  | .deleteJob name group => inferInstanceAs (Decidable (k = ⟨name, group⟩))
  | .deleteGroup group => inferInstanceAs (Decidable ((r.groupMatch.matcher group).accepts k.group = true))

/-- A request is about a job: it declares the job, or is to delete it. -/
def Request.Concerns (r : Roster) (k : Key) : Request → Prop
  | .register d => d.key = k
  | q => q.Deletes r k

/-- What a request is to delete it is about. -/
theorem Request.Deletes.concerns (h : q.Deletes r k) : q.Concerns r k := by
  cases q with
  | register d => exact h.elim
  | _ => exact h

/-- A request that is about a job, and is not to delete it, declares it. -/
theorem Request.Concerns.exists_register (h : q.Concerns r k) (hq : ¬ q.Deletes r k) :
    ∃ d, q = .register d ∧ d.key = k := by
  cases q with
  | register d => exact ⟨d, rfl, h⟩
  | _ => exact absurd h hq

end About

/-! ### Carrying out a request -/

variable {σ : Type} {engine : Engine σ} {q : Request} {w : World σ} {run : Program.Run (World σ) Answer}

/-- A request that gets hold of the lock runs its program, and lets go of the lock. -/
theorem perform_eq_some {r : Roster} (h : r.perform engine q w = some run) :
    (run.result, run.state.engine) = (r.program q).exec engine w.engine ∧
      ∃ guard m, w.lock.acquire r.lock q.scope = some (guard, m) ∧ run.state.lock = m.release guard := by
  simp only [perform, Option.bind_eq_bind, Option.bind_eq_some_iff, Option.pure_def, Option.some.injEq] at h
  obtain ⟨⟨guard, m⟩, hacquire, rfl⟩ := h
  exact ⟨rfl, guard, m, hacquire, rfl⟩

/-- **Where nobody holds the lock**, a request runs its program and leaves the lock as it was. -/
theorem perform_free (r : Roster) (engine : Engine σ) (q : Request) (s : σ) :
    ∃ run, r.perform engine q ⟨.free, s⟩ = some run ∧ run.result = ((r.program q).exec engine s).1 ∧
      run.state = ⟨.free, ((r.program q).exec engine s).2⟩ := by
  obtain ⟨guard, m, hacquire, hrelease⟩ := LockState.acquire_free r.lock q.scope
  have hperform : r.perform engine q ⟨.free, s⟩ = some ⟨((r.program q).run engine s).result,
      ⟨m.release guard, ((r.program q).run engine s).state⟩, ((r.program q).run engine s).events⟩ := by
    simp only [perform, hacquire]
    rfl
  exact ⟨_, hperform, rfl, by rw [hrelease]; rfl⟩

/-- No request shuts an engine down. -/
theorem program_stopped (r : Roster) (q : Request) {s : Store} (hs : s.Sound) (hm : s.Mirrored) (now : Instant) :
    ((r.program q).exec (Store.engine now) s).2.stopped = s.stopped :=
  (Store.exec_frame now (r.program_staysIn q) hs hm).2.2.2

/-- **A job that is there after a request** was there before, unless it has been declared. -/
theorem mem_jobs_of_exec {r : Roster} {s : Store} {now : Instant} {k : Key} (hs : s.Sound)
    (hk : k ∈ ((r.program q).exec (Store.engine now) s).2.jobs) :
    k ∈ s.jobs ∨ ∃ d, q = .register d ∧ d.key = k := by
  refine (Program.Obeys.exec (I := fun s' : Store => s'.Sound ∧
    ∀ k ∈ s'.jobs, k ∈ s.jobs ∨ ∃ d, q = .register d ∧ d.key = k) ?_ (r.program_makes q) ⟨hs, fun _ => .inl⟩).1.2 k hk
  rintro c s' hc ⟨hs', hjobs⟩
  have hchange := Store.serve_change now c s'
  refine ⟨⟨hchange.sound hs', fun k hk => ?_⟩, Store.serve_fits hs' now c⟩
  obtain hk | ⟨job, replace, rfl, rfl⟩ := hchange.mem_jobs hk
  · exact hjobs k hk
  · obtain ⟨d, hd, hkey⟩ := hc.exists_register
    exact .inr ⟨d, hd, hkey.symm⟩

end Roster

namespace Store

variable {allowed : Trigger → Prop} {s : Store} {now : Instant}

/-- The program of a request leaves a memory among those that are reached, if a trigger that is wanted is allowed. -/
theorem Reached.program_of_declared (hs : s.Reached allowed) {q : Roster.Request}
    (hq : ∀ d, q = .register d → allowed d.trigger) (r : Roster) :
    ((r.program q).exec (engine now) s).2.Reached allowed :=
  hs.exec (fun c _ hs => serve_fits hs.sound now c)
    ((r.program_makes q).mono (fun _ hc => hc.passes hq) fun _ h => h)

theorem Reached.program (hs : s.Reached allowed) (hallowed : ∀ t, t.Mirrors → allowed t) (r : Roster)
    (q : Roster.Request) : ((r.program q).exec (engine now) s).2.Reached allowed :=
  hs.program_of_declared (fun d _ => hallowed d.trigger rfl) r

/-- **A request leaves a memory among those that are reached.** -/
theorem Reached.perform {r : Roster} {q : Roster.Request} {lock : LockState}
    {run : Program.Run (Roster.World Store) Roster.Answer} (hs : s.Reached allowed)
    (hallowed : ∀ t, t.Mirrors → allowed t) (h : r.perform (engine now) q ⟨lock, s⟩ = some run) :
    run.state.engine.Reached allowed := by
  have hstate : run.state.engine = ((r.program q).exec (engine now) s).2 :=
    congrArg Prod.snd (Roster.perform_eq_some h).1
  rw [hstate]
  exact hs.program hallowed r q

end Store

end JobRoster
