import JobRoster.Proofs.Roster.Keeping
import JobRoster.Proofs.Roster.Serial

/-!
# Requests of many threads come to what they come to one after another

Once all threads have carried out their requests, the memory of the engine is what it is when the requests are carried
out one after another, in an order that is the own one of each thread, and each request has ended with what it ends with
then (`crew_serialized`). With that, what holds of requests one after another holds of them whatever the threads do: a
job that a declaration has left there is not made once more unless it was to be deleted in between, and data that were
declared are there in the end unless they were declared anew or the job was to be deleted.
-/

namespace JobRoster

open Relation Roster

variable {ι : Type*} {r : Roster} {w w' : World Store} {turn : Turn ι} {turns : List (Turn ι)} {k : Key}
  {d : Declaration} {o : Outcome}

/-! ### What turns leave behind -/

/-- A turn carries out a declaration. -/
def Turn.Registers (turn : Turn ι) (d : Declaration) (o : Outcome) : Prop :=
  turn.duty.request = .register d ∧ turn.result = .ok (.registered (.ok o))

namespace OneByOne

/-- The tables go on making sense, and triggers go on having the keys of their jobs. -/
theorem sound (h : OneByOne r w turns w') (hs : w.engine.Sound) (hm : w.engine.Mirrored) :
    w'.engine.Sound ∧ w'.engine.Mirrored := by
  induction h with
  | nil => exact ⟨hs, hm⟩
  | @cons w w' turn turns run hrun _ _ ih =>
    have hstate : run.state.engine = ((r.program turn.duty.request).exec (Store.engine turn.duty.now) w.engine).2 :=
      congrArg Prod.snd (perform_eq_some hrun).1
    obtain ⟨-, hsound, hmirrored, -⟩ :=
      Store.exec_frame turn.duty.now (r.program_staysIn turn.duty.request) hs hm
    rw [← hstate] at hsound hmirrored
    exact ih hsound hmirrored

/-- **A job that is there stays there** unless a turn is to delete it, with what it holds under a name that no turn
declares. -/
theorem keeps_job (h : OneByOne r w turns w') (hs : w.engine.Sound) (hm : w.engine.Mirrored)
    (hdeletes : ∀ turn ∈ turns, ¬ turn.duty.request.Deletes r k) {job : Job} (hjob : w.engine.jobs[k]? = some job) :
    ∃ job', w'.engine.jobs[k]? = some job' ∧
      ∀ name, (∀ turn ∈ turns, ¬ turn.duty.request.Declares k name) → job'.data[name]? = job.data[name]? := by
  induction h generalizing job with
  | nil => exact ⟨job, hjob, fun _ _ => rfl⟩
  | @cons w w' turn turns run hrun hresult hrest ih =>
    obtain ⟨hs', hm'⟩ := (OneByOne.cons hrun hresult .nil).sound hs hm
    obtain ⟨job₁, hjob₁, hdata₁⟩ := perform_keeps hs hm hrun (hdeletes turn List.mem_cons_self) hjob
    obtain ⟨job₂, hjob₂, hdata₂⟩ := ih hs' hm' (fun turn ht => hdeletes turn (List.mem_cons_of_mem _ ht)) hjob₁
    refine ⟨job₂, hjob₂, fun name hname => ?_⟩
    exact (hdata₂ name fun turn ht => hname turn (List.mem_cons_of_mem _ ht)).trans
      (hdata₁ name (hname turn List.mem_cons_self))

/-- The first turn, if it carries out a declaration. -/
theorem reconciled_of_registers (h : OneByOne r w (turn :: turns) w') (hs : w.engine.Sound) (hm : w.engine.Mirrored)
    (hturn : turn.Registers d o) :
    ∃ w₁, d.Reconciled turn.duty.now w.engine w₁.engine o ∧ OneByOne r w₁ turns w' ∧ w₁.engine.Sound ∧
      w₁.engine.Mirrored := by
  cases h with
  | @cons _ _ _ _ run hrun hresult hrest =>
    obtain ⟨hs', hm'⟩ := (OneByOne.cons hrun hresult .nil).sound hs hm
    rw [hturn.1] at hrun
    exact ⟨run.state, reconciled_of_register hs hm hrun (hresult.symm.trans hturn.2), hrest, hs', hm'⟩

/-- **No job is made twice**: where a declaration was carried out, a later one of the same job makes it only if it was
to be deleted in between. -/
theorem exists_deletes_of_created {a b : Turn ι} {d' : Declaration} {o' : Outcome} {between after : List (Turn ι)}
    (h : OneByOne r w (a :: (between ++ b :: after)) w') (hs : w.engine.Sound) (hm : w.engine.Mirrored)
    (ha : a.Registers d o) (hb : b.Registers d' o') (hkey : d'.key = d.key) (hcreated : o'.job = .created) :
    ∃ turn ∈ between, turn.duty.request.Deletes r d.key := by
  obtain ⟨w₁, hfirst, h₁, hs₁, hm₁⟩ := h.reconciled_of_registers hs hm ha
  obtain ⟨w₂, h₁₂, h₂⟩ := h₁.exists_of_append
  obtain ⟨hs₂, hm₂⟩ := h₁₂.sound hs₁ hm₁
  obtain ⟨w₃, hlater, -⟩ := h₂.reconciled_of_registers hs₂ hm₂ hb
  by_contra hnone
  push Not at hnone
  obtain ⟨job, hjob, -⟩ := h₁₂.keeps_job hs₁ hm₁ hnone hfirst.job.job
  have habsent := hlater.job.created.1 hcreated
  rw [hkey, hjob] at habsent
  cases habsent

/-- **No data are lost**: what a declaration that was carried out has under a name is there in the end, unless the job
was to be deleted later or data were declared under that name. -/
theorem holds_of_registers {after : List (Turn ι)} (h : OneByOne r w (turn :: after) w') (hs : w.engine.Sound)
    (hm : w.engine.Mirrored) (hturn : turn.Registers d o) {data : Payload} (hdata : d.data = some data) {name : String}
    {value : Datum} (hvalue : data[name]? = some value)
    (hafter : ∀ turn ∈ after, ¬ turn.duty.request.Deletes r d.key ∧ ¬ turn.duty.request.Declares d.key name) :
    ∃ job, w'.engine.jobs[d.key]? = some job ∧ job.data.holds name value = true := by
  obtain ⟨w₁, hfirst, h₁, hs₁, hm₁⟩ := h.reconciled_of_registers hs hm hturn
  obtain ⟨job, hjob, hholds⟩ := hfirst.holds hdata hvalue
  obtain ⟨job', hjob', hsame⟩ := h₁.keeps_job hs₁ hm₁ (fun turn ht => (hafter turn ht).1) hjob
  refine ⟨job', hjob', ?_⟩
  rw [← hholds]
  unfold Payload.holds
  rw [hsame name fun turn ht => (hafter turn ht).2]

end OneByOne

/-! ### What the threads come to -/

namespace Crew

variable {c : Crew ι} {s₀ : Store} {duties : ι → List Duty} {allowed : Trigger → Prop}

/-- **What the threads have come to is what their requests come to one after another**, in the order of the turns. -/
structure Serialized [DecidableEq ι] (r : Roster) (s₀ : Store) (duties : ι → List Duty) (c : Crew ι)
    (turns : List (Turn ι)) (w : World Store) : Prop where
  /-- The requests of each thread have their turns in its own order. -/
  duties : ∀ t, (turnsOf t turns).map Turn.duty = duties t
  /-- Each request has ended with what it ends with in its turn. -/
  answers : ∀ t, (turnsOf t turns).map Turn.result = (c.worker t).answers
  /-- This is what they end with, and leave behind, when they are carried out one after another. -/
  one_by_one : OneByOne r ⟨.free, s₀⟩ turns w
  /-- The same jobs are left behind. -/
  jobs : c.store.jobs = w.engine.jobs
  /-- The same triggers are left behind, with the same next fire times. -/
  triggers : c.store.triggers = w.engine.triggers
  /-- A job is not made once more after a declaration of it was carried out, unless it was to be deleted in between. -/
  made_once : ∀ {before between after : List (Turn ι)} {a b : Turn ι} {d d' : Declaration} {o o' : Outcome},
    turns = before ++ a :: (between ++ b :: after) → a.Registers d o → b.Registers d' o' → d'.key = d.key →
      o'.job = .created → ∃ turn ∈ between, turn.duty.request.Deletes r d.key
  /-- Data that were declared are there, unless the job was to be deleted or data were declared under the same name
  later. -/
  data_kept : ∀ {before after : List (Turn ι)} {turn : Turn ι} {d : Declaration} {o : Outcome} {data : Payload}
    {name : String} {value : Datum}, turns = before ++ turn :: after → turn.Registers d o → d.data = some data →
      data[name]? = some value →
        (∀ turn ∈ after, ¬ turn.duty.request.Deletes r d.key ∧ ¬ turn.duty.request.Declares d.key name) →
          ∃ job, c.store.jobs[d.key]? = some job ∧ job.data.holds name value = true

variable [Fintype ι] [DecidableEq ι]

/-- **Threads come to what their requests come to one after another**, with either lock, however the steps of the
threads follow each other. -/
theorem crew_serialized (hs : s₀.Reached allowed) (hm : s₀.Mirrored) (hc : c.Reached r s₀ duties)
    (hdone : ∀ t, (c.worker t).left = []) : ∃ turns w, Serialized r s₀ duties c turns w := by
  obtain ⟨ho, turns, serial, hrec, hl⟩ := hc.exists_turns hs.sound hm
  -- nobody holds anything any more, so the two memories have nothing to differ in
  have hsame (k : Key) : serial.AgreeAt k c.store :=
    hl.free k fun t guard ht => absurd ht (ho.not_holding hdone t guard)
  have hjobs : c.store.jobs = serial.jobs := Std.ExtTreeMap.ext_getElem? fun k => (hsame k).1.symm
  have htriggers : c.store.triggers = serial.triggers := Std.ExtTreeMap.ext_getElem? fun k => (hsame k).2.symm
  refine ⟨turns, ⟨.free, serial⟩, ?_, hrec.answers, hrec.one_by_one, hjobs, htriggers, ?_, ?_⟩
  · intro t
    have hduties := hrec.duties t
    rwa [hdone t, List.map_nil, List.append_nil] at hduties
  · intro before between after a b d d' o o' hturns ha hb hkey hcreated
    obtain ⟨w, hbefore, hrest⟩ := OneByOne.exists_of_append (hturns ▸ hrec.one_by_one)
    obtain ⟨hsound, hmirrored⟩ := hbefore.sound hs.sound hm
    exact hrest.exists_deletes_of_created hsound hmirrored ha hb hkey hcreated
  · intro before after turn d o data name value hturns hturn hdata hvalue hafter
    obtain ⟨w, hbefore, hrest⟩ := OneByOne.exists_of_append (hturns ▸ hrec.one_by_one)
    obtain ⟨hsound, hmirrored⟩ := hbefore.sound hs.sound hm
    rw [hjobs]
    exact hrest.holds_of_registers hsound hmirrored hturn hdata hvalue hafter

/-- Two threads declare a job each, in groups of their own: both have their guards at once, and the one that was last
to get its guard is the first to go through its calls. -/
theorem crew_serialized_side_by_side : ∃ (r : Roster) (duties : Fin 2 → List Duty) (c c' : Crew (Fin 2)) (n n' : Nat),
    Store.fresh.Reached Trigger.Mirrors ∧ Store.fresh.Mirrored ∧ c.Reached r .fresh duties ∧
      (c.phase 0 = .holding (.group "eu" n) ∧ c.phase 1 = .holding (.group "us" n')) ∧
        ReflTransGen (Step r) c c' ∧ (∀ t, (c'.worker t).left = []) ∧ (∀ t, (duties t).length = 1) ∧
          ∃ turns w, Serialized r .fresh duties c' turns w := by
  let now : Instant := ⟨4133894300, 0, by decide, by decide, by decide, by decide⟩
  let r : Roster := { Roster.standard with lock := .perGroup }
  let d (group : String) : Declaration :=
    { jobType := "backup", name := "nightly", group, cron := "@daily", start := now, stop := none, data := none }
  let duty (t : Fin 2) : Duty := ⟨.register (d (if t = 0 then "eu" else "us")), now⟩
  obtain ⟨n, m₁, h₁, htaken, hentries, -⟩ :=
    LockState.acquire_of_no_entry (m := .free) (g := "eu") rfl Std.ExtTreeMap.getElem?_empty
  have hus : m₁.entries["us"]? = none := by
    rw [hentries]
    rfl
  obtain ⟨n', m₂, h₂, -⟩ := LockState.acquire_of_no_entry htaken hus
  let guard (t : Fin 2) : Guard := if t = 0 then .group "eu" n else .group "us" n'
  let c : Crew (Fin 2) := ⟨m₂, .fresh, fun t => ⟨.holding (guard t), [.fresh r (duty t)], []⟩⟩
  have hs : Store.fresh.Reached Trigger.Mirrors := .empty _
  have hm : Store.fresh.Mirrored := hs.mirrored_supported.1
  have hin : c.Reached r .fresh fun t => [duty t] := by
    have hboth : Reached r .fresh (fun t => [duty t]) _ :=
      (steps_of_acquire (t := 0) rfl h₁).trans (steps_of_acquire (t := 1) rfl h₂)
    convert hboth using 1
    exact Crew.ext rfl rfl (funext (Fin.forall_fin_two.2 ⟨rfl, rfl⟩))
  obtain ⟨c', hout, hdone⟩ : ∃ c', ReflTransGen (Step r) c c' ∧ ∀ t, (c'.worker t).left = [] := by
    have h := (steps_of_program (r := r) (c := c) (t := 1) rfl).trans (steps_of_program (t := 0) rfl)
    refine ⟨_, h, Fin.forall_fin_two.2 ⟨rfl, rfl⟩⟩
  have hserialized := crew_serialized hs hm (hin.trans hout) hdone
  exact ⟨r, _, c, c', n, n', hs, hm, hin, ⟨rfl, rfl⟩, hout, hdone, fun _ => rfl, hserialized⟩

end Crew

end JobRoster
