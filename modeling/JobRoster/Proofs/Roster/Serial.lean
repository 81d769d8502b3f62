import JobRoster.Proofs.Roster.Crew

/-!
# Threads as if one request came after another

Whatever the threads do in whatever order, there is an order of the requests in which carrying them out one after
another (`OneByOne`) ends each of them with what it ended with, and leaves the same jobs and triggers. It is the order
in which their guards ended. In between the requests that are under way have touched nothing outside of what they hold,
and each of them is on the way to what it would end with if it were carried out at once after those that have ended
(`Crew.Linked`).
-/

namespace JobRoster

open Relation Roster

variable {ι : Type*} {r : Roster}

/-! ### One after another -/

/-- A request that a thread has carried out, and what it ended with. -/
structure Turn (ι : Type*) where
  /-- The thread. -/
  thread : ι
  /-- The request, and its time. -/
  duty : Duty
  /-- What it ended with. -/
  result : Except Crash Answer

/-- **Requests are carried out one after another**, and end with what is said. -/
inductive OneByOne (r : Roster) : World Store → List (Turn ι) → World Store → Prop where
  /-- No request. -/
  | nil {w : World Store} : OneByOne r w [] w
  /-- A request, and then the others. -/
  | cons {w w' : World Store} {turn : Turn ι} {turns : List (Turn ι)}
      {run : Program.Run (World Store) Answer} :
      r.perform (Store.engine turn.duty.now) turn.duty.request w = some run → turn.result = run.result →
        OneByOne r run.state turns w' → OneByOne r w (turn :: turns) w'

theorem OneByOne.append {w w' w'' : World Store} {turns turns' : List (Turn ι)} (h : OneByOne r w turns w')
    (h' : OneByOne r w' turns' w'') : OneByOne r w (turns ++ turns') w'' := by
  induction h with
  | nil => exact h'
  | cons hrun hresult _ ih => exact .cons hrun hresult (ih h')

/-- What was carried out can be cut in two. -/
theorem OneByOne.exists_of_append {w w'' : World Store} {turns turns' : List (Turn ι)}
    (h : OneByOne r w (turns ++ turns') w'') : ∃ w', OneByOne r w turns w' ∧ OneByOne r w' turns' w'' := by
  induction turns generalizing w with
  | nil => exact ⟨w, .nil, h⟩
  | cons turn turns ih =>
    cases h with
    | cons hrun hresult h =>
      obtain ⟨w', h, h'⟩ := ih h
      exact ⟨w', .cons hrun hresult h, h'⟩

/-- One more request, where nobody holds the lock. -/
theorem OneByOne.concat {w : World Store} {turns : List (Turn ι)} {s : Store} (h : OneByOne r w turns ⟨.free, s⟩)
    (t : ι) (duty : Duty) :
    OneByOne r w (turns ++ [⟨t, duty, ((r.program duty.request).exec (Store.engine duty.now) s).1⟩])
      ⟨.free, ((r.program duty.request).exec (Store.engine duty.now) s).2⟩ := by
  obtain ⟨run, hrun, hresult, hstate⟩ := r.perform_free (Store.engine duty.now) duty.request s
  exact h.append (.cons hrun hresult.symm (hstate ▸ .nil))

/-! ### A request under way -/

namespace Errand

variable {e e' : Errand} {scope : Scope} {serial serial' s s' : Store}

/-- **A request under way is on the way to what it would end with at once**: in the scope that is held for it, the rest
of it cannot be told apart from the whole of it in another memory. -/
structure Matches (r : Roster) (scope : Scope) (e : Errand) (serial s : Store) : Prop where
  /-- The whole of it stays in the scope. -/
  staysIn : (r.program e.duty.request).StaysIn scope
  /-- So does the rest. -/
  rest_staysIn : ∀ p, e.rest = .ok p → p.StaysIn scope
  /-- They end with the same. -/
  result : ((r.program e.duty.request).exec (Store.engine e.duty.now) serial).1 = (e.exec s).1
  /-- They leave the same in the scope. -/
  agree : Store.Agree scope ((r.program e.duty.request).exec (Store.engine e.duty.now) serial).2 (e.exec s).2

/-- What the rest of a request ends with depends on the memory in its scope alone. -/
theorem exec_congr (he : ∀ p, e.rest = .ok p → p.StaysIn scope) (h : Store.Agree scope s s') (hs : s.Sound) :
    (e.exec s).1 = (e.exec s').1 ∧ Store.Agree scope (e.exec s).2 (e.exec s').2 := by
  obtain ⟨duty, rest⟩ := e
  cases rest with
  | ok p => exact Store.exec_congr duty.now (he p rfl) h hs
  | error crash => exact ⟨rfl, h⟩

/-- A request of which nothing has been done, where the memories agree. -/
theorem Matches.fresh {duty : Duty} (hstays : (r.program duty.request).StaysIn scope)
    (h : Store.Agree scope serial s) (hserial : serial.Sound) : Matches r scope (.fresh r duty) serial s := by
  obtain ⟨hresult, hagree⟩ := Store.exec_congr duty.now hstays h hserial
  exact ⟨hstays, fun p hp => by cases hp; exact hstays, hresult, hagree⟩

/-- Others may change the memory outside of the scope. -/
theorem Matches.of_agree (hm : Matches r scope e serial s) (h : Store.Agree scope s s') (hs : s.Sound) :
    Matches r scope e serial s' := by
  obtain ⟨hresult, hagree⟩ := exec_congr hm.rest_staysIn h hs
  exact ⟨hm.staysIn, hm.rest_staysIn, hm.result.trans hresult, hm.agree.trans hagree⟩

/-- Others may be carried out before it. -/
theorem Matches.of_agree_serial (hm : Matches r scope e serial s) (h : Store.Agree scope serial serial')
    (hserial : serial.Sound) : Matches r scope e serial' s := by
  obtain ⟨hresult, hagree⟩ := Store.exec_congr e.duty.now hm.staysIn h hserial
  exact ⟨hm.staysIn, hm.rest_staysIn, hresult.symm.trans hm.result, hagree.symm.trans hm.agree⟩

/-- The report of an event changes nothing. -/
theorem Matches.note {duty : Duty} {event : Event} {p : Program Answer}
    (hm : Matches r scope ⟨duty, .ok (.note event p)⟩ serial s) : Matches r scope ⟨duty, .ok p⟩ serial s := by
  have hrest : (Program.note event p).StaysIn scope := hm.rest_staysIn _ rfl
  refine ⟨hm.staysIn, fun p' hp' => ?_, hm.result, hm.agree⟩
  cases hp'
  exact hrest

/-- A call brings a request on its way. -/
theorem Matches.call {duty : Duty} {c : Call} {next : Except EngineError c.Answer → Program Answer}
    (hm : Matches r scope ⟨duty, .ok (.ask c next)⟩ serial s) (hs : s.Sound) :
    Matches r scope ⟨duty, (s.serve duty.now c).reply.goOn next⟩ serial (s.serve duty.now c).state := by
  have hexec := exec_goOn duty c next s
  refine ⟨hm.staysIn, fun p hp => ?_, hm.result.trans (congrArg Prod.fst hexec), hexec ▸ hm.agree⟩
  have hfits := Store.serve_fits hs duty.now c
  have hnext := (hm.rest_staysIn _ rfl).2
  cases hreply : (s.serve duty.now c).reply with
  | answer a =>
    rw [hreply] at hfits hp
    cases hp
    exact hnext _ hfits
  | refused e =>
    rw [hreply] at hfits hp
    cases hp
    exact hnext _ hfits
  | crashed crash =>
    rw [hreply] at hp
    cases hp

end Errand

/-! ### All requests under way -/

namespace Crew

variable {c : Crew ι} {serial : Store} {t u : ι}

/-- **What the threads have left behind is what is carried out one after another leaves**, but for what they are about:
every request under way is on its way to what it would end with at once, and nothing outside of what is held has been
touched. -/
structure Linked (r : Roster) (c : Crew ι) (serial : Store) : Prop where
  /-- The tables make sense, in both memories. -/
  sound : serial.Sound ∧ c.store.Sound
  /-- Triggers have the keys of their jobs, in both memories. -/
  mirrored : serial.Mirrored ∧ c.store.Mirrored
  /-- Both engines take calls, or none. -/
  stopped : serial.stopped = c.store.stopped
  /-- A request under way is on its way. -/
  held : ∀ t guard e, (c.worker t).Holds guard e → e.Matches r guard.scope serial c.store
  /-- Nothing has been touched that is not held. -/
  free : ∀ k, (∀ t guard, c.phase t = .holding guard → ¬ guard.scope.Covers k) → Store.AgreeAt k serial c.store

theorem linked_start (r : Roster) {s : Store} (hs : s.Sound) (hm : s.Mirrored) (duties : ι → List Duty) :
    Linked r (start r s duties) s where
  sound := ⟨hs, hs⟩
  mirrored := ⟨hm, hm⟩
  stopped := rfl
  held _ _ _ h := by cases h.1
  free _ _ := ⟨rfl, rfl⟩

variable {m : LockState} {s : Store} {w : Worker} {guard : Guard} {e : Errand}

section Frame

variable [Fintype ι]

/-- What one thread changes in its scope, the other requests under way do not see. -/
theorem Ordered.agree_of_frame (ho : c.Ordered r) {s s' : Store} (ht : c.phase t = .holding guard) (htu : t ≠ u)
    {other : Guard} (hu : c.phase u = .holding other) (hframe : ∀ k, ¬ guard.scope.Covers k → s.AgreeAt k s')
    (hstopped : s'.stopped = s.stopped) : Store.Agree other.scope s s' :=
  ⟨fun k hk => hframe k fun hk' => ho.scopes_apart htu ht hu hk' hk, hstopped.symm⟩

end Frame

variable [DecidableEq ι]

/-- What holds of all guards that are alive after a thread has changed holds of its own and of those of the others. -/
theorem forall_holding_update_iff (c : Crew ι) (w : Worker) {P : Guard → Prop} :
    (∀ u guard, phase ⟨m, s, Function.update c.worker t w⟩ u = .holding guard → P guard) ↔
      (∀ guard, w.phase = .holding guard → P guard) ∧ ∀ u ≠ t, ∀ guard, c.phase u = .holding guard → P guard :=
  Function.forall_update_iff c.worker fun _ w => ∀ guard, w.phase = .holding guard → P guard

omit [DecidableEq ι] in
/-- What holds of the guard of a thread and of those of the others holds of all guards. -/
theorem forall_holding_of_ne (ht : c.phase t = .holding guard) {P : Guard → Prop} (hself : P guard)
    (hothers : ∀ u ≠ t, ∀ guard, c.phase u = .holding guard → P guard) (u : ι) (other : Guard)
    (hu : c.phase u = .holding other) : P other := by
  by_cases hut : u = t
  · subst hut
    obtain rfl : guard = other := Phase.holding.inj (ht.symm.trans hu)
    exact hself
  · exact hothers u hut other hu

/-- A thread that had no guard moves; what it does with a guard that it has now is a request on its way. -/
theorem Linked.move (h : c.Linked r serial) (ht : ∀ guard, c.phase t ≠ .holding guard)
    (hw : ∀ guard e, w.Holds guard e → e.Matches r guard.scope serial c.store) :
    Linked r ⟨m, c.store, Function.update c.worker t w⟩ serial where
  sound := h.sound
  mirrored := h.mirrored
  stopped := h.stopped
  held := (Function.forall_update_iff c.worker fun _ w => ∀ guard e, w.Holds guard e →
    e.Matches r guard.scope serial c.store).2 ⟨hw, fun u _ => h.held u⟩
  free k hk := by
    obtain ⟨-, hothers⟩ := (forall_holding_update_iff c w).1 hk
    refine h.free k fun u guard hu => hothers u ?_ guard hu
    rintro rfl
    exact ht guard hu

/-- A thread with a guard goes on with its request. -/
theorem Linked.work [Fintype ι] (h : c.Linked r serial) (ho : c.Ordered r) (ht : c.phase t = .holding guard)
    (hw : w.phase = .holding guard) (hmatches : ∀ e, w.left.head? = some e → e.Matches r guard.scope serial s)
    (hs : s.Sound) (hm : s.Mirrored) (hstopped : s.stopped = c.store.stopped)
    (hframe : ∀ k, ¬ guard.scope.Covers k → c.store.AgreeAt k s) :
    Linked r ⟨m, s, Function.update c.worker t w⟩ serial where
  sound := ⟨h.sound.1, hs⟩
  mirrored := ⟨h.mirrored.1, hm⟩
  stopped := h.stopped.trans hstopped.symm
  held := by
    refine (Function.forall_update_iff c.worker fun _ w => ∀ other e, w.Holds other e →
      e.Matches r other.scope serial s).2 ⟨fun other e hu => ?_, fun u hut other e hu => ?_⟩
    · obtain rfl : guard = other := Phase.holding.inj (hw.symm.trans hu.1)
      exact hmatches e hu.2
    · have hagree := ho.agree_of_frame ht hut.symm hu.1 hframe hstopped
      exact (h.held u other e hu).of_agree hagree h.sound.2
  free k hk := by
    obtain ⟨hself, hothers⟩ := (forall_holding_update_iff c w).1 hk
    have hcover := hself guard hw
    exact (h.free k (forall_holding_of_ne ht hcover hothers)).trans (hframe k hcover)

/-- A thread ends its request, and its guard: the request is the next one of those that are carried out one after
another. -/
theorem Linked.finish [Fintype ι] (h : c.Linked r serial) (ho : c.Ordered r) (ht : c.phase t = .holding guard)
    (hleft : (c.worker t).left.head? = some e) (hw : ∀ guard, w.phase ≠ .holding guard)
    {result : Except Crash Answer} (hresult : e.result? = some result) :
    ((r.program e.duty.request).exec (Store.engine e.duty.now) serial).1 = result ∧
      Linked r ⟨m, c.store, Function.update c.worker t w⟩
        ((r.program e.duty.request).exec (Store.engine e.duty.now) serial).2 := by
  have hmatches := h.held t guard e ⟨ht, hleft⟩
  obtain ⟨hframe, hsound, hmirrored, hstopped⟩ :=
    Store.exec_frame e.duty.now hmatches.staysIn h.sound.1 h.mirrored.1
  have hexec := e.exec_of_result? hresult c.store
  have hagree := hmatches.agree
  rw [hexec] at hagree
  refine ⟨hmatches.result.trans (congrArg Prod.fst hexec), ⟨hsound, h.sound.2⟩, ⟨hmirrored, h.mirrored.2⟩,
    hstopped.trans h.stopped, ?_, fun k hk => ?_⟩
  · refine (Function.forall_update_iff c.worker fun _ w => ∀ other e', w.Holds other e' →
      e'.Matches r other.scope _ c.store).2 ⟨fun other _ hu => absurd hu.1 (hw other), fun u hut other e' hu => ?_⟩
    have hagree := ho.agree_of_frame ht hut.symm hu.1 hframe hstopped
    exact (h.held u other e' hu).of_agree_serial hagree h.sound.1
  · by_cases hcover : guard.scope.Covers k
    · exact hagree.at_key k hcover
    · obtain ⟨-, hothers⟩ := (forall_holding_update_iff c w).1 hk
      exact (hframe k hcover).symm.trans (h.free k (forall_holding_of_ne ht hcover hothers))

/-! ### The order of the requests -/

/-- The turns of one thread. -/
def turnsOf (t : ι) (turns : List (Turn ι)) : List (Turn ι) := turns.filter fun turn => turn.thread = t

theorem turnsOf_concat_self (turns : List (Turn ι)) (t : ι) (duty : Duty) (result : Except Crash Answer) :
    turnsOf t (turns ++ [⟨t, duty, result⟩]) = turnsOf t turns ++ [⟨t, duty, result⟩] := by
  simp [turnsOf]

theorem turnsOf_concat_of_ne (h : t ≠ u) (turns : List (Turn ι)) (duty : Duty) (result : Except Crash Answer) :
    turnsOf u (turns ++ [⟨t, duty, result⟩]) = turnsOf u turns := by
  simp [turnsOf, h]

/-- **The turns tell what the threads have ended**, one after another. -/
structure Recorded (r : Roster) (s : Store) (duties : ι → List Duty) (c : Crew ι) (turns : List (Turn ι))
    (serial : Store) : Prop where
  /-- The turns of a thread are its duties in its own order, as far as it has come. -/
  duties : ∀ t, (turnsOf t turns).map Turn.duty ++ (c.worker t).left.map Errand.duty = duties t
  /-- They end with what its requests have ended with. -/
  answers : ∀ t, (turnsOf t turns).map Turn.result = (c.worker t).answers
  /-- Carried out one after another they end so, and leave the lock free. -/
  one_by_one : OneByOne r ⟨.free, s⟩ turns ⟨.free, serial⟩

variable {s₀ : Store} {duties : ι → List Duty} {turns : List (Turn ι)}

theorem recorded_start (r : Roster) (s : Store) (duties : ι → List Duty) :
    Recorded r s duties (start r s duties) [] s where
  duties _ := List.map_map.trans (List.map_id _)
  answers _ := rfl
  one_by_one := .nil

/-- A step that ends no request. -/
theorem Recorded.keep (h : Recorded r s₀ duties c turns serial)
    (hleft : w.left.map Errand.duty = (c.worker t).left.map Errand.duty) (hanswers : w.answers = (c.worker t).answers) :
    Recorded r s₀ duties ⟨m, s, Function.update c.worker t w⟩ turns serial where
  duties := (Function.forall_update_iff c.worker fun u w => (turnsOf u turns).map Turn.duty ++
    w.left.map Errand.duty = duties u).2 ⟨hleft ▸ h.duties t, fun u _ => h.duties u⟩
  answers := (Function.forall_update_iff c.worker fun u w => (turnsOf u turns).map Turn.result =
    w.answers).2 ⟨(h.answers t).trans hanswers.symm, fun u _ => h.answers u⟩
  one_by_one := h.one_by_one

/-- A step that ends a request. -/
theorem Recorded.turn (h : Recorded r s₀ duties c turns serial) (hleft : (c.worker t).left = e :: w.left)
    (hanswers : w.answers = (c.worker t).answers ++
      [((r.program e.duty.request).exec (Store.engine e.duty.now) serial).1]) :
    Recorded r s₀ duties ⟨m, s, Function.update c.worker t w⟩
      (turns ++ [⟨t, e.duty, ((r.program e.duty.request).exec (Store.engine e.duty.now) serial).1⟩])
      ((r.program e.duty.request).exec (Store.engine e.duty.now) serial).2 where
  duties := by
    refine (Function.forall_update_iff c.worker fun u w => (turnsOf u (turns ++ _)).map Turn.duty ++
      w.left.map Errand.duty = duties u).2 ⟨?_, fun u hut => ?_⟩
    · have hduties := h.duties t
      rw [hleft] at hduties
      simpa [turnsOf_concat_self] using hduties
    · rw [turnsOf_concat_of_ne hut.symm]
      exact h.duties u
  answers := by
    refine (Function.forall_update_iff c.worker fun u w => (turnsOf u (turns ++ _)).map Turn.result =
      w.answers).2 ⟨?_, fun u hut => ?_⟩
    · simp [turnsOf_concat_self, h.answers t, hanswers]
    · rw [turnsOf_concat_of_ne hut.symm]
      exact h.answers u
  one_by_one := h.one_by_one.concat t e.duty

/-- A thread that gets its guard begins with its request: what it covers has not been touched, since nobody else holds
any of it. -/
theorem Linked.matches_of_enter [Fintype ι] (h : c.Linked r serial)
    (ho : Ordered r ⟨m, c.store, Function.update c.worker t w⟩) (ht : ∀ guard, c.phase t ≠ .holding guard)
    (hw : w.phase = .holding guard) {duty : Duty} (hhead : w.left.head? = some (.fresh r duty)) :
    (Errand.fresh r duty).Matches r guard.scope serial c.store := by
  have hphase : phase ⟨m, c.store, Function.update c.worker t w⟩ t = .holding guard := by
    rw [phase_update, Function.update_self, hw]
  have hscope : guard.scope = duty.request.scope ∨ guard.scope = .all := by
    have hfits := (ho.fits t).scope
    simp only [Function.update_self, hw] at hfits
    exact hfits _ hhead
  have hstays : (r.program duty.request).StaysIn guard.scope := by
    obtain hscope | hscope := hscope <;> rw [hscope]
    · exact r.program_staysIn duty.request
    · exact (r.program_staysIn duty.request).mono (fun c hc => ⟨c.within_all, hc.2⟩) fun _ h => h
  refine .fresh hstays ⟨fun k hk => h.free k fun u other hu => ?_, h.stopped⟩ h.sound.1
  have hut : u ≠ t := by
    rintro rfl
    exact ht other hu
  refine ho.scopes_apart (Ne.symm hut) hphase ?_ hk
  rw [phase_update, Function.update_of_ne hut]
  exact hu

/-- **A step of one thread**: it ends no request, or one more is carried out after the others. -/
theorem exists_of_deed [Fintype ι] (ho : c.Ordered r) (hrec : Recorded r s₀ duties c turns serial)
    (hl : c.Linked r serial) (hd : Deed r (c.lock, c.store, c.worker t) (m, s, w)) :
    ∃ turns serial, Recorded r s₀ duties ⟨m, s, Function.update c.worker t w⟩ turns serial ∧
      Linked r ⟨m, s, Function.update c.worker t w⟩ serial := by
  have ho' := ho.deed hd
  have hfits := ho.fits t
  generalize hw : c.worker t = before at hd hfits
  have hphase : c.phase t = before.phase := congrArg Worker.phase hw
  cases hd with
  | ask =>
    refine ⟨turns, serial, hrec.keep (by rw [hw]) (by rw [hw]), hl.move (fun guard h => ?_) fun guard e h => ?_⟩
    · cases hphase.symm.trans h
    · cases h.1
  | @move _ _ _ p p' left answers hm =>
    have hway := Phase.ne_holding_of_isUnderWay hm.1
    have ht : ∀ guard, c.phase t ≠ .holding guard := fun guard h => hway guard (hphase.symm.trans h)
    refine ⟨turns, serial, hrec.keep (by rw [hw]) (by rw [hw]), hl.move ht fun guard e h => ?_⟩
    obtain ⟨hguard, hhead⟩ := h
    have hfresh : e = .fresh r e.duty := hfits.head_fresh hway e hhead
    rw [hfresh] at hhead ⊢
    exact hl.matches_of_enter ho' ht hguard hhead
  | @note _ _ guard duty event p left answers =>
    have hhead : (c.worker t).Holds guard ⟨duty, .ok (.note event p)⟩ := ⟨hphase, by rw [hw]; rfl⟩
    have hmatches := (hl.held t guard _ hhead).note
    refine ⟨turns, serial, hrec.keep (by rw [hw]; rfl) (by rw [hw]), hl.work ho hphase rfl (fun e he => ?_) hl.sound.2
      hl.mirrored.2 rfl fun k _ => ⟨rfl, rfl⟩⟩
    cases he
    exact hmatches
  | @call _ _ guard duty call next left answers =>
    have hhead : (c.worker t).Holds guard ⟨duty, .ok (.ask call next)⟩ := ⟨hphase, by rw [hw]; rfl⟩
    have hmatches := hl.held t guard _ hhead
    obtain ⟨hwithin, hpasses⟩ := (hmatches.rest_staysIn _ rfl).1
    have hchange := Store.serve_change duty.now call c.store
    refine ⟨turns, serial, hrec.keep (by rw [hw]; rfl) (by rw [hw]), hl.work ho hphase rfl (fun e he => ?_)
      (hchange.sound hl.sound.2) (hchange.mirrored hpasses hl.mirrored.2) (Store.serve_stopped duty.now call c.store)
      fun k hk => Store.serve_frame hl.sound.2 hl.mirrored.2 hwithin hk⟩
    cases he
    exact hmatches.call hl.sound.2
  | @finish _ _ _ guard p' e left answers result hresult hm =>
    have hleft : (c.worker t).left = e :: left := by rw [hw]
    have hnot : ∀ guard, p' ≠ .holding guard := by
      rintro guard rfl
      exact Bool.false_ne_true (hm.not_isEngaged.symm.trans rfl)
    obtain ⟨hend, hlinked⟩ :=
      hl.finish (w := ⟨p', left, answers ++ [result]⟩) ho hphase (by rw [hleft]; rfl) hnot hresult
    exact ⟨_, _, hrec.turn hleft (by rw [hw, hend]), hlinked⟩

/-- **However the threads go about it**, there is an order of the requests that have ended which explains it all. -/
theorem Reached.exists_turns [Fintype ι] (hs : s₀.Sound) (hm : s₀.Mirrored) (hc : c.Reached r s₀ duties) :
    c.Ordered r ∧ ∃ turns serial, Recorded r s₀ duties c turns serial ∧ c.Linked r serial := by
  induction hc with
  | refl => exact ⟨ordered_start r s₀ duties, [], s₀, recorded_start r s₀ duties, linked_start r hs hm duties⟩
  | tail _ hstep ih =>
    obtain ⟨ho, turns, serial, hrec, hl⟩ := ih
    cases hstep with
    | mk t hd => exact ⟨ho.deed hd, exists_of_deed ho hrec hl hd⟩

omit [DecidableEq ι] in
/-- Where every thread has come to its end, nothing is held. -/
theorem Ordered.not_holding [Fintype ι] (ho : c.Ordered r) (hdone : ∀ t, (c.worker t).left = []) (t : ι)
    (guard : Guard) : c.phase t ≠ .holding guard := by
  intro h
  obtain ⟨e, he⟩ := (ho.fits t).engaged (by rw [show (c.worker t).phase = .holding guard from h]; rfl)
  rw [hdone t] at he
  cases he

end Crew

end JobRoster
