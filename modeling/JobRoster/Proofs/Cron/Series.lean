import JobRoster.Proofs.Cron.Slots

/-!
# Fire times one after another

Fire times are listed by one search after another, each of which starts from the slot with which the one before has
ended. If the first search is in reach, so are the others, since no slot lies in the last second of all
(`Ranged.second_lt_last`). By induction on how many are asked for, the list has the first slots in ascending order, and
a missing one after them if there are no more (`Ranged.exists_series`).

A search from any instant after the one from which the list starts need not be made once the list is there: its result
is the first entry that is not over by then (`Ranged.firstSlot_of_find?`, `Ranged.find?_fireTimes`).
-/

namespace JobRoster.Cron.Schedule

variable {s : Schedule} {after start now t u : Instant} {stop r : Option Instant} {n : Nat} {slots : List Instant}
  {fires : List (Option Instant)}

/-! ### Slots in ascending order -/

/-- The slots of a schedule after an instant, in a window. -/
def Slots (s : Schedule) (after start : Instant) (stop : Option Instant) : Set Instant :=
  {u | u ∈ s ∧ after < u ∧ start ≤ u ∧ ∀ last ∈ stop, u ≤ last}

/-- **The first slots** after an instant, in a window: as many of them as are asked for, if there are so many. -/
structure Series (s : Schedule) (after start : Instant) (stop : Option Instant) (n : Nat) (slots : List Instant) :
    Prop where
  /-- They stand in ascending order. -/
  ascending : slots.Pairwise (· < ·)
  /-- They are slots. -/
  mem : ∀ t ∈ slots, t ∈ s.Slots after start stop
  /-- There are not more of them than are asked for. -/
  length_le : slots.length ≤ n
  /-- A slot is missing only if there are as many as are asked for, and it comes after these. -/
  rest : ∀ u ∈ s.Slots after start stop, u ∉ slots → slots.length = n ∧ ∀ t ∈ slots, t < u

/-- A first slot is one of the slots. -/
theorem FirstSlot.mem_slots (h : s.FirstSlot after start stop (some t)) : t ∈ s.Slots after start stop :=
  ⟨h.1.1.1, h.1.1.2.1, h.1.1.2.2, h.2⟩

/-- There are no slots if there is no first one. -/
theorem FirstSlot.notMem_slots (h : s.FirstSlot after start stop none) : u ∉ s.Slots after start stop := by
  rintro ⟨hu, hafter, hstart, hstop⟩
  obtain ⟨last, hlast, hlt⟩ := h u hu hafter hstart
  exact Int.not_le.2 hlt (hstop last hlast)

/-- All other slots come after the first one. -/
theorem FirstSlot.mem_slots_iff (h : s.FirstSlot after start stop (some t)) :
    u ∈ s.Slots after start stop ↔ u = t ∨ u ∈ s.Slots t start stop := by
  constructor
  · rintro ⟨hu, hafter, hstart, hstop⟩
    by_cases hlt : t < u
    · exact .inr ⟨hu, hlt, hstart, hstop⟩
    · exact .inl (Instant.le_antisymm (Instant.not_lt.1 hlt) (h.1.2 ⟨hu, hafter, hstart⟩))
  · rintro (rfl | ⟨hu, hlt, hstart, hstop⟩)
    · exact h.mem_slots
    · exact ⟨hu, Int.lt_trans h.1.1.2.1 hlt, hstart, hstop⟩

/-- No slots are the first ones if none are asked for. -/
theorem series_zero (s : Schedule) (after start : Instant) (stop : Option Instant) : s.Series after start stop 0 [] :=
  ⟨.nil, by simp, le_refl _, by simp⟩

/-- No slots are the first ones if there is none. -/
theorem FirstSlot.series_nil (h : s.FirstSlot after start stop none) (n : Nat) : s.Series after start stop n [] :=
  ⟨.nil, by simp, Nat.zero_le n, fun _ hu => absurd hu h.notMem_slots⟩

/-- The first slot and the first ones after it. -/
theorem FirstSlot.series_cons (h : s.FirstSlot after start stop (some t)) (hslots : s.Series t start stop n slots) :
    s.Series after start stop (n + 1) (t :: slots) where
  ascending := List.pairwise_cons.2 ⟨fun u hu => (hslots.mem u hu).2.1, hslots.ascending⟩
  mem := List.forall_mem_cons.2 ⟨h.mem_slots, fun u hu => h.mem_slots_iff.2 (.inr (hslots.mem u hu))⟩
  length_le := Nat.succ_le_succ hslots.length_le
  rest u hu hnot := by
    obtain ⟨hne, hnot⟩ := not_or.1 (mt List.mem_cons.2 hnot)
    have hu := (h.mem_slots_iff.1 hu).resolve_left hne
    obtain ⟨hlength, hlt⟩ := hslots.rest u hu hnot
    exact ⟨congrArg Nat.succ hlength, List.forall_mem_cons.2 ⟨hu.2.1, hlt⟩⟩

/-! ### The list -/

/-- No slot lies in the last second of all. -/
theorem Ranged.second_lt_last (hs : s.Ranged) (ht : t ∈ s) : t.second < Instant.last.second := by
  obtain ⟨day, time, hsecond, htime, hday, -⟩ := hs.exists_day_time ht
  unfold lastDay at hday
  unfold Instant.last
  dsimp only
  omega

/-- The search after a first slot is in reach if that for it is. -/
theorem InReach.next (h : InReach after start) (hs : s.Ranged) (hslot : s.FirstSlot after start stop (some t)) :
    InReach t start :=
  h.of_le (Instant.le_of_lt hslot.1.1.2.1) (hs.second_lt_last hslot.1.1.1)

/-- A list ends with what is missing if there is no slot. -/
theorem fireTimes_of_none (h : s.firstFire after start stop = .ok none) (n : Nat) :
    s.fireTimes start stop (n + 1) after = .ok [none] := by
  rw [fireTimes, h]
  rfl

/-- A list goes on from the first slot if there is one. -/
theorem fireTimes_of_some (h : s.firstFire after start stop = .ok (some t)) (n : Nat) :
    s.fireTimes start stop (n + 1) after = s.fireTimes start stop n t >>= fun rest => .ok (some t :: rest) := by
  rw [fireTimes, h]
  rfl

/-- **The list has the first slots**, and a missing one after them if there are fewer than are asked for. -/
theorem Ranged.exists_series (hs : s.Ranged) (h : InReach after start) (stop : Option Instant) (n : Nat) :
    ∃ slots, s.fireTimes start stop n after = .ok (slots.map some ++ if slots.length < n then [none] else []) ∧
      s.Series after start stop n slots := by
  -- on how many are asked for: the list after the first slot starts from it
  induction n generalizing after with
  | zero => exact ⟨[], rfl, series_zero s after start stop⟩
  | succ n ih =>
    obtain ⟨r, hr, hslot⟩ := hs.exists_firstFire h stop
    cases r with
    | none => exact ⟨[], fireTimes_of_none hr n, hslot.series_nil _⟩
    | some t =>
      obtain ⟨slots, hslots, hseries⟩ := ih (h.next hs hslot)
      refine ⟨t :: slots, ?_, hslot.series_cons hseries⟩
      rw [fireTimes_of_some hr, hslots, List.length_cons]
      simp only [Nat.succ_lt_succ_iff]
      rfl

/-- Every hour, in a window that lasts from ten to twelve. -/
example : (do
    let s ← (readCron "@hourly").toOption
    let start ← Instant.ofSeconds? 1893492000
    (s.fireTimes start (Instant.ofSeconds? 1893499200) 5 Instant.first).toOption) =
      some [Instant.ofSeconds? 1893492000, Instant.ofSeconds? 1893495600, Instant.ofSeconds? 1893499200, none] := by
  decide +kernel

/-! ### Looking a fire time up -/

/-- A first slot is the first one from a later instant, too, if it is not over by then. -/
theorem FirstSlot.of_lt (h : s.FirstSlot after start stop (some t)) (hle : after ≤ now) (hlt : now < t) :
    s.FirstSlot now start stop (some t) :=
  ⟨⟨⟨h.1.1.1, hlt, h.1.1.2.2⟩, fun _ hu => h.1.2 ⟨hu.1, Int.lt_of_le_of_lt hle hu.2.1, hu.2.2⟩⟩, h.2⟩

/-- If there is no slot, there is none from a later instant. -/
theorem FirstSlot.none_of_le (h : s.FirstSlot after start stop none) (hle : after ≤ now) :
    s.FirstSlot now start stop none :=
  fun u hu hlt => h u hu (Int.lt_of_le_of_lt hle hlt)

/-- **The first entry of a list that is not over by an instant** is the first slot after it. -/
theorem Ranged.firstSlot_of_find? (hs : s.Ranged) (h : InReach after start)
    (hfires : s.fireTimes start stop n after = .ok fires) (hle : after ≤ now)
    (hfind : fires.find? (fun fire => fire.all (now < ·)) = some r) : s.FirstSlot now start stop r := by
  induction n generalizing after fires with
  | zero =>
    cases hfires
    cases hfind
  | succ n ih =>
    obtain ⟨first, hfirst, hslot⟩ := hs.exists_firstFire h stop
    cases first with
    | none =>
      rw [fireTimes_of_none hfirst] at hfires
      cases hfires
      cases hfind
      exact hslot.none_of_le hle
    | some t =>
      rw [fireTimes_of_some hfirst, bind_eq_ok_iff] at hfires
      obtain ⟨rest, hrest, ⟨⟩⟩ := hfires
      by_cases hlt : now < t
      · rw [List.find?_cons_of_pos (by simpa using hlt)] at hfind
        cases hfind
        exact hslot.of_lt hle hlt
      · rw [List.find?_cons_of_neg (by simpa using hlt)] at hfind
        exact ih (h.next hs hslot) hrest (Instant.not_lt.1 hlt) hfind

/-- **A search is answered by a list of all fire times** from its start or before. -/
theorem Ranged.find?_fireTimes (hs : s.Ranged) (h : InReach after start)
    (hfires : s.fireTimes start stop n after = .ok fires) (hall : none ∈ fires) (hle : after ≤ now)
    (hr : s.firstFire now start stop = .ok r) : fires.find? (fun fire => fire.all (now < ·)) = some r := by
  obtain ⟨_, -, hnow, -⟩ := steps_of_firstFire hr
  obtain ⟨r', hr', hslot⟩ := hs.exists_firstFire (h.of_le hle hnow) stop
  cases hr.symm.trans hr'
  obtain ⟨found, hfound⟩ := Option.isSome_iff_exists.1
    (List.find?_isSome.2 ⟨none, hall, rfl⟩ : (fires.find? fun fire => fire.all (now < ·)).isSome = true)
  rw [hfound, hslot.unique (hs.firstSlot_of_find? h hfires hle hfound)]

end JobRoster.Cron.Schedule
