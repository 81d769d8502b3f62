import JobRoster.Proofs.Engine.History

/-!
# Triggers that take the place of others

A trigger that takes the place of another one is stored under its own key, which need not be the key of the other one:
a trigger that was read from data can have any key. All that is checked is that both fire the same job. If a third
trigger has the key of the new one, it is overwritten, so that two triggers give place to one.

Main statement: `rescheduling_exact`, which says what becomes of every trigger. All triggers but the one that gives
place are kept, and as many are stored as before, exactly if the new one has the key of that one or a key that no
trigger has (`Rescheduled.keepsOthers_iff`). It is so where all triggers have the keys of their jobs; otherwise it need
not be (`exists_trigger_overwritten`).
-/

namespace JobRoster

namespace Table

variable {α : Type} {t : Table α} {a k : Key} {v : α}

theorem size_erase_of_mem (hk : k ∈ t) : (t.erase k).size + 1 = t.size := by
  have hpos : t.size ≠ 0 := fun h => Std.ExtTreeMap.ne_empty_of_mem hk (Std.ExtTreeMap.eq_empty_iff_size_eq_zero.2 h)
  rw [Std.ExtTreeMap.size_erase, if_pos (Std.ExtTreeMap.contains_iff_mem.2 hk)]
  omega

/-- An entry gives place to one under its own key or a new one: there are as many entries as before. -/
theorem size_insert_erase (hk : k ∈ t) (ha : a = k ∨ a ∉ t) : ((t.erase k).insert a v).size = t.size := by
  have hnew : ¬ (t.erase k).contains a = true := by
    rw [Std.ExtTreeMap.contains_iff_mem, Std.ExtTreeMap.mem_erase, ne_eq, Std.compare_eq_iff_eq]
    rintro ⟨hne, hmem⟩
    exact ha.elim (fun h => hne h.symm) fun h => h hmem
  rw [Std.ExtTreeMap.size_insert, if_neg hnew, size_erase_of_mem hk]

/-- An entry gives place to one under the key of another entry: there is one less. -/
theorem size_insert_erase_of_mem (hk : k ∈ t) (hne : a ≠ k) (ha : a ∈ t) :
    ((t.erase k).insert a v).size + 1 = t.size := by
  have hold : (t.erase k).contains a = true := by
    rw [Std.ExtTreeMap.contains_iff_mem, Std.ExtTreeMap.mem_erase, ne_eq, Std.compare_eq_iff_eq]
    exact ⟨hne.symm, ha⟩
  rw [Std.ExtTreeMap.size_insert, if_pos hold, size_erase_of_mem hk]

end Table

namespace Store

variable {s s' : Store} {now : Instant} {k : Key} {t : Trigger} {next : Instant}

/-- **A trigger has taken the place** of the one under a key, and its next fire time was told. -/
structure Rescheduled (s s' : Store) (k : Key) (t : Trigger) (next : Instant) : Prop where
  /-- There was a trigger under the key, which fired the same job. -/
  old : ∃ old, s.triggers[k]? = some old ∧ old.trigger.jobKey = t.jobKey
  /-- The new one is stored under its own key, with its schedule and the fire time that was told. -/
  new : ∃ schedule, readCron t.cron = .ok schedule ∧ s'.triggers[t.key]? = some ⟨t, schedule, some next⟩
  /-- The old one is gone. -/
  gone : t.key ≠ k → s'.triggers[k]? = none
  /-- A trigger with any other key is what it was. -/
  others : ∀ k', k' ≠ k → k' ≠ t.key → s'.triggers[k']? = s.triggers[k']?
  /-- So are the jobs. -/
  jobs : s'.jobs = s.jobs
  /-- As many triggers are stored as before, if the new one has the key of the old one or a key that none had. -/
  size : t.key = k ∨ t.key ∉ s.triggers → s'.triggers.size = s.triggers.size
  /-- Otherwise there is one less. -/
  size_of_mem : t.key ≠ k → t.key ∈ s.triggers → s'.triggers.size + 1 = s.triggers.size

/-- A fire time is told where a trigger of the same job was under the key, and the new one could be prepared. -/
theorem reschedule_of_answer (h : (s.reschedule now k t).reply = .answer (some next)) :
    ∃ old schedule, s.triggers[k]? = some old ∧ old.trigger.jobKey = t.jobKey ∧ readCron t.cron = .ok schedule ∧
      (s.reschedule now k t).state.jobs = s.jobs ∧
        (s.reschedule now k t).state.triggers = (s.triggers.erase k).insert t.key ⟨t, schedule, some next⟩ := by
  cases hold : s.triggers[k]? with
  | none =>
    simp only [reschedule, hold] at h
    cases h
  | some old =>
    simp only [reschedule, hold] at h ⊢
    by_cases hjob : old.trigger.jobKey = t.jobKey
    · rw [if_neg (not_not.2 hjob)] at h ⊢
      cases hprep : prepare now t with
      | answer stored =>
        obtain ⟨schedule, first, hread, -, rfl⟩ := prepare_eq_answer_iff.1 hprep
        rw [hprep] at h
        cases h
        exact ⟨old, schedule, rfl, hjob, hread, rfl, rfl⟩
      | refused e | crashed crash =>
        rw [hprep] at h
        cases h
    · rw [if_pos hjob] at h
      cases h

/-- **Where a fire time is told, a trigger has taken the place of another one.** -/
theorem rescheduled_of_answer (h : (s.serve now (.reschedule k t)).reply = .answer (some next)) :
    s.Rescheduled (s.serve now (.reschedule k t)).state k t next := by
  have hrun : ¬ s.stopped = true := by
    intro hstopped
    rw [serve, if_pos hstopped] at h
    cases h
  have hserve : s.serve now (.reschedule k t) = s.reschedule now k t := if_neg hrun
  rw [hserve] at h ⊢
  obtain ⟨old, schedule, hold, hjob, hread, hjobs, htriggers⟩ := reschedule_of_answer h
  have hk : k ∈ s.triggers := Table.mem_iff_exists.2 ⟨old, hold⟩
  constructor
  case old => exact ⟨old, hold, hjob⟩
  case new => exact ⟨schedule, hread, by rw [htriggers, Std.ExtTreeMap.getElem?_insert_self]⟩
  case gone =>
    intro hne
    rw [htriggers, Table.getElem?_insert_of_ne hne, Std.ExtTreeMap.getElem?_erase_self]
  case others =>
    intro k' hk' hkey
    rw [htriggers, Table.getElem?_insert_of_ne hkey.symm, Table.getElem?_erase_of_ne hk'.symm]
  case jobs => exact hjobs
  case size => exact fun hkey => by rw [htriggers, Table.size_insert_erase hk hkey]
  case size_of_mem => exact fun hne hmem => by rw [htriggers, Table.size_insert_erase_of_mem hk hne hmem]

/-- **Only one trigger gives place**: every other one is kept, and as many are stored as before. -/
def KeepsOthers (s s' : Store) (k : Key) : Prop :=
  (∀ (k' : Key) (stored : Stored), k' ≠ k → s.triggers[k']? = some stored → s'.triggers[k']? = some stored) ∧
    s'.triggers.size = s.triggers.size

/-- **Only one trigger gives place exactly if the new one has its key, or a key that no trigger has.** -/
theorem Rescheduled.keepsOthers_iff (h : s.Rescheduled s' k t next) :
    s.KeepsOthers s' k ↔ t.key = k ∨ t.key ∉ s.triggers := by
  constructor
  · rintro ⟨-, hsize⟩
    by_contra hmem
    obtain ⟨hne, hmem⟩ := not_or.1 hmem
    have hless := h.size_of_mem hne (not_not.1 hmem)
    omega
  · intro hkey
    refine ⟨fun k' stored hk' hstored => ?_, h.size hkey⟩
    have hother : k' ≠ t.key := by
      rintro rfl
      exact hkey.elim hk' fun hmem => hmem (Table.mem_iff_exists.2 ⟨stored, hstored⟩)
    rw [h.others k' hk' hother, hstored]

/-- Where triggers have the keys of their jobs, one that takes the place of another one has its key. -/
theorem Rescheduled.key_eq (h : s.Rescheduled s' k t next) (hs : s.Sound) (hm : s.Mirrored) (ht : t.Mirrors) :
    t.key = k := by
  obtain ⟨old, hold, hjob⟩ := h.old
  rw [show t.key = t.jobKey from ht, ← hjob, hs.jobKey_of_mirrored hm hold]

/-- **What becomes of the triggers when one takes the place of another one**, from every memory that is reached with
whatever triggers: the new one is stored under its own key and the old one is gone, and of the others none is touched
but one that has the key of the new one. So only the old one gives place exactly if the new one has its key, or a key
that no trigger has; it has its key where all triggers have the keys of their jobs. -/
theorem rescheduling_exact {allowed : Trigger → Prop} (hs : s.Reached allowed)
    (h : (s.serve now (.reschedule k t)).reply = .answer (some next)) :
    s.Rescheduled (s.serve now (.reschedule k t)).state k t next ∧
      (s.KeepsOthers (s.serve now (.reschedule k t)).state k ↔ t.key = k ∨ t.key ∉ s.triggers) ∧
        (s.Mirrored → t.Mirrors → t.key = k) := by
  have hdone := rescheduled_of_answer h
  exact ⟨hdone, hdone.keepsOthers_iff, hdone.key_eq hs.sound⟩

/-- A job has two triggers, one of them with a key of its own. The other one gives place to a trigger with a new key. -/
theorem rescheduling_exact_under_new_key : ∃ (now : Instant) (s : Store) (k : Key) (t : Trigger) (next : Instant),
    s.Reached (fun _ => True) ∧ (s.serve now (.reschedule k t)).reply = .answer (some next) ∧
      (s.triggers.size = 2 ∧ t.key ≠ k ∧ t.key ∉ s.triggers) ∧
        s.Rescheduled (s.serve now (.reschedule k t)).state k t next ∧
          (s.KeepsOthers (s.serve now (.reschedule k t)).state k ↔ t.key = k ∨ t.key ∉ s.triggers) ∧
            (s.Mirrored → t.Mirrors → t.key = k) := by
  let now : Instant := ⟨4133894300, 0, by decide, by decide, by decide, by decide⟩
  let k : Key := ⟨"nightly", "eu"⟩
  let t (name cron : String) : Trigger := { Trigger.forJob k cron now none with key := ⟨name, "eu"⟩ }
  let s := (((fresh.serve now (.addJob ⟨k, "backup", ∅, true⟩ false)).state.serve now
    (.schedule (t "nightly" "@daily"))).state.serve now (.schedule (t "spare" "@hourly"))).state
  have hs : s.Reached fun _ => True :=
    (((Reached.empty _).call now _ (Call.passes_any _)).call now _ (Call.passes_any _)).call now _ (Call.passes_any _)
  have htold : ∃ next, (s.serve now (.reschedule k (t "other" "@hourly"))).reply = .answer (some next) :=
    ⟨⟨4133894400, 0, by decide, by decide, by decide, by decide⟩, by decide +kernel⟩
  obtain ⟨next, h⟩ := htold
  exact ⟨now, s, k, t "other" "@hourly", next, hs, h, by decide +kernel, rescheduling_exact hs h⟩

/-- **A trigger that is overwritten**: a job has two triggers, and the new one that takes the place of the first one has
the key of the second one. -/
theorem exists_trigger_overwritten : ∃ (now : Instant) (s : Store) (k other : Key) (t : Trigger) (stored : Stored)
    (next : Instant), s.Reached (fun _ => True) ∧
      (s.serve now (.reschedule k t)).reply = .answer (some next) ∧ other ≠ k ∧
        s.triggers[other]? = some stored ∧ (s.serve now (.reschedule k t)).state.triggers[other]? ≠ some stored ∧
          s.triggers.size = 2 ∧ (s.serve now (.reschedule k t)).state.triggers.size = 1 := by
  let now : Instant := ⟨1700000000, 0, by decide, by decide, by decide, by decide⟩
  let start : Instant := ⟨2208988800, 0, by decide, by decide, by decide, by decide⟩
  let k : Key := ⟨"job_1", "jobgroup_1"⟩
  let spare : Key := ⟨"spare", "jobgroup_1"⟩
  let t (key : Key) (cron : String) : Trigger := { Trigger.forJob k cron start none with key }
  let s := (((fresh.serve now (.addJob ⟨k, "ScheduleJob", ∅, true⟩ false)).state.serve now
    (.schedule (t k "0 0 * * * ?"))).state.serve now (.schedule (t spare "0 0 12 * * ?"))).state
  have hs : s.Reached fun _ => True :=
    (((Reached.empty _).call now _ (Call.passes_any _)).call now _ (Call.passes_any _)).call now _ (Call.passes_any _)
  have hread : (s.triggers[spare]?).map (fun stored => stored.trigger.cron) = some "0 0 12 * * ?" := by decide +kernel
  obtain ⟨stored, hstored, hcron⟩ := Option.map_eq_some_iff.1 hread
  have hafter : ((s.serve now (.reschedule k (t spare "0 30 * * * ?"))).state.triggers[spare]?).map
      (fun stored => stored.trigger.cron) = some "0 30 * * * ?" := by decide +kernel
  refine ⟨now, s, k, spare, t spare "0 30 * * * ?", stored, ⟨2208990600, 0, by decide, by decide, by decide, by decide⟩,
    hs, by decide +kernel, by decide, hstored, fun hsame => ?_, by decide +kernel, by decide +kernel⟩
  rw [hsame, Option.map_some, hcron] at hafter
  exact absurd (Option.some.inj hafter) (by decide)

end Store

end JobRoster
