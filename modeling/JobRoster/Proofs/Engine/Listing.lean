import JobRoster.Proofs.Engine.History
import JobRoster.Proofs.Engine.Unanswered
import JobRoster.Proofs.Settings.Naming
import Mathlib.Data.List.Lex
import Mathlib.Data.String.Basic

/-!
# Listing the keys of jobs

Which keys a listing has and in what order, said without a search and without a table. A matcher selects a group by an
equation between texts (`GroupMatcher.Selects`); a key comes before another one by the code points of the names, and of
the groups where the names are the same (`Key.Before`). There is one list only that has the keys of the jobs in the
groups that are selected, and has them in strictly ascending order (`Lists.unique`). So it does not matter in what order
the jobs are gone through before their keys are sorted (`Lists.sorted_eq`), or in what order they have been added
(`mem_jobs_additions`).

Main statement: `listing_exact`.
-/

namespace JobRoster

/-! ### Groups that are selected -/

/-- **Which groups a matcher selects.** -/
def GroupMatcher.Selects : GroupMatcher → String → Prop
  | equals value, group => group = value
  | endsWith value, group => ∃ front, group = front ++ value
  | startsWith value, group => ∃ back, group = value ++ back
  | contains value, group => ∃ front back, group = front ++ value ++ back
  | anything, _ => True

theorem GroupMatcher.accepts_iff_selects {m : GroupMatcher} {group : String} :
    m.accepts group = true ↔ m.Selects group := by
  cases m with
  | equals value => exact accepts_equals_iff
  | endsWith value => exact accepts_endsWith_iff
  | startsWith value => exact accepts_startsWith_iff
  | contains value => exact accepts_contains_iff
  | anything => exact ⟨fun _ => trivial, fun _ => rfl⟩

/-! ### The order of keys -/

/-- The code points of a text. -/
def Text.codePoints (text : String) : List Nat := text.toList.map Char.toNat

/-- Texts are ordered by their code points. -/
theorem Text.codePoints_lt_iff {a b : String} : codePoints a < codePoints b ↔ a < b := by
  have hmono {a b : String} (h : a < b) : codePoints a < codePoints b :=
    List.map_lt (fun _ _ hlt => hlt) (String.lt_iff.1 h)
  refine ⟨fun h => ?_, hmono⟩
  rcases lt_trichotomy a b with hlt | rfl | hgt
  · exact hlt
  · exact absurd h (lt_irrefl _)
  · exact absurd (hmono hgt) (lt_asymm h)

namespace Key

variable {k l : Key} {keys : List Key}

/-- **A key comes before another one**: its name does, or its group where the names are the same, by code points. -/
def Before (k l : Key) : Prop :=
  Text.codePoints k.name < Text.codePoints l.name ∨
    k.name = l.name ∧ Text.codePoints k.group < Text.codePoints l.group

theorem compare_eq_lt_iff : compare k l = .lt ↔ k.Before l := by
  change (compare k.name l.name).then (compare k.group l.group) = .lt ↔ _
  rw [Ordering.then_eq_lt, compare_lt_iff_lt, compare_lt_iff_lt, compare_eq_iff_eq, Before, Text.codePoints_lt_iff,
    Text.codePoints_lt_iff]

theorem Before.ne (h : k.Before l) : k ≠ l := by
  rintro rfl
  have hself : compare k k = .eq := Std.ReflCmp.compare_self
  rw [← compare_eq_lt_iff, hself] at h
  cases h

theorem Before.not_before (h : k.Before l) : ¬ l.Before k := by
  rw [← compare_eq_lt_iff, ← Std.OrientedCmp.gt_iff_lt, compare_eq_lt_iff.2 h]
  exact Ordering.noConfusion

/-- A list in strictly ascending order has no key twice. -/
theorem nodup_of_pairwise (h : keys.Pairwise Before) : keys.Nodup := h.imp Before.ne

/-- **Two lists in strictly ascending order** that have the same keys are the same. -/
theorem eq_of_pairwise {keys' : List Key} (h : keys.Pairwise Before) (h' : keys'.Pairwise Before)
    (hmem : ∀ k, k ∈ keys ↔ k ∈ keys') : keys = keys' := by
  have hperm : keys.Perm keys' := (List.perm_ext_iff_of_nodup (nodup_of_pairwise h) (nodup_of_pairwise h')).2 hmem
  exact hperm.eq_of_pairwise (fun k l _ _ hkl hlk => absurd hlk hkl.not_before) h h'

/-- Keys put in ascending order. -/
def sorted (keys : List Key) : List Key := keys.mergeSort fun k l => (compare k l).isLE

theorem sorted_perm (keys : List Key) : (sorted keys).Perm keys := List.mergeSort_perm keys _

theorem isLE_total (k l : Key) : ((compare k l).isLE || (compare l k).isLE) = true := by
  cases hkl : compare k l with
  | lt => rfl
  | eq => rfl
  | gt =>
    rw [Std.OrientedCmp.gt_iff_lt] at hkl
    rw [hkl]
    rfl

/-- Keys of which none is there twice are in strictly ascending order then. -/
theorem pairwise_sorted (h : keys.Nodup) : (sorted keys).Pairwise Before := by
  have hsorted : (sorted keys).Pairwise fun k l => (compare k l).isLE = true := by
    refine List.pairwise_mergeSort ?_ isLE_total keys
    intro k l m hkl hlm
    exact Std.TransOrd.isLE_trans hkl hlm
  have hnodup : (sorted keys).Nodup := (sorted_perm keys).nodup_iff.2 h
  refine (hsorted.and hnodup).imp ?_
  rintro k l ⟨hle, hne⟩
  rcases Ordering.isLE_iff_eq_lt_or_eq_eq.1 hle with hlt | heq
  · exact compare_eq_lt_iff.1 hlt
  · exact absurd (Std.LawfulEqCmp.eq_of_compare heq) hne

end Key

namespace Store

variable {s s' : Store} {now : Instant} {m : GroupMatcher} {k : Key} {keys : List Key}

/-! ### Listings -/

/-- **A list has the keys of the jobs in the groups that a matcher selects**, and no others, in strictly ascending
order. -/
structure Lists (s : Store) (m : GroupMatcher) (keys : List Key) : Prop where
  /-- Of two keys the one that comes first is before the other one. -/
  ascending : keys.Pairwise Key.Before
  /-- The keys are those of stored jobs whose groups are selected. -/
  mem_iff : ∀ k, k ∈ keys ↔ (∃ job, s.jobs[k]? = some job ∧ job.key = k) ∧ m.Selects k.group

/-- There is no other such list. -/
theorem Lists.unique {keys' : List Key} (h : s.Lists m keys) (h' : s.Lists m keys') : keys' = keys :=
  Key.eq_of_pairwise h'.ascending h.ascending fun k => (h'.mem_iff k).trans (h.mem_iff k).symm

/-- A job is stored under a key exactly if there is a job with that key. -/
theorem Sound.mem_jobs_iff (hs : s.Sound) : k ∈ s.jobs ↔ ∃ job, s.jobs[k]? = some job ∧ job.key = k := by
  rw [Table.mem_iff_exists]
  constructor
  · rintro ⟨job, hjob⟩
    exact ⟨job, hjob, hs.jobKey hjob⟩
  · rintro ⟨job, hjob, -⟩
    exact ⟨job, hjob⟩

/-- The keys of a table whose groups are selected are such a list. -/
theorem Sound.lists (hs : s.Sound) (m : GroupMatcher) : s.Lists m (s.jobs.keys.filter fun k => m.accepts k.group) where
  ascending := by
    have hkeys : s.jobs.keys.Pairwise Key.Before := Std.ExtTreeMap.ordered_keys.imp Key.compare_eq_lt_iff.1
    exact hkeys.filter _
  mem_iff k := by
    rw [List.mem_filter, Std.ExtTreeMap.mem_keys, hs.mem_jobs_iff, GroupMatcher.accepts_iff_selects]

/-- **The jobs may be gone through in any order** before their keys are put in order. -/
theorem Lists.sorted_eq (hs : s.Sound) (h : s.Lists m keys) {found : List Key} (hnodup : found.Nodup)
    (hfound : ∀ k, k ∈ found ↔ k ∈ s.jobs) : Key.sorted (found.filter fun k => m.accepts k.group) = keys := by
  refine h.unique ⟨Key.pairwise_sorted (hnodup.filter _), ?_⟩
  intro k
  rw [(Key.sorted_perm _).mem_iff, List.mem_filter, hfound, hs.mem_jobs_iff, GroupMatcher.accepts_iff_selects]

/-- What comes back from a listing. -/
theorem serve_jobKeys (s : Store) (now : Instant) (m : GroupMatcher) : (s.serve now (.jobKeys m)).reply =
    if s.stopped then .refused (.unavailable "the scheduler has been shut down")
    else .answer (s.jobs.keys.filter fun k => m.accepts k.group) := by
  unfold serve
  split <;> rfl

/-- **A listing depends on which jobs are stored** and on whether calls are taken. -/
theorem serve_jobKeys_congr (hs : s.Sound) (hs' : s'.Sound) (hstopped : s.stopped = s'.stopped)
    (hjobs : ∀ k, k ∈ s.jobs ↔ k ∈ s'.jobs) (now : Instant) (m : GroupMatcher) :
    (s.serve now (.jobKeys m)).reply = (s'.serve now (.jobKeys m)).reply := by
  have hlists := hs'.lists m
  have hlists' : s'.Lists m (s.jobs.keys.filter fun k => m.accepts k.group) := by
    refine ⟨(hs.lists m).ascending, fun k => ?_⟩
    rw [(hs.lists m).mem_iff, ← hs.mem_jobs_iff, hjobs, hs'.mem_jobs_iff]
  rw [serve_jobKeys, serve_jobKeys, hstopped, hlists.unique hlists']

/-! ### Jobs that are added -/

/-- The calls that add jobs one after another, each at its own time and in place of one with its key or not. -/
def additions (added : List (Instant × Job × Bool)) : List (Instant × Call) :=
  added.map fun (now, job, replace) => (now, .addJob job replace)

/-- A job can be added at all: it is durable, or there is a trigger under its key. -/
def Admits (s : Store) (job : Job) : Prop := job.durable = true ∨ job.key ∈ s.triggers

theorem admits_iff {job : Job} : s.Admits job ↔ ¬ (!job.durable && !s.triggers.contains job.key) = true := by
  rw [Admits, ← Std.ExtTreeMap.contains_iff_mem]
  cases job.durable <;> cases s.triggers.contains job.key <;> simp

/-- Adding a job stores it under its key if it can be added at all; if there is one already, there is one still. -/
theorem serve_addJob (hrun : s.stopped = false) (now : Instant) (job : Job) (replace : Bool) :
    (∀ k, k ∈ (s.serve now (.addJob job replace)).state.jobs ↔ k ∈ s.jobs ∨ s.Admits job ∧ job.key = k) ∧
      (s.serve now (.addJob job replace)).state.triggers = s.triggers := by
  rw [serve, if_neg (Bool.eq_false_iff.1 hrun)]
  dsimp only [addJob]
  split
  · next hknown =>
    refine ⟨fun k => ⟨.inl, ?_⟩, rfl⟩
    rintro (hk | ⟨-, rfl⟩)
    · exact hk
    · exact Std.ExtTreeMap.contains_iff_mem.1 (Bool.and_eq_true_iff.1 hknown).1
  · split
    · next hrefused =>
      refine ⟨fun k => ⟨.inl, ?_⟩, rfl⟩
      rintro (hk | ⟨hadmits, -⟩)
      · exact hk
      · exact absurd hrefused (admits_iff.1 hadmits)
    · next hadmits =>
      refine ⟨fun k => ?_, rfl⟩
      change k ∈ s.jobs.insert job.key job ↔ _
      rw [Std.ExtTreeMap.mem_insert, Std.compare_eq_iff_eq, and_iff_right (admits_iff.2 hadmits), or_comm]

/-- **Which jobs are stored when some have been added**: those that were before, and each that can be added at all. -/
theorem mem_jobs_additions (hrun : s.stopped = false) (added : List (Instant × Job × Bool)) (k : Key) :
    k ∈ (serveAll (additions added) s).2.jobs ↔
      k ∈ s.jobs ∨ ∃ now job replace, (now, job, replace) ∈ added ∧ s.Admits job ∧ job.key = k := by
  induction added generalizing s with
  | nil => simp [additions, serveAll]
  | cons first added ih =>
    obtain ⟨now, job, replace⟩ := first
    obtain ⟨hjobs, htriggers⟩ := serve_addJob hrun now job replace
    have hadmits (job' : Job) : (s.serve now (.addJob job replace)).state.Admits job' ↔ s.Admits job' := by
      rw [Admits, htriggers, Admits]
    change k ∈ (serveAll (additions added) (s.serve now (.addJob job replace)).state).2.jobs ↔ _
    rw [ih ((serve_stopped now _ s).trans hrun), hjobs]
    simp only [hadmits, List.mem_cons, Prod.mk.injEq]
    constructor
    · rintro ((hk | hfirst) | ⟨now', job', replace', hmem, hlater⟩)
      · exact .inl hk
      · exact .inr ⟨now, job, replace, .inl ⟨rfl, rfl, rfl⟩, hfirst⟩
      · exact .inr ⟨now', job', replace', .inr hmem, hlater⟩
    · rintro (hk | ⟨now', job', replace', ⟨rfl, rfl, rfl⟩ | hmem, hstored⟩)
      · exact .inl (.inl hk)
      · exact .inl (.inr hstored)
      · exact .inr ⟨now', job', replace', hmem, hstored⟩

/-- **Jobs may be added in any order**: what is listed afterwards is the same. -/
theorem serve_jobKeys_additions_perm (hs : s.Sound) {added added' : List (Instant × Job × Bool)}
    (h : added.Perm added') (now : Instant) (m : GroupMatcher) :
    ((serveAll (additions added) s).2.serve now (.jobKeys m)).reply =
      ((serveAll (additions added') s).2.serve now (.jobKeys m)).reply := by
  cases hrun : s.stopped with
  | true =>
    have hstopped (asked : List (Instant × Call)) : (serveAll asked s).2.stopped = true :=
      (serveAll_stopped asked s).trans hrun
    rw [serve_jobKeys, serve_jobKeys, hstopped, hstopped]
    rfl
  | false =>
    refine serve_jobKeys_congr (hs.serveAll _) (hs.serveAll _) ?_ (fun k => ?_) now m
    · rw [serveAll_stopped, serveAll_stopped]
    · simp only [mem_jobs_additions hrun, h.mem_iff]

/-- **What a listing gives** in every memory that is reached: unless the engine has been shut down, the keys of the
stored jobs in the groups that the matcher selects, in strictly ascending order. There is no other such list, so it is
also what comes of going through the jobs in any order and sorting, and it is the same in whatever order jobs have been
added. -/
theorem listing_exact (hs : s.Reached fun _ => True) (now : Instant) (m : GroupMatcher) :
    ∃ keys, ((s.serve now (.jobKeys m)).reply =
        if s.stopped then .refused (.unavailable "the scheduler has been shut down") else .answer keys) ∧
      (∀ keys', s.Lists m keys' ↔ keys' = keys) ∧ keys.Nodup ∧ (∀ group, m.accepts group = true ↔ m.Selects group) ∧
      (∀ found : List Key, found.Nodup → (∀ k, k ∈ found ↔ k ∈ s.jobs) →
        Key.sorted (found.filter fun k => m.accepts k.group) = keys) ∧
      ∀ added added' : List (Instant × Job × Bool), added.Perm added' →
        ((serveAll (additions added) s).2.serve now (.jobKeys m)).reply =
          ((serveAll (additions added') s).2.serve now (.jobKeys m)).reply := by
  have hlists := hs.sound.lists m
  refine ⟨_, serve_jobKeys s now m, ?_, Key.nodup_of_pairwise hlists.ascending, ?_, ?_, ?_⟩
  · intro keys'
    constructor
    · exact hlists.unique
    · rintro rfl
      exact hlists
  · intro group
    exact GroupMatcher.accepts_iff_selects
  · intro found hnodup hfound
    exact hlists.sorted_eq hs.sound hnodup hfound
  · intro added added' h
    exact serve_jobKeys_additions_perm hs.sound h now m

/-- Four jobs have been added, the one with the greatest name first. The groups of three of them contain a text, that of
two in two places that overlap. Two of the names would be the other way round by the halves that they have in UTF-16. The
jobs may also be gone through backwards. -/
theorem listing_exact_of_overlaps : ∃ (now : Instant) (s : Store) (m : GroupMatcher) (first last : List Key),
    s.Reached (fun _ => True) ∧ (s.stopped = false ∧ s.jobs.size = 4) ∧
      (s.serve now (.jobKeys m)).reply = .answer (first ++ last) ∧ s.Lists m (first ++ last) ∧
      (first = [⟨"nightly", "baab"⟩] ∧ last = [⟨"\uffff", "aaa"⟩, ⟨"😀", "aaa"⟩]) ∧
      Key.sorted (s.jobs.keys.reverse.filter fun k => m.accepts k.group) = first ++ last := by
  let now : Instant := ⟨4133894300, 0, by decide, by decide, by decide, by decide⟩
  let m : GroupMatcher := .contains "aa"
  let add (name group : String) (s : Store) : Store :=
    (s.serve now (.addJob ⟨⟨name, group⟩, "backup", ∅, true⟩ false)).state
  have hadd {s : Store} (name group : String) (hs : s.Reached fun _ => True) :
      (add name group s).Reached fun _ => True := hs.call now _ (Call.passes_any _)
  let s := add "nightly" "baab" (add "nightly" "abab" (add "\uffff" "aaa" (add "😀" "aaa" .fresh)))
  have hs : s.Reached fun _ => True := hadd _ _ (hadd _ _ (hadd _ _ (hadd _ _ (.empty _))))
  have hanswer : (s.serve now (.jobKeys m)).reply =
      .answer ([⟨"nightly", "baab"⟩] ++ [⟨"\uffff", "aaa"⟩, ⟨"😀", "aaa"⟩]) := by decide +kernel
  have hrun : s.stopped = false := by decide +kernel
  obtain ⟨keys, hreply, hlists, -, -, hsorted, -⟩ := listing_exact hs now m
  rw [hrun, if_neg Bool.false_ne_true, hanswer, Reply.answer.injEq] at hreply
  subst hreply
  refine ⟨now, s, m, _, _, hs, ⟨hrun, by decide +kernel⟩, hanswer, (hlists _).2 rfl, ⟨rfl, rfl⟩, hsorted _ ?_ fun k => ?_⟩
  · exact (List.reverse_perm _).nodup_iff.2 Std.ExtTreeMap.nodup_keys
  · rw [List.mem_reverse, Std.ExtTreeMap.mem_keys]

end Store

end JobRoster
