import JobRoster.Proofs.Settings.Naming
import JobRoster.Roster.Basic

/-!
# Settings that are accepted

A roster is set up with settings exactly if both stems are words (`Text.IsWord`), whatever else is set. Otherwise the
first stem that is not a word is told, that of jobs before that of groups, and why (`Settings.objection`). Of settings
that are accepted nothing was noticed but what is pointed out, in the order of the checks (`Settings.remarks`). Names
that are made from a word and an integer are words.

Main statement: `acceptance_exact`.
-/

namespace JobRoster

/-! ### Words -/

namespace Text

/-- **A word**: a text that is not empty and holds no blank. -/
def IsWord (text : String) : Prop := text ≠ "" ∧ ∀ c ∈ text.toList, isBlank c = false

instance (text : String) : Decidable (IsWord text) :=
  decidable_of_iff (text.isEmpty = false ∧ text.toList.all (fun c => !isBlank c) = true) (by simp [IsWord])

theorem IsWord.append {a b : String} (ha : IsWord a) (hb : ∀ c ∈ b.toList, isBlank c = false) : IsWord (a ++ b) := by
  obtain ⟨hne, hblank⟩ := ha
  refine ⟨fun h => hne (String.append_eq_empty_iff.1 h).1, fun c hc => ?_⟩
  rw [String.toList_append, List.mem_append] at hc
  rcases hc with hc | hc
  · exact hblank c hc
  · exact hb c hc

end Text

open Text

/-- What an integer is written with is not blank. -/
theorem Ident.isBlank_of_mem_plain {c : Char} {i : Int} (h : c ∈ (integer i).plain.toList) : isBlank c = false := by
  rcases isDigit_of_mem_plain h with rfl | h
  · rfl
  · exact isBlank_of_isDigit h

/-- **A stem that is a word makes words** of integers. -/
theorem Naming.isWord_of_stem {stem : String} (h : IsWord stem) (i : Int) :
    IsWord (stem ++ "_" ++ (Ident.integer i).plain) := by
  refine (h.append fun c hc => ?_).append fun c hc => Ident.isBlank_of_mem_plain hc
  obtain rfl : c = '_' := by simpa using hc
  rfl

namespace Settings

variable {s : Settings} {stem : String}

/-! ### Errors -/

/-- Why a text cannot be the stem of names, if it is not a word. -/
def objection (stem : String) : String :=
  if stem = "" then "Prefix cannot be empty" else s!"Prefix '{stem}' must not contain whitespace"

theorem hasBlank_eq_false_iff : hasBlank stem = false ↔ ∀ c ∈ stem.toList, isBlank c = false := by
  simp [hasBlank]

/-- The error in a stem, if it is not a word; there is no other one. -/
theorem errors_stemIssues (path stem usual : String) : (stemIssues path stem usual).filter (·.severity = .error) =
    if IsWord stem then [] else [⟨.error, path, objection stem⟩] := by
  by_cases hempty : stem = ""
  · simp [stemIssues, IsWord, objection, hempty]
  · cases hblank : hasBlank stem with
    | true =>
      have hword : ¬ IsWord stem := by
        intro h
        rw [hasBlank_eq_false_iff.2 h.2] at hblank
        cases hblank
      simp [stemIssues, hempty, hblank, hword, objection]
    | false =>
      have hword : IsWord stem := ⟨hempty, hasBlank_eq_false_iff.1 hblank⟩
      simp [stemIssues, hempty, hblank, hword]

/-- The errors of settings are those in the stems. -/
theorem errors_eq (s : Settings) : s.errors =
    (if IsWord s.naming.jobStem then []
      else [⟨.error, "naming.job_prefix", objection s.naming.jobStem⟩]) ++
    (if IsWord s.naming.groupStem then []
      else [⟨.error, "naming.group_prefix", objection s.naming.groupStem⟩]) := by
  have hwarning (p : Prop) [Decidable p] (path message : String) :
      (if p then [(⟨.warning, path, message⟩ : Issue)] else []).filter (·.severity = .error) = [] := by
    split <;> rfl
  rw [errors, issues, List.filter_append, List.filter_append, List.filter_append, errors_stemIssues, errors_stemIssues,
    hwarning, hwarning, List.append_nil, List.append_nil]

theorem errors_eq_nil_iff : s.errors = [] ↔ IsWord s.naming.jobStem ∧ IsWord s.naming.groupStem := by
  rw [errors_eq, List.append_eq_nil_iff]
  simp

variable {α : Type} {a b : α}

/-- **The first stem that is not a word is told**, that of jobs before that of groups, and why; if both are words there
is a result. -/
def orRefused (s : Settings) (a : α) : Except SettingsError α :=
  if IsWord s.naming.jobStem then
    if IsWord s.naming.groupStem then .ok a
    else .error (.invalidValue "naming.group_prefix" (objection s.naming.groupStem))
  else .error (.invalidValue "naming.job_prefix" (objection s.naming.jobStem))

theorem orRefused_eq_ok_iff :
    s.orRefused a = .ok b ↔ (IsWord s.naming.jobStem ∧ IsWord s.naming.groupStem) ∧ a = b := by
  by_cases hjob : IsWord s.naming.jobStem
  · by_cases hgroup : IsWord s.naming.groupStem <;> simp [orRefused, hjob, hgroup]
  · simp [orRefused, hjob]

/-- The warnings are returned unless a stem is refused. -/
theorem accept_eq (s : Settings) : s.accept = s.orRefused s.warnings := by
  rw [accept, errors_eq]
  by_cases hjob : IsWord s.naming.jobStem
  · by_cases hgroup : IsWord s.naming.groupStem <;> simp [orRefused, hjob, hgroup]
  · simp [orRefused, hjob]

theorem isValid_iff : s.isValid = true ↔ IsWord s.naming.jobStem ∧ IsWord s.naming.groupStem := by
  rw [isValid, List.isEmpty_iff, errors_eq_nil_iff]

/-! ### Warnings -/

/-- What there is to be pointed out about settings that are accepted, in the order of the checks, and whether it is. -/
def remarks (s : Settings) : List (String × Bool) :=
  [("naming.job_prefix", s.naming.jobStem ≠ "job"), ("naming.group_prefix", s.naming.groupStem ≠ "jobgroup"),
    ("naming", s.naming.jobStem = s.naming.groupStem), ("deletion.group_match", s.groupMatch = .exact)]

/-- Where there are no errors, all that was noticed are warnings. -/
theorem warnings_eq_issues (h : s.errors = []) : s.warnings = s.issues := by
  refine List.filter_eq_self.2 fun issue hissue => ?_
  have herror : ¬ issue.severity = .error := by simpa using List.filter_eq_nil_iff.1 h issue hissue
  cases hseverity : issue.severity with
  | error => exact absurd hseverity herror
  | warning => rfl

/-- Of a stem that is a word it is noticed that it is not the usual one, if it is not. -/
theorem paths_stemIssues (path usual : String) (h : IsWord stem) :
    (stemIssues path stem usual).map Issue.path = if stem ≠ usual then [path] else [] := by
  have hempty : ¬ stem.isEmpty = true := by simpa using h.1
  have hblank : ¬ hasBlank stem = true := by simp [hasBlank_eq_false_iff.2 h.2]
  rw [stemIssues, if_neg hempty, if_neg hblank, List.nil_append]
  by_cases husual : stem = usual <;> simp [husual]

/-- **What is noticed about settings whose stems are words.** -/
theorem paths_issues (hjob : IsWord s.naming.jobStem) (hgroup : IsWord s.naming.groupStem) :
    s.issues.map Issue.path = (s.remarks.filter Prod.snd).map Prod.fst := by
  have hnext (p : Prop) [Decidable p] (path : String) (rest : List (String × Bool)) :
      (((path, decide p) :: rest).filter Prod.snd).map Prod.fst =
        (if p then [path] else []) ++ (rest.filter Prod.snd).map Prod.fst := by
    by_cases hp : p <;> simp [hp]
  have hone (p : Prop) [Decidable p] (path message : String) :
      (if p then [(⟨.warning, path, message⟩ : Issue)] else []).map Issue.path = if p then [path] else [] := by
    by_cases hp : p <;> simp [hp]
  have hempty : s.naming.jobStem.isEmpty = false := by simpa using hjob.1
  rw [issues, List.map_append, List.map_append, List.map_append, paths_stemIssues _ _ hjob, paths_stemIssues _ _ hgroup,
    hone, hone, remarks, hnext, hnext, hnext, hnext]
  simp only [hempty, Naming.standard, Bool.false_eq_true, not_false_eq_true, true_and, List.filter_nil, List.map_nil,
    List.append_nil, List.append_assoc]
  rfl

/-- **What is pointed out about settings** that are accepted. -/
structure PointedOut (s : Settings) (warnings : List Issue) : Prop where
  /-- It is what is no error of all that was noticed, in the order of the checks. -/
  eq_filter : warnings = s.issues.filter (·.severity = .warning)
  /-- Nothing else was noticed. -/
  eq_issues : warnings = s.issues
  /-- It is about that which there is to be pointed out. -/
  paths : warnings.map Issue.path = (s.remarks.filter Prod.snd).map Prod.fst

theorem pointedOut_of_accept {warnings : List Issue} (h : s.accept = .ok warnings) : s.PointedOut warnings := by
  rw [accept_eq, orRefused_eq_ok_iff] at h
  obtain ⟨hwords, rfl⟩ := h
  have hall : s.warnings = s.issues := warnings_eq_issues (errors_eq_nil_iff.2 hwords)
  exact ⟨rfl, hall, hall ▸ paths_issues hwords.1 hwords.2⟩

/-! ### Setting up a roster -/

/-- **Setting up a roster** takes the settings as they are and reports all that was noticed, unless a stem is refused. -/
theorem ofChecked_eq (s : Settings) :
    Roster.ofChecked s = s.orRefused (Roster.ofSettings s, s.issues.map .settingsWarning) := by
  rw [Roster.ofChecked, accept_eq]
  by_cases hwords : IsWord s.naming.jobStem ∧ IsWord s.naming.groupStem
  · rw [orRefused_eq_ok_iff.2 ⟨hwords, rfl⟩, orRefused_eq_ok_iff.2 ⟨hwords, rfl⟩,
      warnings_eq_issues (errors_eq_nil_iff.2 hwords)]
    rfl
  · unfold orRefused
    split_ifs with hjob hgroup
    · exact absurd ⟨hjob, hgroup⟩ hwords
    · rfl
    · rfl

/-- A roster that is set up makes words of integers. -/
theorem isWord_names {r : Roster} {events : List Event} (h : Roster.ofChecked s = .ok (r, events)) (i : Int) :
    IsWord (r.naming.jobName (.integer i)) ∧ IsWord (r.naming.groupName (.integer i)) := by
  rw [ofChecked_eq, orRefused_eq_ok_iff] at h
  obtain ⟨⟨hjob, hgroup⟩, heq⟩ := h
  cases heq
  exact ⟨Naming.isWord_of_stem hjob i, Naming.isWord_of_stem hgroup i⟩

/-- **Which settings are accepted**, and what follows. A roster is set up exactly if both stems are words, whatever else
is set; otherwise the stem of jobs is told if it is not a word, and else that of groups. Settings are valid exactly if
their warnings are returned, which are all that was noticed about them, in the order of the checks. A roster that is set
up makes words of all integers, for jobs and for groups. -/
theorem acceptance_exact (s : Settings) :
    ((∃ accepted, Roster.ofChecked s = .ok accepted) ↔ IsWord s.naming.jobStem ∧ IsWord s.naming.groupStem) ∧
      (Roster.ofChecked s = if IsWord s.naming.jobStem then
          if IsWord s.naming.groupStem then .ok (Roster.ofSettings s, s.issues.map .settingsWarning)
          else .error (.invalidValue "naming.group_prefix" (objection s.naming.groupStem))
        else .error (.invalidValue "naming.job_prefix" (objection s.naming.jobStem))) ∧
      (s.isValid = true ↔ ∃ warnings, s.accept = .ok warnings) ∧
      (∀ warnings, s.accept = .ok warnings → s.PointedOut warnings) ∧
      ∀ r events, Roster.ofChecked s = .ok (r, events) → ∀ id : Int64,
        IsWord (r.naming.jobName (.integer id.toInt)) ∧ IsWord (r.naming.groupName (.integer id.toInt)) := by
  refine ⟨?_, ofChecked_eq s, ?_, ?_, ?_⟩
  · simp [ofChecked_eq, orRefused_eq_ok_iff]
  · simp [isValid_iff, accept_eq, orRefused_eq_ok_iff]
  · intro warnings h
    exact pointedOut_of_accept h
  · intro r events h id
    exact isWord_names h id.toInt

/-- Two stems that are the same end with a character that looks blank and is none; all four remarks are made, and the name
of the least integer is a word. With a blank that does not show in the stem of groups the settings are refused. When the
stem of jobs is empty too, this is what is told. -/
theorem acceptance_exact_of_unseen : ∃ s s' s'' : Settings, ∃ r events,
    (Roster.ofChecked s = .ok (r, events) ∧ events.length = 4 ∧ s.accept = .ok s.issues ∧ s.PointedOut s.issues ∧
      r.naming.jobName (.integer (Int64.minValue).toInt) = "job\u200b_-9223372036854775808" ∧
      IsWord (r.naming.jobName (.integer (Int64.minValue).toInt))) ∧
    (s'.naming.jobStem = s.naming.jobStem ∧ Roster.ofChecked s' =
      .error (.invalidValue "naming.group_prefix" "Prefix 'job\u0085group' must not contain whitespace")) ∧
    (s''.naming.groupStem = s'.naming.groupStem ∧ Roster.ofChecked s'' =
      .error (.invalidValue "naming.job_prefix" "Prefix cannot be empty")) := by
  let s : Settings := ⟨⟨"job\u200b", "job\u200b"⟩, .perGroup, .exact⟩
  let s' : Settings := ⟨⟨"job\u200b", "job\u0085group"⟩, .perGroup, .suffix⟩
  let s'' : Settings := ⟨⟨"", "job\u0085group"⟩, .global, .suffix⟩
  obtain ⟨-, hset, -, hwarnings, hnames⟩ := acceptance_exact s
  obtain ⟨-, hrefused, -⟩ := acceptance_exact s'
  obtain ⟨-, hrefused', -⟩ := acceptance_exact s''
  rw [if_pos (by decide +kernel), if_pos (by decide +kernel)] at hset
  rw [if_pos (by decide +kernel), if_neg (by decide +kernel)] at hrefused
  rw [if_neg (by decide +kernel)] at hrefused'
  have haccept : s.accept = .ok s.issues := by decide +kernel
  exact ⟨s, s', s'', _, _, ⟨hset, by decide +kernel, haccept, hwarnings _ haccept, by decide +kernel,
    (hnames _ _ hset Int64.minValue).1⟩, ⟨rfl, hrefused⟩, rfl, hrefused'⟩

end Settings

end JobRoster
