import JobRoster.Settings.Basic
import JobRoster.Text.Blank

/-!
# Checks of settings

Settings with errors are refused; warnings point out what works and yet changes which stored jobs can be reached.
-/

namespace JobRoster

/-- How grave an issue is. -/
inductive Severity where
  /-- The settings cannot be used. -/
  | error
  /-- The settings can be used. -/
  | warning
  deriving DecidableEq, Repr

/-- The name of a severity. -/
def Severity.name : Severity → String
  | error => "Error"
  | warning => "Warning"

/-- Something noticed about settings. -/
structure Issue where
  /-- How grave it is. -/
  severity : Severity
  /-- The setting in question. -/
  path : String
  /-- What was noticed. -/
  message : String
  deriving DecidableEq, Repr

/-- An issue in one line. -/
def Issue.display (i : Issue) : String := i.path ++ ": " ++ i.message

/-- Why settings cannot be had. -/
inductive SettingsError where
  /-- There is no such file. -/
  | notFound (path : String)
  /-- A setting has a value that is refused. -/
  | invalidValue (path message : String)
  /-- A variable that is referred to is not set. -/
  | variableNotSet (name : String)
  /-- The file cannot be read. -/
  | unreadable (reason : String)
  /-- The text is malformed, or settings have values of the wrong kind. -/
  | malformed
  deriving DecidableEq, Repr

/-- The text of an error. -/
def SettingsError.message : SettingsError → String
  | notFound path => "Config file not found: " ++ path
  | invalidValue path message => "Invalid value for " ++ path ++ ": " ++ message
  | variableNotSet name => "Environment variable not set: " ++ name
  | unreadable reason => "IO error: " ++ reason
  | malformed => "TOML parse error"

namespace Settings

/-- Whether a stem holds a blank. -/
def hasBlank (stem : String) : Bool := stem.toList.any Text.isBlank

/-- What is noticed about a stem. -/
def stemIssues (path stem usual : String) : List Issue :=
  if stem.isEmpty then [⟨.error, path, "Prefix cannot be empty"⟩]
  else
    (if hasBlank stem then [⟨.error, path, s!"Prefix '{stem}' must not contain whitespace"⟩] else [])
      ++ (if stem = usual then []
        else [⟨.warning, path,
          s!"Prefix '{stem}' differs from '{usual}'; jobs registered under the old names will no longer be found"⟩])

/-- What is noticed about settings, in the order of the checks. -/
def issues (s : Settings) : List Issue :=
  stemIssues "naming.job_prefix" s.naming.jobStem Naming.standard.jobStem
    ++ stemIssues "naming.group_prefix" s.naming.groupStem Naming.standard.groupStem
    ++ (if ¬ s.naming.jobStem.isEmpty ∧ s.naming.jobStem = s.naming.groupStem then
        [⟨.warning, "naming", "Job and group prefixes are identical"⟩] else [])
    ++ (if s.groupMatch = .exact then
        [⟨.warning, "deletion.group_match",
          "Exact group matching no longer removes jobs from groups that merely share the suffix"⟩] else [])

/-- The errors among the issues. -/
def errors (s : Settings) : List Issue := s.issues.filter (·.severity = .error)

/-- The warnings among the issues. -/
def warnings (s : Settings) : List Issue := s.issues.filter (·.severity = .warning)

/-- Whether the settings can be used. -/
def isValid (s : Settings) : Bool := s.errors.isEmpty

/-- The warnings about settings that can be used, or else the first error. -/
def accept (s : Settings) : Except SettingsError (List Issue) :=
  match s.errors with
  | e :: _ => .error (.invalidValue e.path e.message)
  | [] => .ok s.warnings

end Settings

end JobRoster
