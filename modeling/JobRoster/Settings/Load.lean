import JobRoster.Settings.Environment
import JobRoster.Settings.Toml.Document
import JobRoster.Settings.Validation

/-!
# Loading settings

Settings are read from a text once its references to the environment are replaced, or from a file that holds such a
text in UTF-8.
-/

namespace JobRoster.Settings

/-- The settings in a text. -/
def load (env : Environment) (text : String) : Except SettingsError Settings :=
  match expand env text with
  | .error name => .error (.variableNotSet name)
  | .ok expanded =>
    match Toml.read? expanded with
    | none => .error .malformed
    | some d =>
      match codec.read .settings d with
      | .ok s => .ok s
      | .error _ => .error .malformed

/-- What is found at a path. -/
inductive File where
  /-- Nothing. -/
  | missing
  /-- A directory. -/
  | directory
  /-- A file with these bytes. -/
  | content (bytes : ByteArray)

/-- The settings in what is found at a path. -/
def loadFile (env : Environment) (path : String) : File → Except SettingsError Settings
  | .missing => .error (.notFound path)
  | .directory => .error (.unreadable "Is a directory (os error 21)")
  | .content bytes =>
    match String.fromUTF8? bytes with
    | some text => load env text
    | none => .error (.unreadable "stream did not contain valid UTF-8")

/-- The settings in the file at a path, given what is found at each path. A tilde at the front of the path
stands for the home directory. -/
def loadPath (env : Environment) (files : String → File) (path : String) : Except SettingsError Settings :=
  loadFile env (resolvePath env path) (files (resolvePath env path))

end JobRoster.Settings
