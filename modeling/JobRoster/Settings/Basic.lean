import JobRoster.Settings.Naming
import JobRoster.Job.GroupMatcher

/-!
# Settings

What can be set about a roster: the stems of names, what a change of stored jobs excludes while it lasts, and which
groups a deletion reaches.
-/

namespace JobRoster

/-- Which changes exclude each other. -/
inductive LockStrategy where
  /-- All of them. -/
  | global
  /-- Those of one group, and a deletion of groups every other change. -/
  | perGroup
  deriving DecidableEq, Repr

namespace LockStrategy

/-- The name of a strategy. -/
def name : LockStrategy → String
  | global => "global"
  | perGroup => "per_group"

/-- Strategies as data. -/
def codec : Codec LockStrategy := .choice [global, perGroup] name

end LockStrategy

/-- Which groups are meant when one is named in a deletion. -/
inductive GroupMatch where
  /-- All whose names end with the given one. -/
  | suffix
  /-- The given one only. -/
  | exact
  deriving DecidableEq, Repr

namespace GroupMatch

/-- The name of a way of matching. -/
def name : GroupMatch → String
  | suffix => "suffix"
  | exact => "exact"

/-- Ways of matching as data. -/
def codec : Codec GroupMatch := .choice [suffix, exact] name

/-- The matcher for a group. -/
def matcher : GroupMatch → String → GroupMatcher
  | suffix, group => .endsWith group
  | exact, group => .equals group

end GroupMatch

/-- All settings. -/
structure Settings where
  /-- The stems of names. -/
  naming : Naming
  /-- Which changes exclude each other. -/
  lock : LockStrategy
  /-- Which groups a deletion reaches. -/
  groupMatch : GroupMatch
  deriving DecidableEq, Repr

namespace Settings

/-- The settings when nothing is set. -/
def standard : Settings := ⟨.standard, .global, .suffix⟩

instance : Inhabited Settings := ⟨standard⟩

/-- The table of settings about the lock, as data. -/
def lockCodec : Codec LockStrategy :=
  (Shape.single (.defaulted "strategy" LockStrategy.codec .global)).codec "LockConfig"

/-- The table of settings about deletions, as data. -/
def deletionCodec : Codec GroupMatch :=
  (Shape.single (.defaulted "group_match" GroupMatch.codec .suffix)).codec "DeletionConfig"

/-- Settings as data. -/
def codec : Codec Settings :=
  Shape.codec
    (((Shape.single (.defaulted "naming" Naming.codec standard.naming)).both
      ((Shape.single (.defaulted "lock" lockCodec standard.lock)).both
        (.single (.defaulted "deletion" deletionCodec standard.groupMatch)))).as
      (fun (naming, lock, groupMatch) => ⟨naming, lock, groupMatch⟩)
      (fun s => (s.naming, s.lock, s.groupMatch)))
    "RegistryConfig"

end Settings

end JobRoster
