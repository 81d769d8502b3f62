import JobRoster.Engine.Event

/-!
# The roster of the process

A process has at most one roster that all its parts share. It is installed explicitly, or made when it is first asked
for; whichever comes first stays for good. The rosters are of any type here.
-/

namespace JobRoster.OfProcess

variable {ρ : Type}

/-- The roster of the process, if there is one yet. -/
abbrev Slot (ρ : Type) := Option ρ

/-- Installs a roster. If there is one already, the new one is given back. -/
def install (slot : Slot ρ) (roster : ρ) : Except ρ Unit × Slot ρ × List Event :=
  match slot with
  | none => (.ok (), some roster, [.processRosterInstalled])
  | some _ => (.error roster, slot, [])

/-- The roster of the process, if there is one yet. -/
def get? (slot : Slot ρ) : Option ρ := slot

/-- The roster of the process, which is made if there is none. -/
def getOrMake (slot : Slot ρ) (make : Unit → ρ) : ρ × Slot ρ × List Event :=
  match slot with
  | some roster => (roster, slot, [])
  | none => let roster := make (); (roster, some roster, [.processRosterMade])

end JobRoster.OfProcess
