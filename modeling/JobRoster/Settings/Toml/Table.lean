import JobRoster.Datum.Basic

/-!
# Tables of settings files

The tables of a file grow line by line. A table may be opened by a header, come about on the way to another table, or
come about by a dotted name; which of these it was decides what may still be added to it and how. A value is closed:
nothing is ever added to it.
-/

namespace JobRoster.Settings.Toml

/-- How a table came about. -/
inductive Origin where
  /-- By a header of its own. -/
  | header
  /-- On the way to a table with a header. -/
  | passage
  /-- By a dotted name. -/
  | dotted
  deriving DecidableEq, Repr

/-- What stands under a name. -/
inductive Node where
  /-- A value. -/
  | value (d : Datum)
  /-- A table that may grow. -/
  | table (origin : Origin) (entries : List (String × Node))
  /-- A list of tables, the last one first; only that one may grow. -/
  | tables (items : List (List (String × Node)))

/-- The names of a table with what stands under them. -/
abbrev Entries := List (String × Node)

namespace Entries

/-- The entries with a node put under a name. -/
def put (es : Entries) (name : String) (node : Node) : Entries :=
  match es with
  | [] => [(name, node)]
  | (k, n) :: rest => if k = name then (k, node) :: rest else (k, n) :: put rest name node

/-- Changes the table at the end of a path, given how the table at hand came about. Tables that are missing on the way
come about as `made`. A dotted name leads only through tables without a header. -/
def descend (made : Origin) (change : Origin → Entries → Option Entries) :
    List String → Origin → Entries → Option Entries
  | [], origin, es => change origin es
  | name :: path, _, es =>
    match es.lookup name with
    | none => (descend made change path made []).map fun sub => es.put name (.table made sub)
    | some (.table origin sub) =>
      if made = .dotted ∧ origin = .header then none
      else (descend made change path origin sub).map fun sub => es.put name (.table origin sub)
    | some (.tables (last :: older)) =>
      (descend made change path .header last).map fun last => es.put name (.tables (last :: older))
    | some (.tables []) => none
    | some (.value _) => none

/-- Puts a value under a name that is free. With a dotted name the table has to have come about by one, and without it
the table must not. -/
def define (path : List String) (name : String) (value : Node) (origin : Origin) (es : Entries) :
    Option Entries :=
  descend .dotted
    (fun origin es =>
      if decide (origin = .dotted) = path.isEmpty then none
      else if (es.lookup name).isSome then none
      else some (es.put name value))
    path origin es

/-- Opens the table of a header: a new one, or one that came about on the way to another. -/
def openTable (path : List String) (name : String) (es : Entries) : Option Entries :=
  descend .passage
    (fun _ es =>
      match es.lookup name with
      | none => some (es.put name (.table .header []))
      | some (.table .passage sub) => some (es.put name (.table .header sub))
      | some _ => none)
    path .header es

/-- Opens one more table of a list of tables. -/
def openItem (path : List String) (name : String) (es : Entries) : Option Entries :=
  descend .passage
    (fun _ es =>
      match es.lookup name with
      | none => some (es.put name (.tables [[]]))
      | some (.tables items) => some (es.put name (.tables ([] :: items)))
      | some _ => none)
    path .header es

/-- Defines a value in the table that was opened last, whose header is given. -/
def defineIn (header : List String) (path : List String) (name : String) (value : Node) (es : Entries) :
    Option Entries :=
  descend .passage (fun origin es => define path name value origin es) header .header es

end Entries

mutual

/-- The data in a node. -/
def Node.toDatum : Node → Datum
  | .value d => d
  | .table _ entries => Datum.ofFields (Node.fieldsOf entries)
  | .tables items => .list (Node.itemsOf items).reverse

/-- The data in the entries of a table. -/
def Node.fieldsOf : List (String × Node) → List (String × Datum)
  | [] => []
  | (name, node) :: rest => (name, node.toDatum) :: Node.fieldsOf rest

/-- The data in a list of tables. -/
def Node.itemsOf : List (List (String × Node)) → List Datum
  | [] => []
  | entries :: rest => Datum.ofFields (Node.fieldsOf entries) :: Node.itemsOf rest

end

end JobRoster.Settings.Toml
