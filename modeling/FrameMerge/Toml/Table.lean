import FrameMerge.Binary64

/-!
# Tables of a settings document

The values of a document of tables, and the rules by which its lines build one tree. A table may be opened by a
header once and extended by dotted names only while it came into being by dotted names; a table that a longer header
merely passed through may still be opened. What breaks these rules is refused.
-/

namespace FrameMerge.Toml

/-- How a table came into being, which decides what may still be added to it. -/
inductive Origin
  /-- Written in braces: complete. -/
  | closed
  /-- Opened by its own header. -/
  | header
  /-- Passed through by a longer header. -/
  | passed
  /-- Passed through by a dotted name. -/
  | dotted
  deriving DecidableEq

inductive Value
  | string (s : String)
  | integer (n : Int)
  | real (x : Binary64)
  | bool (b : Bool)
  | time
  | array (items : List Value)
  | table (origin : Origin) (entries : List (String × Value))
  /-- A table that headers in double brackets repeat, the last one first. -/
  | tables (elements : List (List (String × Value)))

/-- The named values of a table. -/
abbrev Entries := List (String × Value)

namespace Entries

def find? (name : String) (entries : Entries) : Option Value := entries.lookup name

/-- Puts a value in the place of the one of its name, or at the end. -/
def put (name : String) (value : Value) : Entries → Entries
  | [] => [(name, value)]
  | entry :: rest => if entry.1 = name then (name, value) :: rest else entry :: put name value rest

/-- Changes the table at the end of a path. Tables missing on the way come into being with the origin `created`; of
repeated tables the last is meant. By dotted names only tables without a header of their own can be reached. The
change is told how the table came into being. -/
def change (created : Origin) (change : Origin → Entries → Option Entries) :
    Origin → List String → Entries → Option Entries
  | origin, [], entries => change origin entries
  | _, name :: path, entries =>
    match find? name entries with
    | none => (Entries.change created change created path []).map fun inner => put name (.table created inner) entries
    | some (.table .closed _) => none
    | some (.table origin inner) =>
      if created = .dotted && origin = .header then none
      else (Entries.change created change origin path inner).map fun inner => put name (.table origin inner) entries
    | some (.tables (last :: before)) =>
      (Entries.change created change .header path last).map fun last => put name (.tables (last :: before)) entries
    | some _ => none

/-- Adds a value under a new name. -/
def insertNew (name : String) (value : Value) (entries : Entries) : Option Entries :=
  if (find? name entries).isSome then none else some (entries ++ [(name, value)])

/-- Adds a value under a dotted name. The table that a dotted name ends in must itself have come from one. -/
def insertDotted (path : List String) (name : String) (value : Value) (origin : Origin) (entries : Entries) :
    Option Entries :=
  change .dotted
    (fun reached inner => if !path.isEmpty && reached ≠ .dotted then none else insertNew name value inner)
    origin path entries

/-- The table of a name as a header finds it: its entries so far if it may be opened, and the rest without it. -/
def open? (name : String) (entries : Entries) : Option Entries :=
  match find? name entries with
  | none => some []
  | some (.table .passed inner) => some inner
  | some _ => none

end Entries

/-- A document as far as it is read: the root, and the table whose header stands above the current line. -/
structure Document where
  root : Entries
  /-- Where the current table belongs; nothing for the root itself. -/
  path : List String
  /-- The current table is one of several of its name. -/
  repeated : Bool
  current : Entries

namespace Document

/-- Nothing read. -/
def empty : Document := ⟨[], [], false, []⟩

/-- Puts the current table where it belongs. -/
def settle (d : Document) : Option Entries :=
  match d.path.getLast? with
  | none => some d.current
  | some name =>
    Entries.change .passed (fun _ parent =>
      if d.repeated then
        match Entries.find? name parent with
        | none => some (Entries.put name (.tables [d.current]) parent)
        | some (.tables elements) => some (Entries.put name (.tables (d.current :: elements)) parent)
        | some _ => none
      else some (Entries.put name (.table .header d.current) parent)) .header d.path.dropLast d.root

/-- The entries of the table that a path leads to, as a header finds it. -/
def lookAhead (name : String) (repeated : Bool) (parent : Entries) : Option Entries :=
  if repeated then
    match Entries.find? name parent with
    | none => some []
    | some (.tables _) => some []
    | some _ => none
  else Entries.open? name parent

/-- The table that a path leads to from some entries, following the rules of headers; none if a header may not go
there. -/
def reach (repeated : Bool) : List String → Entries → Option Entries
  | [], _ => none
  | [name], entries => lookAhead name repeated entries
  | name :: path, entries =>
    match Entries.find? name entries with
    | none => some []
    | some (.table .closed _) => none
    | some (.table _ inner) => reach repeated path inner
    | some (.tables (last :: _)) => reach repeated path last
    | some _ => none

/-- A header: settles the current table and opens another. -/
def openTable (d : Document) (path : List String) (repeated : Bool) : Option Document :=
  d.settle.bind fun root =>
    (reach repeated path root).map fun found => ⟨root, path, repeated, if repeated then [] else found⟩

/-- A line `name = value`. -/
def addValue (d : Document) (path : List String) (name : String) (value : Value) : Option Document :=
  (Entries.insertDotted path name value .header d.current).map fun current => { d with current }

end Document

end FrameMerge.Toml
