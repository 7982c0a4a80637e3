import FrameMerge.Toml.Scalar

/-!
# Reading a settings document

A document is a sequence of lines: headers in brackets, `name = value`, comments and empty lines. Arrays may run over
several lines, tables in braces may not.
-/

namespace FrameMerge.Toml

/-- Arrays and braces open at one time, and names joined by points, stay below this number. -/
def nestingLimit : Nat := 80

/-- Passes over a comment if one stands here. A character that no comment may hold is left, for the reader of what
follows to stumble over. -/
def skipComment (s : List Char) : List Char :=
  match s with
  | '#' :: rest => rest.dropWhile isPlain
  | _ => s

/-- Passes over blanks, comments and ends of lines; a comment must end with its line. -/
def skipSpace : Nat → List Char → Option (List Char)
  | 0, s => some s
  | fuel + 1, s =>
    let s := skipBlanks s
    match s with
    | '#' :: _ => (newline? (skipComment s)).bind (skipSpace fuel)
    | '\n' :: _ | '\r' :: _ => (newline? s).bind (skipSpace fuel)
    | _ => some s

/-- What may follow on a line when its content is complete. -/
def endLine (s : List Char) : Option (List Char) :=
  match skipComment (skipBlanks s) with
  | [] => some []
  | rest => newline? rest

/-! ## Names -/

/-- Characters of a name that needs no quotes. -/
def isBare (c : Char) : Bool :=
  c.isDigit || ('a' ≤ c && c ≤ 'z') || ('A' ≤ c && c ≤ 'Z') || c = '-' || c = '_'

/-- A name between points. -/
def readName (s : List Char) : Read String :=
  match s with
  | '"' :: _ | '\'' :: _ => readLine s
  | _ =>
    let name := s.takeWhile isBare
    if name.isEmpty then none else some (String.ofList name, s.dropWhile isBare)

/-- Names joined by points, blanks around each. -/
def readPath : Nat → List Char → Read (List String)
  | 0, _ => none
  | fuel + 1, s =>
    (readName (skipBlanks s)).bind fun (name, rest) =>
      match skipBlanks rest with
      | '.' :: rest => (readPath fuel rest).map fun (path, rest) => (name :: path, rest)
      | rest => some ([name], rest)

/-- A dotted name that is not too long. -/
def readKey (s : List Char) : Read (List String) :=
  (readPath (s.length + 1) s).bind fun (path, rest) => if path.length < nestingLimit then some (path, rest) else none

/-! ## Values -/

mutual

/-- Reads a value; `depth` more arrays and braces may be opened. -/
def readValue : Nat → Nat → List Char → Read Value
  | 0, _, _ => none
  | fuel + 1, depth, s =>
    match s with
    | '[' :: rest => if depth = 0 then none else readItems fuel (depth - 1) [] rest
    | '\x7b' :: rest =>
      if depth = 0 then none
      else match skipBlanks rest with
        | '\x7d' :: rest => some (.table .closed [], rest)
        | rest => readEntries fuel (depth - 1) [] rest
    | _ => readScalar s

/-- Reads the items of an array up to its bracket; a comma may follow the last. `seen` holds those before, last
first. -/
def readItems : Nat → Nat → List Value → List Char → Read Value
  | 0, _, _, _ => none
  | fuel + 1, depth, seen, s =>
    match skipSpace fuel s with
    | none => none
    | some (']' :: rest) => some (.array seen.reverse, rest)
    | some rest =>
      match readValue fuel depth rest with
      | none => none
      | some (item, rest) =>
        match skipSpace fuel rest with
        | some (']' :: rest) => some (.array (item :: seen).reverse, rest)
        | some (',' :: rest) => readItems fuel depth (item :: seen) rest
        | _ => none

/-- Reads the entries of a table in braces up to its brace; no comma may follow the last. -/
def readEntries : Nat → Nat → Entries → List Char → Read Value
  | 0, _, _, _ => none
  | fuel + 1, depth, entries, s =>
    match readKey s with
    | none => none
    | some (path, '=' :: rest) =>
      match readValue fuel depth (skipBlanks rest) with
      | none => none
      | some (value, rest) =>
        match Entries.insertDotted path.dropLast (path.getLastD "") value .closed entries with
        | none => none
        | some entries =>
          match skipBlanks rest with
          | '\x7d' :: rest => some (.table .closed entries, rest)
          | ',' :: rest => readEntries fuel depth entries rest
          | _ => none
    | some _ => none

end

/-! ## Lines -/

/-- A header after its opening bracket or brackets. -/
def readHeader (d : Document) (repeated : Bool) (s : List Char) : Option (Document × List Char) :=
  (readKey s).bind fun (path, rest) =>
    (literal? (if repeated then [']', ']'] else [']']) rest).bind fun rest =>
      (endLine rest).bind fun rest => (d.openTable path repeated).map fun d => (d, rest)

/-- A line `name = value`. -/
def readEntry (d : Document) (s : List Char) : Option (Document × List Char) :=
  (readKey s).bind fun (path, rest) =>
    (literal? ['='] rest).bind fun rest =>
      (readValue (2 * rest.length + 2) (nestingLimit - 1) (skipBlanks rest)).bind fun (value, rest) =>
        (endLine rest).bind fun rest =>
          (d.addValue path.dropLast (path.getLastD "") value).map fun d => (d, rest)

/-- Reads lines to the end. Every line takes at least one character. -/
def readLines : Nat → Document → List Char → Option Document
  | 0, _, _ => none
  | fuel + 1, d, s =>
    match skipBlanks s with
    | [] => some d
    | '#' :: rest => (endLine ('#' :: rest)).bind (readLines fuel d)
    | '\n' :: rest => readLines fuel d rest
    | '\r' :: '\n' :: rest => readLines fuel d rest
    | '[' :: '[' :: rest => (readHeader d true rest).bind fun (d, rest) => readLines fuel d rest
    | '[' :: rest => (readHeader d false rest).bind fun (d, rest) => readLines fuel d rest
    | s => (readEntry d s).bind fun (d, rest) => readLines fuel d rest

/-- Reads a document; none if it is not well formed. A byte order mark at its start is passed over. -/
def read? (s : List Char) : Option Entries :=
  let s := match s with
    | '\uFEFF' :: rest => rest
    | s => s
  (readLines (s.length + 1) Document.empty s).bind Document.settle

end FrameMerge.Toml
