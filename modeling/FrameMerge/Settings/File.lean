import FrameMerge.Json.Record
import FrameMerge.Settings
import FrameMerge.Toml.Reader

/-!
# Settings files

A settings file is written in one of two formats, told apart by its name. Both give the same optional settings; settings
neither format knows are passed over.
-/

namespace FrameMerge

/-- What is found where a settings file should be. -/
inductive FileContent
  | missing
  | octets (content : Bytes)

/-- Why a file gives no settings. -/
inductive FileError
  | missing
  | notText
  | record (cause : Json.RecordError)
  | tables

def FileError.message (path : String) : FileError → String
  | .missing => "failed to read config file " ++ path ++ ": No such file or directory (os error 2)"
  | .notText => "failed to read config file " ++ path ++ ": stream did not contain valid UTF-8"
  | .record cause => "invalid config file " ++ path ++ ": " ++ cause.message
  | .tables => "invalid config file " ++ path ++ ": TOML parse error"

namespace FileSettings

/-! ## Objects -/

/-- The fields of the object that holds the address of the control interface. -/
def apiShape : List (String × Json.Shape) := [("addr", .text)]

/-- The fields of a settings file, in their order. -/
def shape : List (String × Json.Shape) :=
  [("source_endpoints", .text), ("destination_endpoint", .text), ("queue_length", .natural "usize"),
   ("dropped_frame_warning_cutoff", .real), ("drain_interval_ms", .natural "u64"),
   ("api", .record "struct ApiConfigFile" apiShape)]

def textOf? : Option Json.FieldValue → Option String
  | some (.text s) => some s
  | _ => Option.none

def naturalOf? : Option Json.FieldValue → Option Nat
  | some (.natural n) => some n
  | _ => Option.none

def realOf? : Option Json.FieldValue → Option Binary64
  | some (.real x) => some x
  | _ => Option.none

def recordOf : Option Json.FieldValue → List (String × Json.FieldValue)
  | some (.record fields) => fields
  | _ => []

/-- The settings that the fields of a record give. -/
def ofRecord (fields : List (String × Json.FieldValue)) : FileSettings where
  sources := textOf? (fields.lookup "source_endpoints")
  destination := textOf? (fields.lookup "destination_endpoint")
  queueLength := naturalOf? (fields.lookup "queue_length")
  cutoff := realOf? (fields.lookup "dropped_frame_warning_cutoff")
  drainInterval := naturalOf? (fields.lookup "drain_interval_ms")
  apiAddress := textOf? ((recordOf (fields.lookup "api")).lookup "addr")

/-- Reads settings written as an object. -/
def readObject (content : Bytes) : Except FileError FileSettings :=
  match Json.readRecord "struct ProxyConfigFile" shape content with
  | .error cause => .error (.record cause)
  | .ok fields => .ok (ofRecord fields)

/-! ## Tables -/

/-- A setting that may be left out but must be of its type if it is there. -/
def optional? {α : Type} (read? : Toml.Value → Option α) (name : String) (entries : Toml.Entries) :
    Option (Option α) :=
  match Toml.Entries.find? name entries with
  | .none => some .none
  | some value => (read? value).map some

def tableText? : Toml.Value → Option String
  | .string s => some s
  | _ => .none

/-- The count of an entry of a table, which must not be negative. -/
def tableCount? : Toml.Value → Option Nat
  | .integer n => if 0 ≤ n then some n.toNat else .none
  | _ => .none

def tableReal? : Toml.Value → Option Binary64
  | .real x => some x
  | .integer n => some { Binary64.ofNat n.natAbs with negative := n < 0 }
  | _ => .none

/-- The address of the control interface: an entry of a table, or the first item of an array. A time counts as a table
without entries of interest. -/
def tableApi? : Toml.Value → Option (Option String)
  | .table _ entries => optional? tableText? "addr" entries
  | .array (item :: _) => (tableText? item).map some
  | .time => some .none
  | _ => .none

/-- The settings that the entries of a document give; none if one of them is of a wrong type. -/
def ofTable? (entries : Toml.Entries) : Option FileSettings := do
  let sources ← optional? tableText? "source_endpoints" entries
  let destination ← optional? tableText? "destination_endpoint" entries
  let queueLength ← optional? tableCount? "queue_length" entries
  let cutoff ← optional? tableReal? "dropped_frame_warning_cutoff" entries
  let drainInterval ← optional? tableCount? "drain_interval_ms" entries
  let api ← optional? tableApi? "api" entries
  return ⟨sources, destination, queueLength, cutoff, drainInterval, api.join⟩

/-- Reads settings written as tables. -/
def readTables (text : String) : Except FileError FileSettings :=
  match (Toml.read? text.toList).bind ofTable? with
  | .none => .error .tables
  | some settings => .ok settings

/-! ## Files -/

/-- What follows the last dot of a file's name, unless the dot is its first character. -/
def extension? (path : String) : Option (List Char) :=
  let name := ((Text.pieces '/' path.toList).getLast?).getD []
  match Text.cutLast? '.' name with
  | some (_ :: _, after) => some after
  | _ => .none

/-- Files with this extension are written as tables. -/
def isTables (path : String) : Bool :=
  (extension? path).any fun extension => Text.sameLetters extension ['t', 'o', 'm', 'l']

/-- Reads a settings file. Its content must be text, whatever its format. -/
def read (path : String) : FileContent → Except FileError FileSettings
  | .missing => .error .missing
  | .octets content =>
    match Text.ofUtf8? content with
    | .none => .error .notText
    | some text => if isTables path then readTables text else readObject content

end FileSettings

/-! ## Loading -/

/-- Why settings could not be loaded. -/
inductive LoadError
  | file (path : String) (cause : FileError)
  | settings (cause : SettingsError)

def LoadError.message : LoadError → String
  | .file path cause => cause.message path
  | .settings cause => cause.message

namespace Settings

/-- Loads settings from a file, if one is named, and the environment. -/
def load (file : Option (String × FileContent)) (env : Environment) : Except LoadError Settings × List Event :=
  let fileSettings : Except LoadError FileSettings := match file with
    | none => .ok FileSettings.none
    | some (path, content) => (FileSettings.read path content).mapError (LoadError.file path)
  match fileSettings with
  | .error e => (.error e, [])
  | .ok fileSettings =>
    let (result, events) := resolve fileSettings env
    (result.mapError .settings, events)

end Settings

end FrameMerge
