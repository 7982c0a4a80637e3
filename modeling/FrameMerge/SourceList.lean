import FrameMerge.Endpoint
import FrameMerge.Event

/-!
# Source lists

The sources a relay listens to, as a list `name=endpoint,name=endpoint,…`. A piece that is no such entry is passed
over with a warning, and of several entries with one name the first is kept; a piece passed over never hides a later
one.
-/

namespace FrameMerge

/-- A source to listen to. -/
structure SourceSpec where
  name : String
  endpoint : Endpoint
  deriving DecidableEq

namespace SourceList

/-- What one piece of a list amounts to. -/
inductive Piece
  /-- Nothing but blanks. -/
  | blank
  /-- Not exactly one equals sign. -/
  | malformed (entry : String)
  /-- Nothing before the equals sign. -/
  | unnamed (entry : String)
  /-- No endpoint after the equals sign. -/
  | unreachable (entry : String) (cause : EndpointError)
  | entry (spec : SourceSpec)

/-- Reads one piece. -/
def Piece.read (piece : List Char) : Piece :=
  let entry := Text.trim piece
  if entry.isEmpty then .blank
  else match Text.pieces '=' entry with
    | [name, endpoint] =>
      let name := Text.trim name
      if name.isEmpty then .unnamed (String.ofList entry)
      else match Endpoint.parse (String.ofList endpoint) with
        | .error cause => .unreachable (String.ofList entry) cause
        | .ok endpoint => .entry ⟨String.ofList name, endpoint⟩
    | _ => .malformed (String.ofList entry)

/-- Adds a piece to the sources already found. -/
def add (found : List SourceSpec × List Event) (piece : List Char) : List SourceSpec × List Event :=
  let (sources, events) := found
  match Piece.read piece with
  | .blank => (sources, events)
  | .malformed entry => (sources, events ++ [.sourceEntryMalformed entry])
  | .unnamed entry => (sources, events ++ [.sourceEntryUnnamed entry])
  | .unreachable entry cause => (sources, events ++ [.sourceEntryEndpoint entry cause.message])
  | .entry spec =>
    if sources.any (·.name = spec.name) then (sources, events ++ [.sourceEntryRepeated spec.name])
    else (sources ++ [spec], events)

/-- The sources of a list, and the warnings about pieces passed over. -/
def parse (text : String) : List SourceSpec × List Event :=
  (Text.pieces ',' text.toList).foldl add ([], [])

end SourceList

end FrameMerge
