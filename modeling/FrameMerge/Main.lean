import FrameMerge.Pipeline
import FrameMerge.Settings.File

/-!
# The command line

Relays the stream on standard input, as the first of the configured sources, to standard output; the log goes to
standard error. The settings come from the file that `--config` names, or else the environment, and from the
environment over it.
-/

namespace FrameMerge.CommandLine

/-- The settings file that the arguments name; none if they are not understood. -/
def configOf? : List String → Option (Option String)
  | [] => some none
  | ["--config", path] => some (some path)
  | _ => none

/-- What is said of arguments that are not understood. -/
def usage : String := "usage: framemerge [--config FILE]"

/-- The octets of one read. -/
def readSize : Nat := 65536

/-- The reads that bring a stream, up to its end. -/
partial def readAll (input : IO.FS.Stream) (reads : List Bytes) : IO (List Bytes) := do
  let octets ← input.read readSize.toUSize
  if octets.isEmpty then return reads.reverse else readAll input (octets.data.toList :: reads)

/-- The values of all variables. -/
def readEnvironment : IO Environment := do
  let valueOf (which : Variable) : IO (Option String) := IO.getEnv which.name
  let config ← valueOf .config
  let sources ← valueOf .sources
  let destination ← valueOf .destination
  let apiAddress ← valueOf .apiAddress
  let queueLength ← valueOf .queueLength
  let cutoff ← valueOf .cutoff
  let drainInterval ← valueOf .drainInterval
  return fun
    | .config => config
    | .sources => sources
    | .destination => destination
    | .apiAddress => apiAddress
    | .queueLength => queueLength
    | .cutoff => cutoff
    | .drainInterval => drainInterval

/-- A settings file as it is found. -/
def readFile (path : String) : IO FileContent := do
  try
    let content ← IO.FS.readBinFile path
    return .octets content.data.toList
  catch _ => return .missing

/-- Says why nothing is relayed, and ends with a failure. -/
def fail (message : String) : IO UInt32 := do
  (← IO.getStderr).putStrLn message
  return 1

/-- Writes events to standard error, one in a line. -/
def log (events : List Event) : IO Unit := do
  let output ← IO.getStderr
  events.forM fun event => output.putStrLn event.line

/-- Relays standard input with some settings. -/
def relayInput (settings : Settings) : IO UInt32 := do
  match Pipeline.start [] settings with
  | .error cause => fail cause.message
  | .ok relay =>
    let reads ← readAll (← IO.getStdin) []
    let done := Pipeline.relay (Pipeline.welcome relay) 0 reads
    log done.events
    let output ← IO.getStdout
    output.write ⟨done.value.toArray⟩
    output.flush
    return 0

end FrameMerge.CommandLine

open FrameMerge FrameMerge.CommandLine in
/-- Relays standard input to standard output. -/
def main (arguments : List String) : IO UInt32 := do
  match configOf? arguments with
  | none => fail usage
  | some named =>
    let environment ← readEnvironment
    let file ← (named.or (environment .config)).mapM fun path => do return (path, ← readFile path)
    let (result, events) := Settings.load file environment
    log events
    match result with
    | .error cause => fail ("loading config: " ++ cause.message)
    | .ok settings => relayInput settings
