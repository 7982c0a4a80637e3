import FrameMerge.Key
import FrameMerge.Monitor

/-!
# Events

What happens while frames pass through, worth a line in a log. An operation returns its events beside its answer and the
state it leaves; the wording of each stands here.
-/

namespace FrameMerge

/-- How much an event matters. -/
inductive Level
  | warning
  | info
  | debug
  | trace
  deriving DecidableEq

def Level.name : Level → String
  | .warning => "WARN"
  | .info => "INFO"
  | .debug => "DEBUG"
  | .trace => "TRACE"

/-- What can be told in a line of the log, with all that its wording needs. -/
inductive Event
  /-- A source started to number its frames anew. -/
  | acquisitionStarted (source : String) (last next acquisition : Nat)
  /-- A source's share of dropped frames rose above the cutoff. -/
  | dropsAboveCutoff (source : String) (ratio : Binary64)
  /-- A frame came too late for its place in the stream. -/
  | staleDropped (source : String) (key : Key)
  /-- A full queue gave up its first frame. -/
  | evicted (old new : Key)
  /-- All counters were reset. -/
  | reset (buffered : Nat)
  /-- A message was no frame of a known source. -/
  | malformedMessage (cause : String)
  /-- A frame taken out of the queue could not be sent. -/
  | publishFailed (cause : String)
  /-- No source is left and nothing is left to send. -/
  | loopEnded
  /-- The state of the whole. -/
  | health (published : Nat) (lastSent : Key) (dropped queued capacity : Nat)
  /-- The state of one source. -/
  | sourceHealth (source : String) (received dropped lastFrame acquisition : Nat) (warned : Bool)
  /-- An entry of the source list is not of the form name=endpoint. -/
  | sourceEntryMalformed (entry : String)
  /-- An entry of the source list names no source. -/
  | sourceEntryUnnamed (entry : String)
  /-- An entry of the source list names no endpoint. -/
  | sourceEntryEndpoint (entry cause : String)
  /-- An entry of the source list repeats a name. -/
  | sourceEntryRepeated (name : String)

namespace Event

def level : Event → Level
  | dropsAboveCutoff .. | malformedMessage _ | publishFailed _ => .warning
  | sourceEntryMalformed _ | sourceEntryUnnamed _ | sourceEntryEndpoint .. | sourceEntryRepeated _ => .warning
  | reset _ | loopEnded | health .. | sourceHealth .. => .info
  | acquisitionStarted .. | evicted .. => .debug
  | staleDropped .. => .trace

def message : Event → String
  | acquisitionStarted source last next acquisition =>
    "source " ++ source ++ ": frame number reset (" ++ toString last ++ " -> " ++ toString next ++ "), acquisition "
      ++ toString acquisition ++ " started"
  | dropsAboveCutoff source ratio =>
    "source " ++ source ++ " has dropped " ++ (ratio.mul (Binary64.ofNat 100)).renderWhole ++ "% of frames"
  | staleDropped source key => "source " ++ source ++ ": dropped stale frame " ++ key.text
  | evicted old new => "queue full, discarded frame " ++ old.text ++ " to admit " ++ new.text
  | reset buffered => "combiner reset (" ++ toString buffered ++ " frame(s) still buffered)"
  | malformedMessage cause => "dropping malformed message: " ++ cause
  | publishFailed cause => "publish failed: " ++ cause
  | loopEnded => "all sources closed, event loop exiting"
  | health published lastSent dropped queued capacity =>
    "published=" ++ toString published ++ " last_sent=" ++ lastSent.text ++ " dropped=" ++ toString dropped
      ++ " queued=" ++ toString queued ++ "/" ++ toString capacity
  | sourceHealth source received dropped lastFrame acquisition warned =>
    "source " ++ source ++ " received=" ++ toString received ++ " dropped=" ++ toString dropped ++ " last_frame="
      ++ toString lastFrame ++ " acquisition=" ++ toString acquisition ++ " warned="
      ++ (if warned then "true" else "false")
  | sourceEntryMalformed entry => "error parsing source endpoint entry: " ++ entry
  | sourceEntryUnnamed entry => "error parsing source endpoint entry (empty name): " ++ entry
  | sourceEntryEndpoint entry cause => "error parsing source endpoint entry " ++ entry ++ ": " ++ cause
  | sourceEntryRepeated name => "duplicate source name " ++ name ++ ", keeping the first entry"

/-- An event as a line of the log. -/
def line (e : Event) : String := e.level.name ++ " " ++ e.message

end Event

/-- What an operation answers, the state it leaves, and what happened on the way, oldest first. -/
structure Outcome (σ α : Type) where
  value : α
  state : σ
  events : List Event

end FrameMerge
