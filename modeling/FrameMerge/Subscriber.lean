import FrameMerge.Relay.Loop
import FrameMerge.Wire

/-!
# Subscribers

A subscriber receives what one source sends, connection after connection, and passes the messages of two parts on to the
event loop: the first part is the header, the second the payload. Messages of any other number of parts are counted and
dropped. A connection starts with a fresh decoder, so nothing that is left of one reaches the next.
-/

namespace FrameMerge

/-- How a connection ended. -/
inductive ConnectionEnd
  | endOfStream
  /-- The octets were no stream of messages. The messages before the fault count. -/
  | corrupt (cause : Wire.Error)
  /-- Nobody takes messages any more. -/
  | loopGone
  deriving DecidableEq

structure Subscriber where
  name : String
  /-- The number under which the event loop knows the source. -/
  source : Nat
  forwarded : Nat
  rejected : Nat
  deriving DecidableEq

namespace Subscriber

/-- A subscriber before its first connection. -/
def create (name : String) (source : Nat) : Subscriber := ⟨name, source, 0, 0⟩

/-- Takes messages until none is complete, and passes on those of two parts; says what ends the connection, if anything
does. When nobody listens, the first message to pass on is counted and lost. A message takes more than one octet, so the
octets that wait bound the number of messages. -/
def takeAll (listening : Bool) (s : Subscriber) (d : Wire.Decoder) :
    Nat → List Message × Option ConnectionEnd × Subscriber × Wire.Decoder
  | 0 => ([], none, s, d)
  | fuel + 1 =>
    match d.next with
    | (.error cause, d) => ([], some (.corrupt cause), s, d)
    | (.ok none, d) => ([], none, s, d)
    | (.ok (some [header, payload]), d) =>
      let counted := { s with forwarded := s.forwarded + 1 }
      if listening then
        let (passed, ending, s, d) := takeAll listening counted d fuel
        (⟨s.source, header, payload⟩ :: passed, ending, s, d)
      else ([], some .loopGone, counted, d)
    | (.ok (some _), d) => takeAll listening { s with rejected := s.rejected + 1 } d fuel

/-- Reads until something ends the connection. -/
def pump (listening : Bool) (s : Subscriber) (d : Wire.Decoder) :
    List Bytes → List Message × ConnectionEnd × Subscriber
  | [] => ([], .endOfStream, s)
  | octets :: reads =>
    let fed := d.feed octets
    match takeAll listening s fed (fed.buffered + 1) with
    | (passed, some ending, s, _) => (passed, ending, s)
    | (passed, none, s, d) =>
      let (more, ending, s) := pump listening s d reads
      (passed ++ more, ending, s)

/-- Receives the reads of one connection, from the start of a stream. -/
def connect (listening : Bool) (s : Subscriber) (reads : List Bytes) : List Message × ConnectionEnd × Subscriber :=
  pump listening s .fresh reads

/-- Receives connection after connection, until nobody listens. -/
def run (listening : Bool) (s : Subscriber) : List (List Bytes) → List Message × Subscriber
  | [] => ([], s)
  | reads :: connections =>
    match connect listening s reads with
    | (passed, .loopGone, s) => (passed, s)
    | (passed, _, s) =>
      let (more, s) := run listening s connections
      (passed ++ more, s)

end Subscriber

end FrameMerge
