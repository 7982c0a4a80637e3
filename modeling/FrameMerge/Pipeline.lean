import FrameMerge.Broadcast
import FrameMerge.Settings
import FrameMerge.Subscriber

/-!
# From a source to a consumer

All parts in a row: a subscriber receives what a source sends, the event loop runs on the messages until all are
through, and a consumer that was there from the start receives what is sent.
-/

namespace FrameMerge

/-- Why a relay cannot be started. -/
inductive StartError
  | bind (cause : BindError)
  | combiner (cause : CombinerError)
  deriving DecidableEq

def StartError.message : StartError → String
  | .bind cause => cause.message
  | .combiner cause => cause.message

namespace Pipeline

/-- A relay that runs with some settings, at an endpoint that is not among those in use. -/
def start (used : List String) (s : Settings) : Except StartError (Relay Broadcast) := do
  let publisher ← (Broadcast.bind used s.destination.text).mapError .bind
  let combiner ← (Combiner.create s.combinerSettings s.sources).mapError .combiner
  return ⟨combiner, publisher⟩

/-- Lets one more consumer in. -/
def welcome (r : Relay Broadcast) : Relay Broadcast := { r with publisher := r.publisher.connect.accept.2 }

/-- Relays one connection of a source to its end. Answers what the first consumer has received. -/
def relay (r : Relay Broadcast) (source : Nat) (reads : List Bytes) : Outcome (Relay Broadcast) Bytes :=
  let name := (r.combiner.sources[source]?).elim "" (·.name)
  let (messages, _, _) := (Subscriber.create name source).connect true reads
  let done := Loop.run false false r ⟨messages, true⟩
  let relay := done.state.1
  ⟨(relay.publisher.received? 0).getD [], relay, done.events⟩

end Pipeline

end FrameMerge
