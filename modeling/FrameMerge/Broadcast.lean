import FrameMerge.Publisher

/-!
# Broadcasting

A publisher that sends every frame to all consumers connected to it. Each consumer receives what is sent from its
connection on; one that cannot be written to any more is dropped, and only when all are dropped is the frame lost.
With no consumer at all a frame is sent to nobody, which is no failure.
-/

namespace FrameMerge

/-- A consumer, with all that it has received. -/
structure Consumer where
  /-- The place in the order of connecting. -/
  id : Nat
  received : Bytes
  /-- The connection is broken, which the next write to it finds out. -/
  broken : Bool
  deriving DecidableEq

/-- Writes to a consumer; none if its connection is broken. -/
def Consumer.receive? (c : Consumer) (octets : Bytes) : Option Consumer :=
  if c.broken then none else some { c with received := c.received ++ octets }

/-- A publisher and those who listen to it. -/
structure Broadcast where
  endpoint : String
  consumers : List Consumer
  /-- Consumers that connected and are not yet accepted. -/
  waiting : List Consumer
  /-- How many consumers ever connected. -/
  arrived : Nat
  deriving DecidableEq

/-- Why there can be no publisher at an endpoint. -/
inductive BindError
  | inUse (endpoint : String)
  deriving DecidableEq

def BindError.message : BindError → String
  | .inUse endpoint => "failed to bind publisher on " ++ endpoint ++ ": Address already in use (os error 98)"

namespace Broadcast

/-- A publisher at an endpoint that is not among those in use. -/
def bind (used : List String) (endpoint : String) : Except BindError Broadcast :=
  if endpoint ∈ used then .error (.inUse endpoint) else .ok ⟨endpoint, [], [], 0⟩

/-- A consumer connects. -/
def connect (b : Broadcast) : Broadcast :=
  { b with waiting := b.waiting ++ [⟨b.arrived, [], false⟩], arrived := b.arrived + 1 }

/-- Accepts the consumers that wait, and says how many. -/
def accept (b : Broadcast) : Nat × Broadcast :=
  (b.waiting.length, { b with consumers := b.consumers ++ b.waiting, waiting := [] })

/-- A consumer breaks its connection. -/
def breakOff (b : Broadcast) (id : Nat) : Broadcast :=
  let mark (c : Consumer) : Consumer := if c.id = id then { c with broken := true } else c
  { b with consumers := b.consumers.map mark, waiting := b.waiting.map mark }

/-- Writes octets to every consumer and drops those it cannot write to. -/
def write (b : Broadcast) (octets : Bytes) : Except PublishError Unit × Broadcast :=
  let left := b.consumers.filterMap (·.receive? octets)
  let result := if left.isEmpty then .error (.allDisconnected b.endpoint b.consumers.length) else .ok ()
  (result, { b with consumers := left })

/-- Sends the parts of a message. Parts that make no message are found out only if there is someone to send them to, and
then nobody receives anything. -/
def send (b : Broadcast) (parts : List Bytes) : Except PublishError Unit × Broadcast :=
  let b := b.accept.2
  if b.consumers.isEmpty then (.ok (), b)
  else match Wire.encode parts with
    | .error cause => (.error (.message cause), b)
    | .ok octets => b.write octets

/-- Sends a frame as a message of two parts. -/
def publish (b : Broadcast) (header : Header) (payload : Bytes) : Except PublishError Unit × Broadcast :=
  b.send [header.encode, payload]

instance : Publisher Broadcast := ⟨publish⟩

/-- What a consumer has received, if it is still connected. -/
def received? (b : Broadcast) (id : Nat) : Option Bytes :=
  (b.consumers.find? fun c => c.id = id && !c.broken).map (·.received)

end Broadcast

end FrameMerge
