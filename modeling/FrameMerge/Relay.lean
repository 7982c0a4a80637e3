import FrameMerge.Combiner
import FrameMerge.Publisher

/-!
# Relays

A combiner together with the publisher its frames go to, and the operations on both as data, so that a whole history
is a list.
-/

namespace FrameMerge

/-- A combiner and where its frames go. One publisher stands for all of its copies, which share one record: a frame sent
through any of them was sent once, to the same consumers, and counts against the same failures. -/
structure Relay (P : Type) where
  combiner : Combiner
  publisher : P

/-- A frame that was taken out of the queue but not sent. -/
structure FrameLost where
  key : Key
  cause : PublishError
  deriving DecidableEq

def FrameLost.message (e : FrameLost) : String := "frame " ++ e.key.text ++ " lost: " ++ e.cause.text

namespace Relay

variable {P : Type} [Publisher P]

/-- Sends a frame. -/
def publish (r : Relay P) (frame : Frame) : Except FrameLost Key × Relay P :=
  match Publisher.publish r.publisher frame.header frame.payload with
  | (.error cause, publisher) => (.error ⟨frame.key, cause⟩, { r with publisher })
  | (.ok (), publisher) => (.ok frame.key, { r with publisher })

/-- Takes the next frame and sends it. A frame that cannot be sent is lost. -/
def drain (r : Relay P) : Except FrameLost (Option Key) × Relay P :=
  match r.combiner.takeNext with
  | (none, _) => (.ok none, r)
  | (some frame, combiner) =>
    match publish { r with combiner } frame with
    | (.error lost, r) => (.error lost, r)
    | (.ok key, r) => (.ok (some key), r)

end Relay

/-! ## Operations as data -/

/-- What can be done to a relay. -/
inductive Operation
  | ingest (source : Nat) (raw payload : Bytes)
  | offer (source : Nat) (frame : Frame)
  | drain
  | takeNext
  | reset
  | setCutoff (cutoff : Binary64)
  | stats

/-- What an operation answers. -/
inductive Reply
  | admission (result : Except CombinerError Admission)
  | drained (result : Except FrameLost (Option Key))
  | taken (frame : Option Frame)
  | reset
  | cutoff (result : Except CutoffError Unit)
  | stats (stats : Stats)

namespace Relay

variable {P : Type} [Publisher P]

/-- Carries an operation out. -/
def apply (r : Relay P) : Operation → Outcome (Relay P) Reply
  | .ingest source raw payload =>
    let done := r.combiner.ingest source raw payload
    ⟨.admission done.value, { r with combiner := done.state }, done.events⟩
  | .offer source frame =>
    let done := r.combiner.offer frame source
    ⟨.admission done.value, { r with combiner := done.state }, done.events⟩
  | .drain =>
    let (result, r) := r.drain
    ⟨.drained result, r, []⟩
  | .takeNext =>
    let (frame, combiner) := r.combiner.takeNext
    ⟨.taken frame, { r with combiner }, []⟩
  | .reset =>
    let done := r.combiner.reset
    ⟨.reset, { r with combiner := done.state }, done.events⟩
  | .setCutoff cutoff =>
    match r.combiner.setCutoff cutoff with
    | .error cause => ⟨.cutoff (.error cause), r, []⟩
    | .ok combiner => ⟨.cutoff (.ok ()), { r with combiner }, []⟩
  | .stats => ⟨.stats r.combiner.stats, r, []⟩

/-- Carries operations out one after the other. -/
def replay (r : Relay P) : List Operation → List Reply × Relay P
  | [] => ([], r)
  | operation :: rest =>
    let done := r.apply operation
    let (replies, r) := done.state.replay rest
    (done.value :: replies, r)

end Relay

end FrameMerge
