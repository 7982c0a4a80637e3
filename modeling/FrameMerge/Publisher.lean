import FrameMerge.Header
import FrameMerge.Wire

/-!
# Publishers

Where frames go. A publisher takes a header and a payload and either sends them or says why it cannot; failing is
part of its work, and it goes on afterwards. The recorder keeps what it is given and fails as often as it is told
to.
-/

namespace FrameMerge

/-- Why a frame was not sent. -/
inductive PublishError
  | unavailable
  | message (cause : Wire.Error)
  | allDisconnected (endpoint : String) (consumers : Nat)
  deriving DecidableEq

def PublishError.text : PublishError → String
  | .unavailable => "destination unavailable"
  | .message cause => cause.message
  | .allDisconnected endpoint consumers =>
    "publish to " ++ endpoint ++ " failed: all " ++ toString consumers ++ " consumer(s) disconnected"

/-- Something frames can be sent to. -/
class Publisher (P : Type) where
  publish : P → Header → Bytes → Except PublishError Unit × P

/-- A publisher that keeps what it is given, in order, and fails on request. -/
structure Recorder where
  published : List (Header × Bytes)
  /-- How many of the next frames are refused. -/
  failures : Nat

namespace Recorder

/-- Nothing published, and no failures due. -/
def empty : Recorder := ⟨[], 0⟩

/-- From now on, this many frames are refused. -/
def failNext (r : Recorder) (failures : Nat) : Recorder := { r with failures }

/-- Keeps a frame, or refuses it if a failure is due. A refused frame is not kept. -/
def publish (r : Recorder) (header : Header) (payload : Bytes) : Except PublishError Unit × Recorder :=
  match r.failures with
  | failures + 1 => (.error .unavailable, { r with failures })
  | 0 => (.ok (), { r with published := r.published ++ [(header, payload)] })

instance : Publisher Recorder := ⟨publish⟩

end Recorder

end FrameMerge
