import FrameMerge.Event
import FrameMerge.Header

/-!
# Sources

What is known of one producer of frames: how many it sent, how many of them were dropped, and the acquisition it is
in. A frame number below the one before means that the producer has started anew; its frames are then counted as a
further acquisition, so that the keys of one source never decrease.
-/

namespace FrameMerge

/-- A message of a source whose header is none. -/
structure SourceError where
  source : String
  cause : HeaderError
  deriving DecidableEq

def SourceError.message (e : SourceError) : String := "source " ++ e.source ++ ": " ++ e.cause.message

/-- What is known of one producer. -/
structure Source where
  name : String
  endpoint : String
  received : Nat
  dropped : Nat
  lastFrame : Nat
  acquisition : Nat
  monitor : Monitor
  deriving DecidableEq

/-- What can be asked about a source. -/
structure SourceStats where
  name : String
  endpoint : String
  received : Nat
  dropped : Nat
  lastFrame : Nat
  acquisition : Nat
  warned : Bool
  deriving DecidableEq

/-- Statistics as a value, in the order in which they are shown. -/
def SourceStats.toJson (s : SourceStats) : Json :=
  .object
    [("name", .string s.name), ("endpoint", .string s.endpoint), ("received_frames", .nat s.received),
     ("dropped_frames", .nat s.dropped), ("last_frame", .nat s.lastFrame),
     ("current_acquisition", .nat s.acquisition), ("has_warned", .bool s.warned)]

namespace Source

/-- A source from which nothing was received. -/
def create (name endpoint : String) (cutoff : Binary64) : Except CutoffError Source :=
  (Monitor.create cutoff).map fun monitor => ⟨name, endpoint, 0, 0, 0, 0, monitor⟩

/-- Counts a frame and gives it its key. A number below the last one starts the next acquisition. -/
def accept (s : Source) (header : Header) (payload : Bytes) : Outcome Source Frame :=
  let number := header.frameNumber
  let restarted := number < s.lastFrame
  let acquisition := if restarted then s.acquisition + 1 else s.acquisition
  { value := ⟨⟨acquisition, number⟩, header, payload⟩
    state :=
      { s with
        received := s.received + 1
        lastFrame := number
        acquisition
        monitor := if restarted then s.monitor.rearm else s.monitor }
    events := if restarted then [.acquisitionStarted s.name s.lastFrame number acquisition] else [] }

/-- Reads a message and counts its frame. A message that is no frame leaves the source as it was. -/
def ingest (s : Source) (raw payload : Bytes) : Outcome Source (Except SourceError Frame) :=
  match Header.decode raw with
  | .error cause => ⟨.error ⟨s.name, cause⟩, s, []⟩
  | .ok header =>
    let accepted := s.accept header payload
    ⟨.ok accepted.value, accepted.state, accepted.events⟩

/-- The share of this source's frames that were dropped. -/
def ratio (s : Source) : Binary64 := dropRatio s.dropped s.received

/-- Counts a dropped frame and says whether a warning is due. -/
def recordDrop (s : Source) : Outcome Source Bool :=
  let dropped := s.dropped + 1
  let (warn, monitor) := s.monitor.observe dropped s.received
  { value := warn
    state := { s with dropped, monitor }
    events := if warn then [.dropsAboveCutoff s.name (dropRatio dropped s.received)] else [] }

/-- Forgets all that was counted. -/
def reset (s : Source) : Source :=
  { s with received := 0, dropped := 0, lastFrame := 0, acquisition := 0, monitor := s.monitor.rearm }

/-- Moves the band of the monitor; whether it has warned stays. -/
def setCutoff (s : Source) (cutoff : Binary64) : Except CutoffError Source :=
  (Monitor.create cutoff).map fun monitor => { s with monitor := { monitor with warned := s.monitor.warned } }

/-- A source's statistics. -/
def stats (s : Source) : SourceStats :=
  ⟨s.name, s.endpoint, s.received, s.dropped, s.lastFrame, s.acquisition, s.monitor.warned⟩

section Stats

variable (s : Source)

@[simp] theorem stats_name : s.stats.name = s.name := rfl

@[simp] theorem stats_endpoint : s.stats.endpoint = s.endpoint := rfl

@[simp] theorem stats_received : s.stats.received = s.received := rfl

@[simp] theorem stats_dropped : s.stats.dropped = s.dropped := rfl

@[simp] theorem stats_lastFrame : s.stats.lastFrame = s.lastFrame := rfl

@[simp] theorem stats_acquisition : s.stats.acquisition = s.acquisition := rfl

/-- Of the monitor, only whether it has warned is shown. -/
@[simp] theorem stats_warned : s.stats.warned = s.monitor.warned := rfl

end Stats

end Source

end FrameMerge
