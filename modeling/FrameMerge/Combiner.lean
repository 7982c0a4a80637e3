import FrameMerge.Queue
import FrameMerge.Source
import FrameMerge.SourceList

/-!
# The combiner

Frames of several sources become one stream in the order of their keys. The combiner holds the sources' counters,
the queue and the *mark*, the key of the frame taken last: a frame at or below the mark comes too late and is
dropped, so that the keys taken never decrease. A reset forgets the mark and the counters but keeps the queue.
-/

namespace FrameMerge

/-- What became of a frame. -/
inductive Admission
  | queued
  /-- Queued in the place of an older frame. -/
  | evicted (key : Key)
  /-- Dropped, since it came too late. -/
  | stale
  deriving DecidableEq

/-- Why an operation of the combiner fails. -/
inductive CombinerError
  | cutoff (cause : CutoffError)
  | queue (cause : QueueError)
  | unknownSource (id : Nat)
  | source (cause : SourceError)
  deriving DecidableEq

def CombinerError.message : CombinerError → String
  | .cutoff cause => cause.message
  | .queue cause => cause.message
  | .unknownSource id => "unknown source id " ++ toString id
  | .source cause => cause.message

/-- What a combiner is set up with. -/
structure CombinerSettings where
  destination : String
  queueLength : Nat
  cutoff : Binary64

/-- What can be asked about a combiner. -/
structure Stats where
  destination : String
  lastSent : Key
  dropped : Nat
  queued : Nat
  queueLength : Nat
  cutoff : Binary64
  sources : List SourceStats
  deriving DecidableEq

namespace Stats

/-- The statistics of the first source of a name. -/
def source? (s : Stats) (name : String) : Option SourceStats := s.sources.find? (·.name = name)

/-- The statistics of the sources as a value. -/
def sourcesJson (s : Stats) : Json := .array (s.sources.map SourceStats.toJson)

/-- Statistics as a value, in the order in which they are shown. -/
def toJson (s : Stats) : Json :=
  .object
    [("destination", .string s.destination), ("last_sent_frame", s.lastSent.toJson),
     ("dropped_frames", .nat s.dropped), ("queued_frames", .nat s.queued), ("queue_length", .nat s.queueLength),
     ("drop_warn_cutoff", .real s.cutoff), ("nodes", s.sourcesJson)]

end Stats

/-- All that is known of the frames that pass through. -/
structure Combiner where
  sources : List Source
  queue : Queue
  /-- The key of the frame taken last since the last reset. -/
  mark : Option Key
  /-- Frames given up by a full queue. -/
  dropped : Nat
  destination : String
  cutoff : Binary64

namespace Combiner

/-- A combiner that has seen nothing. The cutoff is checked before the capacity of the queue. -/
def create (settings : CombinerSettings) (specs : List SourceSpec) : Except CombinerError Combiner :=
  match checkCutoff settings.cutoff with
  | .error cause => .error (.cutoff cause)
  | .ok () =>
    match Queue.create settings.queueLength with
    | .error cause => .error (.queue cause)
    | .ok queue =>
      match specs.mapM fun spec => Source.create spec.name spec.endpoint.text settings.cutoff with
      | .error cause => .error (.cutoff cause)
      | .ok sources =>
        .ok { sources, queue, mark := none, dropped := 0, destination := settings.destination,
              cutoff := settings.cutoff }

/-- A frame of this key comes too late. -/
def isStale (c : Combiner) (key : Key) : Bool := c.mark.any (key ≤ ·)

/-- The key of the frame taken last, the least key of all if there is none. -/
def lastSent (c : Combiner) : Key := c.mark.getD ⟨0, 0⟩

/-- Offers a frame of a source to the queue. -/
def offer (c : Combiner) (frame : Frame) (id : Nat) : Outcome Combiner (Except CombinerError Admission) :=
  match c.sources[id]? with
  | none => ⟨.error (.unknownSource id), c, []⟩
  | some source =>
    if c.isStale frame.key then
      let recorded := source.recordDrop
      ⟨.ok .stale, { c with sources := c.sources.set id recorded.state },
        recorded.events ++ [.staleDropped source.name frame.key]⟩
    else
      match c.queue.push frame with
      | (.queued, queue) => ⟨.ok .queued, { c with queue }, []⟩
      | (.evicted old, queue) =>
        ⟨.ok (.evicted old.key), { c with queue, dropped := c.dropped + 1 }, [.evicted old.key frame.key]⟩

/-- Reads a message of a source, puts the source back as reading it has left it, and offers the frame to the queue if
the message is one. -/
def ingest (c : Combiner) (id : Nat) (raw payload : Bytes) : Outcome Combiner (Except CombinerError Admission) :=
  match c.sources[id]? with
  | none => ⟨.error (.unknownSource id), c, []⟩
  | some source =>
    let read := source.ingest raw payload
    let counted := { c with sources := c.sources.set id read.state }
    match read.value with
    | .error cause => ⟨.error (.source cause), counted, read.events⟩
    | .ok frame =>
      let offered := counted.offer frame id
      { offered with events := read.events ++ offered.events }

/-- Takes the next frame out of the queue and moves the mark to its key. -/
def takeNext (c : Combiner) : Option Frame × Combiner :=
  match c.queue.pop? with
  | none => (none, c)
  | some (frame, queue) => (some frame, { c with queue, mark := some frame.key })

/-- Forgets the mark and all that was counted; what is queued stays. -/
def reset (c : Combiner) : Outcome Combiner Unit :=
  { value := ()
    state := { c with sources := c.sources.map Source.reset, mark := none, dropped := 0 }
    events := [.reset c.queue.count] }

@[simp] theorem mark_reset (c : Combiner) : c.reset.state.mark = none := rfl

/-- A reset does not touch what is queued. -/
@[simp] theorem queue_reset (c : Combiner) : c.reset.state.queue = c.queue := rfl

/-- Moves the cutoff of every source. -/
def setCutoff (c : Combiner) (cutoff : Binary64) : Except CutoffError Combiner :=
  (checkCutoff cutoff).bind fun _ =>
    (c.sources.mapM (Source.setCutoff · cutoff)).map fun sources => { c with sources, cutoff }

/-- A combiner's statistics. -/
def stats (c : Combiner) : Stats :=
  ⟨c.destination, c.lastSent, c.dropped, c.queue.count, c.queue.capacity, c.cutoff, c.sources.map Source.stats⟩

section Stats

variable (c : Combiner)

@[simp] theorem stats_destination : c.stats.destination = c.destination := rfl

/-- While nothing was taken, the least key of all is shown. -/
@[simp] theorem stats_lastSent : c.stats.lastSent = c.mark.getD ⟨0, 0⟩ := rfl

@[simp] theorem stats_dropped : c.stats.dropped = c.dropped := rfl

@[simp] theorem stats_queued : c.stats.queued = c.queue.count := rfl

@[simp] theorem stats_queueLength : c.stats.queueLength = c.queue.capacity := rfl

@[simp] theorem stats_cutoff : c.stats.cutoff = c.cutoff := rfl

/-- The sources are shown in their order. -/
@[simp] theorem stats_sources : c.stats.sources = c.sources.map Source.stats := rfl

end Stats

/-- The position of the first source of a name. -/
def sourceId? (c : Combiner) (name : String) : Option Nat := c.sources.findIdx? (·.name = name)

end Combiner

end FrameMerge
