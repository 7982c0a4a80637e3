import FrameMerge.Relay

/-!
# The event loop

Messages of all sources arrive on one channel. Each turn of the loop hands a batch of them to the combiner and then
sends one frame. The two halves of a turn are apart: `gather` ingests and takes a frame, `deliver` sends it, and in
between others may look at the combiner or reset it.
-/

namespace FrameMerge

/-- A message that arrived from a source. -/
structure Message where
  source : Nat
  header : Bytes
  payload : Bytes
  deriving DecidableEq

/-- The channel on which messages arrive: what waits, oldest first, and whether all senders have hung up. -/
structure Inbound where
  pending : List Message
  hungUp : Bool
  deriving DecidableEq

namespace Inbound

/-- Nothing sent yet. -/
def empty : Inbound := ⟨[], false⟩

/-- Sends a message, and says whether it is accepted: after all senders have hung up, none is. -/
def send (inbound : Inbound) (message : Message) : Bool × Inbound :=
  if inbound.hungUp then (false, inbound) else (true, { inbound with pending := inbound.pending ++ [message] })

/-- All senders hang up. What waits can still be received. -/
def hangUp (inbound : Inbound) : Inbound := { inbound with hungUp := true }

end Inbound

/-- What is received from a channel. -/
inductive Received
  | message (message : Message)
  /-- Nothing waits. -/
  | nothing
  /-- Nothing waits, and all senders have hung up. -/
  | disconnected

/-- Receives the oldest message that waits. -/
def Inbound.receive (inbound : Inbound) : Received × Inbound :=
  match inbound.pending with
  | message :: rest => (.message message, { inbound with pending := rest })
  | [] => (if inbound.hungUp then .disconnected else .nothing, inbound)

/-- What a turn of the loop did. -/
structure TurnReport where
  ingested : Nat
  rejected : Nat
  stale : Nat
  evicted : Nat
  published : Option Key
  publishFailed : Bool
  disconnected : Bool
  deriving DecidableEq

namespace TurnReport

/-- Nothing done yet. -/
def empty : TurnReport := ⟨0, 0, 0, 0, none, false, false⟩

/-- Counts what became of a message. -/
def count (report : TurnReport) : Except CombinerError Admission → TurnReport
  | .error _ => { report with rejected := report.rejected + 1 }
  | .ok .queued => { report with ingested := report.ingested + 1 }
  | .ok .stale => { report with ingested := report.ingested + 1, stale := report.stale + 1 }
  | .ok (.evicted _) => { report with ingested := report.ingested + 1, evicted := report.evicted + 1 }

end TurnReport

namespace Loop

/-- The most messages of a turn. -/
def maxBatch : Nat := 64

/-- Receives messages one by one until there is none, but only so many. Answers them, and whether it was found that all
senders have hung up. -/
def receiveUpTo : Nat → Inbound → List Message × Bool × Inbound
  | 0, inbound => ([], false, inbound)
  | room + 1, inbound =>
    match inbound.receive with
    | (.message message, inbound) =>
      let (batch, disconnected, inbound) := receiveUpTo room inbound
      (message :: batch, disconnected, inbound)
    | (.nothing, inbound) => ([], false, inbound)
    | (.disconnected, inbound) => ([], true, inbound)

/-- Receives the messages of a turn. Only a turn that finds the channel empty before its batch is full learns that all
senders have hung up. -/
def receive (inbound : Inbound) : List Message × Bool × Inbound := receiveUpTo maxBatch inbound

/-- Hands one message to the combiner and counts it. -/
def ingestOne (done : Outcome Combiner TurnReport) (message : Message) : Outcome Combiner TurnReport :=
  let ingested := done.state.ingest message.source message.header message.payload
  let complaint := match ingested.value with
    | .error cause => [.malformedMessage cause.message]
    | .ok _ => []
  ⟨done.value.count ingested.value, ingested.state, done.events ++ (ingested.events ++ complaint)⟩

/-- The first half of a turn: ingests a batch and takes the next frame. -/
def gather (c : Combiner) (batch : List Message) (disconnected : Bool) :
    Outcome Combiner (TurnReport × Option Frame) :=
  let ingested := batch.foldl ingestOne ⟨{ TurnReport.empty with disconnected }, c, []⟩
  let (frame, combiner) := ingested.state.takeNext
  ⟨(ingested.value, frame), combiner, ingested.events⟩

variable {P : Type} [Publisher P]

/-- The second half of a turn: sends the frame taken in the first. By then the loop has let go of the combiner, so it sends
through a copy of the publisher. Copies share one record: what is sent through one of them is sent by the relay's own. -/
def deliver (r : Relay P) (report : TurnReport) : Option Frame → Outcome (Relay P) TurnReport
  | none => ⟨report, r, []⟩
  | some frame =>
    match r.publish frame with
    | (.ok key, r) => ⟨{ report with published := some key }, r, []⟩
    | (.error lost, r) => ⟨{ report with publishFailed := true }, r, [.publishFailed lost.message]⟩

/-- One turn. -/
def turn (r : Relay P) (inbound : Inbound) : Outcome (Relay P × Inbound) TurnReport :=
  let (batch, disconnected, inbound) := receive inbound
  let gathered := gather r.combiner batch disconnected
  let delivered := deliver { r with combiner := gathered.state } gathered.value.1 gathered.value.2
  ⟨delivered.value, (delivered.state, inbound), gathered.events ++ delivered.events⟩

/-- The loop ends with a turn that finds all senders gone, nothing to send and an empty queue. -/
def isLast (report : TurnReport) (r : Relay P) : Bool :=
  report.disconnected && report.published.isNone && r.combiner.queue.isEmpty

/-- What the health log says. -/
def healthEvents (published : Nat) (stats : Stats) : List Event :=
  .health published stats.lastSent stats.dropped stats.queued stats.queueLength ::
    stats.sources.map fun s => .sourceHealth s.name s.received s.dropped s.lastFrame s.acquisition s.warned

/-- Takes turns until the loop ends, at most `turns` of them; with a health log, every turn but the last is followed
by its lines. Answers the reports of the turns, oldest first. -/
def runTurns (health : Bool) (r : Relay P) (inbound : Inbound) (published : Nat) :
    Nat → Outcome (Relay P × Inbound) (List TurnReport)
  | 0 => ⟨[], (r, inbound), []⟩
  | turns + 1 =>
    let done := turn r inbound
    let (r, inbound) := done.state
    let published := if done.value.published.isSome then published + 1 else published
    if isLast done.value r then ⟨[done.value], (r, inbound), done.events ++ [.loopEnded]⟩
    else
      let report := if health then healthEvents published r.combiner.stats else []
      let rest := runTurns health r inbound published turns
      ⟨done.value :: rest.value, rest.state, done.events ++ (report ++ rest.events)⟩

/-- The turns that suffice once all senders have hung up: one for each batch that waits, one for each frame in the
queue at the end of them, and one that finds nothing left. -/
def turnBound (r : Relay P) (inbound : Inbound) : Nat :=
  (inbound.pending.length + maxBatch - 1) / maxBatch + r.combiner.queue.capacity + 1

/-- Runs the loop to its end. A loop told to shut down takes no turn at all. -/
def run (health shutdown : Bool) (r : Relay P) (inbound : Inbound) : Outcome (Relay P × Inbound) (List TurnReport) :=
  if shutdown then ⟨[], (r, inbound), []⟩ else runTurns health r inbound 0 (turnBound r inbound)

end Loop

end FrameMerge
