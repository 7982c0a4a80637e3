import FrameMerge.Proofs.Backlog
import FrameMerge.Proofs.Run

/-!
# Combiners that answer alike

Arrival numbers and the shape of the heap never show. Two combiners that agree in everything but the layout of their
queues are `Alike`: they answer every operation alike and stay alike (`Step.alike`), so they answer alike over every run.
Where the frames go has no part in it: of a drain, an `answer` tells the frame that it takes, and not what becomes of it
on its way out. That, too, is told alike if the publishers treat alike what is sent to them (`Relay.Alike.replay`).
-/

namespace FrameMerge

namespace Combiner

/-- The combiners agree in all but the layout of their queues. -/
structure Alike (c c' : Combiner) : Prop where
  sources : c.sources = c'.sources
  backlog : c.queue.backlog = c'.queue.backlog
  mark : c.mark = c'.mark
  dropped : c.dropped = c'.dropped
  destination : c.destination = c'.destination
  cutoff : c.cutoff = c'.cutoff

/-- What the queue holds decides what is taken next, and what is left. -/
theorem takeNext_contents (c : Combiner) :
    (c.queue.contents = [] ∧ c.takeNext = (none, c)) ∨
      ∃ frame queue, c.queue.contents = frame :: queue.contents ∧ queue.capacity = c.queue.capacity ∧
        c.takeNext = (some frame, { c with queue, mark := some frame.key }) := by
  unfold takeNext
  cases hpop : c.queue.pop? with
  | none => exact Or.inl ⟨c.queue.pop?_eq_none_iff.1 hpop, rfl⟩
  | some popped =>
    obtain ⟨frame, queue⟩ := popped
    exact Or.inr ⟨frame, queue, Queue.contents_of_pop? hpop, (Queue.count_of_pop? hpop).2, rfl⟩

namespace Alike

variable {c c' : Combiner}

protected theorem refl (c : Combiner) : c.Alike c := ⟨rfl, rfl, rfl, rfl, rfl, rfl⟩

/-- The same frames are queued, in the same order of leaving. -/
theorem contents (h : c.Alike c') : c.queue.contents = c'.queue.contents := congrArg Backlog.frames h.backlog

theorem capacity (h : c.Alike c') : c.queue.capacity = c'.queue.capacity := congrArg Backlog.capacity h.backlog

/-- The same keys come too late. -/
theorem isStale (h : c.Alike c') (key : Key) : c.isStale key = c'.isStale key := by
  rw [Combiner.isStale, Combiner.isStale, h.mark]

/-- A push is answered alike. -/
theorem push (h : c.Alike c') (frame : Frame) :
    (c.queue.push frame).1 = (c'.queue.push frame).1 ∧
      (c.queue.push frame).2.backlog = (c'.queue.push frame).2.backlog := by
  obtain ⟨houtcome, hnext⟩ := c.queue.push_backlog frame
  obtain ⟨houtcome', hnext'⟩ := c'.queue.push_backlog frame
  rw [houtcome, houtcome', hnext, hnext', h.backlog]
  exact ⟨rfl, rfl⟩

theorem withSource (h : c.Alike c') (id : Nat) (source : Source) :
    (c.withSource id source).Alike (c'.withSource id source) :=
  ⟨congrArg (List.set · id source) h.sources, h.backlog, h.mark, h.dropped, h.destination, h.cutoff⟩

/-- A frame is answered alike. -/
theorem offer (h : c.Alike c') (frame : Frame) (id : Nat) :
    (c.offer frame id).value = (c'.offer frame id).value ∧ (c.offer frame id).state.Alike (c'.offer frame id).state := by
  cases hsource : c.sources[id]? with
  | none =>
    have hsource' : c'.sources[id]? = none := h.sources ▸ hsource
    rw [offer_unknown frame hsource, offer_unknown frame hsource']
    exact ⟨rfl, h⟩
  | some source =>
    have hsource' : c'.sources[id]? = some source := h.sources ▸ hsource
    cases hlate : c.isStale frame.key with
    | true =>
      obtain ⟨hvalue, hstate⟩ := offer_stale hsource hlate
      obtain ⟨hvalue', hstate'⟩ := offer_stale hsource' (h.isStale frame.key ▸ hlate)
      rw [hvalue, hvalue', hstate, hstate']
      exact ⟨rfl, h.withSource id _⟩
    | false =>
      obtain ⟨hvalue, hstate⟩ := offer_fresh hsource hlate
      obtain ⟨hvalue', hstate'⟩ := offer_fresh hsource' (h.isStale frame.key ▸ hlate)
      obtain ⟨houtcome, hbacklog⟩ := h.push frame
      rw [hvalue, hvalue', hstate, hstate', houtcome]
      exact ⟨rfl, h.sources, hbacklog, h.mark, by rw [h.dropped], h.destination, h.cutoff⟩

/-- A message is answered alike. -/
theorem ingest (h : c.Alike c') (id : Nat) (raw payload : Bytes) :
    (c.ingest id raw payload).value = (c'.ingest id raw payload).value ∧
      (c.ingest id raw payload).state.Alike (c'.ingest id raw payload).state := by
  cases hsource : c.sources[id]? with
  | none =>
    have hsource' : c'.sources[id]? = none := h.sources ▸ hsource
    simp only [Combiner.ingest, hsource, hsource']
    exact ⟨trivial, h⟩
  | some source =>
    have hsource' : c'.sources[id]? = some source := h.sources ▸ hsource
    cases hread : (source.ingest raw payload).value with
    | error cause =>
      simp only [Combiner.ingest, hsource, hsource', hread]
      exact ⟨trivial, h.withSource id (source.ingest raw payload).state⟩
    | ok frame =>
      simp only [Combiner.ingest, hsource, hsource', hread]
      exact (h.withSource id (source.ingest raw payload).state).offer frame id

/-- The same frame is taken. -/
theorem takeNext (h : c.Alike c') : c.takeNext.1 = c'.takeNext.1 ∧ c.takeNext.2.Alike c'.takeNext.2 := by
  rcases c.takeNext_contents with ⟨hempty, htake⟩ | ⟨frame, queue, hcontents, hcapacity, htake⟩ <;>
    rcases c'.takeNext_contents with ⟨hempty', htake'⟩ | ⟨frame', queue', hcontents', hcapacity', htake'⟩ <;>
    rw [htake, htake']
  · exact ⟨rfl, h⟩
  · rw [h.contents, hcontents'] at hempty
    cases hempty
  · rw [← h.contents, hcontents] at hempty'
    cases hempty'
  · rw [h.contents, hcontents', List.cons.injEq] at hcontents
    obtain ⟨rfl, hrest⟩ := hcontents
    refine ⟨rfl, h.sources, ?_, rfl, h.dropped, h.destination, h.cutoff⟩
    rw [Queue.backlog, Queue.backlog, hcapacity, hcapacity', h.capacity, hrest]

/-- A reset keeps them alike. -/
theorem reset (h : c.Alike c') : c.reset.state.Alike c'.reset.state :=
  ⟨congrArg (List.map Source.reset) h.sources, h.backlog, rfl, rfl, h.destination, h.cutoff⟩

/-- The cutoff is moved at both or at neither. -/
theorem setCutoff (h : c.Alike c') (cutoff : Binary64) :
    (∃ cause, c.setCutoff cutoff = .error cause ∧ c'.setCutoff cutoff = .error cause) ∨
      ∃ moved moved', c.setCutoff cutoff = .ok moved ∧ c'.setCutoff cutoff = .ok moved' ∧ moved.Alike moved' := by
  unfold Combiner.setCutoff
  rw [← h.sources]
  cases checkCutoff cutoff with
  | error cause => exact Or.inl ⟨cause, rfl, rfl⟩
  | ok u =>
    cases c.sources.mapM (Source.setCutoff · cutoff) with
    | error cause => exact Or.inl ⟨cause, rfl, rfl⟩
    | ok sources => exact Or.inr ⟨_, _, rfl, rfl, rfl, h.backlog, h.mark, h.dropped, h.destination, rfl⟩

/-- All that can be asked about them is alike. -/
theorem stats (h : c.Alike c') : c.stats = c'.stats := by
  have hcount : c.queue.count = c'.queue.count := by
    rw [← c.queue.length_contents, ← c'.queue.length_contents, h.contents]
  simp only [Combiner.stats, lastSent, h.sources, h.mark, h.dropped, h.destination, h.cutoff, h.capacity, hcount]

end Alike

end Combiner

variable {P P' : Type} [Publisher P] [Publisher P']

/-! ## Steps and runs -/

namespace Step

/-- What a step answers, with the frame that a drain takes in the place of what becomes of it on its way out. -/
def answer (s : Step P) : Reply :=
  match s.operation with
  | .drain => .taken s.relay.combiner.takeNext.1
  | _ => (s.relay.apply s.operation).value

/-- Whatever the publishers do, an operation on combiners that are alike is answered alike and leaves them alike. -/
theorem alike (s : Step P) (s' : Step P') (h : s.relay.combiner.Alike s'.relay.combiner)
    (hop : s.operation = s'.operation) : s.answer = s'.answer ∧ s.next.combiner.Alike s'.next.combiner := by
  obtain ⟨r, op⟩ := s
  obtain ⟨r', op'⟩ := s'
  obtain rfl : op = op' := hop
  cases op with
  | ingest id raw payload =>
    obtain ⟨hvalue, hstate⟩ := h.ingest id raw payload
    exact ⟨congrArg Reply.admission hvalue, hstate⟩
  | offer id frame =>
    obtain ⟨hvalue, hstate⟩ := h.offer frame id
    exact ⟨congrArg Reply.admission hvalue, hstate⟩
  | drain =>
    obtain ⟨hframe, hstate⟩ := h.takeNext
    rw [← r.combiner_drain, ← r'.combiner_drain] at hstate
    exact ⟨congrArg Reply.taken hframe, hstate⟩
  | takeNext =>
    obtain ⟨hframe, hstate⟩ := h.takeNext
    exact ⟨congrArg Reply.taken hframe, hstate⟩
  | reset => exact ⟨rfl, h.reset⟩
  | setCutoff cutoff =>
    rcases h.setCutoff cutoff with ⟨cause, hset, hset'⟩ | ⟨moved, moved', hset, hset', hmoved⟩
    · simp only [answer, next, Relay.apply, hset, hset']
      exact ⟨trivial, h⟩
    · simp only [answer, next, Relay.apply, hset, hset']
      exact ⟨trivial, hmoved⟩
  | stats => exact ⟨congrArg Reply.stats h.stats, h⟩

end Step

/-! ## Publishers that treat alike what is sent to them -/

namespace Publisher

/-- What becomes of frames that are sent one after the other. -/
def outcomes (p : P) : List (Header × Bytes) → List (Except PublishError Unit)
  | [] => []
  | (header, payload) :: rest => (publish p header payload).1 :: outcomes (publish p header payload).2 rest

/-- Whatever is sent to them, the same becomes of it. -/
def SameOutcomes (p : P) (p' : P') : Prop := ∀ sent, outcomes p sent = outcomes p' sent

/-- Publishers of the same outcomes answer alike and go on with the same outcomes. -/
theorem SameOutcomes.publish {p : P} {p' : P'} (h : SameOutcomes p p') (header : Header) (payload : Bytes) :
    (Publisher.publish p header payload).1 = (Publisher.publish p' header payload).1 ∧
      SameOutcomes (Publisher.publish p header payload).2 (Publisher.publish p' header payload).2 := by
  constructor
  · have hone := h [(header, payload)]
    rw [outcomes, outcomes] at hone
    exact (List.cons.inj hone).1
  · intro sent
    have hmore := h ((header, payload) :: sent)
    rw [outcomes, outcomes] at hmore
    exact (List.cons.inj hmore).2

end Publisher

namespace Relay

/-- The combiners are alike, and the same becomes of what is sent. -/
structure Alike (r : Relay P) (r' : Relay P') : Prop where
  combiner : r.combiner.Alike r'.combiner
  outcomes : Publisher.SameOutcomes r.publisher r'.publisher

/-- Sending tells what becomes of the frame, and leaves the publisher as it then is. -/
theorem publish_eq (r : Relay P) (frame : Frame) :
    r.publish frame =
      (((Publisher.publish r.publisher frame.header frame.payload).1.mapError fun cause => ⟨frame.key, cause⟩).map
          fun _ => frame.key,
        { r with publisher := (Publisher.publish r.publisher frame.header frame.payload).2 }) := by
  unfold publish
  split <;> rename_i hpublish <;> rw [hpublish] <;> rfl

/-- Draining sends the frame that is taken. -/
theorem drain_eq (r : Relay P) :
    r.drain = match r.combiner.takeNext.1 with
      | none => (.ok none, r)
      | some frame =>
        ((({ r with combiner := r.combiner.takeNext.2 } : Relay P).publish frame).1.map some,
          (({ r with combiner := r.combiner.takeNext.2 } : Relay P).publish frame).2) := by
  unfold drain
  split
  · rename_i htake
    rw [htake]
  · rename_i htake
    rw [htake]
    split <;> rename_i hpublish <;> simp only [hpublish] <;> rfl

/-- Nothing but a drain touches the publisher. -/
theorem publisher_apply (r : Relay P) {op : Operation} (h : op ≠ .drain) :
    (r.apply op).state.publisher = r.publisher := by
  cases op with
  | drain => exact absurd rfl h
  | setCutoff cutoff =>
    rw [apply]
    split <;> rfl
  | _ => rfl

/-- Every operation is answered alike and leaves the relays alike. -/
theorem Alike.apply {r : Relay P} {r' : Relay P'} (h : r.Alike r') (op : Operation) :
    (r.apply op).value = (r'.apply op).value ∧ (r.apply op).state.Alike (r'.apply op).state := by
  obtain ⟨hanswer, hcombiner⟩ := Step.alike ⟨r, op⟩ ⟨r', op⟩ h.combiner rfl
  by_cases hop : op = .drain
  · subst hop
    have hdrain : r.drain.1 = r'.drain.1 ∧ Publisher.SameOutcomes r.drain.2.publisher r'.drain.2.publisher := by
      rw [r.drain_eq, r'.drain_eq, ← h.combiner.takeNext.1]
      cases r.combiner.takeNext.1 with
      | none => exact ⟨rfl, h.outcomes⟩
      | some frame =>
        obtain ⟨houtcome, hpublisher⟩ := h.outcomes.publish frame.header frame.payload
        simp only [publish_eq, houtcome]
        exact ⟨trivial, hpublisher⟩
    exact ⟨congrArg Reply.drained hdrain.1, hcombiner, hdrain.2⟩
  · have hvalue : (r.apply op).value = (r'.apply op).value := by
      cases op <;> first | exact hanswer | exact absurd rfl hop
    refine ⟨hvalue, hcombiner, ?_⟩
    rw [r.publisher_apply hop, r'.publisher_apply hop]
    exact h.outcomes

/-- Every run is answered alike. -/
theorem Alike.replay {r : Relay P} {r' : Relay P'} (h : r.Alike r') (ops : List Operation) :
    (r.replay ops).1 = (r'.replay ops).1 ∧ (r.steps ops).map Step.answer = (r'.steps ops).map Step.answer := by
  induction ops generalizing r r' with
  | nil => exact ⟨rfl, rfl⟩
  | cons op ops ih =>
    obtain ⟨hvalue, hnext⟩ := h.apply op
    obtain ⟨hreplies, hanswers⟩ := ih hnext
    obtain ⟨hanswer, -⟩ := Step.alike ⟨r, op⟩ ⟨r', op⟩ h.combiner rfl
    constructor
    · exact congrArg₂ List.cons hvalue hreplies
    · exact congrArg₂ List.cons hanswer hanswers

end Relay

end FrameMerge
