import FrameMerge.Proofs.Consumers
import FrameMerge.Proofs.Flush
import FrameMerge.Proofs.Numbering
import FrameMerge.Proofs.Reception
import Mathlib.Data.List.Chain

/-!
# From a producer to a consumer

What one producer sends comes out at a consumer in the order in which it was sent, all of it, and with nothing changed but
the layout of the headers. The frames that were sent are at any time those taken from the queue, which the consumer has
received, and behind them those in the queue (`InTransit`). A message that arrives goes to the end, because its key is
above all before it (`InTransit.ingest`); a frame that is drained goes from the queue to the consumer (`InTransit.drain`).
How the messages are spread over the turns of the loop makes no difference.
-/

namespace FrameMerge

open Wire (encode maxPartBytes)

/-! ## Messages arrive while the loop runs -/

namespace Inbound

/-- Sends messages one after the other. -/
def sendAll (inbound : Inbound) (messages : List Message) : Inbound :=
  messages.foldl (fun inbound message => (inbound.send message).2) inbound

theorem sendAll_of_open {inbound : Inbound} (h : inbound.hungUp = false) (messages : List Message) :
    inbound.sendAll messages = ⟨inbound.pending ++ messages, false⟩ := by
  induction messages generalizing inbound with
  | nil =>
    rw [List.append_nil, ← h]
    rfl
  | cons message messages ih =>
    have hsend : (inbound.send message).2 = ⟨inbound.pending ++ [message], false⟩ := by simp [send, h]
    rw [sendAll, List.foldl_cons, hsend]
    refine (ih rfl).trans ?_
    simp

end Inbound

namespace Loop

variable {P : Type} [Publisher P]

/-- Runs the loop while messages arrive: before each turn the next of these batches and, when no more are given, the last
messages, behind which all senders hang up. The loop then goes on to its end. -/
def runArriving (health : Bool) (last : List Message) (r : Relay P) (inbound : Inbound) :
    List (List Message) → Relay P × Inbound
  | [] => (run health false r (inbound.sendAll last).hangUp).state
  | batch :: arrivals =>
    let done := turn r (inbound.sendAll batch)
    if isLast done.value done.state.1 then done.state
    else runArriving health last done.state.1 done.state.2 arrivals

/-- As long as a sender is left, no turn is the last. -/
theorem isLast_of_open {r : Relay P} {inbound : Inbound} (h : inbound.hungUp = false) :
    isLast (turn r inbound).value (turn r inbound).state.1 = false := by
  obtain ⟨-, -, -, -, hdisconnected⟩ := counts_turn r inbound
  rw [isLast, hdisconnected, h]
  rfl

/-- All that waits and arrives is ingested in its order, batch by batch, and a frame is drained after each batch. In the
end nothing waits and nothing is queued. -/
theorem carriedOut_runArriving (health : Bool) (last : List Message) {r : Relay P} {inbound : Inbound}
    (h : inbound.hungUp = false) (arrivals : List (List Message)) :
    let final := runArriving health last r inbound arrivals
    (∃ batches : List (List Message), batches.flatten = inbound.pending ++ (arrivals.flatten ++ last) ∧
      final.1 = r.after (batches.flatMap turnOperations)) ∧
    final.2 = ⟨[], true⟩ ∧ final.1.combiner.queue.contents = [] := by
  induction arrivals generalizing r inbound with
  | nil =>
    have hsent : (inbound.sendAll last).hangUp = ⟨inbound.pending ++ last, true⟩ := by
      rw [Inbound.sendAll_of_open h]
      rfl
    have hgone : (inbound.sendAll last).hangUp.hungUp = true := by rw [hsent]
    have hends := ends_runTurns health 0 hgone (turnsLeft_le r _)
    obtain ⟨batches, hflatten, -, -, hcarried⟩ := hends.carriedOut
    obtain ⟨hinbound, hcontents⟩ := hends.flushed
    rw [hsent] at hflatten
    refine ⟨⟨batches, hflatten, hcarried⟩, hinbound.trans ?_, hcontents⟩
    rw [hsent]
  | cons batch arrivals ih =>
    have harrived := Inbound.sendAll_of_open h batch
    have hmore : isLast (turn r (inbound.sendAll batch)).value (turn r (inbound.sendAll batch)).state.1 = false :=
      isLast_of_open (by rw [harrived])
    obtain ⟨hrelay, hinbound⟩ := turn_eq_after r (inbound.sendAll batch)
    have hstill : (turn r (inbound.sendAll batch)).state.2.hungUp = false := by rw [hinbound, harrived]
    obtain ⟨⟨batches, hflatten, hcarried⟩, hflushed⟩ := ih hstill
    intro final
    have hfinal : final = runArriving health last (turn r (inbound.sendAll batch)).state.1
        (turn r (inbound.sendAll batch)).state.2 arrivals := by
      simp only [final, runArriving, hmore, Bool.false_eq_true, if_false]
    rw [hfinal]
    refine ⟨⟨(inbound.pending ++ batch).take 64 :: batches, ?_, ?_⟩, hflushed⟩
    · rw [List.flatten_cons, hflatten, hinbound, harrived, List.flatten_cons]
      simp only [← List.append_assoc, List.take_append_drop]
    · rw [hcarried, hrelay, ← r.after_append, List.flatMap_cons, harrived]

end Loop

/-! ## Frames in transit -/

/-- What a frame carries. -/
def Frame.content (frame : Frame) : Header × Bytes := (frame.header, frame.payload)

/-- The parts of the message by which a frame is sent on. -/
def partsOf (content : Header × Bytes) : List Bytes := [content.1.encode, content.2]

/-- What a message carries, if it is one of this source and its header can be read. -/
structure Message.Carries (id : Nat) (content : Header × Bytes) (message : Message) : Prop where
  source : message.source = id
  header : Header.decode message.header = .ok content.1
  payload : message.payload = content.2

/-- These contents have arrived from a source, in this order. They are carried by the frames that were taken, which is what
a consumer has received, and by those in the queue. None was dropped. -/
structure InTransit (id consumer capacity : Nat) (contents : List (Header × Bytes)) (taken : List Frame)
    (r : Relay Broadcast) : Prop where
  carried : (taken ++ r.combiner.queue.contents).map Frame.content = contents
  numbered : ∃ source, r.combiner.sources[id]? = some source ∧
    Numbering (contents.map (·.1.frameNumber)) (taken ++ r.combiner.queue.contents) source
  mark : r.combiner.mark = taken.getLast?.map Frame.key
  capacity : r.combiner.queue.capacity = capacity
  dropped : r.combiner.dropped = 0
  undropped : ∀ source ∈ r.combiner.sources, source.dropped = 0
  whole : r.publisher.Whole
  heard : ∃ encoded, (taken.map fun frame => partsOf frame.content).mapM encode = .ok encoded ∧
    r.publisher.heard? consumer = some encoded.flatten

/-- A message whose key is above the mark and not below those of the queue goes to the end of a queue that has room. -/
theorem Combiner.ingest_to_end {c : Combiner} {id : Nat} {source : Source} (hsource : c.sources[id]? = some source)
    {raw payload : Bytes} {header : Header} (hread : Header.decode raw = .ok header)
    (hfresh : c.isStale (source.accept header payload).value.key = false)
    (hroom : c.queue.contents.length < c.queue.capacity)
    (hbehind : ∀ f ∈ c.queue.contents, f.key ≤ (source.accept header payload).value.key) :
    ∃ queue, queue.contents = c.queue.contents ++ [(source.accept header payload).value] ∧
      queue.capacity = c.queue.capacity ∧
      (c.ingest id raw payload).state = { c.withSource id (source.accept header payload).state with queue } := by
  obtain ⟨-, hstate⟩ := ingest_of_read hsource hread payload
  obtain ⟨frame, hframe⟩ : ∃ frame, frame = (source.accept header payload).value := ⟨_, rfl⟩
  rw [← hframe] at hfresh hbehind hstate ⊢
  obtain ⟨houtcome, hcontents⟩ := c.queue.push_of_room frame hroom
  rw [insertInOrder_of_le hbehind] at hcontents
  refine ⟨(c.queue.push frame).2, hcontents, c.queue.capacity_push frame, ?_⟩
  obtain ⟨counted, hcounted⟩ : ∃ counted, counted = c.withSource id (source.accept header payload).state := ⟨_, rfl⟩
  have hqueue : counted.queue = c.queue := by rw [hcounted]; rfl
  have hfresh' : counted.isStale frame.key = false := by rw [hcounted]; exact hfresh
  rw [← hcounted] at hstate ⊢
  rw [hstate, (offer_fresh (hcounted ▸ withSource_self _ hsource) hfresh').2, hqueue, houtcome]
  rfl

namespace InTransit

variable {id consumer capacity : Nat} {contents : List (Header × Bytes)} {taken : List Frame} {r : Relay Broadcast}

/-- A message of the source goes to the end of the queue. -/
theorem ingest (h : InTransit id consumer capacity contents taken r) {content : Header × Bytes} {message : Message}
    (hcarries : message.Carries id content)
    (hchain : ((contents ++ [content]).map (·.1.frameNumber)).IsChain (· ≠ ·)) (hroom : contents.length < capacity) :
    InTransit id consumer capacity (contents ++ [content]) taken (r.apply message.operation).state := by
  obtain ⟨header, payload⟩ := content
  obtain ⟨sender, raw, octets⟩ := message
  obtain ⟨rfl, hread, rfl⟩ := hcarries
  obtain ⟨source, hsource, hnumbering⟩ := h.numbered
  have hnext := hnumbering.accept header octets
  rw [List.map_append, List.map_singleton] at hchain
  have hbehind := hnext.key_lt_last hchain
  -- the mark is the key of a frame that was taken before
  have hfresh : r.combiner.isStale (source.accept header octets).value.key = false := by
    rw [← Bool.not_eq_true, Combiner.isStale_iff]
    rintro ⟨mark, hmark, hle⟩
    rw [h.mark] at hmark
    obtain ⟨f, hf, rfl⟩ := Option.mem_map.1 hmark
    exact Key.lt_iff_not_le.1 (hbehind f (List.mem_append_left _ (List.mem_of_getLast? hf))) hle
  have hlength : r.combiner.queue.contents.length < r.combiner.queue.capacity := by
    have hcarried := congrArg List.length h.carried
    rw [List.length_map, List.length_append] at hcarried
    rw [h.capacity]
    omega
  obtain ⟨queue, hcontents, hcapacity, hstate⟩ := Combiner.ingest_to_end hsource hread hfresh hlength
    fun f hf => le_of_lt (hbehind f (List.mem_append_right _ hf))
  show InTransit _ _ _ _ _ { r with combiner := (r.combiner.ingest sender raw octets).state }
  rw [hstate]
  refine ⟨?_, ⟨_, Combiner.withSource_self (source.accept header octets).state hsource, ?_⟩, h.mark,
    hcapacity.trans h.capacity, h.dropped, ?_, h.whole, h.heard⟩
  · rw [hcontents, ← List.append_assoc, List.map_append, h.carried]
    rfl
  · rw [hcontents, ← List.append_assoc, List.map_append]
    exact hnext
  · intro other hother
    rcases List.mem_or_eq_of_mem_set hother with hmem | rfl
    · exact h.undropped other hmem
    · exact h.undropped source (List.mem_of_getElem? hsource)

/-- The first frame of the queue goes to the consumer. -/
theorem drain (h : InTransit id consumer capacity contents taken r)
    (hfits : ∀ content ∈ contents, content.1.encode.length ≤ maxPartBytes ∧ content.2.length ≤ maxPartBytes) :
    ∃ taken', InTransit id consumer capacity contents taken' r.drain.2 := by
  rcases r.combiner.takeNext_contents with ⟨-, htake⟩ | ⟨frame, queue, hcontents, hcapacity, htake⟩
  · refine ⟨taken, ?_⟩
    rw [r.drain_eq, htake]
    exact h
  · refine ⟨taken ++ [frame], ?_⟩
    have hall : taken ++ [frame] ++ queue.contents = taken ++ r.combiner.queue.contents := by simp [hcontents]
    have hmem : frame.content ∈ contents := by
      rw [← h.carried, ← hall]
      simp
    obtain ⟨octets, hencode⟩ := Wire.encode_pair (hfits _ hmem)
    obtain ⟨encoded, hencoded, hheard⟩ := h.heard
    have hdrain : r.drain.2 = ⟨{ r.combiner with queue, mark := some frame.key },
        (r.publisher.publish frame.header frame.payload).2⟩ := by
      rw [r.drain_eq, htake]
      simp only [Relay.publish_eq]
      rfl
    rw [hdrain]
    refine ⟨?_, ?_, ?_, hcapacity.trans h.capacity, h.dropped, h.undropped, ?_, encoded ++ [octets], ?_, ?_⟩
    · rw [hall]
      exact h.carried
    · rw [hall]
      exact h.numbered
    · simp
    · exact h.whole.act (.publish frame.header frame.payload)
    · rw [List.map_append]
      exact Wire.mapM_encode_append hencoded (Wire.mapM_encode_singleton hencode)
    · rw [List.flatten_append, List.flatten_singleton]
      exact (h.whole.heard?_publish hencode consumer).trans (by rw [hheard, Option.map_some])

/-- A batch of messages goes to the end of the queue. -/
theorem batch (h : InTransit id consumer capacity contents taken r) {arriving : List (Header × Bytes)}
    {messages : List Message} (hcarries : List.Forall₂ (Message.Carries id) arriving messages)
    (hchain : ((contents ++ arriving).map (·.1.frameNumber)).IsChain (· ≠ ·))
    (hroom : (contents ++ arriving).length ≤ capacity) :
    InTransit id consumer capacity (contents ++ arriving) taken (r.after (messages.map Message.operation)) := by
  induction hcarries generalizing r contents with
  | nil =>
    rw [List.append_nil]
    exact h
  | @cons content message arriving messages hfirst _ ih =>
    rw [List.append_cons] at hchain hroom ⊢
    have hearlier : ((contents ++ [content]).map (·.1.frameNumber)).IsChain (· ≠ ·) := by
      rw [List.map_append] at hchain
      exact hchain.left_of_append
    have hlength : contents.length < capacity := by
      simp only [List.length_append, List.length_singleton] at hroom
      omega
    exact ih (h.ingest hfirst hearlier hlength) hchain hroom

/-- Turn by turn, all that arrives goes to the end of the queue, and to the consumer from its front. -/
theorem turns (h : InTransit id consumer capacity contents taken r) {arriving : List (Header × Bytes)}
    {batches : List (List Message)} (hcarries : List.Forall₂ (Message.Carries id) arriving batches.flatten)
    (hchain : ((contents ++ arriving).map (·.1.frameNumber)).IsChain (· ≠ ·))
    (hroom : (contents ++ arriving).length ≤ capacity)
    (hfits : ∀ content ∈ contents ++ arriving,
      content.1.encode.length ≤ maxPartBytes ∧ content.2.length ≤ maxPartBytes) :
    ∃ taken', InTransit id consumer capacity (contents ++ arriving) taken'
      (r.after (batches.flatMap Loop.turnOperations)) := by
  induction batches generalizing r contents taken arriving with
  | nil =>
    cases hcarries
    rw [List.append_nil]
    exact ⟨taken, h⟩
  | cons messages batches ih =>
    obtain ⟨early, late, rfl, hearly, hlate⟩ : ∃ early late, arriving = early ++ late ∧
        List.Forall₂ (Message.Carries id) early messages ∧ List.Forall₂ (Message.Carries id) late batches.flatten :=
      ⟨_, _, (List.take_append_drop messages.length arriving).symm, List.forall₂_take_append _ _ _ hcarries,
        List.forall₂_drop_append _ _ _ hcarries⟩
    rw [← List.append_assoc] at hchain hroom hfits ⊢
    have hearlier : ((contents ++ early).map (·.1.frameNumber)).IsChain (· ≠ ·) := by
      rw [List.map_append] at hchain
      exact hchain.left_of_append
    have hlength : (contents ++ early).length ≤ capacity := by
      rw [List.length_append] at hroom
      omega
    have hbatch := h.batch hearly hearlier hlength
    obtain ⟨taken', hdrained⟩ := hbatch.drain fun content hmem => hfits content (List.mem_append_left _ hmem)
    obtain ⟨taken'', hrest⟩ := ih hdrained hlate hchain hroom hfits
    refine ⟨taken'', ?_⟩
    rw [List.flatMap_cons, r.after_append, Loop.turnOperations, r.after_append]
    exact hrest

/-- Nothing is in transit where a relay and a publisher are set up and a consumer has connected. -/
theorem of_create {settings : CombinerSettings} {specs : List SourceSpec} {c : Combiner}
    (hcreate : Combiner.create settings specs = .ok c) {used : List String} {endpoint : String} {b : Broadcast}
    (hbind : Broadcast.bind used endpoint = .ok b) (hid : id < specs.length) :
    InTransit id b.arrived settings.queueLength [] [] ⟨c, b.connect⟩ := by
  obtain ⟨hmark, hdropped, -, hfresh⟩ := Combiner.create_ok hcreate
  obtain ⟨-, hqueue, hsources, -⟩ := Combiner.create_eq_ok_iff.1 hcreate
  have hbacklog := Queue.backlog_of_create hqueue
  have hempty : c.queue.contents = [] := congrArg Backlog.frames hbacklog
  have hwhole := Broadcast.Whole.of_bind hbind
  have hlt : id < c.sources.length := (forall₂_of_mapM hsources).length_eq ▸ hid
  obtain ⟨name, address, monitor, hnew⟩ := hfresh c.sources[id] (List.getElem_mem hlt)
  refine ⟨?_, ⟨c.sources[id], List.getElem?_eq_getElem hlt, ?_⟩, hmark, congrArg Backlog.capacity hbacklog, hdropped, ?_,
    hwhole.connect, [], rfl, hwhole.heard?_connect⟩
  · simp [hempty]
  · rw [hempty, hnew]
    exact ⟨rfl, rfl, rfl, rfl⟩
  · intro source hsource
    obtain ⟨name, address, monitor, rfl⟩ := hfresh source hsource
    rfl

end InTransit

/-! ## From end to end -/

/-- Messages of two parts that have an encoding pass the subscriber, however their stream is cut. -/
theorem Subscriber.connect_of_pairs {sent : List (Bytes × Bytes)} {encoded : List Bytes}
    (h : (sent.map fun parts => [parts.1, parts.2]).mapM encode = .ok encoded) {reads : List Bytes}
    (hreads : reads.flatten = encoded.flatten) (name : String) (id : Nat) :
    (create name id).connect true reads =
      (sent.map fun parts => ⟨id, parts.1, parts.2⟩, .endOfStream, ⟨name, id, sent.length, 0⟩) := by
  have hdecode := Wire.decode_of_encoded h []
  rw [List.append_nil, ← hreads, show Wire.decode [] = ([], none) from rfl, List.append_nil] at hdecode
  have hpassed : (sent.map fun parts => [parts.1, parts.2]).filterMap (Message.ofParts? id) =
      sent.map fun parts => ⟨id, parts.1, parts.2⟩ := by
    rw [List.filterMap_map, ← List.filterMap_eq_map]
    rfl
  rw [connect_eq, hdecode]
  simp [create, counting, hpassed, List.countP_map, Function.comp_def]

/-- A part of a message that has an encoding is not too long. -/
theorem Wire.short_of_encode {first second octets : Bytes} (h : encode [first, second] = .ok octets) :
    first.length ≤ maxPartBytes ∧ second.length ≤ maxPartBytes := by
  by_contra hlong
  obtain ⟨length, -, herror⟩ := encode_pair_of_long hlong
  rw [h] at herror
  cases herror

/-- What one producer sends comes out at a consumer. Let a combiner and a publisher be set up, let a consumer connect before
all else, and let one of the sources send messages of two parts that can be encoded. Let the first part of each be a header
that is not too long when it is encoded anew, let no two neighbouring frame numbers be the same, and let the queue have room
for all of them. Then, however the stream is cut into reads:
1. The subscriber passes on all messages, rejects none, and finds the end of the stream.
2. However the messages passed on arrive in between the turns of the loop until the senders hang up, the consumer has
received in the end, in the order of sending, the encodings of the messages with their headers encoded anew, and nothing
else.
3. Nothing waits or is queued then, the source has received all frames, and neither the combiner nor a source has counted a
dropped one. -/
theorem producer_reaches_consumer (settings : CombinerSettings) (specs : List SourceSpec) (c : Combiner)
    (hcreate : Combiner.create settings specs = .ok c) (used : List String) (endpoint : String) (b : Broadcast)
    (hbind : Broadcast.bind used endpoint = .ok b) (id : Nat) (hid : id < specs.length) (sent : List (Bytes × Bytes))
    (encoded : List Bytes) (hencoded : (sent.map fun parts => [parts.1, parts.2]).mapM encode = .ok encoded)
    (contents : List (Header × Bytes))
    (hread : List.Forall₂ (fun content parts => Header.decode parts.1 = .ok content.1 ∧ parts.2 = content.2 ∧
      content.1.encode.length ≤ maxPartBytes) contents sent)
    (hnumbers : (contents.map (·.1.frameNumber)).IsChain (· ≠ ·)) (hroom : sent.length ≤ settings.queueLength)
    (reads : List Bytes) (hreads : reads.flatten = encoded.flatten) (name : String) :
    let passed := (Subscriber.create name id).connect true reads
    passed.2 = (.endOfStream, ⟨name, id, sent.length, 0⟩) ∧
    ∀ (health : Bool) (arrivals : List (List Message)) (last : List Message), arrivals.flatten ++ last = passed.1 →
      let final := Loop.runArriving health last ⟨c, b.connect⟩ .empty arrivals
      (∃ out, (contents.map partsOf).mapM encode = .ok out ∧
        final.1.publisher.heard? b.arrived = some out.flatten) ∧
      (final.2 = ⟨[], true⟩ ∧ final.1.combiner.queue.contents = []) ∧
      (∃ source, final.1.combiner.sources[id]? = some source ∧ source.received = sent.length) ∧
      final.1.combiner.dropped = 0 ∧ ∀ source ∈ final.1.combiner.sources, source.dropped = 0 := by
  intro passed
  have hpassed : passed = _ := Subscriber.connect_of_pairs hencoded hreads name id
  have hlength : contents.length = sent.length := hread.length_eq
  refine ⟨by rw [hpassed], fun health arrivals last harrivals => ?_⟩
  intro final
  obtain ⟨⟨batches, hflatten, hcarried⟩, hinbound, hempty⟩ :=
    Loop.carriedOut_runArriving (r := ⟨c, b.connect⟩) health last (rfl : Inbound.empty.hungUp = false) arrivals
  rw [harrivals, hpassed] at hflatten
  have hcarries : List.Forall₂ (Message.Carries id) contents batches.flatten := by
    rw [hflatten]
    refine List.forall₂_map_right_iff.2 (hread.imp ?_)
    rintro content parts ⟨hheader, hpayload, -⟩
    exact ⟨rfl, hheader, hpayload⟩
  have hfits : ∀ content ∈ contents, content.1.encode.length ≤ maxPartBytes ∧ content.2.length ≤ maxPartBytes := by
    intro content hcontent
    obtain ⟨parts, hparts, -, hpayload, hshort⟩ := exists_of_forall₂ hread.flip hcontent
    obtain ⟨octets, -, hencode⟩ := exists_of_forall₂ (forall₂_of_mapM hencoded).flip (List.mem_map_of_mem hparts)
    rw [← hpayload]
    exact ⟨hshort, (Wire.short_of_encode hencode).2⟩
  obtain ⟨taken, htransit⟩ := (InTransit.of_create hcreate hbind hid).turns hcarries hnumbers (hlength ▸ hroom) hfits
  rw [← hcarried, List.nil_append] at htransit
  have htaken : contents = taken.map Frame.content := by
    rw [← htransit.carried, hempty, List.append_nil]
  obtain ⟨out, hout, hheard⟩ := htransit.heard
  obtain ⟨source, hsource, hnumbering⟩ := htransit.numbered
  refine ⟨⟨out, ?_, hheard⟩, ⟨hinbound, hempty⟩, ⟨source, hsource, ?_⟩, htransit.dropped, htransit.undropped⟩
  · rw [htaken, List.map_map]
    exact hout
  · rw [hnumbering.received, List.length_map, hlength]

namespace Sample

theorem read_isSome (n : Fin 8) : (Header.decode (message n)).toOption.isSome = true := by
  revert n
  decide +kernel

/-- The header of a message that bears a frame number. -/
def header (n : Fin 8) : Header := (Header.decode (message n)).toOption.get (read_isSome n)

theorem read_eq (n : Fin 8) : Header.decode (message n) = .ok (header n) := eq_ok_get (read_isSome n)

/-- Two messages of which the second starts the numbers anew. -/
def stream : List (Bytes × Bytes) := [(message 5, [7]), (message 0, [])]

theorem encode_stream_isSome :
    ((stream.map fun parts => [parts.1, parts.2]).mapM encode).toOption.isSome = true := by decide +kernel

end Sample

/-- The stream arrives octet by octet and the messages one by one, and the consumer receives both frames. -/
theorem producer_reaches_consumer_sample :
    ∃ b encoded, Broadcast.bind [] Sample.settings.destination = .ok b ∧
      (Sample.stream.map fun parts => [parts.1, parts.2]).mapM encode = .ok encoded ∧
      [(Sample.header 5).frameNumber, (Sample.header 0).frameNumber].IsChain (· ≠ ·) ∧
      let passed := (Subscriber.create "node_2" 1).connect true (encoded.flatten.map ([·]))
      passed.2 = (.endOfStream, ⟨"node_2", 1, 2, 0⟩) ∧
      ∃ out, [[(Sample.header 5).encode, [7]], [(Sample.header 0).encode, []]].mapM encode = .ok out ∧
        (Loop.runArriving true [] ⟨Sample.combiner, b.connect⟩ .empty (passed.1.map ([·]))).1.publisher.heard? 0 =
          some out.flatten := by
  obtain ⟨b, hbind⟩ : ∃ b, Broadcast.bind [] Sample.settings.destination = .ok b := ⟨_, rfl⟩
  obtain ⟨encoded, hencoded⟩ : ∃ encoded, (Sample.stream.map fun parts => [parts.1, parts.2]).mapM encode = .ok encoded :=
    ⟨_, eq_ok_get Sample.encode_stream_isSome⟩
  have hnumbers : [(Sample.header 5).frameNumber, (Sample.header 0).frameNumber].IsChain (· ≠ ·) := by decide +kernel
  have hread : List.Forall₂ (fun content parts => Header.decode parts.1 = .ok content.1 ∧ parts.2 = content.2 ∧
      content.1.encode.length ≤ maxPartBytes) [(Sample.header 5, [7]), (Sample.header 0, [])] Sample.stream :=
    .cons ⟨Sample.read_eq 5, rfl, by decide +kernel⟩ (.cons ⟨Sample.read_eq 0, rfl, by decide +kernel⟩ .nil)
  refine ⟨b, encoded, hbind, hencoded, hnumbers, ?_⟩
  obtain ⟨hpassed, hrun⟩ := producer_reaches_consumer Sample.settings Sample.sources Sample.combiner Sample.create_eq [] _ b
    hbind 1 (by decide) Sample.stream _ hencoded _ hread hnumbers (by decide)
    (encoded.flatten.map ([·])) (List.flatMap_singleton' _) "node_2"
  obtain ⟨⟨out, hout, hheard⟩, -⟩ := hrun true _ [] ((List.append_nil _).trans (List.flatMap_singleton' _))
  cases hbind
  exact ⟨hpassed, out, hout, hheard⟩

end FrameMerge
