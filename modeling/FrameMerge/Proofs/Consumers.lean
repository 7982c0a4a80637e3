import FrameMerge.Broadcast
import FrameMerge.Proofs.Reassembly
import Mathlib.Data.List.Basic

/-!
# What a consumer receives

A consumer receives all that is sent from its connection on, and nothing else, wherever in a run it connects and whenever
it is accepted. What is said of a run is said of one action first (`Broadcast.heard?_act`): it appends the octets of the
message that the action sends, if it sends one. As long as no connection breaks, nobody is dropped either
(`Broadcast.Whole`).
-/

namespace FrameMerge

open Wire (encode maxPartBytes)
open Wire.Decoder (fresh receive)

/-! ## Messages of two parts -/

namespace Wire

/-- Two parts within the bound are a message. -/
theorem encode_pair {first second : Bytes} (h : first.length ≤ maxPartBytes ∧ second.length ≤ maxPartBytes) :
    ∃ octets, encode [first, second] = .ok octets := by
  simp [encode, encodeParts, maxParts, Nat.not_lt.2 h.1, Nat.not_lt.2 h.2, Except.map]

/-- A part that is too long is named with its length. -/
theorem encode_pair_of_long {first second : Bytes}
    (h : ¬(first.length ≤ maxPartBytes ∧ second.length ≤ maxPartBytes)) :
    ∃ length, maxPartBytes < length ∧ encode [first, second] = .error (.partTooLong length) := by
  by_cases hfirst : first.length ≤ maxPartBytes
  · have hsecond : maxPartBytes < second.length := by
      by_contra hshort
      exact h ⟨hfirst, Nat.not_lt.1 hshort⟩
    refine ⟨second.length, hsecond, ?_⟩
    simp [encode, encodeParts, maxParts, Nat.not_lt.2 hfirst, hsecond, Except.map]
  · refine ⟨first.length, Nat.lt_of_not_ge hfirst, ?_⟩
    simp [encode, encodeParts, maxParts, Nat.lt_of_not_ge hfirst, Except.map]

/-- Messages in a row are encoded in a row. -/
theorem mapM_encode_append {early late : List (List Bytes)} {earlyEncoded lateEncoded : List Bytes}
    (hearly : early.mapM encode = .ok earlyEncoded) (hlate : late.mapM encode = .ok lateEncoded) :
    (early ++ late).mapM encode = .ok (earlyEncoded ++ lateEncoded) := by
  rw [List.mapM_append, hearly, hlate]
  rfl

theorem mapM_encode_singleton {parts : List Bytes} {octets : Bytes} (h : encode parts = .ok octets) :
    [parts].mapM encode = .ok [octets] := by
  rw [List.mapM_cons, h]
  rfl

end Wire

namespace Broadcast

/-! ## Actions -/

/-- What can be done with a publisher whose connections do not break. -/
inductive Action
  | connect
  | accept
  | publish (header : Header) (payload : Bytes)

/-- The message that an action sends. A message with a part that is too long is not sent. -/
def Action.message? : Action → Option (List Bytes)
  | .publish header payload =>
    if header.encode.length ≤ maxPartBytes ∧ payload.length ≤ maxPartBytes then some [header.encode, payload] else none
  | _ => none

/-- The messages that actions send, in their order. -/
def sent (actions : List Action) : List (List Bytes) := actions.filterMap Action.message?

def act (b : Broadcast) : Action → Broadcast
  | .connect => b.connect
  | .accept => b.accept.2
  | .publish header payload => (b.publish header payload).2

def after (b : Broadcast) (actions : List Action) : Broadcast := actions.foldl act b

theorem after_append (b : Broadcast) (early late : List Action) : b.after (early ++ late) = (b.after early).after late :=
  List.foldl_append

/-- What a run sends is what its first action sends and what the others do. -/
theorem sent_cons (action : Action) (actions : List Action) :
    sent (action :: actions) = action.message?.toList ++ sent actions := by
  unfold sent
  cases hmessage : action.message? with
  | none => simp [hmessage]
  | some message => simp [hmessage]

/-! ## Those connected -/

/-- Those who connected and were not dropped, accepted or not, in the order of connecting. -/
def connected (b : Broadcast) : List Consumer := b.consumers ++ b.waiting

/-- What a consumer has received, accepted or not, if it was not dropped. -/
def heard? (b : Broadcast) (id : Nat) : Option Bytes := b.accept.2.received? id

/-- Nobody who ever connected was dropped, and no connection is broken. -/
structure Whole (b : Broadcast) : Prop where
  ids : b.connected.map (·.id) = List.range b.arrived
  unbroken : ∀ c ∈ b.connected, c.broken = false

/-- Who connects stands behind those that are connected, and has heard nothing. -/
theorem connected_connect (b : Broadcast) : b.connect.connected = b.connected ++ [⟨b.arrived, [], false⟩] :=
  (List.append_assoc _ _ _).symm

/-- What a consumer has heard is looked up among all that are connected, accepted or not. -/
theorem heard?_eq (b : Broadcast) (id : Nat) :
    b.heard? id = (b.connected.find? fun c => c.id = id && !c.broken).map (·.received) := rfl

/-- Accepting those who wait does not change who is connected. -/
theorem connected_accept (b : Broadcast) : b.accept.2.connected = b.connected := List.append_nil _

/-- Parts that make no message are sent to nobody, which is a failure only if there is someone. -/
theorem send_of_error {parts : List Bytes} {cause : Wire.Error} (h : encode parts = .error cause) (b : Broadcast) :
    b.send parts = (if b.connected = [] then .ok () else .error (.message cause), b.accept.2) := by
  rw [send, h]
  by_cases hnobody : b.connected = []
  · rw [if_pos hnobody]
    exact if_pos (List.isEmpty_iff.2 hnobody)
  · rw [if_neg hnobody]
    exact if_neg fun hempty => hnobody (List.isEmpty_iff.1 hempty)

/-- Where no connection is broken, all receive. -/
theorem filterMap_receive? {consumers : List Consumer} (h : ∀ c ∈ consumers, c.broken = false) (octets : Bytes) :
    consumers.filterMap (·.receive? octets) = consumers.map fun c => { c with received := c.received ++ octets } := by
  rw [← List.filterMap_eq_map]
  refine List.filterMap_congr ?_
  intro c hc
  simp [Consumer.receive?, h c hc]

/-- A message that can be encoded is heard by all that are connected, and sending it succeeds. -/
theorem Whole.send_of_ok {b : Broadcast} (hb : b.Whole) {parts : List Bytes} {octets : Bytes}
    (h : encode parts = .ok octets) :
    b.send parts = (.ok (),
      { b.accept.2 with consumers := b.connected.map fun c => { c with received := c.received ++ octets } }) := by
  have haccepted : b.accept.2.consumers = b.connected := rfl
  rw [send, h]
  by_cases hnobody : b.connected = []
  · rw [hnobody]
    refine (if_pos (List.isEmpty_iff.2 hnobody)).trans ?_
    show (_, { b.accept.2 with consumers := b.connected }) = _
    rw [hnobody]
    rfl
  · refine (if_neg fun hempty => hnobody (List.isEmpty_iff.1 hempty)).trans ?_
    simp only [write, haccepted, filterMap_receive? hb.unbroken, List.isEmpty_iff, List.map_eq_nil_iff, if_neg hnobody]

/-! ## One action -/

/-- A frame with a part beyond the bound is sent to nobody. This is a failure only if somebody would have heard it. -/
theorem publish_of_long {header : Header} {payload : Bytes}
    (h : ¬(header.encode.length ≤ maxPartBytes ∧ payload.length ≤ maxPartBytes)) (b : Broadcast) :
    ∃ length, maxPartBytes < length ∧ b.publish header payload =
      (if b.connected = [] then .ok () else .error (.message (.partTooLong length)), b.accept.2) := by
  obtain ⟨length, hlong, hencode⟩ := Wire.encode_pair_of_long h
  exact ⟨length, hlong, send_of_error hencode b⟩

namespace Whole

variable {b : Broadcast}

/-- Nobody has broken off before anybody has connected. -/
theorem of_bind {used : List String} {endpoint : String} (h : bind used endpoint = .ok b) : b.Whole := by
  unfold bind at h
  split at h
  · cases h
  · cases h
    exact ⟨rfl, by simp [connected]⟩

/-- Only what the consumers have received and whether they are accepted may differ. -/
theorem of_map (hb : b.Whole) {b' : Broadcast} (octets : Bytes) (harrived : b'.arrived = b.arrived)
    (hconnected : b'.connected = b.connected.map fun c => { c with received := c.received ++ octets }) : b'.Whole := by
  refine ⟨?_, ?_⟩
  · rw [hconnected, harrived, ← hb.ids, List.map_map]
    rfl
  · intro c hc
    rw [hconnected] at hc
    obtain ⟨c, hmem, rfl⟩ := List.mem_map.1 hc
    exact hb.unbroken c hmem

/-- Accepting breaks nobody off. -/
theorem accept (hb : b.Whole) : b.accept.2.Whole :=
  ⟨by rw [connected_accept]; exact hb.ids, by rw [connected_accept]; exact hb.unbroken⟩

theorem connect (hb : b.Whole) : b.connect.Whole := by
  refine ⟨?_, ?_⟩
  · rw [connected_connect, List.map_append, hb.ids]
    exact List.range_succ.symm
  · intro c hc
    rw [connected_connect, List.mem_append, List.mem_singleton] at hc
    rcases hc with hc | rfl
    · exact hb.unbroken c hc
    · rfl

/-- No action but a consumer's own breaks one off. -/
theorem act (hb : b.Whole) (action : Action) : (b.act action).Whole := by
  cases action with
  | connect => exact hb.connect
  | accept => exact hb.accept
  | publish header payload =>
    rw [Broadcast.act]
    by_cases hshort : header.encode.length ≤ maxPartBytes ∧ payload.length ≤ maxPartBytes
    · obtain ⟨octets, hencode⟩ := Wire.encode_pair hshort
      have hpublish : b.publish header payload = _ := hb.send_of_ok hencode
      rw [hpublish]
      exact hb.of_map octets rfl (List.append_nil _)
    · obtain ⟨length, -, hpublish⟩ := publish_of_long hshort b
      rw [hpublish]
      exact hb.accept

/-- Nor does a run of such actions. -/
theorem after (hb : b.Whole) (actions : List Action) : (b.after actions).Whole := by
  induction actions generalizing b with
  | nil => exact hb
  | cons action actions ih => exact ih (hb.act action)

/-- A consumer that is new has received nothing. -/
theorem heard?_connect (hb : b.Whole) : b.connect.heard? b.arrived = some [] := by
  have hnew : (b.connected.find? fun c => c.id = b.arrived && !c.broken) = none := by
    rw [List.find?_eq_none]
    intro c hc hfound
    have hid : c.id = b.arrived := by simpa using (Bool.and_eq_true_iff.1 hfound).1
    have hmem := List.mem_map_of_mem (f := (·.id)) hc
    rw [hb.ids, List.mem_range, hid] at hmem
    exact Nat.lt_irrefl _ hmem
  rw [heard?_eq, connected_connect, List.find?_append, hnew]
  simp

end Whole

/-- If all hear the same octets, each hears them behind what it has heard. -/
theorem heard?_map {b b' : Broadcast} {octets : Bytes}
    (h : b'.connected = b.connected.map fun c => { c with received := c.received ++ octets }) (id : Nat) :
    b'.heard? id = (b.heard? id).map (· ++ octets) := by
  rw [heard?_eq, heard?_eq, h, List.find?_map, Option.map_map, Option.map_map]
  rfl

/-- Accepting lets nobody hear anything. -/
theorem heard?_accept (b : Broadcast) (id : Nat) : b.accept.2.heard? id = b.heard? id := by
  rw [heard?_eq, heard?_eq, connected_accept]

/-- Another's connection is nothing to a consumer. -/
theorem heard?_connect_of_some {b : Broadcast} {id : Nat} {octets : Bytes} (h : b.heard? id = some octets) :
    b.connect.heard? id = some octets := by
  rw [heard?_eq] at h
  obtain ⟨c, hfound, hreceived⟩ := Option.map_eq_some_iff.1 h
  rw [heard?_eq, connected_connect, List.find?_append, hfound, ← hreceived]
  rfl

/-- A publish within the limits is heard by all, as the octets of its message. -/
theorem Whole.heard?_publish {b : Broadcast} (hb : b.Whole) {header : Header} {payload octets : Bytes}
    (h : encode [header.encode, payload] = .ok octets) (id : Nat) :
    (b.publish header payload).2.heard? id = (b.heard? id).map (· ++ octets) := by
  have hpublish : b.publish header payload = _ := hb.send_of_ok h
  rw [hpublish]
  exact heard?_map (List.append_nil _) id

/-- What a consumer hears of an action is the message that the action sends. -/
theorem Whole.heard?_act {b : Broadcast} (hb : b.Whole) {id : Nat} {octets : Bytes} (h : b.heard? id = some octets)
    (action : Action) :
    ∃ encoded, action.message?.toList.mapM encode = .ok encoded ∧
      (b.act action).heard? id = some (octets ++ encoded.flatten) := by
  cases action with
  | connect =>
    refine ⟨[], rfl, ?_⟩
    rw [List.flatten_nil, List.append_nil]
    exact heard?_connect_of_some h
  | accept =>
    refine ⟨[], rfl, ?_⟩
    rw [List.flatten_nil, List.append_nil, ← h]
    exact b.heard?_accept id
  | publish header payload =>
    rw [Broadcast.act, Action.message?]
    by_cases hshort : header.encode.length ≤ maxPartBytes ∧ payload.length ≤ maxPartBytes
    · obtain ⟨message, hencode⟩ := Wire.encode_pair hshort
      refine ⟨[message], ?_, ?_⟩
      · rw [if_pos hshort]
        exact Wire.mapM_encode_singleton hencode
      · rw [hb.heard?_publish hencode id, h, List.flatten_singleton]
        rfl
    · obtain ⟨length, -, hpublish⟩ := publish_of_long hshort b
      refine ⟨[], ?_, ?_⟩
      · rw [if_neg hshort]
        rfl
      · rw [hpublish, List.flatten_nil, List.append_nil, ← h]
        exact b.heard?_accept id

/-! ## A run -/

/-- What a consumer hears in a run is all that is sent in it. -/
theorem Whole.heard?_after {b : Broadcast} (hb : b.Whole) {id : Nat} {octets : Bytes} (h : b.heard? id = some octets)
    (actions : List Action) :
    ∃ encoded, (sent actions).mapM encode = .ok encoded ∧
      (b.after actions).heard? id = some (octets ++ encoded.flatten) := by
  induction actions generalizing b octets with
  | nil =>
    refine ⟨[], rfl, ?_⟩
    rw [List.flatten_nil, List.append_nil]
    exact h
  | cons action actions ih =>
    obtain ⟨first, hfirst, hheard⟩ := hb.heard?_act h action
    obtain ⟨rest, hrest, hall⟩ := ih (hb.act action) hheard
    refine ⟨first ++ rest, ?_, ?_⟩
    · rw [sent_cons]
      exact Wire.mapM_encode_append hfirst hrest
    · rw [List.flatten_append, ← List.append_assoc]
      exact hall

/-- What encodes messages is received as these messages, however it is cut. -/
theorem receive_of_encoded {messages : List (List Bytes)} {encoded : List Bytes} (h : messages.mapM encode = .ok encoded)
    {pieces : List Bytes} (hpieces : pieces.flatten = encoded.flatten) : receive pieces = (messages, none, fresh) := by
  have hreceived := Wire.Decoder.yields_receive pieces
  have hwhole := Wire.Decoder.Yields.of_encoded h (.missing (d := fresh.feed []) rfl)
  rw [List.append_nil, List.append_nil, ← hpieces] at hwhole
  obtain ⟨hmessages, hfault, hleft⟩ := hreceived.unique hwhole
  exact Prod.ext hmessages (Prod.ext hfault hleft)

/-- Every consumer hears what is published from its connection on. Let a publisher be set up, let consumers connect, be
accepted and frames be published in any order, and let no connection break.
1. Nobody who connected is ever dropped.
2. A consumer that connects has received, after all that follows, the encodings of the messages sent since it connected
and nothing else; a frame is sent as the message of its header and its payload if neither is too long, and not at all
otherwise. A decoder obtains these messages from the stream, however it is cut, and nothing is left of it.
3. A frame with a part that is too long changes what nobody has received, and drops nobody; it is refused exactly if there
is someone to send it to. Any other frame is published. -/
theorem consumers_hear_from_connection (used : List String) (endpoint : String) (b : Broadcast)
    (h : bind used endpoint = .ok b) (before : List Action) :
    let reached := b.after before
    reached.connected.map (·.id) = List.range reached.arrived ∧
    (∀ later, ∃ encoded, (sent later).mapM encode = .ok encoded ∧
      (b.after (before ++ .connect :: later)).heard? reached.arrived = some encoded.flatten ∧
      ∀ pieces : List Bytes, pieces.flatten = encoded.flatten → receive pieces = (sent later, none, fresh)) ∧
    ∀ header payload,
      if header.encode.length ≤ maxPartBytes ∧ payload.length ≤ maxPartBytes then
        (reached.publish header payload).1 = .ok ()
      else
        (reached.publish header payload).2.connected = reached.connected ∧
        (∀ id, (reached.publish header payload).2.heard? id = reached.heard? id) ∧
        ∃ length, maxPartBytes < length ∧ (reached.publish header payload).1 =
          if reached.connected = [] then .ok () else .error (.message (.partTooLong length)) := by
  intro reached
  have hwhole : reached.Whole := (Whole.of_bind h).after before
  refine ⟨hwhole.ids, fun later => ?_, fun header payload => ?_⟩
  · obtain ⟨encoded, hencoded, hheard⟩ := hwhole.connect.heard?_after hwhole.heard?_connect later
    refine ⟨encoded, hencoded, ?_, fun pieces hpieces => receive_of_encoded hencoded hpieces⟩
    rw [b.after_append]
    exact hheard
  · split
    · rename_i hshort
      obtain ⟨octets, hencode⟩ := Wire.encode_pair hshort
      have hpublish : reached.publish header payload = _ := hwhole.send_of_ok hencode
      rw [hpublish]
    · rename_i hlong
      obtain ⟨length, hexceeds, hpublish⟩ := publish_of_long hlong reached
      rw [hpublish]
      exact ⟨reached.connected_accept, reached.heard?_accept, length, hexceeds, rfl⟩

namespace Sample

theorem header_isSome :
    (Header.ofValue (.object [("frame_num", .number (.whole ⟨5, by decide⟩))])).toOption.isSome = true := by
  decide +kernel

def header : Header :=
  (Header.ofValue (.object [("frame_num", .number (.whole ⟨5, by decide⟩))])).toOption.get header_isSome

theorem encode_header : header.encode = "\x7b\"frame_num\":5\x7d".toUTF8.data.toList := by decide +kernel

/-- A payload of one octet more than a part may have. -/
def tooLong : Bytes := List.replicate (maxPartBytes + 1) 0

/-- A frame with a payload that is too long comes between two others, and one more consumer connects. -/
def publishing : List Action :=
  [.publish header [7], .accept, .publish header tooLong, .connect, .publish header []]

theorem tooLong_exceeds : ¬tooLong.length ≤ maxPartBytes := by
  rw [tooLong, List.length_replicate]
  exact Nat.not_succ_le_self _

theorem sent_publishing : sent publishing = [[header.encode, [7]], [header.encode, []]] := by
  have hshort : header.encode.length ≤ maxPartBytes := by
    rw [encode_header]
    decide
  simp only [publishing, sent_cons, Action.message?, hshort, tooLong_exceeds, List.length_singleton]
  rfl

end Sample

/-- The second consumer has not received what was published before it connected. -/
theorem consumers_hear_from_connection_sample :
    ∃ b, bind ["tcp://127.0.0.1:5020"] "tcp://127.0.0.1:5021" = .ok b ∧
      (∃ encoded, [[Sample.header.encode, [7]], [Sample.header.encode, []]].mapM encode = .ok encoded ∧
        (b.after ([.connect, .publish Sample.header [9]] ++ .connect :: Sample.publishing)).heard? 1 =
          some encoded.flatten) ∧
      ∃ length, maxPartBytes < length ∧
        ((b.after [.connect]).publish Sample.header Sample.tooLong).1 = .error (.message (.partTooLong length)) := by
  obtain ⟨b, hb⟩ : ∃ b, bind ["tcp://127.0.0.1:5020"] "tcp://127.0.0.1:5021" = .ok b := ⟨_, rfl⟩
  refine ⟨b, hb, ?_, ?_⟩
  · obtain ⟨-, hheard, -⟩ := consumers_hear_from_connection _ _ b hb [.connect, .publish Sample.header [9]]
    obtain ⟨encoded, hencoded, hall, -⟩ := hheard Sample.publishing
    cases hb
    rw [Sample.sent_publishing] at hencoded
    rw [show Broadcast.arrived _ = 1 by decide +kernel] at hall
    exact ⟨encoded, hencoded, hall⟩
  · obtain ⟨-, -, hpublish⟩ := consumers_hear_from_connection _ _ b hb [.connect]
    have hrefused := hpublish Sample.header Sample.tooLong
    rw [if_neg fun hshort => Sample.tooLong_exceeds hshort.2] at hrefused
    obtain ⟨-, -, length, hexceeds, hresult⟩ := hrefused
    cases hb
    exact ⟨length, hexceeds, hresult⟩

end Broadcast

end FrameMerge
