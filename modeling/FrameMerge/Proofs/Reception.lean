import FrameMerge.Proofs.Reassembly
import FrameMerge.Subscriber
import Mathlib.Data.List.Basic

/-!
# What a subscriber passes on

A subscriber reads, takes all messages it can, and reads again. Within one read, it goes along with what its decoder yields
(`Subscriber.takeAll_of_yields`); from read to read, a decoder yields the same however its stream is cut
(`Subscriber.pump_of_yields`). So what a connection brings is a matter of its whole stream (`Wire.decode`), and what is
passed on is a matter of the streams, one after the other (`Subscriber.run_eq`).
-/

namespace FrameMerge

open Wire (encode)
open Wire.Decoder (fresh)

namespace Wire

/-! ## Whole streams -/

/-- The messages of a whole stream, up to its end or to the fault that is given. -/
def decode (stream : Bytes) : List (List Bytes) × Option Error :=
  ((fresh.feed stream).takeAll.1, (fresh.feed stream).takeAll.2.1)

/-- A decoder that ends without a fault has no message left. -/
theorem Decoder.Yields.drained {d d' : Decoder} {messages : List (List Bytes)} (h : d.Yields messages none d') :
    d'.next = (.ok none, d') := by
  generalize hfault : none = fault at h
  induction h with
  | missing hnext =>
    have hsame := next_snd_of_none hnext
    subst hsame
    exact hnext
  | fault => cases hfault
  | message _ _ ih => exact ih hfault

/-- What encodes messages is decoded to them, whatever follows. -/
theorem decode_of_encoded {messages : List (List Bytes)} {encoded : List Bytes} (h : messages.mapM encode = .ok encoded)
    (tail : Bytes) : decode (encoded.flatten ++ tail) = (messages ++ (decode tail).1, (decode tail).2) := by
  have hwhole := Decoder.Yields.of_encoded h (fresh.feed tail).yields_takeAll
  obtain ⟨hmessages, hfault, -⟩ := (fresh.feed (encoded.flatten ++ tail)).yields_takeAll.unique hwhole
  exact Prod.ext hmessages hfault

end Wire

/-- The message of two parts, as from this source. -/
def Message.ofParts? (source : Nat) : List Bytes → Option Message
  | [header, payload] => some ⟨source, header, payload⟩
  | _ => none

theorem Message.isSome_ofParts? (source : Nat) (parts : List Bytes) :
    (Message.ofParts? source parts).isSome = decide (parts.length = 2) := by
  unfold Message.ofParts?
  split
  · rfl
  · rename_i hshape
    have hother : parts.length ≠ 2 := by
      intro htwo
      obtain ⟨header, payload, hparts⟩ := List.length_eq_two.1 htwo
      exact hshape header payload hparts
    simp [hother]

namespace Subscriber

/-! ## One connection -/

/-- Counts messages, those of two parts as passed on. -/
def counting (s : Subscriber) (messages : List (List Bytes)) : Subscriber :=
  { s with
    forwarded := s.forwarded + messages.countP fun parts => parts.length = 2
    rejected := s.rejected + messages.countP fun parts => parts.length ≠ 2 }

theorem counting_append (s : Subscriber) (early late : List (List Bytes)) :
    s.counting (early ++ late) = (s.counting early).counting late := by
  simp only [counting, List.countP_append, Nat.add_assoc]

/-- A message of any number of parts but two is counted and dropped. -/
theorem takeAll_of_other {d d' : Wire.Decoder} {parts : List Bytes} (hnext : d.next = (.ok (some parts), d'))
    (hother : parts.length ≠ 2) (s : Subscriber) (fuel : Nat) :
    takeAll true s d (fuel + 1) = takeAll true { s with rejected := s.rejected + 1 } d' fuel := by
  rw [takeAll, hnext]
  rcases parts with _ | ⟨first, _ | ⟨second, _ | ⟨third, more⟩⟩⟩
  · rfl
  · rfl
  · exact absurd rfl hother
  · rfl

/-- A subscriber takes what its decoder yields, passes on the messages of two parts, and counts all. -/
theorem takeAll_of_yields {d left : Wire.Decoder} {messages : List (List Bytes)} {fault : Option Wire.Error}
    (h : d.Yields messages fault left) (s : Subscriber) {fuel : Nat} (hfuel : d.buffered ≤ fuel) :
    takeAll true s d (fuel + 1) =
      (messages.filterMap (Message.ofParts? s.source), fault.map .corrupt, s.counting messages, left) := by
  induction h generalizing s fuel with
  | missing hnext =>
    rw [takeAll, hnext]
    rfl
  | fault hnext =>
    rw [takeAll, hnext]
    rfl
  | @message d d' left parts later fault hnext _ ih =>
    have hless := Wire.Decoder.buffered_of_message hnext
    obtain ⟨fuel, rfl⟩ := Nat.exists_eq_succ_of_ne_zero (n := fuel) (by omega)
    have hrest : d'.buffered ≤ fuel := by omega
    rw [← List.singleton_append, s.counting_append, List.filterMap_append]
    by_cases htwo : parts.length = 2
    · obtain ⟨header, payload, rfl⟩ := List.length_eq_two.1 htwo
      rw [takeAll, hnext]
      simp only [if_true, ih { s with forwarded := s.forwarded + 1 } hrest]
      rfl
    · have hnone : Message.ofParts? s.source parts = none := by
        rw [← Option.not_isSome_iff_eq_none, Message.isSome_ofParts?]
        simp [htwo]
      have hcounting : s.counting [parts] = { s with rejected := s.rejected + 1 } := by
        simp [counting, htwo]
      rw [takeAll_of_other hnext htwo, ih _ hrest, hcounting]
      simp [hnone]

/-- A connection passes on the messages of two parts that its stream yields, and ends as the stream does. -/
theorem pump_of_yields {d left : Wire.Decoder} {messages : List (List Bytes)} {fault : Option Wire.Error}
    {reads : List Bytes} (hdrained : d.next = (.ok none, d)) (h : (d.feed reads.flatten).Yields messages fault left)
    (s : Subscriber) :
    pump true s d reads =
      (messages.filterMap (Message.ofParts? s.source), fault.elim .endOfStream .corrupt, s.counting messages) := by
  induction reads generalizing d left messages fault s with
  | nil =>
    rw [List.flatten_nil, d.feed_nil] at h
    obtain ⟨rfl, rfl, -⟩ := h.unique (.missing hdrained)
    rfl
  | cons octets reads ih =>
    rw [List.flatten_cons, ← d.feed_feed] at h
    obtain ⟨early, ending, d', hfed⟩ : ∃ early ending d', (d.feed octets).Yields early ending d' :=
      ⟨_, _, _, (d.feed octets).yields_takeAll⟩
    rw [pump, takeAll_of_yields hfed s (Nat.le_refl _)]
    cases ending with
    | some cause =>
      obtain ⟨rfl, rfl, -⟩ := h.unique (hfed.append_of_fault reads.flatten)
      rfl
    | none =>
      have hlater := (d'.feed reads.flatten).yields_takeAll
      obtain ⟨rfl, rfl, -⟩ := h.unique (hfed.append hlater)
      rw [List.filterMap_append, s.counting_append]
      simp only [Option.map_none, ih hfed.drained hlater (s.counting early)]
      rfl

theorem connect_eq (s : Subscriber) (reads : List Bytes) :
    connect true s reads =
      ((Wire.decode reads.flatten).1.filterMap (Message.ofParts? s.source),
        (Wire.decode reads.flatten).2.elim .endOfStream .corrupt, s.counting (Wire.decode reads.flatten).1) :=
  pump_of_yields rfl (fresh.feed reads.flatten).yields_takeAll s

/-! ## All connections -/

/-- What connections bring, each read from its start. -/
def received (connections : List (List Bytes)) : List (List Bytes) :=
  connections.flatMap fun reads => (Wire.decode reads.flatten).1

/-- While somebody listens, the messages of two parts are passed on connection after connection, and all are counted. -/
theorem run_eq (s : Subscriber) (connections : List (List Bytes)) :
    s.run true connections =
      ((received connections).filterMap (Message.ofParts? s.source), s.counting (received connections)) := by
  induction connections generalizing s with
  | nil => rfl
  | cons reads connections ih =>
    rw [run, s.connect_eq, received, List.flatMap_cons, List.filterMap_append, s.counting_append]
    cases (Wire.decode reads.flatten).2 <;> simp only [Option.elim, ih] <;> rfl

/-- While somebody listens, a subscriber passes on exactly the messages of two parts, over any connections and however their
octets arrive.
1. They are those among the messages that the connections bring, in their order, and each is marked with the source.
2. As many are counted as passed on, and the other messages are counted as rejected.
3. What a connection brings is what a fresh decoder yields from its whole stream, up to the end or the first fault, and
the connection ends by that.
4. What is passed on of one connection does not depend on the others.
5. If the stream of a connection begins with messages as they are encoded, none of them is lost, whatever follows. -/
theorem forwards_two_parts (name : String) (source : Nat) (connections : List (List Bytes)) :
    let done := (create name source).run true connections
    done.1 = (received connections).filterMap (Message.ofParts? source) ∧
    done.2 = ⟨name, source, done.1.length, (received connections).countP fun parts => parts.length ≠ 2⟩ ∧
    (∀ reads : List Bytes,
      (∃ left, (fresh.feed reads.flatten).Yields (Wire.decode reads.flatten).1 (Wire.decode reads.flatten).2 left) ∧
      ∀ s, (connect true s reads).2.1 = (Wire.decode reads.flatten).2.elim .endOfStream .corrupt) ∧
    done.1 = connections.flatMap (fun reads => ((create name source).run true [reads]).1) ∧
    ∀ (messages : List (List Bytes)) (encoded reads : List Bytes) (tail : Bytes), messages.mapM encode = .ok encoded →
      reads.flatten = encoded.flatten ++ tail → ((create name source).run true [reads]).1 =
        messages.filterMap (Message.ofParts? source) ++ (Wire.decode tail).1.filterMap (Message.ofParts? source) := by
  intro done
  have hdone : done = _ := run_eq (create name source) connections
  have hone : ∀ reads, ((create name source).run true [reads]).1 =
      (Wire.decode reads.flatten).1.filterMap (Message.ofParts? source) := by
    intro reads
    rw [run_eq, received, List.flatMap_singleton]
    rfl
  refine ⟨?_, ?_, fun reads => ⟨⟨_, (fresh.feed reads.flatten).yields_takeAll⟩, fun s => ?_⟩, ?_,
    fun messages encoded reads tail h hreads => ?_⟩
  · rw [hdone]
    rfl
  · have hlength : done.1.length = (received connections).countP fun parts => parts.length = 2 := by
      rw [hdone, List.length_filterMap_eq_countP]
      simp only [Message.isSome_ofParts?]
    rw [hlength, hdone]
    simp [counting, create]
  · rw [s.connect_eq]
  · simp only [hone]
    rw [hdone, received, List.filterMap_flatMap]
    rfl
  · rw [hone, hreads, Wire.decode_of_encoded h, List.filterMap_append]

end Subscriber

/-- Two connections: the first brings a message of two parts, one of three and the beginning of another, the second a
message and then a word that numbers no parts. -/
def Sample.connections : List (List Bytes) :=
  [[[0, 0, 0, 2, 0, 0, 0, 1, 7], [0, 0, 0, 2, 8, 9, 0, 0, 0, 3, 0, 0, 0, 0], [0, 0, 0, 0, 0, 0, 0, 0, 0, 0, 0, 2]],
    [[0, 0, 0, 2, 0, 0], [0, 1, 10, 0, 0, 0, 0, 0], [0, 0, 0, 7]]]

/-- What the first connection leaves unfinished is lost, and both messages of two parts are passed on. -/
theorem Subscriber.forwards_two_parts_sample :
    [[[10], []]].mapM encode = .ok [[0, 0, 0, 2, 0, 0, 0, 1, 10, 0, 0, 0, 0]] ∧
      ((Subscriber.create "left" 3).run true [[[0, 0, 0, 2, 0, 0], [0, 1, 10, 0, 0, 0, 0, 0], [0, 0, 0, 7]]]).1 =
        [⟨3, [10], []⟩] ∧
      (Subscriber.create "left" 3).run true Sample.connections =
        ([⟨3, [7], [8, 9]⟩, ⟨3, [10], []⟩], ⟨"left", 3, 2, 1⟩) := by
  have hencode : [[[10], []]].mapM encode = .ok [[0, 0, 0, 2, 0, 0, 0, 1, 10, 0, 0, 0, 0]] := by decide
  have hbrought : Subscriber.received Sample.connections = [[[7], [8, 9]], [[], [], []], [[10], []]] := by decide
  obtain ⟨hpassed, hcounted, -, -, hkept⟩ := Subscriber.forwards_two_parts "left" 3 Sample.connections
  rw [hbrought] at hpassed hcounted
  refine ⟨hencode, hkept _ _ _ [0, 0, 0, 0, 7] hencode rfl, Prod.ext hpassed ?_⟩
  rw [hcounted, hpassed]
  rfl

end FrameMerge
