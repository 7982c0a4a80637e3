import FrameMerge.Wire.RoundTrip
import Mathlib.Data.List.Induction

/-!
# Streams in pieces

However a stream is cut into pieces, a decoder takes the same messages from it and ends in the same way. The reason is
that a decision once made stands: octets that follow change neither a message nor a fault (`takeMessage?_append`), only
missing octets can still become one or the other. What is taken from a decoder until a message is missing or faulty is
said without counting, by `Decoder.Yields`; the statements on pieces are inductions on it.
-/

namespace FrameMerge.Wire

/-! ## A decision stands -/

/-- What was taken off, with more octets behind it. -/
def followedBy (more : Bytes) (taken : Except Error (Option (List Bytes × Bytes))) :
    Except Error (Option (List Bytes × Bytes)) :=
  taken.map (Option.map fun (parts, rest) => (parts, rest ++ more))

/-- A word that is there stays there when more octets come. -/
theorem takeWord?_append {s rest : Bytes} {n : Nat} (h : takeWord? s = some (n, rest)) (more : Bytes) :
    takeWord? (s ++ more) = some (n, rest ++ more) := by
  unfold takeWord? at h
  split at h
  · cases h
    rfl
  · cases h

/-- So do parts, and so does a fault in them. -/
theorem takeParts?_append {count : Nat} {s : Bytes} (h : takeParts? count s ≠ .ok none) (more : Bytes) :
    takeParts? count (s ++ more) = followedBy more (takeParts? count s) := by
  induction count generalizing s with
  | zero => rfl
  | succ count ih =>
    rw [takeParts?] at h ⊢
    cases hword : takeWord? s with
    | none =>
      rw [hword] at h
      exact absurd rfl h
    | some word =>
      obtain ⟨length, rest⟩ := word
      rw [hword] at h
      rw [takeWord?_append hword, takeParts?, hword]
      simp only at h ⊢
      by_cases hlimit : maxPartBytes < length
      · rw [if_pos hlimit, if_pos hlimit]
        rfl
      · rw [if_neg hlimit] at h
        rw [if_neg hlimit, if_neg hlimit]
        by_cases hmissing : rest.length < length
        · rw [if_pos hmissing] at h
          exact absurd rfl h
        · have henough : length ≤ rest.length := Nat.not_lt.1 hmissing
          have hmore : ¬(rest ++ more).length < length := by
            rw [List.length_append]
            omega
          rw [if_neg hmissing] at h
          rw [if_neg hmissing, if_neg hmore, List.drop_append_of_le_length henough, List.take_append_of_le_length henough]
          have hdecided : takeParts? count (rest.drop length) ≠ .ok none := by
            intro hnone
            rw [hnone] at h
            exact h rfl
          rw [ih hdecided]
          cases takeParts? count (rest.drop length) with
          | error e => rfl
          | ok taken => cases taken <;> rfl

/-- Octets that follow change neither a message nor a fault. -/
theorem takeMessage?_append {s : Bytes} (h : takeMessage? s ≠ .ok none) (more : Bytes) :
    takeMessage? (s ++ more) = followedBy more (takeMessage? s) := by
  rw [takeMessage?] at h ⊢
  cases hword : takeWord? s with
  | none =>
    rw [hword] at h
    exact absurd rfl h
  | some word =>
    obtain ⟨count, rest⟩ := word
    rw [hword] at h
    rw [takeWord?_append hword, takeMessage?, hword]
    simp only at h ⊢
    by_cases hcount : (count = 0 || maxParts < count) = true
    · rw [if_pos hcount, if_pos hcount]
      rfl
    · rw [if_neg hcount] at h
      rw [if_neg hcount, if_neg hcount]
      exact takeParts?_append h more

namespace Decoder

theorem feed_nil (d : Decoder) : d.feed [] = d := by
  rw [feed, List.append_nil]

/-- Octets may be fed at once or one after the other. -/
theorem feed_feed (d : Decoder) (a b : Bytes) : (d.feed a).feed b = d.feed (a ++ b) := by
  rw [feed, feed, feed, List.append_assoc]

/-- Octets leave a decoder only with a message. -/
theorem next_snd_of_none {d d' : Decoder} (h : d.next = (.ok none, d')) : d' = d := by
  unfold next at h
  split at h <;> cases h
  rfl

/-- A fault leaves the decoder as it is. -/
theorem next_snd_of_error {d d' : Decoder} {fault : Error} (h : d.next = (.error fault, d')) : d' = d := by
  unfold next at h
  split at h <;> cases h
  rfl

/-- The message taken next stays the same when more octets follow. -/
theorem next_feed_of_message {d d' : Decoder} {message : List Bytes} (h : d.next = (.ok (some message), d'))
    (more : Bytes) : (d.feed more).next = (.ok (some message), d'.feed more) := by
  unfold next at h
  split at h <;> cases h
  rename_i rest hmessage
  have happend := takeMessage?_append (s := d.buffer) (by rw [hmessage]; simp) more
  rw [hmessage] at happend
  unfold next
  rw [show (d.feed more).buffer = d.buffer ++ more from rfl, happend]
  rfl

/-- A fault stays the same when more octets follow. -/
theorem next_feed_of_error {d d' : Decoder} {fault : Error} (h : d.next = (.error fault, d')) (more : Bytes) :
    (d.feed more).next = (.error fault, d.feed more) := by
  unfold next at h
  split at h <;> cases h
  rename_i hfault
  have happend := takeMessage?_append (s := d.buffer) (by rw [hfault]; simp) more
  rw [hfault] at happend
  unfold next
  rw [show (d.feed more).buffer = d.buffer ++ more from rfl, happend]
  rfl

/-- A message takes octets. -/
theorem buffered_of_message {d d' : Decoder} {message : List Bytes} (h : d.next = (.ok (some message), d')) :
    d'.buffered < d.buffered := by
  unfold next at h
  split at h <;> cases h
  rename_i rest hmessage
  obtain ⟨octets, hencode, hbuffer⟩ := takeMessage?_eq_some hmessage
  have hpos := List.length_pos_iff.2 (encode_ne_nil hencode)
  rw [buffered, buffered, hbuffer, List.length_append]
  show rest.length < octets.length + rest.length
  omega

/-! ## All that can be taken -/

/-- Taken one by one until there is none, a decoder's messages are these; that is because of a fault if one is given, and
for want of octets otherwise, and it leaves this decoder. -/
inductive Yields : Decoder → List (List Bytes) → Option Error → Decoder → Prop
  | missing {d d' : Decoder} (h : d.next = (.ok none, d')) : Yields d [] none d'
  | fault {d d' : Decoder} {e : Error} (h : d.next = (.error e, d')) : Yields d [] (some e) d'
  | message {d d' last : Decoder} {message : List Bytes} {later : List (List Bytes)} {fault : Option Error}
    (h : d.next = (.ok (some message), d')) (rest : Yields d' later fault last) : Yields d (message :: later) fault last

/-- Taking as many messages as there are octets, and one more, takes all. -/
theorem yields_drain {d : Decoder} {fuel : Nat} (h : d.buffered < fuel) :
    Yields d (d.drain fuel).1 (d.drain fuel).2.1 (d.drain fuel).2.2 := by
  induction fuel generalizing d with
  | zero => exact absurd h (Nat.not_lt_zero _)
  | succ fuel ih =>
    rw [drain]
    split
    · rename_i hnext
      exact .fault hnext
    · rename_i hnext
      exact .missing hnext
    · rename_i message d' hnext
      have hless := buffered_of_message hnext
      exact .message hnext (ih (by omega))

/-- What is taken from a decoder is what it yields. -/
theorem yields_takeAll (d : Decoder) : Yields d d.takeAll.1 d.takeAll.2.1 d.takeAll.2.2 :=
  yields_drain (Nat.lt_succ_self _)

namespace Yields

variable {d d' : Decoder} {messages : List (List Bytes)} {fault : Option Error}

/-- What a decoder yields is determined. -/
theorem unique (h : Yields d messages fault d') {messages' : List (List Bytes)} {fault' : Option Error} {d'' : Decoder}
    (h' : Yields d messages' fault' d'') : messages = messages' ∧ fault = fault' ∧ d' = d'' := by
  induction h generalizing messages' fault' d'' with
  | missing hnext =>
    cases h' with
    | missing hnext' =>
      rw [hnext] at hnext'
      cases hnext'
      exact ⟨rfl, rfl, rfl⟩
    | fault hnext' | message hnext' =>
      rw [hnext] at hnext'
      cases hnext'
  | fault hnext =>
    cases h' with
    | fault hnext' =>
      rw [hnext] at hnext'
      cases hnext'
      exact ⟨rfl, rfl, rfl⟩
    | missing hnext' | message hnext' =>
      rw [hnext] at hnext'
      cases hnext'
  | message hnext _ ih =>
    cases h' with
    | message hnext' rest' =>
      rw [hnext] at hnext'
      cases hnext'
      obtain ⟨rfl, rfl, rfl⟩ := ih rest'
      exact ⟨rfl, rfl, rfl⟩
    | missing hnext' | fault hnext' =>
      rw [hnext] at hnext'
      cases hnext'

/-- Octets that arrive later are looked at later: what is yielded up to now comes first. -/
theorem append (h : Yields d messages fault d') {more : Bytes} {later : List (List Bytes)} {fault' : Option Error}
    {last : Decoder} (hlater : Yields (d'.feed more) later fault' last) :
    Yields (d.feed more) (messages ++ later) fault' last := by
  induction h with
  | missing hnext =>
    rw [next_snd_of_none hnext] at hlater
    exact hlater
  | fault hnext =>
    rw [next_snd_of_error hnext] at hlater
    exact hlater
  | message hnext _ ih => exact .message (next_feed_of_message hnext more) (ih hlater)

/-- After a fault nothing more comes, whatever follows. -/
theorem append_of_fault {e : Error} (h : Yields d messages (some e) d') (more : Bytes) :
    Yields (d.feed more) messages (some e) (d'.feed more) := by
  generalize hfault : some e = fault at h
  induction h with
  | missing => cases hfault
  | fault hnext =>
    cases hfault
    have hsame := next_snd_of_error hnext
    subst hsame
    exact .fault (next_feed_of_error hnext more)
  | message hnext _ ih => exact .message (next_feed_of_message hnext more) (ih hfault)

/-- What encodes messages yields them, and then what follows yields. -/
theorem of_encoded {messages later : List (List Bytes)} {encoded : List Bytes} (h : messages.mapM encode = .ok encoded)
    {tail : Bytes} {fault : Option Error} {last : Decoder} (htail : Yields (fresh.feed tail) later fault last) :
    Yields (fresh.feed (encoded.flatten ++ tail)) (messages ++ later) fault last := by
  induction messages generalizing encoded with
  | nil =>
    cases h
    exact htail
  | cons message messages ih =>
    rw [List.mapM_cons] at h
    cases hmessage : encode message with
    | error e =>
      rw [hmessage] at h
      cases h
    | ok octets =>
      rw [hmessage] at h
      cases hmessages : messages.mapM encode with
      | error e =>
        rw [hmessages] at h
        cases h
      | ok rest =>
        rw [hmessages] at h
        cases h
        have hfirst : (fresh.feed ((octets :: rest).flatten ++ tail)).next =
            (.ok (some message), fresh.feed (rest.flatten ++ tail)) := by
          unfold next
          rw [show (fresh.feed ((octets :: rest).flatten ++ tail)).buffer = octets ++ (rest.flatten ++ tail) from
            List.append_assoc _ _ _, takeMessage?_encode hmessage]
          rfl
        exact .message hfirst (ih hmessages)

end Yields

/-! ## Pieces -/

/-- Feeds the pieces of a stream to a decoder, and takes all messages there are after each of them: the messages, the
fault that ended the last taking if there was one, and the decoder that is left. -/
def receive (pieces : List Bytes) : List (List Bytes) × Option Error × Decoder :=
  pieces.foldl (fun received octets =>
    let taken := (received.2.2.feed octets).takeAll
    (received.1 ++ taken.1, taken.2)) ([], none, fresh)

theorem receive_snoc (pieces : List Bytes) (octets : Bytes) :
    receive (pieces ++ [octets]) =
      ((receive pieces).1 ++ ((receive pieces).2.2.feed octets).takeAll.1,
        ((receive pieces).2.2.feed octets).takeAll.2) := by
  rw [receive, List.foldl_append]
  rfl

/-- What was received in pieces is what the whole stream yields. -/
theorem yields_receive (pieces : List Bytes) :
    Yields (fresh.feed pieces.flatten) (receive pieces).1 (receive pieces).2.1 (receive pieces).2.2 := by
  induction pieces using List.reverseRecOn with
  | nil => exact .missing rfl
  | append_singleton pieces octets ih =>
    rw [receive_snoc, List.flatten_append, List.flatten_singleton, ← feed_feed]
    exact ih.append (yields_takeAll _)

/-- What can be done to a decoder. -/
inductive Operation
  | feed (octets : Bytes)
  | next

/-- The octets that are fed in the course of some operations. -/
def octetsFed : List Operation → Bytes
  | [] => []
  | .feed octets :: ops => octets ++ octetsFed ops
  | .next :: ops => octetsFed ops

/-- Carries operations out; answers the messages obtained. -/
def run (d : Decoder) : List Operation → List (List Bytes) × Decoder
  | [] => ([], d)
  | .feed octets :: ops => (d.feed octets).run ops
  | .next :: ops =>
    match d.next with
    | (.ok (some message), d) => (message :: (d.run ops).1, (d.run ops).2)
    | (_, d) => d.run ops

/-- What was obtained comes first in what all octets yield, and the decoder that is left yields the rest. -/
theorem yields_run {d : Decoder} {ops : List Operation} {messages : List (List Bytes)} {fault : Option Error}
    {last : Decoder} (h : Yields (d.feed (octetsFed ops)) messages fault last) :
    ∃ later, messages = (d.run ops).1 ++ later ∧ Yields (d.run ops).2 later fault last := by
  induction ops generalizing d messages with
  | nil =>
    rw [octetsFed, feed_nil] at h
    exact ⟨messages, rfl, h⟩
  | cons op ops ih =>
    cases op with
    | feed octets =>
      rw [octetsFed, ← feed_feed] at h
      exact ih h
    | next =>
      rw [octetsFed] at h
      rw [run]
      split
      · rename_i message d' hnext
        have hfirst := next_feed_of_message hnext (octetsFed ops)
        cases h with
        | message hnext' rest =>
          rw [hfirst] at hnext'
          cases hnext'
          obtain ⟨later, rfl, hlater⟩ := ih rest
          exact ⟨later, rfl, hlater⟩
        | missing hnext' | fault hnext' =>
          rw [hfirst] at hnext'
          cases hnext'
      · rename_i answer d' hanswer hnext
        have hsame : d' = d := by
          cases answer with
          | error e => exact next_snd_of_error hnext
          | ok taken =>
            cases taken with
            | none => exact next_snd_of_none hnext
            | some message => exact absurd rfl (hanswer message)
        rw [hsame]
        exact ih h

end Decoder

open Decoder

/-- A stream is reassembled, however it arrives. Let it be made of messages as they are encoded and of any octets behind
them.
1. Taking all from a decoder is taking the next message until there is none or a fault.
2. If the stream arrives in pieces and all is taken after each of them, the messages come out, then those that a fresh
decoder takes from the octets behind them, and then it ends as that decoder ends, with the same octets left.
3. A fault that comes up after some pieces is the one that comes up after all further ones, and no message comes after
it.
4. Whatever part of the stream has been fed, and however often a message was asked for in between, what has been obtained
is the beginning of what comes out in all. -/
theorem stream_reassembled (messages : List (List Bytes)) (encoded : List Bytes)
    (h : messages.mapM encode = .ok encoded) (tail : Bytes) :
    (∀ d : Decoder, d.Yields d.takeAll.1 d.takeAll.2.1 d.takeAll.2.2) ∧
    (∀ pieces : List Bytes, pieces.flatten = encoded.flatten ++ tail →
      receive pieces = (messages ++ (fresh.feed tail).takeAll.1, (fresh.feed tail).takeAll.2)) ∧
    (∀ early late fault, (receive early).2.1 = some fault →
      (receive (early ++ late)).1 = (receive early).1 ∧ (receive (early ++ late)).2.1 = some fault) ∧
    ∀ ops, octetsFed ops <+: encoded.flatten ++ tail →
      (fresh.run ops).1 <+: messages ++ (fresh.feed tail).takeAll.1 := by
  have hwhole := Yields.of_encoded h (fresh.feed tail).yields_takeAll
  refine ⟨yields_takeAll, fun pieces hpieces => ?_, fun early late fault hfault => ?_, fun ops hops => ?_⟩
  · have hreceived := yields_receive pieces
    rw [hpieces] at hreceived
    obtain ⟨hmessages, hfault, hleft⟩ := hreceived.unique hwhole
    exact Prod.ext hmessages (Prod.ext hfault hleft)
  · have hearly := yields_receive early
    rw [hfault] at hearly
    have hlate := hearly.append_of_fault late.flatten
    rw [feed_feed, ← List.flatten_append] at hlate
    obtain ⟨hmessages, hsame, -⟩ := (yields_receive (early ++ late)).unique hlate
    exact ⟨hmessages, hsame⟩
  · obtain ⟨rest, hrest⟩ := hops
    have hfed := (fresh.feed (octetsFed ops)).yields_takeAll
    obtain ⟨later, hobtained, -⟩ := yields_run hfed
    have hall := hfed.append (yields_takeAll (((fresh.feed (octetsFed ops)).takeAll.2.2).feed rest))
    rw [feed_feed, hrest] at hall
    obtain ⟨hmessages, -, -⟩ := hall.unique hwhole
    rw [← hmessages, hobtained, List.append_assoc]
    exact List.prefix_append _ _

/-- Two messages arrive octet by octet, and then a word that numbers no parts. -/
theorem stream_reassembled_sample :
    [[[97], []], [[98]]].mapM encode =
        .ok [[0, 0, 0, 2, 0, 0, 0, 1, 97, 0, 0, 0, 0], [0, 0, 0, 1, 0, 0, 0, 1, 98]] ∧
      receive ([0, 0, 0, 2, 0, 0, 0, 1, 97, 0, 0, 0, 0, 0, 0, 0, 1, 0, 0, 0, 1, 98, 0, 0, 0, 0].map ([·])) =
        ([[[97], []], [[98]]], some (.partCount 0), ⟨[0, 0, 0, 0]⟩) := by
  have hencode : [[[97], []], [[98]]].mapM encode =
      .ok [[0, 0, 0, 2, 0, 0, 0, 1, 97, 0, 0, 0, 0], [0, 0, 0, 1, 0, 0, 0, 1, 98]] := by decide
  exact ⟨hencode, (stream_reassembled _ _ hencode [0, 0, 0, 0]).2.1 _ (by decide)⟩

end FrameMerge.Wire
