import FrameMerge.Proofs.Reassembly
import Mathlib.Data.List.Infix

/-!
# The grammar of the wire

A decoder accepts what is encoded and nothing else (`Wire.decoder_accepts_encodings`). Of the octets that wait in it there
are three kinds. Some have a message in front of them, and only one. Some can come to have one when more octets follow
(`Wire.CanBegin`); for these the decoder waits, and it never holds more of them than the longest message has. All others
are refused: perhaps not at once, since a length is not looked at before its last octet has come, but before three more
octets have come (`Wire.canBegin_of_missing`).
-/

namespace FrameMerge.Wire

/-- A message stands at the front of these octets, or can come to stand there when more octets follow. -/
def CanBegin (s : Bytes) : Prop := ∃ parts octets more, encode parts = .ok octets ∧ octets <+: s ++ more

/-- What begins a beginning of messages begins messages too. -/
theorem CanBegin.of_isPrefix {s t : Bytes} (h : CanBegin t) (hst : s <+: t) : CanBegin s := by
  obtain ⟨parts, octets, more, hencode, hprefix⟩ := h
  obtain ⟨rest, rfl⟩ := hst
  exact ⟨parts, octets, rest ++ more, hencode, by rwa [List.append_assoc] at hprefix⟩

/-- Octets at the front of a message can begin one. -/
theorem canBegin_of_isPrefix {parts : List Bytes} {octets s : Bytes} (h : encode parts = .ok octets) (hs : s <+: octets) :
    CanBegin s := by
  obtain ⟨more, rfl⟩ := hs
  exact ⟨parts, _, more, h, List.prefix_rfl⟩

/-! ## Encodings -/

theorem length_word (n : Nat) : (word n).length = 4 := rfl

theorem encodeParts_cons {part : Bytes} {rest : List Bytes} {encoded : Bytes} (h : part.length ≤ maxPartBytes)
    (hrest : encodeParts rest = .ok encoded) :
    encodeParts (part :: rest) = .ok (word part.length ++ (part ++ encoded)) := by
  rw [encodeParts, if_neg (Nat.not_lt.2 h), hrest]
  rfl

theorem encode_of_encodeParts {parts : List Bytes} {encoded : Bytes} (h : encodeParts parts = .ok encoded)
    (hsome : 0 < parts.length) (hle : parts.length ≤ maxParts) : encode parts = .ok (word parts.length ++ encoded) := by
  have hcount : ¬(parts.length = 0 || maxParts < parts.length) = true := by
    simp only [Bool.or_eq_true, decide_eq_true_eq]
    omega
  rw [encode, if_neg hcount, h]
  rfl

/-- There are parts of every number that can be encoded. -/
theorem exists_encodeParts (count : Nat) :
    ∃ parts encoded, parts.length = count ∧ encodeParts parts = .ok encoded := by
  induction count with
  | zero => exact ⟨[], [], rfl, rfl⟩
  | succ count ih =>
    obtain ⟨parts, encoded, hlength, hencoded⟩ := ih
    exact ⟨[] :: parts, _, congrArg (· + 1) hlength, encodeParts_cons (Nat.zero_le _) hencoded⟩

/-! ## Missing octets -/

/-- A word is missing only if fewer than four octets are there. -/
theorem takeWord?_eq_none {s : Bytes} (h : takeWord? s = none) : s.length < 4 := by
  unfold takeWord? at h
  split at h
  · cases h
  · rename_i hshort
    rcases s with _ | ⟨a, _ | ⟨b, _ | ⟨c, _ | ⟨d, rest⟩⟩⟩⟩
    · simp
    · simp
    · simp
    · simp
    · exact absurd rfl (hshort a b c d rest)

/-- Where octets of some parts are missing, they are missing in the length of the first part, in the first part or in the
parts behind it. -/
theorem takeParts?_missing {count : Nat} {s : Bytes} (h : takeParts? (count + 1) s = .ok none) :
    s.length < 4 ∨ ∃ length rest, s = word length ++ rest ∧ length ≤ maxPartBytes ∧
      (rest.length < length ∨ length ≤ rest.length ∧ takeParts? count (rest.drop length) = .ok none) := by
  rw [takeParts?] at h
  split at h
  · rename_i hword
    exact Or.inl (takeWord?_eq_none hword)
  · rename_i length rest hword
    split at h
    · cases h
    · rename_i hlimit
      refine Or.inr ⟨length, rest, takeWord?_eq_some hword, Nat.not_lt.1 hlimit, ?_⟩
      split at h
      · rename_i hshort
        exact Or.inl hshort
      · rename_i henough
        refine Or.inr ⟨Nat.not_lt.1 henough, ?_⟩
        cases htaken : takeParts? count (rest.drop length) with
        | error e =>
          rw [htaken] at h
          cases h
        | ok taken =>
          cases taken with
          | none => rfl
          | some taken =>
            rw [htaken] at h
            cases h

/-- Where octets of a message are missing, they are missing in the number of its parts or in its parts. -/
theorem takeMessage?_missing {s : Bytes} (h : takeMessage? s = .ok none) :
    s.length < 4 ∨ ∃ count rest, s = word count ++ rest ∧ 0 < count ∧ count ≤ maxParts ∧
      takeParts? count rest = .ok none := by
  rw [takeMessage?] at h
  split at h
  · rename_i hword
    exact Or.inl (takeWord?_eq_none hword)
  · rename_i count rest hword
    split at h
    · cases h
    · rename_i hcount
      simp only [Bool.or_eq_true, decide_eq_true_eq, not_or] at hcount
      exact Or.inr ⟨count, rest, takeWord?_eq_some hword, Nat.pos_iff_ne_zero.2 hcount.1, Nat.not_lt.1 hcount.2, h⟩

/-- Octets of some parts that are still incomplete are fewer than these parts can have. -/
theorem length_of_missing_parts {count : Nat} {s : Bytes} (h : takeParts? count s = .ok none) :
    s.length < count * (4 + maxPartBytes) := by
  induction count generalizing s with
  | zero => cases h
  | succ count ih =>
    rw [Nat.succ_mul]
    rcases takeParts?_missing h with hshort | ⟨length, rest, rfl, hlimit, hmissing⟩
    · omega
    · rw [List.length_append, length_word]
      rcases hmissing with hshort | ⟨henough, hlater⟩
      · omega
      · have hlength := ih hlater
        rw [List.length_drop] at hlength
        omega

/-- What is cut off behind octets that go on can be cut off where they go on. -/
theorem take_append_isPrefix (front s : Bytes) (cut : Nat) :
    (front ++ s).take ((front ++ s).length - cut) <+: front ++ s.take (s.length - cut) := by
  rw [List.length_append, List.take_append]
  by_cases hcut : cut ≤ s.length
  · have hrest : front.length + s.length - cut - front.length = s.length - cut := by omega
    rw [List.take_of_length_le (by omega), hrest]
  · rw [show front.length + s.length - cut - front.length = 0 by omega, List.take_zero, List.append_nil]
    exact (List.take_prefix _ _).trans (List.prefix_append _ _)

/-- All but the last three of the octets of some parts that are still incomplete begin such parts. The last three may be
those of a length that turns out to be none. -/
theorem exists_parts_of_missing {count : Nat} {s : Bytes} (h : takeParts? count s = .ok none) :
    ∃ parts encoded, parts.length = count ∧ encodeParts parts = .ok encoded ∧ s.take (s.length - 3) <+: encoded := by
  induction count generalizing s with
  | zero => cases h
  | succ count ih =>
    rcases takeParts?_missing h with hshort | ⟨length, rest, rfl, hlimit, hmissing⟩
    · obtain ⟨parts, encoded, hlength, hencoded⟩ := exists_encodeParts (count + 1)
      refine ⟨parts, encoded, hlength, hencoded, ?_⟩
      rw [show s.length - 3 = 0 by omega, List.take_zero]
      exact List.nil_prefix
    · rcases hmissing with hshort | ⟨henough, hlater⟩
      · -- the part is filled up to its length, and empty ones follow
        obtain ⟨parts, encoded, hlength, hencoded⟩ := exists_encodeParts count
        have hfull : (rest ++ List.replicate (length - rest.length) 0).length = length := by
          rw [List.length_append, List.length_replicate]
          omega
        refine ⟨(rest ++ List.replicate (length - rest.length) 0) :: parts, _, congrArg (· + 1) hlength,
          encodeParts_cons (by omega) hencoded, ?_⟩
        rw [hfull, List.append_assoc, ← List.append_assoc (word length)]
        exact (List.take_prefix _ _).trans (List.prefix_append _ _)
      · obtain ⟨parts, encoded, hlength, hencoded, hprefix⟩ := ih hlater
        have hfull : (rest.take length).length = length := List.length_take_of_le henough
        refine ⟨rest.take length :: parts, _, congrArg (· + 1) hlength, encodeParts_cons (by omega) hencoded, ?_⟩
        have hsplit : word length ++ rest = (word length ++ rest.take length) ++ rest.drop length := by
          rw [List.append_assoc, List.take_append_drop]
        rw [hfull, hsplit, ← List.append_assoc (word length)]
        exact (take_append_isPrefix _ _ 3).trans ((List.prefix_append_right_inj _).2 hprefix)

/-- All but the last three of the octets for which a decoder waits can begin a message. -/
theorem canBegin_of_missing {s : Bytes} (h : takeMessage? s = .ok none) : CanBegin (s.take (s.length - 3)) := by
  rcases takeMessage?_missing h with hshort | ⟨count, rest, rfl, hsome, hle, hmissing⟩
  · have hencode : encode [[]] = .ok [0, 0, 0, 1, 0, 0, 0, 0] := by decide
    refine canBegin_of_isPrefix hencode ?_
    rw [show s.length - 3 = 0 by omega, List.take_zero]
    exact List.nil_prefix
  · obtain ⟨parts, encoded, rfl, hencoded, hprefix⟩ := exists_parts_of_missing hmissing
    refine canBegin_of_isPrefix (encode_of_encodeParts hencoded hsome hle) ?_
    exact (take_append_isPrefix _ _ 3).trans ((List.prefix_append_right_inj _).2 hprefix)

namespace Decoder

/-! ## What comes next -/

variable {d d' : Decoder}

/-- The next message is the one that stands in front, and what stands behind it is left. -/
theorem next_eq_message_iff {parts : List Bytes} :
    d.next = (.ok (some parts), d') ↔ ∃ octets, encode parts = .ok octets ∧ d.buffer = octets ++ d'.buffer := by
  constructor
  · intro h
    unfold next at h
    split at h <;> cases h
    rename_i rest hmessage
    exact takeMessage?_eq_some hmessage
  · rintro ⟨octets, hencode, hbuffer⟩
    unfold next
    rw [hbuffer, takeMessage?_encode hencode]

/-- Nothing that is refused can begin a message. -/
theorem not_canBegin_of_error {e : Error} (h : d.next = (.error e, d')) : ¬CanBegin d.buffer := by
  rintro ⟨parts, octets, more, hencode, rest, hprefix⟩
  have hmessage : (d.feed more).next = (.ok (some parts), ⟨rest⟩) :=
    next_eq_message_iff.2 ⟨octets, hencode, hprefix.symm⟩
  rw [next_feed_of_error h more] at hmessage
  cases hmessage

/-- A decoder that gives nothing has found nothing to be wrong. -/
theorem takeMessage?_of_none (h : d.next = (.ok none, d')) : takeMessage? d.buffer = .ok none := by
  unfold next at h
  split at h
  · cases h
  · rename_i hmissing
    exact hmissing
  · cases h

/-- What cannot begin a message is refused, at the latest when three more octets have come. -/
theorem error_of_not_canBegin (h : ¬CanBegin d.buffer) {more : Bytes} (hmore : 3 ≤ more.length) :
    ∃ e, (d.feed more).next = (.error e, d.feed more) := by
  cases hnext : (d.feed more).next with
  | mk answer left =>
    cases answer with
    | error e => exact ⟨e, by rw [next_snd_of_error hnext]⟩
    | ok taken =>
      refine absurd ?_ h
      cases taken with
      | some parts =>
        obtain ⟨octets, hencode, hbuffer⟩ := next_eq_message_iff.1 hnext
        exact ⟨parts, octets, more, hencode, left.buffer, hbuffer.symm⟩
      | none =>
        refine (canBegin_of_missing (takeMessage?_of_none hnext)).of_isPrefix ?_
        have hfed : (d.feed more).buffer = d.buffer ++ more := rfl
        rw [hfed, List.prefix_take_iff, List.length_append]
        exact ⟨List.prefix_append _ _, by omega⟩

/-- Octets for which a decoder waits are fewer than the longest message has. -/
theorem buffered_of_none (h : d.next = (.ok none, d')) : d.buffered < 4 + maxParts * (4 + maxPartBytes) := by
  show d.buffer.length < _
  rcases takeMessage?_missing (takeMessage?_of_none h) with hshort | ⟨count, rest, hbuffer, -, hle, hmissing⟩
  · omega
  · have hlength := length_of_missing_parts hmissing
    have hmost := Nat.mul_le_mul_right (4 + maxPartBytes) hle
    rw [hbuffer, List.length_append, length_word]
    omega

/-- No two encodings stand at the front of the same octets. -/
theorem unique_of_isPrefix {s octets octets' : Bytes} {parts parts' : List Bytes} (hencode : encode parts = .ok octets)
    (hfront : octets <+: s) (hencode' : encode parts' = .ok octets') (hfront' : octets' <+: s) :
    parts = parts' ∧ octets = octets' := by
  obtain ⟨rest, hrest⟩ := hfront
  obtain ⟨rest', hrest'⟩ := hfront'
  have hnext : (⟨s⟩ : Decoder).next = (.ok (some parts), ⟨rest⟩) := next_eq_message_iff.2 ⟨octets, hencode, hrest.symm⟩
  have hnext' : (⟨s⟩ : Decoder).next = (.ok (some parts'), ⟨rest'⟩) :=
    next_eq_message_iff.2 ⟨octets', hencode', hrest'.symm⟩
  rw [hnext] at hnext'
  cases hnext'
  rw [hencode] at hencode'
  cases hencode'
  exact ⟨rfl, rfl⟩

/-- While octets of an encoding are missing, the decoder waits for them. -/
theorem next_of_proper {parts : List Bytes} {octets : Bytes} (hencode : encode parts = .ok octets)
    (hfront : d.buffer <+: octets) (hproper : d.buffer ≠ octets) : d.next = (.ok none, d) := by
  cases hnext : d.next with
  | mk answer left =>
    cases answer with
    | error e => exact absurd (canBegin_of_isPrefix hencode hfront) (not_canBegin_of_error hnext)
    | ok taken =>
      cases taken with
      | none => rw [next_snd_of_none hnext]
      | some parts' =>
        -- the rest of the encoding would stand behind another message, and be empty
        obtain ⟨more, rfl⟩ := hfront
        have hwhole : (d.feed more).next = (.ok (some parts), fresh) :=
          next_eq_message_iff.2 ⟨d.buffer ++ more, hencode, (List.append_nil _).symm⟩
        rw [next_feed_of_message hnext more, Prod.mk.injEq] at hwhole
        have hnone : left.buffer ++ more = [] := congrArg Decoder.buffer hwhole.2
        rw [(List.append_eq_nil_iff.1 hnone).2, List.append_nil] at hproper
        exact absurd rfl hproper

end Decoder

open Decoder

/-- A decoder accepts what is encoded and nothing else, whatever octets wait in it.
1. It gives a message exactly if the message's encoding stands in front; what stands behind it is left. No other message's
encoding stands there too.
2. If it gives no message, all octets are left, be it because octets are missing or because of a fault.
3. It waits if some but not all octets of an encoding are there.
4. After a fault, no further octets bring an encoding to the front. If no further octets can do that, there is a fault when
three or more of them have come.
5. The octets for which it waits are fewer than sixteen parts of sixty-four mebibytes have. -/
theorem decoder_accepts_encodings (d : Decoder) :
    ((∀ parts d', d.next = (.ok (some parts), d') ↔
        ∃ octets, encode parts = .ok octets ∧ d.buffer = octets ++ d'.buffer) ∧
      ∀ parts octets parts' octets', encode parts = .ok octets → octets <+: d.buffer → encode parts' = .ok octets' →
        octets' <+: d.buffer → parts = parts' ∧ octets = octets') ∧
    ((∀ d', d.next = (.ok none, d') → d' = d) ∧ ∀ fault d', d.next = (.error fault, d') → d' = d) ∧
    (∀ parts octets, encode parts = .ok octets → d.buffer <+: octets → d.buffer ≠ octets → d.next = (.ok none, d)) ∧
    ((∀ fault, d.next = (.error fault, d) → ¬CanBegin d.buffer) ∧
      (¬CanBegin d.buffer → ∀ more : Bytes, 3 ≤ more.length →
        ∃ fault, (d.feed more).next = (.error fault, d.feed more))) ∧
    (d.next = (.ok none, d) → d.buffered < 4 + 16 * (4 + 64 * 1024 * 1024)) := by
  refine ⟨⟨fun parts d' => next_eq_message_iff, ?_⟩, ⟨fun d' => next_snd_of_none, fun fault d' => next_snd_of_error⟩, ?_,
    ⟨fun fault => not_canBegin_of_error, fun h more => error_of_not_canBegin h⟩, buffered_of_none⟩
  · intro parts octets parts' octets' hencode hfront hencode' hfront'
    exact unique_of_isPrefix hencode hfront hencode' hfront'
  · intro parts octets hencode hfront hproper
    exact next_of_proper hencode hfront hproper

/-- The length of a part has come in half, and the decoder waits; seventeen parts it does not wait for. -/
theorem decoder_accepts_encodings_sample :
    encode [[97]] = .ok [0, 0, 0, 1, 0, 0, 0, 1, 97] ∧
      (fresh.feed [0, 0, 0, 1, 0, 0]).next = (.ok none, fresh.feed [0, 0, 0, 1, 0, 0]) ∧
      (fresh.feed [0, 0, 0, 17]).next = (.error (.partCount 17), fresh.feed [0, 0, 0, 17]) ∧
      ¬CanBegin [0, 0, 0, 17] := by
  have hencode : encode [[97]] = .ok [0, 0, 0, 1, 0, 0, 0, 1, 97] := by decide
  have hfault : (fresh.feed [0, 0, 0, 17]).next = (.error (.partCount 17), fresh.feed [0, 0, 0, 17]) := by decide
  obtain ⟨-, -, hwaits, -, -⟩ := decoder_accepts_encodings (fresh.feed [0, 0, 0, 1, 0, 0])
  obtain ⟨-, -, -, ⟨hrefused, -⟩, -⟩ := decoder_accepts_encodings (fresh.feed [0, 0, 0, 17])
  exact ⟨hencode, hwaits _ _ hencode (by decide) (by decide), hfault, hrefused _ hfault⟩

end FrameMerge.Wire
