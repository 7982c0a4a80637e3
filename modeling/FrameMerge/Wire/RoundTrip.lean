import FrameMerge.Wire

/-!
# Messages come back

What is encoded is taken off again, whatever follows it in the stream (`takeMessage?_encode`), and nothing else is taken
off (`takeMessage?_eq_some`).
-/

namespace FrameMerge.Wire

/-- The four octets of a number, as numbers. -/
theorem takeWord?_word {n : Nat} (h : n < 1 <<< 32) (rest : Bytes) : takeWord? (word n ++ rest) = some (n, rest) := by
  simp only [word, List.cons_append, List.nil_append, takeWord?, UInt8.toNat_ofNat', Option.some.injEq, Prod.mk.injEq,
    and_true]
  omega

theorem takeParts?_encodeParts {parts : List Bytes} {octets : Bytes} (h : encodeParts parts = .ok octets)
    (rest : Bytes) : takeParts? parts.length (octets ++ rest) = .ok (some (parts, rest)) := by
  induction parts generalizing octets with
  | nil =>
    cases h
    rfl
  | cons part parts ih =>
    rw [encodeParts] at h
    split at h
    · cases h
    · rename_i hlength
      cases hparts : encodeParts parts with
      | error e =>
        rw [hparts] at h
        cases h
      | ok encoded =>
        rw [hparts] at h
        cases h
        rw [List.length_cons, takeParts?, List.append_assoc, takeWord?_word (by rw [maxPartBytes] at hlength; omega)]
        simp only [if_neg hlength]
        rw [if_neg (by simp), List.append_assoc, List.drop_left, List.take_left, ih hparts]
        rfl

/-- A message at the front of a stream is taken off whole, and what follows is left. -/
theorem takeMessage?_encode {parts : List Bytes} {octets : Bytes} (h : encode parts = .ok octets) (rest : Bytes) :
    takeMessage? (octets ++ rest) = .ok (some (parts, rest)) := by
  rw [encode] at h
  split at h
  · cases h
  · rename_i hcount
    rw [Bool.or_eq_true, decide_eq_true_eq, decide_eq_true_eq, not_or, Nat.not_lt] at hcount
    obtain ⟨hne, hle⟩ := hcount
    rw [maxParts] at hle
    cases hparts : encodeParts parts with
    | error e =>
      rw [hparts] at h
      cases h
    | ok encoded =>
      rw [hparts] at h
      cases h
      rw [takeMessage?, List.append_assoc, takeWord?_word (by omega)]
      simp only
      rw [if_neg (by rw [Bool.or_eq_true, decide_eq_true_eq, decide_eq_true_eq, maxParts]; omega)]
      exact takeParts?_encodeParts hparts rest

/-! ## Only messages are taken off -/

/-- A number is taken off as the four octets that write it. -/
theorem takeWord?_eq_some {s rest : Bytes} {n : Nat} (h : takeWord? s = some (n, rest)) : s = word n ++ rest := by
  unfold takeWord? at h
  split at h
  · rename_i a b c d rest'
    simp only [Option.some.injEq, Prod.mk.injEq] at h
    obtain ⟨rfl, rfl⟩ := h
    have ha := a.toNat_lt
    have hb := b.toNat_lt
    have hc := c.toNat_lt
    have hd := d.toNat_lt
    simp only [word, List.cons_append, List.nil_append, List.cons.injEq, and_true, ← UInt8.toNat_inj,
      UInt8.toNat_ofNat', Nat.shiftRight_eq_div_pow]
    omega
  · cases h

/-- Parts are taken off as the octets that they are written in. -/
theorem takeParts?_eq_some {count : Nat} {s rest : Bytes} {parts : List Bytes}
    (h : takeParts? count s = .ok (some (parts, rest))) :
    parts.length = count ∧ ∃ octets, encodeParts parts = .ok octets ∧ s = octets ++ rest := by
  induction count generalizing s parts with
  | zero =>
    rw [takeParts?] at h
    cases h
    exact ⟨rfl, [], rfl, rfl⟩
  | succ count ih =>
    rw [takeParts?] at h
    split at h
    · cases h
    · rename_i length octets hword
      split at h
      · cases h
      · rename_i hlimit
        split at h
        · cases h
        · rename_i henough
          cases htaken : takeParts? count (octets.drop length) with
          | error e =>
            rw [htaken] at h
            cases h
          | ok taken =>
            rw [htaken] at h
            cases taken with
            | none => cases h
            | some taken =>
              cases h
              obtain ⟨hcount, encoded, hencoded, hrest⟩ := ih htaken
              have hlength : (octets.take length).length = length := by
                rw [List.length_take]
                omega
              refine ⟨congrArg (· + 1) hcount, word length ++ (octets.take length ++ encoded), ?_, ?_⟩
              · rw [encodeParts, hlength, if_neg hlimit, hencoded]
                rfl
              · rw [takeWord?_eq_some hword, List.append_assoc, List.append_assoc, ← hrest, List.take_append_drop]

/-- A message is taken off as the octets that it is written in. -/
theorem takeMessage?_eq_some {s rest : Bytes} {parts : List Bytes} (h : takeMessage? s = .ok (some (parts, rest))) :
    ∃ octets, encode parts = .ok octets ∧ s = octets ++ rest := by
  rw [takeMessage?] at h
  split at h
  · cases h
  · rename_i count octets hword
    split at h
    · cases h
    · rename_i hcount
      obtain ⟨rfl, encoded, hencoded, hrest⟩ := takeParts?_eq_some h
      refine ⟨word parts.length ++ encoded, ?_, ?_⟩
      · rw [encode, if_neg hcount, hencoded]
        rfl
      · rw [takeWord?_eq_some hword, hrest, List.append_assoc]

/-- No message is written in no octets. -/
theorem encode_ne_nil {parts : List Bytes} {octets : Bytes} (h : encode parts = .ok octets) : octets ≠ [] := by
  rw [encode] at h
  split at h
  · cases h
  · cases hparts : encodeParts parts with
    | error e =>
      rw [hparts] at h
      cases h
    | ok encoded =>
      rw [hparts] at h
      cases h
      exact List.cons_ne_nil _ _

end FrameMerge.Wire
