import FrameMerge.Proofs.Entries
import FrameMerge.Proofs.Rereading
import Mathlib.Order.MinMax

/-!
# Headers survive their encoding

A header that holds no fraction and is nested no deeper than the reader goes is read back from its octets, with the same
fields at every level and the same number (`header_reencodes`). Its fields are read back because they are a value
(`Json.read_encode`) and stay as they are because they are canonical; the number comes out right because a header is
determined by its fields. No header that is decoded is nested too deep: normal forms only lose fields.
-/

namespace FrameMerge

namespace Json

mutual

/-- The canonical form of a value is nested no deeper than the value: fields may be dropped, and nothing is wrapped. -/
theorem nesting_normalize_le : (v : Json) → v.normalize.nesting ≤ v.nesting
  | .null => Nat.le_refl _
  | .bool _ => Nat.le_refl _
  | .number _ => Nat.le_refl _
  | .string _ => Nat.le_refl _
  | .array items => Nat.succ_le_succ (nestingItems_normalize_le items)
  | .object fields => by
    refine Nat.succ_le_succ (nestingFields_le_iff.2 fun field hfield => ?_)
    exact nestingFields_le_iff.1 (nestingFields_normalize_le fields) field (mem_of_mem_sortFields hfield)

/-- The same of the items of an array. -/
theorem nestingItems_normalize_le : (items : List Json) → nestingItems (normalizeItems items) ≤ nestingItems items
  | [] => Nat.le_refl _
  | item :: rest => max_le_max (nesting_normalize_le item) (nestingItems_normalize_le rest)

/-- The same of the values of fields. -/
theorem nestingFields_normalize_le : (fields : List (String × Json)) →
    nestingFields (normalizeFields fields) ≤ nestingFields fields
  | [] => Nat.le_refl _
  | (_, value) :: rest => max_le_max (nesting_normalize_le value) (nestingFields_normalize_le rest)

end

end Json

namespace Header

/-- A header is determined by its fields. -/
theorem ext_fields {h h' : Header} (heq : h.fields = h'.fields) : h = h' := by
  obtain ⟨fields, number, canonical, n, hfind, hn⟩ := h
  obtain ⟨fields', number', canonical', n', hfind', hn'⟩ := h'
  subst heq
  rw [hfind] at hfind'
  cases hfind'
  have hnumber : number = number' := Int.ofNat_inj.1 (hn.symm.trans hn')
  subst hnumber
  rfl

/-- The header that a canonical value makes has the fields of the value. -/
theorem eq_object_of_ofCanonical {v : Json} {hv : v.Canonical} {h : Header} (hmake : ofCanonical v hv = .ok h) :
    v = h.toJson := by
  unfold ofCanonical at hmake
  split at hmake
  · split at hmake
    · cases hmake
    · split at hmake
      · cases hmake
        rfl
      · cases hmake
    · cases hmake
  · cases hmake

/-- The fields of a header make a header. -/
theorem ofCanonical_toJson (h : Header) : ∃ h', ofCanonical h.toJson h.canonical = .ok h' := by
  obtain ⟨n, hfind, hn⟩ := h.numbered
  unfold ofCanonical toJson
  simp only
  split
  · rename_i hnone
    rw [hfind] at hnone
    cases hnone
  · rename_i n' hsome
    rw [hfind] at hsome
    cases hsome
    split
    · exact ⟨_, rfl⟩
    · rename_i hnegative
      exact absurd (hn ▸ Int.natCast_nonneg h.frameNumber) hnegative
  · rename_i v hother hsome
    rw [hfind] at hsome
    cases hsome
    exact (hother n rfl).elim

/-- A header is read back from its value. -/
theorem ofValue_toJson (h : Header) : ofValue h.toJson = .ok h := by
  have hsame : ofValue h.toJson = ofCanonical h.toJson h.canonical := by
    unfold ofValue
    congr
    exact Json.normalize_of_canonical h.toJson h.canonical
  obtain ⟨h', hmake⟩ := ofCanonical_toJson h
  have hfields : h.toJson = h'.toJson := eq_object_of_ofCanonical hmake
  rw [hsame, hmake, ext_fields (Json.object.inj hfields)]

/-- No fraction stands in the header at any depth, and it is nested no deeper than a reader goes. -/
structure Plain (h : Header) : Prop where
  fractionless : h.toJson.Fractionless
  nesting : h.toJson.nesting ≤ 127

/-- A header is read back from its octets, if the format can hold what is in it. -/
theorem decode_encode {h : Header} (hplain : h.Plain) : decode h.encode = .ok h := by
  have hread := Json.read_encode hplain.fractionless hplain.nesting
  unfold decode encode
  rw [hread]
  exact ofValue_toJson h

/-- No header that is decoded is nested deeper than a reader goes. -/
theorem nesting_of_decode {raw : Bytes} {h : Header} (hdecode : decode raw = .ok h) : h.toJson.nesting ≤ 127 := by
  unfold decode at hdecode
  split at hdecode
  · cases hdecode
  · rename_i v hread
    have hfields := eq_object_of_ofCanonical hdecode
    rw [← hfields]
    exact Nat.le_trans (Json.nesting_normalize_le v) (Json.nesting_of_read hread)

end Header

/-- Headers without fractions, nested no deeper than 127 levels, survive their encoding and are told apart by it; among
them are all headers without fractions that are decoded. -/
theorem header_reencodes (h : Header) (hplain : h.Plain) :
    Header.decode h.encode = .ok h ∧
      (∀ h' : Header, h'.Plain → (h'.encode = h.encode ↔ h' = h)) ∧
      ∀ (raw : Bytes) (h' : Header), Header.decode raw = .ok h' → h'.toJson.Fractionless → h'.Plain := by
  refine ⟨Header.decode_encode hplain, ?_, ?_⟩
  · intro h' hplain'
    constructor
    · intro heq
      have hdecode := Header.decode_encode hplain'
      rw [heq, Header.decode_encode hplain] at hdecode
      exact (Except.ok.inj hdecode).symm
    · intro heq
      rw [heq]
  · intro raw h' hdecode hfree
    exact ⟨hfree, Header.nesting_of_decode hdecode⟩

namespace Sample

/-- A header of the greatest number, with a name that needs escapes, the least whole number, and containers that are empty
or hold others. -/
def escaped : Header where
  fields :=
    [("\"\\\x01é", .string "\n𝄞"),
      ("empty", .array [.object [], .array []]),
      ("frame_num", .number (.whole ⟨18446744073709551615, by decide⟩)),
      ("nested", .object [("", .number (.whole ⟨-9223372036854775808, by decide⟩)), ("b", .null)])]
  frameNumber := 18446744073709551615
  canonical := by simp only [Json.Canonical, Json.CanonicalFields, Json.CanonicalItems]; decide +kernel
  numbered := ⟨⟨18446744073709551615, by decide⟩, rfl, rfl⟩

theorem escaped_plain : escaped.Plain where
  fractionless := by simp [escaped, Header.toJson, Json.Fractionless, Json.FractionlessFields, Json.FractionlessItems]
  nesting := by decide +kernel

theorem ofNumber_plain : (Header.ofNumber 7 (by decide)).Plain where
  fractionless := by simp [Header.ofNumber, Header.toJson, Json.Fractionless, Json.FractionlessFields]
  nesting := by decide +kernel

end Sample

/-- The header is read back, and one that has a number alone is encoded differently. -/
theorem header_reencodes_sample :
    Header.decode Sample.escaped.encode = .ok Sample.escaped ∧
      (Header.ofNumber 7 (by decide)).encode ≠ Sample.escaped.encode := by
  obtain ⟨hdecode, htold, -⟩ := header_reencodes Sample.escaped Sample.escaped_plain
  refine ⟨hdecode, fun heq => ?_⟩
  have hsame := (htold _ Sample.ofNumber_plain).1 heq
  exact absurd (congrArg Header.frameNumber hsame) (by decide)

end FrameMerge
