import FrameMerge.Proofs.Literals

/-!
# Values are read back

The reader undoes what the printer does (`Json.read_encode`), for every value that is nested no deeper than the reader goes
and has no fractions in it, whose digits are a matter of their own. The proof follows the value: what stands behind it in
the text is any octets that do not go on with a number, and the fuel of the reader is compared with the length of the text.
How deep a value is nested is said without the reader, and the reader never gives a deeper one (`Json.nesting_of_read`).
-/

namespace FrameMerge.Json

open Text

/-! ## Measures of values -/

mutual

/-- No number in the value is a fraction. -/
def Fractionless : Json → Prop
  | .null => True
  | .bool _ => True
  | .number (.whole _) => True
  | .number (.fraction _) => False
  | .string _ => True
  | .array items => FractionlessItems items
  | .object fields => FractionlessFields fields

/-- No number in any of the items is a fraction. -/
def FractionlessItems : List Json → Prop
  | [] => True
  | item :: rest => item.Fractionless ∧ FractionlessItems rest

/-- No number in the value of any field is a fraction. -/
def FractionlessFields : List (String × Json) → Prop
  | [] => True
  | (_, value) :: rest => value.Fractionless ∧ FractionlessFields rest

end

mutual

/-- The most arrays and objects that stand inside one another, the value itself included if it is one. -/
def nesting : Json → Nat
  | .null => 0
  | .bool _ => 0
  | .number _ => 0
  | .string _ => 0
  | .array items => nestingItems items + 1
  | .object fields => nestingFields fields + 1

/-- The deepest nesting of the items. -/
def nestingItems : List Json → Nat
  | [] => 0
  | item :: rest => max item.nesting (nestingItems rest)

/-- The deepest nesting of the values of fields. -/
def nestingFields : List (String × Json) → Nat
  | [] => 0
  | (_, value) :: rest => max value.nesting (nestingFields rest)

end

/-- A bound on the nesting of items is one on each of them. -/
theorem nestingItems_le_iff {items : List Json} {depth : Nat} :
    nestingItems items ≤ depth ↔ ∀ item ∈ items, item.nesting ≤ depth := by
  induction items with
  | nil => simp [nestingItems]
  | cons item rest ih => rw [nestingItems, Nat.max_le, ih, List.forall_mem_cons]

/-- A bound on the nesting of fields is one on the value of each. -/
theorem nestingFields_le_iff {fields : List (String × Json)} {depth : Nat} :
    nestingFields fields ≤ depth ↔ ∀ field ∈ fields, field.2.nesting ≤ depth := by
  induction fields with
  | nil => simp [nestingFields]
  | cons field rest ih => rw [nestingFields, Nat.max_le, ih, List.forall_mem_cons]

/-! ## Steps of the reader -/

section

variable {fuel depth : Nat} {s s' rest : Bytes}

/-- Where no blank stands, none is skipped. -/
theorem skipSpace_cons {b : UInt8} (h : isSpace b = false) (s : Bytes) : skipSpace (b :: s) = b :: s :=
  List.dropWhile_cons_of_neg (by simp [h])

theorem readValue_string (s : Bytes) :
    readValue (fuel + 1) depth (0x22 :: s) = (readText s).map fun (text, rest) => (.string text, rest) := rfl

/-- The octets that a number starts with. -/
theorem numberStart_bounds {b : UInt8} (h : b = 0x2D ∨ isDigit b = true) : 45 ≤ b.toNat ∧ b.toNat ≤ 57 := by
  rcases h with rfl | hdigit
  · decide
  · simp only [isDigit, Bool.and_eq_true, decide_eq_true_eq, UInt8.le_iff_toNat_le] at hdigit
    have hlow : 48 ≤ b.toNat := hdigit.1
    have hhigh : b.toNat ≤ 57 := hdigit.2
    omega

/-- All blanks have codes below those of signs and digits. -/
theorem isSpace_of_le {b : UInt8} (h : 45 ≤ b.toNat) : isSpace b = false := by
  simp only [isSpace, Bool.or_eq_false_iff, decide_eq_false_iff_not]
  refine ⟨⟨⟨?_, ?_⟩, ?_⟩, ?_⟩ <;> rintro rfl <;> exact absurd h (by decide)

/-- A sign or a digit starts a number. -/
theorem readValue_number {b : UInt8} (h : b = 0x2D ∨ isDigit b = true) (s : Bytes) :
    readValue (fuel + 1) depth (b :: s) = (readNumber (b :: s)).map fun (n, rest) => (.number n, rest) := by
  have hbounds := numberStart_bounds h
  have hcode : (Char.ofNat b.toNat).toNat = b.toNat := by
    rw [Char.ofNat, dif_pos (Or.inl (by omega))]
    rfl
  have hstarts : (b = 0x2D || isDigit b) = true := by simpa using h
  rw [readValue, skipSpace_cons (isSpace_of_le hbounds.1)]
  simp only
  -- All characters that start something else are beyond the digits or before the sign.
  split
  iterate 6
    rename_i heq
    rw [heq] at hcode
    rw [← hcode] at hbounds
    exact absurd hbounds (by decide)
  rw [if_pos hstarts]

/-- Brackets with nothing between them are an array without items. -/
theorem readValue_noItems (rest : Bytes) :
    readValue (fuel + 1) (depth + 1) (0x5B :: 0x5D :: rest) = .ok (.array [], rest) := rfl

/-- Braces with nothing between them are an object without fields. -/
theorem readValue_noFields (rest : Bytes) :
    readValue (fuel + 1) (depth + 1) (0x7B :: 0x7D :: rest) = .ok (.object [], rest) := rfl

/-- A brace and a quote start the fields of an object. -/
theorem readValue_fields (s : Bytes) :
    readValue (fuel + 1) (depth + 1) (0x7B :: 0x22 :: s) = readFields fuel depth [] s := rfl

/-- A bracket starts the items of an array, if something else than the closing one follows. -/
theorem readValue_items {b : UInt8} (hspace : isSpace b = false) (hclose : b ≠ 0x5D) (s : Bytes) :
    readValue (fuel + 1) (depth + 1) (0x5B :: b :: s) = readItems fuel depth [] (b :: s) := by
  have hopen : skipSpace (0x5B :: b :: s) = 0x5B :: b :: s := skipSpace_cons (by decide) _
  have hbracket : Char.ofNat (0x5B : UInt8).toNat = '[' := by decide
  rw [readValue, hopen]
  simp only [hbracket, skipSpace_cons hspace, Nat.succ_ne_zero, if_false, Nat.add_sub_cancel]
  split
  · rename_i heq
    cases heq
  · rename_i heq
    exact absurd (List.cons.inj heq).1 hclose
  · rfl

variable {seen : List Json} {item : Json}

/-- The last item. -/
theorem readItems_last (h : readValue fuel depth s = .ok (item, 0x5D :: rest)) :
    readItems (fuel + 1) depth seen s = .ok (.array (item :: seen).reverse, rest) := by
  rw [readItems, h]
  rfl

/-- An item behind which another stands. -/
theorem readItems_more {b : UInt8} (h : readValue fuel depth s = .ok (item, 0x2C :: b :: rest))
    (hspace : isSpace b = false) (hclose : b ≠ 0x5D) :
    readItems (fuel + 1) depth seen s = readItems fuel depth (item :: seen) (b :: rest) := by
  have hcomma : skipSpace (0x2C :: b :: rest) = 0x2C :: b :: rest := skipSpace_cons (by decide) _
  rw [readItems, h]
  simp only [hcomma, skipSpace_cons hspace]
  split
  · rename_i heq
    exact absurd (List.cons.inj heq).1 hclose
  · rfl

variable {name : String} {value : Json} {before : List (String × Json)}

/-- The last field. -/
theorem readFields_last (hname : readText s = .ok (name, 0x3A :: s'))
    (h : readValue fuel depth s' = .ok (value, 0x7D :: rest)) :
    readFields (fuel + 1) depth before s = .ok (.object ((name, value) :: before).reverse, rest) := by
  have hcolon : skipSpace (0x3A :: s') = 0x3A :: s' := skipSpace_cons (by decide) s'
  rw [readFields, hname]
  simp only [hcolon, h]
  rfl

/-- A field behind which another stands. -/
theorem readFields_more (hname : readText s = .ok (name, 0x3A :: s'))
    (h : readValue fuel depth s' = .ok (value, 0x2C :: 0x22 :: rest)) :
    readFields (fuel + 1) depth before s = readFields fuel depth ((name, value) :: before) rest := by
  have hcolon : skipSpace (0x3A :: s') = 0x3A :: s' := skipSpace_cons (by decide) s'
  rw [readFields, hname]
  simp only [hcolon, h]
  rfl

end

/-! ## The reader undoes the printer -/

/-- An octet that is no part of a number ends one. -/
theorem endsNumber_cons {b : UInt8} (h : isDigit b = false ∧ b ≠ 0x2E ∧ b ≠ 0x65 ∧ b ≠ 0x45) (rest : Bytes) :
    EndsNumber (b :: rest) := by
  intro b' hb'
  cases hb'
  exact h

theorem endsNumber_comma (rest : Bytes) : EndsNumber (0x2C :: rest) := endsNumber_cons (by decide) rest

theorem endsNumber_bracket (rest : Bytes) : EndsNumber (0x5D :: rest) := endsNumber_cons (by decide) rest

theorem endsNumber_brace (rest : Bytes) : EndsNumber (0x7D :: rest) := endsNumber_cons (by decide) rest

/-- The octets of an array: a bracket, its items, the other bracket. -/
theorem encodeChars_array (items : List Json) (rest : Bytes) :
    encodeChars (array items).chars ++ rest = 0x5B :: (encodeChars (itemChars items) ++ 0x5D :: rest) := by
  rw [chars, encodeChars_append, List.append_assoc]
  rfl

/-- The octets of an object: a brace, its fields, the other brace. -/
theorem encodeChars_object (fields : List (String × Json)) (rest : Bytes) :
    encodeChars (object fields).chars ++ rest = 0x7B :: (encodeChars (fieldChars fields) ++ 0x7D :: rest) := by
  rw [chars, encodeChars_append, List.append_assoc]
  rfl

/-- A comma stands between two items. -/
theorem itemChars_cons_cons (item next : Json) (more : List Json) :
    itemChars (item :: next :: more) = item.chars ++ ',' :: itemChars (next :: more) := by
  simp [itemChars, moreItemChars]

/-- A comma stands between two fields. -/
theorem fieldChars_cons_cons (name : String) (value : Json) (next : String × Json) (more : List (String × Json)) :
    fieldChars ((name, value) :: next :: more) = quoted name ++ ':' :: (value.chars ++ ',' :: fieldChars (next :: more)) := by
  obtain ⟨nextName, nextValue⟩ := next
  simp [fieldChars, moreFieldChars]

theorem encodeChars_items_more (item next : Json) (more : List Json) (rest : Bytes) :
    encodeChars (itemChars (item :: next :: more)) ++ rest =
      encodeChars item.chars ++ 0x2C :: (encodeChars (itemChars (next :: more)) ++ rest) := by
  rw [itemChars_cons_cons, encodeChars_append, List.append_assoc]
  rfl

/-- The octets of a last field: its name, a colon, its value. -/
theorem encodeChars_field (name : String) (value : Json) :
    encodeChars (fieldChars [(name, value)]) = encodeChars (quoted name) ++ 0x3A :: encodeChars value.chars := by
  rw [fieldChars, moreFieldChars, List.append_nil, encodeChars_append]
  rfl

/-- The octets of fields, the first of them cut off. -/
theorem encodeChars_fields_more (name : String) (value : Json) (next : String × Json) (more : List (String × Json)) :
    encodeChars (fieldChars ((name, value) :: next :: more)) =
      encodeChars (quoted name) ++ 0x3A :: (encodeChars value.chars ++ 0x2C :: encodeChars (fieldChars (next :: more))) := by
  rw [fieldChars_cons_cons, encodeChars_append, encodeChars_cons, encodeChars_append]
  rfl

/-- The text of a whole number starts with a sign or a digit. -/
theorem encodeChars_whole (n : WholeNumber) :
    ∃ b octets, encodeChars (numberChars (.whole n)) = b :: octets ∧ (b = 0x2D ∨ isDigit b = true) := by
  by_cases hnegative : n.value < 0
  · rw [numberChars, if_pos hnegative]
    exact ⟨0x2D, _, rfl, Or.inl rfl⟩
  · obtain ⟨first, others, heq, hdigit, -⟩ := (isWhole_toDigits n.value.natAbs).encodeChars_eq
    rw [numberChars, if_neg hnegative, List.nil_append]
    exact ⟨first, others, heq, Or.inr hdigit⟩

/-- No value starts with a blank or with the bracket that closes an array. -/
theorem encodeChars_head (v : Json) (h : v.Fractionless) :
    ∃ b octets, encodeChars v.chars = b :: octets ∧ isSpace b = false ∧ b ≠ 0x5D := by
  match v with
  | .null => exact ⟨0x6E, _, rfl, by decide⟩
  | .bool true => exact ⟨0x74, _, rfl, by decide⟩
  | .bool false => exact ⟨0x66, _, rfl, by decide⟩
  | .string _ => exact ⟨0x22, _, rfl, by decide⟩
  | .array _ => exact ⟨0x5B, _, rfl, by decide⟩
  | .object _ => exact ⟨0x7B, _, rfl, by decide⟩
  | .number (.fraction _) => exact h.elim
  | .number (.whole n) =>
    obtain ⟨b, octets, heq, hstarts⟩ := encodeChars_whole n
    refine ⟨b, octets, heq, ?_, ?_⟩
    · exact isSpace_of_le (numberStart_bounds hstarts).1
    · rintro rfl
      exact absurd (numberStart_bounds hstarts) (by decide)

/-- No list of items starts with a blank or with the bracket that closes an array. -/
theorem encodeChars_items_head {items : List Json} (hsome : items ≠ []) (h : FractionlessItems items) :
    ∃ b octets, encodeChars (itemChars items) = b :: octets ∧ isSpace b = false ∧ b ≠ 0x5D := by
  obtain ⟨item, rest, rfl⟩ := List.exists_cons_of_ne_nil hsome
  obtain ⟨b, octets, heq, hb⟩ := encodeChars_head item h.1
  refine ⟨b, octets ++ encodeChars (moreItemChars rest), ?_, hb⟩
  rw [itemChars, encodeChars_append, heq, List.cons_append]

-- The recursion is on the value. The fuel that is left always exceeds the characters still to be read: every value, item and
-- field has at least one, and those of a list have a bracket or a comma besides.
mutual

/-- A value is read back, whatever stands behind it that does not go on with a number. -/
theorem readValue_chars : (v : Json) → v.Fractionless → ∀ {fuel depth : Nat} {rest : Bytes},
    v.nesting ≤ depth → v.chars.length < fuel → EndsNumber rest →
      readValue fuel depth (encodeChars v.chars ++ rest) = .ok (v, rest)
  | .null, _, fuel, depth, rest, _, hfuel, _ => by
    obtain ⟨fuel, rfl⟩ := Nat.exists_eq_succ_of_ne_zero (Nat.ne_zero_of_lt hfuel)
    rfl
  | .bool true, _, fuel, depth, rest, _, hfuel, _ => by
    obtain ⟨fuel, rfl⟩ := Nat.exists_eq_succ_of_ne_zero (Nat.ne_zero_of_lt hfuel)
    rfl
  | .bool false, _, fuel, depth, rest, _, hfuel, _ => by
    obtain ⟨fuel, rfl⟩ := Nat.exists_eq_succ_of_ne_zero (Nat.ne_zero_of_lt hfuel)
    rfl
  | .number (.fraction _), hfree, _, _, _, _, _, _ => hfree.elim
  | .number (.whole n), _, fuel, depth, rest, _, hfuel, hrest => by
    obtain ⟨fuel, rfl⟩ := Nat.exists_eq_succ_of_ne_zero (Nat.ne_zero_of_lt hfuel)
    obtain ⟨b, octets, heq, hstarts⟩ := encodeChars_whole n
    have hread := readNumber_whole n hrest
    rw [heq, List.cons_append] at hread
    rw [chars, heq, List.cons_append, readValue_number hstarts, hread]
    rfl
  | .string s, _, fuel, depth, rest, _, hfuel, _ => by
    obtain ⟨fuel, rfl⟩ := Nat.exists_eq_succ_of_ne_zero (Nat.ne_zero_of_lt hfuel)
    obtain ⟨octets, heq, hread⟩ := readText_quoted s rest
    rw [chars, heq, List.cons_append, readValue_string, hread]
    rfl
  | .array items, hfree, fuel, depth, rest, hdepth, hfuel, _ => by
    obtain ⟨fuel, rfl⟩ := Nat.exists_eq_succ_of_ne_zero (Nat.ne_zero_of_lt hfuel)
    obtain ⟨depth, rfl⟩ := Nat.exists_eq_succ_of_ne_zero (Nat.ne_zero_of_lt hdepth)
    by_cases hnone : items = []
    · subst hnone
      exact readValue_noItems rest
    · have hlength : (itemChars items).length + 1 < fuel := by
        simp only [chars, List.length_append, List.length_cons, List.length_nil] at hfuel
        omega
      have hitems := readItems_chars items hnone hfree [] rest (Nat.le_of_succ_le_succ hdepth) hlength
      obtain ⟨b, octets, heq, hspace, hclose⟩ := encodeChars_items_head hnone hfree
      rw [heq] at hitems
      rw [encodeChars_array, heq, List.cons_append, readValue_items hspace hclose]
      exact hitems
  | .object fields, hfree, fuel, depth, rest, hdepth, hfuel, _ => by
    obtain ⟨fuel, rfl⟩ := Nat.exists_eq_succ_of_ne_zero (Nat.ne_zero_of_lt hfuel)
    obtain ⟨depth, rfl⟩ := Nat.exists_eq_succ_of_ne_zero (Nat.ne_zero_of_lt hdepth)
    by_cases hnone : fields = []
    · subst hnone
      exact readValue_noFields rest
    · have hlength : (fieldChars fields).length + 1 < fuel := by
        simp only [chars, List.length_append, List.length_cons, List.length_nil] at hfuel
        omega
      obtain ⟨octets, heq, hread⟩ :=
        readFields_chars fields hnone hfree [] rest (Nat.le_of_succ_le_succ hdepth) hlength
      rw [encodeChars_object, heq, List.cons_append, readValue_fields]
      exact hread

/-- The items of an array are read back, behind those that were read before. -/
theorem readItems_chars : (items : List Json) → items ≠ [] → FractionlessItems items →
    ∀ {fuel depth : Nat} (seen : List Json) (rest : Bytes), nestingItems items ≤ depth →
      (itemChars items).length + 1 < fuel →
      readItems fuel depth seen (encodeChars (itemChars items) ++ 0x5D :: rest) =
        .ok (.array (seen.reverse ++ items), rest)
  | [], hsome, _, _, _, _, _, _, _ => absurd rfl hsome
  | [item], _, hfree, fuel, depth, seen, rest, hdepth, hfuel => by
    obtain ⟨fuel, rfl⟩ := Nat.exists_eq_succ_of_ne_zero (Nat.ne_zero_of_lt hfuel)
    have hchars : itemChars [item] = item.chars := List.append_nil _
    rw [hchars] at hfuel ⊢
    have hitem := readValue_chars item hfree.1 (Nat.le_trans (Nat.le_max_left _ _) hdepth) (Nat.lt_of_succ_lt_succ hfuel)
      (endsNumber_bracket rest)
    rw [readItems_last hitem, List.reverse_cons]
  | item :: next :: more, _, hfree, fuel, depth, seen, rest, hdepth, hfuel => by
    obtain ⟨fuel, rfl⟩ := Nat.exists_eq_succ_of_ne_zero (Nat.ne_zero_of_lt hfuel)
    rw [itemChars_cons_cons, List.length_append, List.length_cons] at hfuel
    have hfirst : item.chars.length < fuel := by omega
    have hothers : (itemChars (next :: more)).length + 1 < fuel := by omega
    have hmore := readItems_chars (next :: more) (List.cons_ne_nil _ _) hfree.2 (item :: seen) rest
      (Nat.le_trans (Nat.le_max_right _ _) hdepth) hothers
    obtain ⟨b, octets, heq, hspace, hclose⟩ := encodeChars_items_head (List.cons_ne_nil next more) hfree.2
    have hitem := readValue_chars item hfree.1 (Nat.le_trans (Nat.le_max_left _ _) hdepth) hfirst
      (endsNumber_comma (b :: (octets ++ 0x5D :: rest)))
    rw [heq, List.reverse_cons, List.append_assoc] at hmore
    rw [encodeChars_items_more, heq, List.cons_append, readItems_more hitem hspace hclose]
    exact hmore

/-- The fields of an object are read back from behind the quote of the first, behind those that were read before. -/
theorem readFields_chars : (fields : List (String × Json)) → fields ≠ [] → FractionlessFields fields →
    ∀ {fuel depth : Nat} (before : List (String × Json)) (rest : Bytes), nestingFields fields ≤ depth →
      (fieldChars fields).length + 1 < fuel →
      ∃ octets, encodeChars (fieldChars fields) = 0x22 :: octets ∧
        readFields fuel depth before (octets ++ 0x7D :: rest) = .ok (.object (before.reverse ++ fields), rest)
  | [], hsome, _, _, _, _, _, _, _ => absurd rfl hsome
  | [(name, value)], _, hfree, fuel, depth, before, rest, hdepth, hfuel => by
    obtain ⟨fuel, rfl⟩ := Nat.exists_eq_succ_of_ne_zero (Nat.ne_zero_of_lt hfuel)
    have hlength : value.chars.length < fuel := by
      simp only [fieldChars, moreFieldChars, List.append_nil, List.length_append, List.length_cons] at hfuel
      omega
    obtain ⟨octets, heq, hname⟩ := readText_quoted name (0x3A :: (encodeChars value.chars ++ 0x7D :: rest))
    have hvalue := readValue_chars value hfree.1 (Nat.le_trans (Nat.le_max_left _ _) hdepth) hlength
      (endsNumber_brace rest)
    refine ⟨octets ++ 0x3A :: encodeChars value.chars, ?_, ?_⟩
    · rw [encodeChars_field, heq, List.cons_append]
    · rw [List.append_assoc, List.cons_append, readFields_last hname hvalue, List.reverse_cons]
  | (name, value) :: next :: more, _, hfree, fuel, depth, before, rest, hdepth, hfuel => by
    obtain ⟨fuel, rfl⟩ := Nat.exists_eq_succ_of_ne_zero (Nat.ne_zero_of_lt hfuel)
    simp only [fieldChars_cons_cons, List.length_append, List.length_cons] at hfuel
    have hfirst : value.chars.length < fuel := by omega
    have hlater : (fieldChars (next :: more)).length + 1 < fuel := by omega
    obtain ⟨others, hothers, hmore⟩ := readFields_chars (next :: more) (List.cons_ne_nil _ _) hfree.2
      ((name, value) :: before) rest (Nat.le_trans (Nat.le_max_right _ _) hdepth) hlater
    have hvalue := readValue_chars value hfree.1 (Nat.le_trans (Nat.le_max_left _ _) hdepth) hfirst
      (endsNumber_comma (0x22 :: (others ++ 0x7D :: rest)))
    obtain ⟨octets, heq, hname⟩ :=
      readText_quoted name (0x3A :: (encodeChars value.chars ++ 0x2C :: 0x22 :: (others ++ 0x7D :: rest)))
    refine ⟨octets ++ 0x3A :: (encodeChars value.chars ++ 0x2C :: 0x22 :: others), ?_, ?_⟩
    · rw [encodeChars_fields_more, heq, hothers, List.cons_append]
    · have hassoc : octets ++ 0x3A :: (encodeChars value.chars ++ 0x2C :: 0x22 :: others) ++ 0x7D :: rest =
          octets ++ 0x3A :: (encodeChars value.chars ++ 0x2C :: 0x22 :: (others ++ 0x7D :: rest)) := by
        simp only [List.append_assoc, List.cons_append]
      rw [List.reverse_cons, List.append_assoc] at hmore
      rw [hassoc, readFields_more hname hvalue]
      exact hmore

end

/-- The text of a value without fractions is read back to that value, if it is nested no deeper than the reader goes. -/
theorem read_encode {v : Json} (hfree : v.Fractionless) (hnesting : v.nesting ≤ maxNesting) : read v.encode = .ok v := by
  have hencode : v.encode = encodeChars v.chars := utf8_ofList v.chars
  have hfuel : v.chars.length < fuelFor (encodeChars v.chars) := by
    have hlength := length_le_encodeChars v.chars
    rw [fuelFor]
    omega
  have hend : EndsNumber [] := fun b hb => by cases hb
  have hvalue := readValue_chars v hfree hnesting hfuel hend
  rw [List.append_nil] at hvalue
  rw [read, hencode, hvalue]
  rfl

/-! ## What the reader gives -/

/-- With the given fuel no value is read that is nested deeper than arrays and objects may be opened. -/
structure Bounded (fuel : Nat) : Prop where
  value : ∀ {depth : Nat} {s : Bytes} {v : Json} {rest : Bytes},
    readValue fuel depth s = .ok (v, rest) → v.nesting ≤ depth
  items : ∀ {depth : Nat} {seen : List Json} {s : Bytes} {v : Json} {rest : Bytes},
    nestingItems seen ≤ depth → readItems fuel depth seen s = .ok (v, rest) → v.nesting ≤ depth + 1
  fields : ∀ {depth : Nat} {before : List (String × Json)} {s : Bytes} {v : Json} {rest : Bytes},
    nestingFields before ≤ depth → readFields fuel depth before s = .ok (v, rest) → v.nesting ≤ depth + 1

variable {fuel depth : Nat} {s rest : Bytes} {v : Json}

/-- A value that is made of something flat is flat itself, and so within every bound. -/
theorem nesting_of_map_ok {α : Type} {r : Except Error α} {f : α → Json × Bytes} (hf : ∀ a, (f a).1.nesting = 0)
    (h : r.map f = .ok (v, rest)) : v.nesting ≤ depth := by
  cases r with
  | error e => cases h
  | ok a =>
    have heq : f a = (v, rest) := Except.ok.inj h
    have hflat := hf a
    rw [heq] at hflat
    exact Nat.le_trans (Nat.le_of_eq hflat) (Nat.zero_le depth)

/-- One more unit of fuel lets the reader open one value; what stands in it was read with less. -/
theorem Bounded.value_succ (h : Bounded fuel) (hread : readValue (fuel + 1) depth s = .ok (v, rest)) :
    v.nesting ≤ depth := by
  rw [readValue] at hread
  split at hread
  · cases hread
  · split at hread
    · exact nesting_of_map_ok (fun _ => rfl) hread
    · exact nesting_of_map_ok (fun _ => rfl) hread
    · exact nesting_of_map_ok (fun _ => rfl) hread
    · exact nesting_of_map_ok (fun _ => rfl) hread
    · split at hread
      · cases hread
      · rename_i hpositive
        have hdepth : depth - 1 + 1 = depth := Nat.succ_pred hpositive
        split at hread
        · cases hread
        · cases hread
          exact Nat.pos_of_ne_zero hpositive
        · exact hdepth ▸ h.items (Nat.zero_le _) hread
    · split at hread
      · cases hread
      · rename_i hpositive
        have hdepth : depth - 1 + 1 = depth := Nat.succ_pred hpositive
        split at hread
        · cases hread
        · cases hread
          exact Nat.pos_of_ne_zero hpositive
        · exact hdepth ▸ h.fields (Nat.zero_le _) hread
        · cases hread
    · split at hread
      · exact nesting_of_map_ok (fun _ => rfl) hread
      · cases hread

/-- One more unit of fuel lets it read one item and go on to the next. -/
theorem Bounded.items_succ (h : Bounded fuel) {seen : List Json} (hseen : nestingItems seen ≤ depth)
    (hread : readItems (fuel + 1) depth seen s = .ok (v, rest)) : v.nesting ≤ depth + 1 := by
  rw [readItems] at hread
  split at hread
  · cases hread
  · rename_i item rest' hitem
    have hall : nestingItems (item :: seen) ≤ depth := Nat.max_le.2 ⟨h.value hitem, hseen⟩
    split at hread
    · cases hread
    · cases hread
      rw [nestingItems_le_iff] at hall
      exact Nat.succ_le_succ (nestingItems_le_iff.2 fun item hmem => hall item (List.mem_reverse.1 hmem))
    · split at hread
      · cases hread
      · exact h.items hall hread
    · cases hread

/-- One more unit of fuel lets it read one field and go on to the next. -/
theorem Bounded.fields_succ (h : Bounded fuel) {before : List (String × Json)} (hbefore : nestingFields before ≤ depth)
    (hread : readFields (fuel + 1) depth before s = .ok (v, rest)) : v.nesting ≤ depth + 1 := by
  rw [readFields] at hread
  split at hread
  · cases hread
  · rename_i name rest' hname
    split at hread
    · cases hread
    · split at hread
      · cases hread
      · rename_i value rest'' hvalue
        have hall : nestingFields ((name, value) :: before) ≤ depth := Nat.max_le.2 ⟨h.value hvalue, hbefore⟩
        split at hread
        · cases hread
        · cases hread
          rw [nestingFields_le_iff] at hall
          exact Nat.succ_le_succ (nestingFields_le_iff.2 fun field hmem => hall field (List.mem_reverse.1 hmem))
        · split at hread
          · cases hread
          · exact h.fields hall hread
          · cases hread
          · cases hread
        · cases hread
    · cases hread

/-- The bound holds with any fuel. -/
theorem bounded : (fuel : Nat) → Bounded fuel
  | 0 => by
    refine ⟨?_, ?_, ?_⟩
    · rintro depth s v rest ⟨⟩
    · rintro depth seen s v rest - ⟨⟩
    · rintro depth before s v rest - ⟨⟩
  | fuel + 1 => ⟨(bounded fuel).value_succ, (bounded fuel).items_succ, (bounded fuel).fields_succ⟩

/-- No value that is read is nested deeper than the reader goes. -/
theorem nesting_of_read (h : read s = .ok v) : v.nesting ≤ maxNesting := by
  rw [read] at h
  cases hread : readValue (fuelFor s) maxNesting s with
  | error e =>
    rw [hread] at h
    cases h
  | ok result =>
    have hbound := (bounded (fuelFor s)).value hread
    rw [hread] at h
    simp only [Except.bind] at h
    split at h
    · cases h
      exact hbound
    · cases h

end FrameMerge.Json
