import FrameMerge.Json.Printer
import Mathlib.Data.List.Basic

/-!
# The grammar of the data format

What is printed is well formed (`Json.isValue_chars`). The grammar is given without a printer and without a reader, as the
standard of the format has it, but for blanks between the parts of a value, of which a compact text has none. The one thing
that is not plain to see is that a fraction is printed with no zero in front of it that does not belong there: its shortest
decimal is never zero (`Binary64.shortest_ne_zero`).
-/

namespace FrameMerge.Json

/-! ## The grammar -/

/-- The digits before the point: a leading zero stands alone. -/
inductive IsWhole : List Char → Prop
  | zero : IsWhole ['0']
  | digits {first : Char} {rest : List Char} (hfirst : first.isDigit) (hzero : first ≠ '0')
    (hrest : ∀ c ∈ rest, c.isDigit) : IsWhole (first :: rest)

/-- Nothing, or a point and at least one digit. -/
inductive IsFraction : List Char → Prop
  | none : IsFraction []
  | digits {digits : List Char} (hsome : digits ≠ []) (hdigits : ∀ c ∈ digits, c.isDigit) : IsFraction ('.' :: digits)

/-- Nothing, or a mark, a sign that may be left out and at least one digit. -/
inductive IsExponent : List Char → Prop
  | none : IsExponent []
  | digits {mark : Char} {sign digits : List Char} (hmark : mark = 'e' ∨ mark = 'E')
    (hsign : sign = [] ∨ sign = ['+'] ∨ sign = ['-']) (hsome : digits ≠ []) (hdigits : ∀ c ∈ digits, c.isDigit) :
    IsExponent (mark :: (sign ++ digits))

/-- A number: a sign or none, whole digits, then a fraction or none and an exponent or none. -/
inductive IsNumber : List Char → Prop
  | mk {sign whole fraction exponent : List Char} (hsign : sign = [] ∨ sign = ['-']) (hwhole : IsWhole whole)
    (hfraction : IsFraction fraction) (hexponent : IsExponent exponent) :
    IsNumber (sign ++ (whole ++ (fraction ++ exponent)))

/-- The digits of code points, in letters of either case. -/
def IsHexDigit (c : Char) : Prop := c.isDigit ∨ 'a' ≤ c ∧ c ≤ 'f' ∨ 'A' ≤ c ∧ c ≤ 'F'

/-- A character inside a string, by itself or as an escape. -/
inductive IsStringChar : List Char → Prop
  | plain {c : Char} (hcontrol : 0x20 ≤ c.toNat) (hquote : c ≠ '"') (hbackslash : c ≠ '\\') : IsStringChar [c]
  | letter {c : Char} (h : c ∈ ['"', '\\', '/', 'b', 'f', 'n', 'r', 't']) : IsStringChar ['\\', c]
  | codePoint {a b c d : Char} (ha : IsHexDigit a) (hb : IsHexDigit b) (hc : IsHexDigit c) (hd : IsHexDigit d) :
    IsStringChar ['\\', 'u', a, b, c, d]

/-- A string: quotes around characters as they are written in one. -/
inductive IsString : List Char → Prop
  | mk {parts : List (List Char)} (h : ∀ part ∈ parts, IsStringChar part) : IsString ('"' :: parts.flatten ++ ['"'])

/-- A text is one value. -/
inductive IsValue : List Char → Prop
  | null : IsValue ['n', 'u', 'l', 'l']
  | true : IsValue ['t', 'r', 'u', 'e']
  | false : IsValue ['f', 'a', 'l', 's', 'e']
  | number {s : List Char} (h : IsNumber s) : IsValue s
  | string {s : List Char} (h : IsString s) : IsValue s
  | array {items : List (List Char)} (h : ∀ item ∈ items, IsValue item) :
    IsValue ('[' :: [','].intercalate items ++ [']'])
  | object {fields : List (List Char × List Char)} (hnames : ∀ field ∈ fields, IsString field.1)
    (hvalues : ∀ field ∈ fields, IsValue field.2) :
    IsValue ('\x7b' :: [','].intercalate (fields.map fun field => field.1 ++ ':' :: field.2) ++ ['\x7d'])

/-! ## Digits -/

/-- Numbers are written in digits. -/
theorem isDigit_of_mem_toDigits {n : Nat} {c : Char} (h : c ∈ Nat.toDigits 10 n) : c.isDigit :=
  Nat.isDigit_of_mem_toDigits (by decide) (Nat.le_refl 10) h

/-- A number below ten has a digit, which is zero for zero alone. -/
theorem digitChar_of_lt {n : Nat} (h : n < 10) : n.digitChar.isDigit ∧ (n ≠ 0 → n.digitChar ≠ '0') := by
  revert n
  decide

/-- The digits of a number that is not zero do not start with a zero. -/
theorem toDigits_of_ne_zero {n : Nat} (h : n ≠ 0) : ∃ first rest, Nat.toDigits 10 n = first :: rest ∧ first ≠ '0' := by
  induction n using Nat.strongRecOn with
  | ind n ih =>
    rw [Nat.toDigits_eq_if (by decide)]
    by_cases hsmall : n < 10
    · rw [if_pos hsmall]
      exact ⟨n.digitChar, [], rfl, (digitChar_of_lt hsmall).2 h⟩
    · obtain ⟨first, rest, hdigits, hfirst⟩ := ih (n / 10) (by omega) (by omega)
      rw [if_neg hsmall, hdigits]
      exact ⟨first, rest ++ [(n % 10).digitChar], rfl, hfirst⟩

/-- A number is written without zeros in front. -/
theorem isWhole_toDigits (n : Nat) : IsWhole (Nat.toDigits 10 n) := by
  by_cases h : n = 0
  · rw [h]
    exact .zero
  · obtain ⟨first, rest, hdigits, hfirst⟩ := toDigits_of_ne_zero h
    have hall : ∀ c ∈ first :: rest, c.isDigit := fun c hc => isDigit_of_mem_toDigits (hdigits ▸ hc)
    rw [hdigits]
    exact .digits (hall first List.mem_cons_self) hfirst fun c hc => hall c (List.mem_cons_of_mem _ hc)

end FrameMerge.Json

/-! ## The shortest decimal -/

namespace FrameMerge

/-- Taking zeros off the end leaves something that is not zero. -/
theorem Decimal.stripZeros_ne_zero {d : Decimal} (h : d.coefficient ≠ 0) (fuel : Nat) :
    (stripZeros fuel d).coefficient ≠ 0 := by
  induction fuel generalizing d with
  | zero => exact h
  | succ fuel ih =>
    rw [stripZeros]
    split
    · rename_i hzero
      simp only [Bool.and_eq_true, decide_eq_true_eq] at hzero
      exact ih (d := ⟨d.coefficient / 10, d.exponent + 1⟩) (by simp only; omega)
    · exact h

namespace Binary64

/-- A number lies far above zero, compared with its distance to the next. -/
theorem spacing_lt_units {x : Binary64} (h : x.isZero = false) : 1 <<< (x.exponentField - 1) < 2 * x.units := by
  have hmagnitude : x.magnitude ≠ 0 := by simpa [isZero] using h
  unfold units
  by_cases hfield : x.exponentField = 0
  · have hsmall : x.magnitude >>> 52 = 0 := hfield
    rw [Nat.shiftRight_eq_div_pow] at hsmall
    simp only [hfield, if_true, Nat.one_shiftLeft]
    omega
  · simp only [hfield, if_false, Nat.shiftLeft_eq, Nat.add_mul, Nat.one_mul]
    have hpos : 0 < 2 ^ (x.exponentField - 1) := Nat.two_pow_pos _
    omega

/-- Zero is on no grid near a number that is not zero. -/
theorem onGrid?_ne_zero {tie : DecimalTie} {x : Binary64} {digits : Nat} {d : Decimal} (h : x.isZero = false)
    (hd : x.onGrid? tie digits = some d) : d.coefficient ≠ 0 := by
  have hspacing := spacing_lt_units h
  unfold onGrid? at hd
  extract_lets spacing fraction value above below place step scale inside lower upper twice middle
    chosen at hd
  obtain ⟨c, hchosen, rfl⟩ := Option.map_eq_some_iff.1 hd
  refine Decimal.stripZeros_ne_zero ?_ digits
  show c ≠ 0
  have hzero : inside 0 = false := by
    have hbelow : 0 < below * scale := by
      refine Nat.mul_pos ?_ (Nat.pow_pos (by decide))
      simp only [below, value, spacing]
      split <;> omega
    simp only [inside, Nat.zero_mul]
    split
    · rw [decide_eq_false (Nat.not_le.2 hbelow), Bool.false_and]
    · rw [decide_eq_false (Nat.not_lt_zero _), Bool.false_and]
  rintro rfl
  have hlower : inside lower = true → lower ≠ 0 := by
    intro hinside hnone
    rw [hnone, hzero] at hinside
    cases hinside
  simp only [chosen, upper] at hchosen
  -- the rest does not depend on how large these numbers are
  clear_value inside lower twice middle
  split at hchosen
  · cases hchosen
  · rename_i hinside _
    exact hlower hinside (Option.some.inj hchosen)
  · exact Nat.succ_ne_zero lower (Option.some.inj hchosen)
  · rename_i hinside _
    have hsome := hlower hinside
    grind

/-- The shortest digits of a number other than zero are not all zeros. -/
theorem shortest_ne_zero {x : Binary64} (h : x.isZero = false) (tie : DecimalTie) :
    (x.shortest tie).coefficient ≠ 0 := by
  unfold shortest
  cases hfound : (List.range 17).findSome? fun i => x.onGrid? tie (i + 1) with
  | none =>
    have hunits : 0 < 2 * x.units := Nat.lt_of_le_of_lt (Nat.zero_le _) (spacing_lt_units h)
    have hpow (n : Nat) : Nat.pow 5 n ≠ 0 := Nat.pos_iff_ne_zero.1 (Nat.pow_pos (by decide))
    exact Nat.mul_ne_zero (by omega) (hpow unitPlaces)
  | some d =>
    obtain ⟨i, -, hgrid⟩ := List.exists_of_findSome?_eq_some hfound
    exact onGrid?_ne_zero h hgrid

end Binary64

/-! ## Numbers -/

namespace Json

theorem isDigit_of_mem_replicate {n : Nat} {c : Char} (h : c ∈ List.replicate n '0') : c.isDigit := by
  rw [List.eq_of_mem_replicate h]
  rfl

/-- Zeros behind the digits of a number that is not zero are further digits of it. -/
theorem isWhole_append {n : Nat} (h : n ≠ 0) {more : List Char} (hmore : ∀ c ∈ more, c.isDigit) :
    IsWhole (Nat.toDigits 10 n ++ more) := by
  obtain ⟨first, rest, hdigits, hfirst⟩ := toDigits_of_ne_zero h
  have hall : ∀ c ∈ first :: (rest ++ more), c.isDigit := by
    intro c hc
    rw [← List.cons_append, ← hdigits] at hc
    rcases List.mem_append.1 hc with hc | hc
    · exact isDigit_of_mem_toDigits hc
    · exact hmore c hc
  rw [hdigits]
  exact .digits (hall first List.mem_cons_self) hfirst fun c hc => hall c (List.mem_cons_of_mem _ hc)

/-- The first digits of a number that is not zero, if they are any. -/
theorem isWhole_take {n places : Nat} (h : n ≠ 0) (hpos : 0 < places) : IsWhole ((Nat.toDigits 10 n).take places) := by
  obtain ⟨first, rest, hdigits, hfirst⟩ := toDigits_of_ne_zero h
  obtain ⟨places, rfl⟩ := Nat.exists_eq_succ_of_ne_zero (Nat.pos_iff_ne_zero.1 hpos)
  have hall : ∀ c ∈ first :: rest, c.isDigit := fun c hc => isDigit_of_mem_toDigits (hdigits ▸ hc)
  rw [hdigits, List.take_succ_cons]
  exact .digits (hall first List.mem_cons_self) hfirst fun c hc =>
    hall c (List.mem_cons_of_mem _ (List.mem_of_mem_take hc))

/-- Digits in positional notation: some before a point, and at least one behind it. -/
theorem renderPositional_eq {d : Decimal} (h : d.coefficient ≠ 0) :
    ∃ whole fraction, (Layout.data.renderPositional d).toList = whole ++ fraction ∧ IsWhole whole ∧
      IsFraction fraction := by
  have hdigit : ∀ c ∈ Nat.toDigits 10 d.coefficient, c.isDigit := fun c hc => isDigit_of_mem_toDigits hc
  unfold Layout.renderPositional
  simp only
  split
  · refine ⟨_, ['.', '0'], String.toList_append.trans (congrArg (· ++ _) String.toList_ofList),
      isWhole_append h fun c hc => isDigit_of_mem_replicate hc, .digits (by simp) (by simp)⟩
  · rename_i hexponent
    split
    · refine ⟨_, _, String.toList_ofList, isWhole_take h (by omega), .digits ?_ fun c hc => ?_⟩
      · rw [ne_eq, List.drop_eq_nil_iff]
        omega
      · exact hdigit c (List.mem_of_mem_drop hc)
    · refine ⟨['0'], _, String.toList_ofList, .zero, .digits ?_ fun c hc => ?_⟩
      · exact List.append_ne_nil_of_right_ne_nil _ Nat.toDigits_ne_nil
      · rcases List.mem_append.1 hc with hc | hc
        · exact isDigit_of_mem_replicate hc
        · exact hdigit c hc

/-- Digits in scientific notation: one before a point, if there are others those behind it, and an exponent. -/
theorem renderScientific_eq {d : Decimal} (h : d.coefficient ≠ 0) :
    ∃ whole fraction exponent, (Layout.renderScientific d).toList = whole ++ (fraction ++ exponent) ∧ IsWhole whole ∧
      IsFraction fraction ∧ IsExponent exponent := by
  obtain ⟨first, rest, hdigits, hfirst⟩ := toDigits_of_ne_zero h
  have hall : ∀ c ∈ first :: rest, c.isDigit := fun c hc => isDigit_of_mem_toDigits (hdigits ▸ hc)
  have hwhole : IsWhole [first] := .digits (hall first List.mem_cons_self) hfirst (by simp)
  have hexponent (sign : String) (hsign : sign.toList = ['+'] ∨ sign.toList = ['-']) :
      IsExponent ('e' :: (sign.toList ++ Nat.toDigits 10 d.leading.natAbs)) :=
    .digits (Or.inl rfl) (Or.inr hsign) Nat.toDigits_ne_nil fun c hc => isDigit_of_mem_toDigits hc
  have hsign : (if 0 ≤ d.leading then "+" else "-").toList = ['+'] ∨
      (if 0 ≤ d.leading then "+" else "-").toList = ['-'] := by
    split
    · exact Or.inl rfl
    · exact Or.inr rfl
  unfold Layout.renderScientific
  simp only [hdigits, String.toList_append, String.toList_ofList, Nat.toString_eq_ofList_toDigits]
  cases rest with
  | nil => exact ⟨[first], [], _, by simp, hwhole, .none, hexponent _ hsign⟩
  | cons second others =>
    refine ⟨[first], '.' :: second :: others, _, by simp, hwhole, .digits (by simp) ?_, hexponent _ hsign⟩
    intro c hc
    exact hall c (List.mem_cons_of_mem _ hc)

/-- A finite fraction is printed as a number. -/
theorem isNumber_render {x : Binary64} (h : x.isFinite = true) : IsNumber (Layout.data.render x).toList := by
  have hnan : x.isNaN = false := by
    simp only [Binary64.isFinite, Binary64.isNaN, decide_eq_true_eq, decide_eq_false_iff_not] at h ⊢
    omega
  have hinfinite : x.isInfinite = false := by
    simp only [Binary64.isFinite, Binary64.isInfinite, decide_eq_true_eq, beq_eq_false_iff_ne] at h ⊢
    omega
  have hsign : (if x.negative then "-" else "").toList = [] ∨ (if x.negative then "-" else "").toList = ['-'] := by
    cases x.negative
    · exact Or.inl rfl
    · exact Or.inr rfl
  unfold Layout.render
  simp only [hnan, hinfinite, Bool.false_eq_true, if_false]
  generalize (if x.negative then "-" else "") = sign at hsign ⊢
  cases hzero : x.isZero with
  | true =>
    simp only [if_true, String.toList_append, List.append_assoc]
    have hfraction : IsFraction ['.', '0'] := .digits (by simp) (by simp)
    exact .mk hsign .zero hfraction .none
  | false =>
    have hdecimal := Binary64.shortest_ne_zero hzero Layout.data.tie
    have hboth (positional : Bool) : IsNumber (sign.toList ++ (if positional then
        Layout.data.renderPositional (x.shortest Layout.data.tie)
        else Layout.renderScientific (x.shortest Layout.data.tie)).toList) := by
      cases positional with
      | true =>
        obtain ⟨whole, fraction, htext, hwhole, hfraction⟩ := renderPositional_eq hdecimal
        rw [if_pos rfl, htext, ← List.append_nil fraction]
        exact .mk hsign hwhole hfraction .none
      | false =>
        obtain ⟨whole, fraction, exponent, htext, hwhole, hfraction, hexponent⟩ := renderScientific_eq hdecimal
        rw [if_neg Bool.false_ne_true, htext]
        exact .mk hsign hwhole hfraction hexponent
    simp only [Bool.false_eq_true, if_false, String.toList_append]
    exact hboth _

/-- A number is printed as a number, or as null if it is no finite one. -/
theorem isValue_numberChars (n : Number) : IsValue (numberChars n) := by
  cases n with
  | whole n =>
    refine .number ?_
    rw [numberChars, ← List.append_nil (Nat.toDigits _ _), ← List.nil_append ([] : List Char)]
    refine .mk ?_ (isWhole_toDigits _) .none .none
    split
    · exact Or.inr rfl
    · exact Or.inl rfl
  | fraction x =>
    rw [numberChars]
    split
    · rename_i hfinite
      exact .number (isNumber_render hfinite)
    · exact .null

/-! ## Strings -/

/-- Escapes are written in digits of code points. -/
theorem isHexDigit_hexDigit {n : Nat} (h : n < 16) : IsHexDigit (hexDigit n) := by
  unfold IsHexDigit
  revert n
  decide

/-- Every character can be written in a string, escaped if need be. -/
theorem isStringChar_escape (c : Char) : IsStringChar (escape c) := by
  unfold escape
  split
  iterate 7 exact .letter (by decide)
  rename_i hquote hbackslash _ _ _ _ _
  split
  · rename_i hcontrol
    exact .codePoint (Or.inl rfl) (Or.inl rfl) (isHexDigit_hexDigit (by omega)) (isHexDigit_hexDigit (by omega))
  · rename_i hcontrol
    exact .plain (Nat.not_lt.1 hcontrol) hquote hbackslash

/-- Every text can be written as a string. -/
theorem isString_quoted (s : String) : IsString (quoted s) := by
  rw [quoted, List.flatMap_def]
  refine .mk fun part hpart => ?_
  obtain ⟨c, -, rfl⟩ := List.mem_map.1 hpart
  exact isStringChar_escape c

/-! ## Values -/

/-- Items are written with commas between them. -/
theorem itemChars_eq (items : List Json) : itemChars items = [','].intercalate (items.map chars) := by
  cases items with
  | nil => rfl
  | cons item rest =>
    rw [itemChars]
    induction rest generalizing item with
    | nil => simp [moreItemChars]
    | cons next rest ih =>
      rw [moreItemChars, List.cons_append, ih next]
      simp [List.intercalate_cons_cons]

/-- A field as it stands in an object. -/
def fieldText (field : String × Json) : List Char := quoted field.1 ++ ':' :: field.2.chars

/-- Fields are written with commas between them. -/
theorem fieldChars_eq (fields : List (String × Json)) : fieldChars fields = [','].intercalate (fields.map fieldText) := by
  cases fields with
  | nil => rfl
  | cons field rest =>
    rw [fieldChars]
    induction rest generalizing field with
    | nil => simp [moreFieldChars, fieldText]
    | cons next rest ih =>
      obtain ⟨name, value⟩ := next
      have hrest := ih (name, value)
      simp only [moreFieldChars, List.map_cons, List.intercalate_cons_cons, fieldText] at hrest ⊢
      rw [← hrest]
      simp

mutual

/-- Every value is printed as one value of the grammar. -/
theorem isValue_chars : (v : Json) → IsValue v.chars
  | .null => by rw [chars]; exact .null
  | .bool true => by rw [chars]; exact .true
  | .bool false => by rw [chars]; exact .false
  | .number n => by rw [chars]; exact isValue_numberChars n
  | .string s => by rw [chars]; exact .string (isString_quoted s)
  | .array items => by
    rw [chars, itemChars_eq]
    exact .array (isValue_items items)
  | .object fields => by
    have hfields : fields.map fieldText =
        (fields.map fun field => (quoted field.1, field.2.chars)).map fun field => field.1 ++ ':' :: field.2 := by
      rw [List.map_map]
      rfl
    rw [chars, fieldChars_eq, hfields]
    refine .object ?_ (isValue_fields fields)
    intro field hfield
    obtain ⟨field, -, rfl⟩ := List.mem_map.1 hfield
    exact isString_quoted field.1

/-- The same of each item of an array. -/
theorem isValue_items : (items : List Json) → ∀ item ∈ items.map chars, IsValue item
  | [] => by simp
  | item :: rest => by
    rw [List.map_cons, List.forall_mem_cons]
    exact ⟨isValue_chars item, isValue_items rest⟩

/-- The same of the value of each field. -/
theorem isValue_fields : (fields : List (String × Json)) →
    ∀ field ∈ fields.map fun field => (quoted field.1, field.2.chars), IsValue field.2
  | [] => by simp
  | (name, value) :: rest => by
    rw [List.map_cons, List.forall_mem_cons]
    exact ⟨isValue_chars value, isValue_fields rest⟩

end

end Json

end FrameMerge
