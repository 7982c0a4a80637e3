import FrameMerge.Json.Basic

/-!
# Canonical forms

`normalize_canonical`: the canonical form of a value is canonical. Sorting puts equal names side by side, dropping
all but the last of them makes the order strict, and a field's value is untouched by both. A canonical value is its
own canonical form (`normalize_of_canonical`).
-/

namespace FrameMerge.Json

/-- Fields are canonical if the value of each is; their order is another matter. -/
theorem canonicalFields_iff {fields : List (String × Json)} :
    CanonicalFields fields ↔ ∀ field ∈ fields, field.2.Canonical := by
  induction fields with
  | nil => simp [CanonicalFields]
  | cons field rest ih => simp [CanonicalFields, ih]

/-- Fields are left out, and none is moved or changed. -/
theorem lastOfEach_sublist (fields : List (String × Json)) : (lastOfEach fields).Sublist fields := by
  fun_induction lastOfEach fields with
  | case1 => exact List.Sublist.slnil
  | case2 field => exact List.Sublist.refl _
  | case3 field next rest _ ih => exact ih.cons _
  | case4 field next rest _ ih => exact ih.cons_cons _

/-- Keeping the last field of each name makes an ascending order strict. -/
theorem lastOfEach_pairwise {fields : List (String × Json)} (h : fields.Pairwise fun a b => a.1 ≤ b.1) :
    (lastOfEach fields).Pairwise fun a b => a.1 < b.1 := by
  fun_induction lastOfEach fields with
  | case1 => exact List.Pairwise.nil
  | case2 field => exact List.pairwise_singleton _ _
  | case3 field next rest _ ih => exact ih (List.pairwise_cons.1 h).2
  | case4 field next rest hne ih =>
    obtain ⟨hfield, hrest⟩ := List.pairwise_cons.1 h
    refine List.pairwise_cons.2 ⟨fun other hother => ?_, ih hrest⟩
    have hnext : field.1 < next.1 := Std.lt_of_le_of_ne (hfield next (by simp)) hne
    have hle : next.1 ≤ other.1 := by
      rcases List.mem_cons.1 ((lastOfEach_sublist _).subset hother) with rfl | hmem
      · exact String.le_refl _
      · exact (List.pairwise_cons.1 hrest).1 other hmem
    exact Std.lt_of_lt_of_le hnext hle

/-- Sorted fields have names that ascend strictly, so that no two are the same. -/
theorem sortFields_pairwise (fields : List (String × Json)) :
    (sortFields fields).Pairwise fun a b => a.1 < b.1 := by
  refine lastOfEach_pairwise ?_
  have h := @List.pairwise_mergeSort _ (fun a b : String × Json => decide (a.1 ≤ b.1))
    (fun a b c hab hbc => by simp only [decide_eq_true_eq] at *; exact String.le_trans hab hbc)
    (fun a b => by simpa using String.le_total a.1 b.1) fields
  exact h.imp (by simp)

/-- Sorting adds no field. -/
theorem mem_of_mem_sortFields {fields : List (String × Json)} {field : String × Json}
    (h : field ∈ sortFields fields) : field ∈ fields :=
  (List.mergeSort_perm fields _).mem_iff.1 ((lastOfEach_sublist _).subset h)

mutual

/-- The canonical form of a value is canonical, at every depth. -/
theorem normalize_canonical : (v : Json) → v.normalize.Canonical
  | .null => trivial
  | .bool _ => trivial
  | .number _ => trivial
  | .string _ => trivial
  | .array items => normalizeItems_canonical items
  | .object fields =>
    ⟨sortFields_pairwise _, canonicalFields_iff.2 fun field hfield =>
      canonicalFields_iff.1 (normalizeFields_canonical fields) field (mem_of_mem_sortFields hfield)⟩

/-- The same of the items of an array. -/
theorem normalizeItems_canonical : (items : List Json) → CanonicalItems (normalizeItems items)
  | [] => trivial
  | item :: rest => ⟨normalize_canonical item, normalizeItems_canonical rest⟩

/-- The same of the values of fields, before these are sorted. -/
theorem normalizeFields_canonical : (fields : List (String × Json)) → CanonicalFields (normalizeFields fields)
  | [] => trivial
  | (_, value) :: rest => ⟨normalize_canonical value, normalizeFields_canonical rest⟩

end

/-! ## Canonical values -/

/-- Where no name is repeated, no field is left out. -/
theorem lastOfEach_of_pairwise {fields : List (String × Json)} (h : fields.Pairwise fun a b => a.1 < b.1) :
    lastOfEach fields = fields := by
  fun_induction lastOfEach fields with
  | case1 => rfl
  | case2 field => rfl
  | case3 field next rest heq ih =>
    have hlt : field.1 < next.1 := (List.pairwise_cons.1 h).1 next List.mem_cons_self
    exact absurd (heq ▸ hlt) (String.lt_irrefl _)
  | case4 field next rest hne ih => rw [ih (List.pairwise_cons.1 h).2]

/-- Fields whose names ascend strictly are left as they are. -/
theorem sortFields_of_pairwise {fields : List (String × Json)} (h : fields.Pairwise fun a b => a.1 < b.1) :
    sortFields fields = fields := by
  have hsorted : fields.mergeSort (fun a b => a.1 ≤ b.1) = fields :=
    List.mergeSort_of_pairwise (h.imp fun hlt => decide_eq_true (Std.le_of_lt hlt))
  rw [sortFields, hsorted, lastOfEach_of_pairwise h]

mutual

/-- A canonical value is its own canonical form. -/
theorem normalize_of_canonical : (v : Json) → v.Canonical → v.normalize = v
  | .null, _ => rfl
  | .bool _, _ => rfl
  | .number _, _ => rfl
  | .string _, _ => rfl
  | .array items, h => by rw [normalize, normalizeItems_of_canonical items h]
  | .object fields, h => by rw [normalize, normalizeFields_of_canonical fields h.2, sortFields_of_pairwise h.1]

/-- The same of the items of an array. -/
theorem normalizeItems_of_canonical : (items : List Json) → CanonicalItems items → normalizeItems items = items
  | [], _ => rfl
  | item :: rest, h => by
    rw [normalizeItems, normalize_of_canonical item h.1, normalizeItems_of_canonical rest h.2]

/-- The same of the values of fields. -/
theorem normalizeFields_of_canonical : (fields : List (String × Json)) → CanonicalFields fields →
    normalizeFields fields = fields
  | [], _ => rfl
  | (_, value) :: rest, h => by
    rw [normalizeFields, normalize_of_canonical value h.1, normalizeFields_of_canonical rest h.2]

end

end FrameMerge.Json
