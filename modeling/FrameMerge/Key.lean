import FrameMerge.Json.Printer

/-!
# Ordering keys

A frame's place in the combined stream: the acquisition it belongs to, counted from zero at each source, and its
number in that acquisition. Keys are ordered by acquisition first.
-/

namespace FrameMerge

/-- The place of a frame in the combined stream. -/
structure Key where
  acquisition : Nat
  frame : Nat
  deriving DecidableEq

namespace Key

/-- The least key of all. -/
instance : Inhabited Key := ⟨⟨0, 0⟩⟩

/-- Keys are compared by acquisition, and within one acquisition by number. -/
instance : LE Key :=
  ⟨fun a b => a.acquisition < b.acquisition ∨ a.acquisition = b.acquisition ∧ a.frame ≤ b.frame⟩

/-- The strict order that belongs to it. -/
instance : LT Key :=
  ⟨fun a b => a.acquisition < b.acquisition ∨ a.acquisition = b.acquisition ∧ a.frame < b.frame⟩

/-- The order in terms of the two parts, where arithmetic decides it. -/
theorem le_iff {a b : Key} :
    a ≤ b ↔ a.acquisition < b.acquisition ∨ a.acquisition = b.acquisition ∧ a.frame ≤ b.frame := Iff.rfl

/-- The strict order in terms of the two parts. -/
theorem lt_iff {a b : Key} :
    a < b ↔ a.acquisition < b.acquisition ∨ a.acquisition = b.acquisition ∧ a.frame < b.frame := Iff.rfl

instance (a b : Key) : Decidable (a ≤ b) := decidable_of_iff _ le_iff.symm

instance (a b : Key) : Decidable (a < b) := decidable_of_iff _ lt_iff.symm

protected theorem le_refl (a : Key) : a ≤ a := Or.inr ⟨rfl, Nat.le_refl _⟩

/-- The order goes on through keys in between. -/
protected theorem le_trans {a b c : Key} (hab : a ≤ b) (hbc : b ≤ c) : a ≤ c := by
  rw [le_iff] at *
  omega

/-- Any two keys can be compared. -/
protected theorem le_total (a b : Key) : a ≤ b ∨ b ≤ a := by
  simp only [le_iff]
  omega

/-- Two keys that are each at or below the other agree in both parts. -/
protected theorem le_antisymm {a b : Key} (hab : a ≤ b) (hba : b ≤ a) : a = b := by
  obtain ⟨acquisition, frame⟩ := a
  obtain ⟨acquisition', frame'⟩ := b
  simp only [le_iff] at hab hba
  simp only [mk.injEq]
  omega

/-- A key is below another exactly if the other is not at or below it. -/
protected theorem lt_iff_not_le {a b : Key} : a < b ↔ ¬ b ≤ a := by
  rw [le_iff, lt_iff]
  omega

/-- How two keys compare. -/
def order (a b : Key) : Ordering := if a < b then .lt else if a = b then .eq else .gt

/-- A key as it stands in messages. -/
def text (k : Key) : String := "(" ++ toString k.acquisition ++ ", " ++ toString k.frame ++ ")"

/-- A key as a value of the data format. -/
def toJson (k : Key) : Json := .object [("acquisition", .nat k.acquisition), ("frame", .nat k.frame)]

/-- The greatest of some keys, the least key of all if there are none. -/
def greatest (keys : List Key) : Key := keys.foldl (fun a b => if a ≤ b then b else a) ⟨0, 0⟩

/-- The keys in ascending order. -/
def ascending (keys : List Key) : List Key := keys.mergeSort fun a b => a ≤ b

end Key

end FrameMerge
