/-!
# Heaps

A binary heap that merges: taking the root out merges its two sides, putting an element in merges a single node. The
sides change places on the way down, which keeps long paths from staying long. What matters to its users: merging
keeps the elements (`merge_perm`) and the order (`Ordered.merge`), so the root precedes all others
(`Ordered.root_le`).
-/

namespace FrameMerge

/-- A binary tree with an element at every node. -/
inductive Heap (α : Type) where
  | empty
  | node (root : α) (left right : Heap α)

namespace Heap

variable {α : Type}

def size : Heap α → Nat
  | empty => 0
  | node _ left right => left.size + right.size + 1

/-- The elements, in no particular order. -/
def toList : Heap α → List α
  | empty => []
  | node root left right => root :: (left.toList ++ right.toList)

/-- The elements of two heaps in one. -/
def merge (le : α → α → Bool) : Heap α → Heap α → Heap α
  | empty, b => b
  | a, empty => a
  | node x l r, node y l' r' =>
    if le x y then node x (merge le r (node y l' r')) l
    else node y (merge le (node x l r) r') l'
  termination_by a b => a.size + b.size
  decreasing_by all_goals simp only [size]; omega

def insert (le : α → α → Bool) (x : α) (h : Heap α) : Heap α := merge le (node x empty empty) h

/-- Every root precedes the elements below it. -/
def Ordered (le : α → α → Bool) : Heap α → Prop
  | empty => True
  | node root left right =>
    (∀ x ∈ left.toList ++ right.toList, le root x) ∧ left.Ordered le ∧ right.Ordered le

/-- Every element is listed once. -/
theorem length_toList (h : Heap α) : h.toList.length = h.size := by
  induction h with
  | empty => rfl
  | node root left right ihl ihr => simp [toList, size, ihl, ihr]

/-- Merging neither loses nor invents elements. -/
theorem merge_perm (le : α → α → Bool) (a b : Heap α) : (merge le a b).toList.Perm (a.toList ++ b.toList) := by
  fun_induction merge le a b with
  | case1 b => exact List.Perm.refl _
  | case2 a => simp [toList]
  | case3 x l r y l' r' _ ih =>
    refine List.Perm.cons x ((ih.append_right _).trans ?_)
    rw [List.append_eq, List.append_assoc l.toList]
    exact List.perm_append_comm
  | case4 x l r y l' r' _ ih =>
    refine List.Perm.trans (List.Perm.cons y ((ih.append_right _).trans ?_)) List.perm_middle.symm
    rw [List.append_assoc]
    exact List.Perm.append_left _ List.perm_append_comm

/-- Merging keeps their number. -/
theorem size_merge (le : α → α → Bool) (a b : Heap α) : (merge le a b).size = a.size + b.size := by
  rw [← length_toList, (merge_perm le a b).length_eq, List.length_append, length_toList, length_toList]

section

variable {le : α → α → Bool} (trans : ∀ a b c, le a b → le b c → le a c) (total : ∀ a b, le a b || le b a)

include trans

/-- What precedes the root of an ordered heap precedes all that is in it. -/
theorem Ordered.root_le {x y : α} {l r : Heap α} (hxy : le x y) (h : (node y l r).Ordered le) :
    ∀ z ∈ (node y l r).toList, le x z := by
  intro z hz
  rcases List.mem_cons.1 hz with rfl | hz
  · exact hxy
  · exact trans x y z hxy (h.1 z hz)

include total

/-- Merging keeps the order. -/
theorem Ordered.merge {a b : Heap α} (ha : a.Ordered le) (hb : b.Ordered le) : (Heap.merge le a b).Ordered le := by
  fun_induction Heap.merge le a b with
  | case1 b => exact hb
  | case2 a => exact ha
  | case3 x l r y l' r' hxy ih =>
    refine ⟨fun z hz => ?_, ih ha.2.2 hb, ha.2.1⟩
    rw [List.mem_append, (merge_perm le _ _).mem_iff, List.mem_append] at hz
    rcases hz with (hz | hz) | hz
    · exact ha.1 z (List.mem_append_right _ hz)
    · exact Ordered.root_le trans hxy hb z hz
    · exact ha.1 z (List.mem_append_left _ hz)
  | case4 x l r y l' r' hxy ih =>
    have hyx : le y x := by
      have := total x y
      simp_all
    refine ⟨fun z hz => ?_, ih ha hb.2.2, hb.2.1⟩
    rw [List.mem_append, (merge_perm le _ _).mem_iff, List.mem_append] at hz
    rcases hz with (hz | hz) | hz
    · exact Ordered.root_le trans hyx ha z hz
    · exact hb.1 z (List.mem_append_right _ hz)
    · exact hb.1 z (List.mem_append_left _ hz)

end

end Heap

end FrameMerge
