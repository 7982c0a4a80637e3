import FrameMerge.Header
import FrameMerge.Queue.Heap

/-!
# The reordering queue

A queue of bounded size that gives its frames back in the order of their keys, frames of one key in the order of
their arrival. A full queue makes room by giving up its first frame before it takes the new one in, even if the new
one is older still. Arrival numbers are pairwise distinct, so the order of the entries is strict and the queue's
contents, read in that order, determine all it will ever answer.
-/

namespace FrameMerge

/-- A frame in the queue with the number of its arrival. -/
structure Entry where
  frame : Frame
  arrival : Nat

namespace Entry

def key (e : Entry) : Key := e.frame.key

/-- An entry leaves no later than another: the smaller key first, the earlier arrival among equal keys. -/
def le (a b : Entry) : Bool := a.key < b.key || (a.key == b.key && a.arrival ≤ b.arrival)

/-- The order of leaving, in terms of keys and arrivals. -/
theorem le_iff {a b : Entry} : a.le b ↔ a.key < b.key ∨ a.key = b.key ∧ a.arrival ≤ b.arrival := by
  simp [le]

/-- The order of leaving goes on through entries in between. -/
theorem le_trans (a b c : Entry) (hab : a.le b) (hbc : b.le c) : a.le c := by
  rw [le_iff, Key.lt_iff] at *
  rcases hab with hab | ⟨hab, hab'⟩ <;> rcases hbc with hbc | ⟨hbc, hbc'⟩
  · omega
  · rw [← hbc]
    omega
  · rw [hab]
    omega
  · exact Or.inr ⟨hab.trans hbc, by omega⟩

/-- Of any two entries, one leaves no later than the other. -/
theorem le_total (a b : Entry) : a.le b || b.le a := by
  rw [Bool.or_eq_true, le_iff, le_iff, Key.lt_iff_not_le, Key.lt_iff_not_le]
  by_cases hab : a.key ≤ b.key <;> by_cases hba : b.key ≤ a.key <;> simp_all
  have h := Key.le_antisymm hab hba
  simp only [h, true_and]
  omega

end Entry

/-- What became of the queue when a frame was put in. -/
inductive PushOutcome
  | queued
  | evicted (frame : Frame)

/-- Why there is no queue. -/
inductive QueueError
  | zeroCapacity
  deriving DecidableEq

def QueueError.message : QueueError → String
  | .zeroCapacity => "queue capacity must be greater than zero"

/-- Entries in a heap, with what is always true of them: the queue is bounded, the count is right, the heap is in order,
and no arrival number was given twice or is yet to be given. -/
structure Queue where
  capacity : Nat
  count : Nat
  nextArrival : Nat
  heap : Heap Entry
  capacity_pos : 0 < capacity
  count_le : count ≤ capacity
  count_eq : count = heap.size
  ordered : heap.Ordered Entry.le
  fresh : ∀ e ∈ heap.toList, e.arrival < nextArrival
  distinct : heap.toList.Pairwise fun a b => a.arrival ≠ b.arrival

namespace Queue

/-- An empty queue. -/
def create (capacity : Nat) : Except QueueError Queue :=
  if h : 0 < capacity then
    .ok { capacity, count := 0, nextArrival := 0, heap := .empty, capacity_pos := h, count_le := Nat.zero_le _,
          count_eq := rfl, ordered := trivial, fresh := fun _ he => absurd he List.not_mem_nil, distinct := .nil }
  else .error .zeroCapacity

def isEmpty (q : Queue) : Bool := q.count == 0

/-- The key of the frame that leaves next. -/
def peek? (q : Queue) : Option Key :=
  match q.heap with
  | .empty => none
  | .node first _ _ => some first.key

/-! ## Taking the first frame out -/

section

variable {q : Queue} {first : Entry} {left right : Heap Entry} (h : q.heap = .node first left right)

theorem pred_count_le (q : Queue) : q.count - 1 ≤ q.capacity := Nat.le_trans (Nat.sub_le _ _) q.count_le

include h

theorem pred_count_eq : q.count - 1 = (Heap.merge Entry.le left right).size := by
  have hcount := q.count_eq
  rw [h, Heap.size] at hcount
  rw [Heap.size_merge]
  omega

/-- The sides merge to a heap in order. -/
theorem ordered_sides : (Heap.merge Entry.le left right).Ordered Entry.le := by
  have hordered := q.ordered
  rw [h] at hordered
  exact Heap.Ordered.merge Entry.le_trans Entry.le_total hordered.2.1 hordered.2.2

/-- What is left arrived before what is yet to come. -/
theorem fresh_sides : ∀ e ∈ (Heap.merge Entry.le left right).toList, e.arrival < q.nextArrival := by
  intro e he
  refine q.fresh e ?_
  rw [h, Heap.toList]
  exact List.mem_cons_of_mem _ ((Heap.merge_perm Entry.le left right).mem_iff.1 he)

/-- What is left has arrival numbers of its own. -/
theorem distinct_sides : (Heap.merge Entry.le left right).toList.Pairwise fun a b => a.arrival ≠ b.arrival := by
  have hdistinct := q.distinct
  rw [h, Heap.toList, List.pairwise_cons] at hdistinct
  exact ((Heap.merge_perm Entry.le left right).pairwise_iff fun hne => Ne.symm hne).2 hdistinct.2

end

/-- Takes the first frame out. -/
def pop? (q : Queue) : Option (Frame × Queue) :=
  match h : q.heap with
  | .empty => none
  | .node first left right =>
    some (first.frame,
      { q with
        count := q.count - 1
        heap := Heap.merge Entry.le left right
        count_le := pred_count_le q
        count_eq := pred_count_eq h
        ordered := ordered_sides h
        fresh := fresh_sides h
        distinct := distinct_sides h })

/-- Taking a frame out leaves one less, and as much room in all. -/
theorem count_of_pop? {q rest : Queue} {frame : Frame} (h : q.pop? = some (frame, rest)) :
    rest.count + 1 = q.count ∧ rest.capacity = q.capacity := by
  have hcount := q.count_eq
  rw [pop?] at h
  split at h
  · cases h
  · rename_i first left right hheap
    simp only [Option.some.injEq, Prod.mk.injEq] at h
    obtain ⟨-, rfl⟩ := h
    rw [hheap, Heap.size] at hcount
    exact ⟨by show q.count - 1 + 1 = q.count; omega, rfl⟩

/-! ## Putting a frame in -/

section

variable (q : Queue) (frame : Frame)

/-- The entries with a new one among them. -/
theorem insert_perm : (Heap.insert Entry.le ⟨frame, q.nextArrival⟩ q.heap).toList.Perm
    (⟨frame, q.nextArrival⟩ :: q.heap.toList) :=
  Heap.merge_perm Entry.le (.node ⟨frame, q.nextArrival⟩ .empty .empty) q.heap

theorem succ_count_eq : q.count + 1 = (Heap.insert Entry.le ⟨frame, q.nextArrival⟩ q.heap).size := by
  rw [← Heap.length_toList, (insert_perm q frame).length_eq, List.length_cons, Heap.length_toList, q.count_eq]

/-- The new entry finds its place in the order. -/
theorem ordered_insert : (Heap.insert Entry.le ⟨frame, q.nextArrival⟩ q.heap).Ordered Entry.le :=
  Heap.Ordered.merge Entry.le_trans Entry.le_total
    ⟨fun _ he => absurd he List.not_mem_nil, trivial, trivial⟩ q.ordered

/-- The new arrival number is used up. -/
theorem fresh_insert :
    ∀ e ∈ (Heap.insert Entry.le ⟨frame, q.nextArrival⟩ q.heap).toList, e.arrival < q.nextArrival + 1 := by
  intro e he
  rcases List.mem_cons.1 ((insert_perm q frame).mem_iff.1 he) with rfl | he
  · exact Nat.lt_succ_self _
  · exact Nat.lt_succ_of_lt (q.fresh e he)

/-- The new arrival number was not given before. -/
theorem distinct_insert :
    (Heap.insert Entry.le ⟨frame, q.nextArrival⟩ q.heap).toList.Pairwise fun a b => a.arrival ≠ b.arrival :=
  ((insert_perm q frame).pairwise_iff fun hne => Ne.symm hne).2
    (List.pairwise_cons.2 ⟨fun e he => Nat.ne_of_gt (q.fresh e he), q.distinct⟩)

end

/-- Puts a frame in where there is room. -/
def insert (q : Queue) (frame : Frame) (room : q.count < q.capacity) : Queue where
  capacity := q.capacity
  count := q.count + 1
  nextArrival := q.nextArrival + 1
  heap := Heap.insert Entry.le ⟨frame, q.nextArrival⟩ q.heap
  capacity_pos := q.capacity_pos
  count_le := room
  count_eq := succ_count_eq q frame
  ordered := ordered_insert q frame
  fresh := fresh_insert q frame
  distinct := distinct_insert q frame

/-- Once a frame is taken out there is room. -/
theorem room_of_pop? {q rest : Queue} {frame : Frame} (h : q.pop? = some (frame, rest)) :
    rest.count < rest.capacity := by
  have hcount := count_of_pop? h
  have hle := q.count_le
  omega

/-- Puts a frame in; a full queue first gives up its first frame. -/
def push (q : Queue) (frame : Frame) : PushOutcome × Queue :=
  if room : q.count < q.capacity then (.queued, q.insert frame room)
  else match h : q.pop? with
    | none => (.queued, q)
    | some (first, rest) => (.evicted first, rest.insert frame (room_of_pop? h))

end Queue

end FrameMerge
