import FrameMerge.Queue.Contents
import Mathlib.Order.Defs.LinearOrder

/-!
# Entries of a queue, by operation

The arrival numbers tell entries apart even where their frames are equal, so what becomes of one frame among equals
is said of its entry. Taking out removes the first entry (`pop?_cases`); putting in adds one with the next arrival
number, after removing the first from a full queue (`push_cases`).
-/

namespace FrameMerge

/-- Keys are linearly ordered. -/
instance Key.linearOrder : LinearOrder Key where
  le := (· ≤ ·)
  lt := (· < ·)
  le_refl := Key.le_refl
  le_trans _ _ _ := Key.le_trans
  le_antisymm _ _ := Key.le_antisymm
  lt_iff_le_not_ge a b := by
    rw [Key.lt_iff_not_le]
    exact ⟨fun h => ⟨(Key.le_total a b).resolve_right h, h⟩, And.right⟩
  le_total := Key.le_total
  toDecidableLE := inferInstance

/-- The frame that a full queue gave up. -/
def PushOutcome.evicted? : PushOutcome → Option Frame
  | .queued => none
  | .evicted frame => some frame

namespace Queue

/-- Frames and entries of a queue are the same in number. -/
theorem length_entries (q : Queue) : q.entries.length = q.count := by
  rw [← q.length_contents, contents, List.length_map]

/-- What is in the queue has an arrival number that was given before. -/
theorem arrival_lt_of_mem {q : Queue} {e : Entry} (h : e ∈ q.entries) : e.arrival < q.nextArrival :=
  q.fresh e (q.entries_perm.mem_iff.1 h)

/-- Entries of a queue are told apart by their arrival numbers. -/
theorem eq_of_mem_entries {q : Queue} {a b : Entry} (ha : a ∈ q.entries) (hb : b ∈ q.entries)
    (h : a.arrival = b.arrival) : a = b :=
  eq_of_arrival_eq q.distinct (q.entries_perm.mem_iff.1 ha) (q.entries_perm.mem_iff.1 hb) h

/-- The first entry leaves no later than any other. -/
theorem le_of_entries {q : Queue} {first : Entry} {others : List Entry} (h : q.entries = first :: others) :
    ∀ e ∈ others, first.le e := by
  have hpairwise := q.entries_pairwise
  rw [h] at hpairwise
  exact (List.pairwise_cons.1 hpairwise).1

/-- The first entry has the least key. -/
theorem key_le_of_entries {q : Queue} {first : Entry} {others : List Entry} (h : q.entries = first :: others) :
    ∀ e ∈ others, first.key ≤ e.key := by
  intro e he
  exact Entry.key_le_of_le (le_of_entries h e he)

/-- The entry that a frame put in now becomes. -/
def incoming (q : Queue) (frame : Frame) : Entry := ⟨frame, q.nextArrival⟩

/-- Taking out removes the first entry, if there is one. -/
theorem pop?_cases (q : Queue) :
    (q.pop? = none ∧ q.entries = []) ∨
      ∃ first rest, q.pop? = some (first.frame, rest) ∧ q.entries = first :: rest.entries ∧
        rest.nextArrival = q.nextArrival := by
  cases hpop : q.pop? with
  | none =>
    refine Or.inl ⟨rfl, ?_⟩
    rw [← List.length_eq_zero_iff, length_entries, ← q.length_contents, (q.pop?_eq_none_iff).1 hpop]
    rfl
  | some popped =>
    obtain ⟨frame, rest⟩ := popped
    obtain ⟨first, rfl, hentries⟩ := entries_of_pop? hpop
    refine Or.inr ⟨first, rest, rfl, hentries, ?_⟩
    rw [pop?] at hpop
    split at hpop
    · cases hpop
    · simp only [Option.some.injEq, Prod.mk.injEq] at hpop
      rw [← hpop.2]

/-- Putting a frame in where there is room adds one entry. -/
theorem entries_insert_perm (q : Queue) (frame : Frame) (room : q.count < q.capacity) :
    (q.insert frame room).entries.Perm (q.incoming frame :: q.entries) :=
  (entries_perm _).trans ((insert_perm q frame).trans (q.entries_perm.symm.cons _))

/-- Putting a frame in adds one entry; a full queue first gives up its first one, which is all it ever gives up. -/
theorem push_cases (q : Queue) (frame : Frame) :
    ∃ gone others, q.entries = gone ++ others ∧ (q.push frame).2.entries.Perm (q.incoming frame :: others) ∧
      (q.push frame).2.nextArrival = q.nextArrival + 1 ∧
      ((gone = [] ∧ (q.push frame).1 = .queued) ∨ ∃ first, gone = [first] ∧ (q.push frame).1 = .evicted first.frame) := by
  rw [push]
  by_cases room : q.count < q.capacity
  · rw [dif_pos room]
    exact ⟨[], q.entries, rfl, q.entries_insert_perm frame room, rfl, Or.inl ⟨rfl, rfl⟩⟩
  · rw [dif_neg room]
    split
    · rename_i hpop
      have hempty := (q.pop?_eq_none_iff).1 hpop
      have hcount := q.length_contents
      have hpos := q.capacity_pos
      rw [hempty, List.length_nil] at hcount
      omega
    · rename_i frame' rest hpop
      rcases q.pop?_cases with ⟨hnone, -⟩ | ⟨first, rest', hsome, hentries, harrival⟩
      · rw [hnone] at hpop
        cases hpop
      · rw [hsome, Option.some.injEq, Prod.mk.injEq] at hpop
        obtain ⟨rfl, rfl⟩ := hpop
        have hincoming : q.incoming frame = rest'.incoming frame := by rw [incoming, incoming, harrival]
        refine ⟨[first], rest'.entries, hentries, ?_, ?_, Or.inr ⟨first, rfl, rfl⟩⟩
        · rw [hincoming]
          exact rest'.entries_insert_perm frame _
        · show rest'.nextArrival + 1 = q.nextArrival + 1
          rw [harrival]

end Queue

/-! ## A small frame -/

/-- The header that has a number and nothing else. -/
def Header.ofNumber (n : Nat) (h : n < Text.bound64) : Header where
  fields := [(frameNumberField, .number (.whole ⟨n, WholeNumber.inRange_of_lt h⟩))]
  frameNumber := n
  canonical := by simp [Json.Canonical, Json.CanonicalFields]
  numbered := ⟨⟨n, WholeNumber.inRange_of_lt h⟩, rfl, rfl⟩

namespace Sample

/-- A frame of a key, with no data. -/
def frame (key : Key) : Frame := ⟨key, Header.ofNumber 0 (by decide), []⟩

end Sample

end FrameMerge
