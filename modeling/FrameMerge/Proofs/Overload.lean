import FrameMerge.Proofs.Backlog
import Mathlib.Data.List.Induction
import Mathlib.Data.List.Perm.Subperm
import Mathlib.Data.Prod.Lex

/-!
# What an overloaded queue keeps

A queue into which frames are put, and from which none are taken, gives up its first frame for each new one once it is
full. It does not look at the new one before. So the newest frame is always kept, even if it is the oldest by its key, and
of the frames before it the queue keeps those with the greatest keys (`overload_keeps_greatest`). The reason is an
invariant of what stands behind the first frame of a full queue: these are the greatest of *all* frames put in so far
(`Queue.Filled.greatest`), and they are all that the next frame leaves in the queue.
-/

namespace FrameMerge

/-! ## Ranks -/

/-- Where an entry stands: by its key, among equal keys by its arrival. -/
def Entry.rank (e : Entry) : Key ×ₗ Nat := toLex (e.key, e.arrival)

/-- Entries leave in the order of their ranks. -/
theorem Entry.le_iff_rank_le {a b : Entry} : a.le b ↔ a.rank ≤ b.rank := by
  rw [Entry.le_iff, rank, rank, Prod.Lex.toLex_le_toLex]

/-- Frames as entries, numbered in the order in which they come. -/
def inTurn (frames : List Frame) : List Entry := frames.zipIdx.map fun (frame, place) => ⟨frame, place⟩

/-- The last frame to come has the greatest arrival number. -/
theorem inTurn_snoc (frames : List Frame) (frame : Frame) :
    inTurn (frames ++ [frame]) = inTurn frames ++ [⟨frame, frames.length⟩] := by
  simp [inTurn, List.zipIdx_append]

theorem length_inTurn (frames : List Frame) : (inTurn frames).length = frames.length := by
  simp [inTurn]

/-! ## The greatest -/

/-- So many of some entries, each of which ranks above all the others. -/
structure Greatest (count : Nat) (all top : List Entry) : Prop where
  length : top.length = count
  among : top.Subperm all
  above : ∀ e ∈ all, e ∉ top → ∀ g ∈ top, e.rank < g.rank

namespace Greatest

variable {count : Nat} {all top kept : List Entry}

/-- Of entries in order, all are the greatest, and without the first they are the greatest that are one less. -/
theorem tail (hperm : kept.Perm all) (hsorted : kept.Pairwise fun a b => a.rank < b.rank) :
    Greatest (all.length - 1) all kept.tail where
  length := by rw [List.length_tail, hperm.length_eq]
  among := (List.tail_sublist kept).subperm.trans hperm.subperm
  above := by
    intro e he houtside g hg
    cases kept with
    | nil => cases hg
    | cons first others =>
      have hfirst := (List.pairwise_cons.1 hsorted).1
      rcases List.mem_cons.1 (hperm.mem_iff.2 he) with rfl | he
      · exact hfirst g hg
      · exact absurd he houtside

/-- A new entry takes its place among the greatest, and the least of them all leaves. -/
theorem next (h : Greatest count all top) {new : Entry} (hperm : kept.Perm (new :: top))
    (hsorted : kept.Pairwise fun a b => a.rank < b.rank) : Greatest count (all ++ [new]) kept.tail where
  length := by
    rw [List.length_tail, hperm.length_eq, List.length_cons, h.length]
    rfl
  among := by
    have hnew : (new :: top).Subperm (all ++ [new]) :=
      ((List.subperm_cons new).2 h.among).trans (List.perm_append_singleton new all).symm.subperm
    exact (List.tail_sublist kept).subperm.trans (hperm.subperm.trans hnew)
  above := by
    intro e he houtside g hg
    cases kept with
    | nil => cases hg
    | cons first others =>
      have hfirst := (List.pairwise_cons.1 hsorted).1
      by_cases hkept : e ∈ first :: others
      · -- what is kept and is not in the tail is the first
        rcases List.mem_cons.1 hkept with rfl | hmem
        · exact hfirst g hg
        · exact absurd hmem houtside
      · -- what is not kept was below the greatest before: the one kept from among them, or the first one
        rw [hperm.mem_iff, List.mem_cons, not_or] at hkept
        have hall : e ∈ all := by
          rcases List.mem_append.1 he with he | he
          · exact he
          · exact absurd (List.mem_singleton.1 he) hkept.1
        have hbelow := h.above e hall hkept.2
        rcases List.mem_cons.1 (hperm.mem_iff.1 (List.mem_cons_of_mem first hg)) with rfl | hgtop
        · rcases List.mem_cons.1 (hperm.mem_iff.1 List.mem_cons_self) with rfl | hftop
          · exact absurd (hfirst _ hg) (lt_irrefl _)
          · exact (hbelow first hftop).trans (hfirst _ hg)
        · exact hbelow g hgtop

end Greatest

namespace Queue

/-! ## Putting frames in -/

/-- Puts frames in, one after the other. -/
def pushAll (q : Queue) (frames : List Frame) : Queue := frames.foldl (fun q frame => (q.push frame).2) q

/-- Frames are pushed one after the other. -/
theorem pushAll_snoc (q : Queue) (frames : List Frame) (frame : Frame) :
    q.pushAll (frames ++ [frame]) = ((q.pushAll frames).push frame).2 := by
  rw [pushAll, List.foldl_append]
  rfl

/-- No two entries have the same rank. -/
theorem entries_pairwise_rank (q : Queue) : q.entries.Pairwise fun a b => a.rank < b.rank := by
  have hdistinct : q.entries.Pairwise fun a b => a.arrival ≠ b.arrival :=
    (q.entries_perm.pairwise_iff fun hne => Ne.symm hne).2 q.distinct
  refine (q.entries_pairwise.and hdistinct).imp ?_
  rintro a b ⟨hle, hne⟩
  refine lt_of_le_of_ne (Entry.le_iff_rank_le.1 hle) fun heq => hne ?_
  exact congrArg (fun rank => (ofLex rank).2) heq

/-- A queue that is not full keeps all it has and takes the new frame in. -/
theorem push_entries_of_room {q : Queue} (frame : Frame) (room : q.count < q.capacity) :
    (q.push frame).1 = .queued ∧ (q.push frame).2.entries.Perm (q.incoming frame :: q.entries) := by
  rw [push, dif_pos room]
  exact ⟨rfl, q.entries_insert_perm frame room⟩

/-- A full queue keeps what stands behind its first frame and takes the new one in. -/
theorem push_entries_of_full {q : Queue} (frame : Frame) (full : q.count = q.capacity) :
    (∃ first, (q.push frame).1 = .evicted first) ∧
      (q.push frame).2.entries.Perm (q.incoming frame :: q.entries.tail) := by
  obtain ⟨gone, others, hentries, hperm, -, hgone | ⟨first, hgone, houtcome⟩⟩ := q.push_cases frame
  · -- otherwise more frames than its capacity would be in the queue
    have hlength := hperm.length_eq
    have hle := (q.push frame).2.count_le
    rw [hgone.1, List.nil_append] at hentries
    rw [List.length_cons, ← hentries, length_entries, length_entries] at hlength
    rw [q.capacity_push frame] at hle
    omega
  · rw [hentries, hgone]
    exact ⟨⟨first.frame, houtcome⟩, hperm⟩

/-- What a queue holds after some frames were put in: all of them as long as there is room for all, and from then on so
many that behind the first stand the greatest of all. -/
structure Filled (frames : List Frame) (q : Queue) : Prop where
  next : q.nextArrival = frames.length
  count : q.count = min frames.length q.capacity
  all : frames.length ≤ q.capacity → q.entries.Perm (inTurn frames)
  greatest : q.capacity ≤ frames.length → Greatest (q.capacity - 1) (inTurn frames) q.entries.tail

namespace Filled

variable {frames : List Frame} {q : Queue}

/-- A queue just set up has nothing to give up. -/
theorem of_create {capacity : Nat} (h : create capacity = .ok q) : Filled [] q := by
  unfold create at h
  split at h
  · rename_i hpos
    cases h
    refine ⟨rfl, (Nat.zero_min _).symm, fun _ => entries_perm _, fun hle => ?_⟩
    exact absurd hpos (Nat.not_lt.2 hle)
  · cases h

/-- One more frame. -/
theorem push (h : Filled frames q) (frame : Frame) : Filled (frames ++ [frame]) (q.push frame).2 := by
  obtain ⟨-, -, -, -, hnext, -⟩ := q.push_cases frame
  have hsorted := (q.push frame).2.entries_pairwise_rank
  have hcapacity := q.capacity_push frame
  have hincoming : q.incoming frame = ⟨frame, frames.length⟩ := by rw [incoming, h.next]
  have hcount := h.count
  rw [h.next] at hnext
  by_cases room : q.count < q.capacity
  · obtain ⟨-, hperm⟩ := q.push_entries_of_room frame room
    rw [hincoming] at hperm
    have hall : (q.push frame).2.entries.Perm (inTurn (frames ++ [frame])) := by
      rw [inTurn_snoc]
      exact (hperm.trans ((h.all (by omega)).cons _)).trans (List.perm_append_singleton _ _).symm
    have hlength := hperm.length_eq
    rw [List.length_cons, length_entries, length_entries] at hlength
    refine ⟨by simp [hnext], by rw [List.length_append, List.length_singleton]; omega, fun _ => hall, fun hfull => ?_⟩
    have hsize : (inTurn (frames ++ [frame])).length = (q.push frame).2.capacity := by
      rw [List.length_append, List.length_singleton] at hfull
      rw [length_inTurn, List.length_append, List.length_singleton]
      omega
    rw [← hsize]
    exact Greatest.tail hall hsorted
  · have full : q.count = q.capacity := Nat.le_antisymm q.count_le (Nat.not_lt.1 room)
    have hfull : q.capacity ≤ frames.length := by omega
    have hpos := q.capacity_pos
    obtain ⟨-, hperm⟩ := q.push_entries_of_full frame full
    rw [hincoming] at hperm
    have hlength := hperm.length_eq
    rw [List.length_cons, List.length_tail, length_entries, length_entries] at hlength
    refine ⟨by simp [hnext], by rw [List.length_append, List.length_singleton]; omega, fun hroom => ?_, fun _ => ?_⟩
    · rw [List.length_append, List.length_singleton] at hroom
      omega
    · rw [hcapacity, inTurn_snoc]
      exact (h.greatest hfull).next hperm hsorted

/-- A queue that was filled holds what it has to. -/
theorem pushAll {capacity : Nat} (h : create capacity = .ok q) (frames : List Frame) :
    Filled frames (q.pushAll frames) ∧ (q.pushAll frames).capacity = q.capacity := by
  induction frames using List.reverseRecOn with
  | nil => exact ⟨of_create h, rfl⟩
  | append_singleton frames frame ih =>
    rw [pushAll_snoc, capacity_push]
    exact ⟨ih.1.push frame, ih.2⟩

/-- A frame displaces another exactly if there is no room for both. -/
theorem evicts_iff (h : Filled frames q) (frame : Frame) :
    (q.push frame).1.evicted?.isSome = true ↔ q.capacity < frames.length + 1 := by
  have hcount := h.count
  by_cases room : q.count < q.capacity
  · obtain ⟨houtcome, -⟩ := q.push_entries_of_room frame room
    rw [houtcome]
    simp only [PushOutcome.evicted?, Option.isSome_none, Bool.false_eq_true, false_iff]
    omega
  · obtain ⟨⟨first, houtcome⟩, -⟩ := q.push_entries_of_full frame (Nat.le_antisymm q.count_le (Nat.not_lt.1 room))
    rw [houtcome]
    simp only [PushOutcome.evicted?, Option.isSome_some, true_iff]
    omega

/-- Once the queue is full, it keeps the last frame and the greatest of those before it. -/
theorem kept_of_full (h : Filled frames q) (last : Frame) (hfull : q.capacity ≤ frames.length) :
    ∃ top, Greatest (q.capacity - 1) (inTurn frames) top ∧
      (q.push last).2.entries.Perm (⟨last, frames.length⟩ :: top) := by
  have hcount := h.count
  have hincoming : q.incoming last = ⟨last, frames.length⟩ := by rw [incoming, h.next]
  obtain ⟨-, hperm⟩ := q.push_entries_of_full last (by omega)
  rw [hincoming] at hperm
  exact ⟨_, h.greatest hfull, hperm⟩

end Filled

/-! ## Taking all out -/

/-- Takes frames out until there is none. -/
def popAll (q : Queue) : List Frame :=
  match _h : q.pop? with
  | none => []
  | some (frame, rest) => frame :: rest.popAll
  termination_by q.count
  decreasing_by
    have hcount := (count_of_pop? _h).1
    omega

/-- All that is taken out are the contents. -/
theorem popAll_eq (q : Queue) : q.popAll = q.contents := by
  fun_induction popAll q with
  | case1 q hpop => exact (q.pop?_eq_none_iff.1 hpop).symm
  | case2 q frame rest hpop ih => rw [ih, contents_of_pop? hpop]

end Queue

/-- What an overloaded queue keeps. Frames are put into a new queue, and none are taken out in between.
1. A frame displaces another exactly if as many as the queue can hold were put in before it.
2. When all are taken out afterwards, they come in the order of their keys, and frames of one key in the order in which
they were put in.
3. These are all that were put in, if the queue can hold so many.
4. Otherwise they are the last that was put in and, of those before it, the greatest by key and, among equal keys, by the
order in which they were put in: as many as fill the queue. -/
theorem overload_keeps_greatest (capacity : Nat) (hpos : 0 < capacity) :
    ∃ q, Queue.create capacity = .ok q ∧
      (∀ earlier frame, ((q.pushAll earlier).push frame).1.evicted?.isSome = true ↔ capacity < earlier.length + 1) ∧
      ∀ frames, ∃ kept : List Entry, (q.pushAll frames).popAll = kept.map Entry.frame ∧
        kept.Pairwise (fun a b => a.rank < b.rank) ∧
        (frames.length ≤ capacity → kept.Perm (inTurn frames)) ∧
        ∀ earlier last, frames = earlier ++ [last] → capacity < frames.length →
          ∃ top, Greatest (capacity - 1) (inTurn earlier) top ∧ kept.Perm (⟨last, earlier.length⟩ :: top) := by
  obtain ⟨q, hq⟩ : ∃ q, Queue.create capacity = .ok q := ⟨_, dif_pos hpos⟩
  have hcapacity : q.capacity = capacity := congrArg Backlog.capacity (Queue.backlog_of_create hq)
  refine ⟨q, hq, fun earlier frame => ?_, fun frames => ?_⟩
  · obtain ⟨hfilled, hsame⟩ := Queue.Filled.pushAll hq earlier
    rw [hfilled.evicts_iff frame, hsame, hcapacity]
  · obtain ⟨hfilled, hsame⟩ := Queue.Filled.pushAll hq frames
    refine ⟨(q.pushAll frames).entries, Queue.popAll_eq _, Queue.entries_pairwise_rank _, fun hroom => ?_, ?_⟩
    · exact hfilled.all (by omega)
    · rintro earlier last rfl hover
      obtain ⟨hearlier, hsameEarlier⟩ := Queue.Filled.pushAll hq earlier
      rw [List.length_append, List.length_singleton] at hover
      have hkept := hearlier.kept_of_full last (by omega)
      rw [hsameEarlier, hcapacity] at hkept
      rw [Queue.pushAll_snoc]
      exact hkept

/-- Two frames fill the queue, and the third is older than both: it is kept, and of the other two the later one. -/
theorem overload_keeps_greatest_sample :
    0 < 2 ∧ ∃ q, Queue.create 2 = .ok q ∧
      (q.pushAll [Sample.frame ⟨0, 5⟩, Sample.frame ⟨0, 6⟩, Sample.frame ⟨0, 1⟩]).popAll =
        [Sample.frame ⟨0, 1⟩, Sample.frame ⟨0, 6⟩] := by
  obtain ⟨q, hq, -, hkeeps⟩ := overload_keeps_greatest 2 (by decide)
  obtain ⟨kept, hpop, hsorted, -, hover⟩ := hkeeps [Sample.frame ⟨0, 5⟩, Sample.frame ⟨0, 6⟩, Sample.frame ⟨0, 1⟩]
  obtain ⟨top, hgreatest, hperm⟩ :=
    hover [Sample.frame ⟨0, 5⟩, Sample.frame ⟨0, 6⟩] (Sample.frame ⟨0, 1⟩) rfl (by decide)
  obtain ⟨e, rfl⟩ := List.length_eq_one_iff.1 hgreatest.length
  -- the frame numbered 5 is not the greatest of the two
  have he : e = ⟨Sample.frame ⟨0, 6⟩, 1⟩ := by
    have hamong : e ∈ inTurn [Sample.frame ⟨0, 5⟩, Sample.frame ⟨0, 6⟩] := hgreatest.among.subset List.mem_cons_self
    rcases List.mem_cons.1 hamong with rfl | hlast
    · have hlt := hgreatest.above ⟨Sample.frame ⟨0, 6⟩, 1⟩ (by simp [inTurn]) (by simp) _ List.mem_cons_self
      exact absurd hlt (by decide)
    · exact List.mem_singleton.1 hlast
  subst he
  have hinOrder : [(⟨Sample.frame ⟨0, 1⟩, 2⟩ : Entry), ⟨Sample.frame ⟨0, 6⟩, 1⟩].Pairwise fun a b => a.rank < b.rank := by
    decide
  have hkept := hperm.eq_of_pairwise (fun a b _ _ hab hba => absurd hab (lt_asymm hba)) hsorted hinOrder
  refine ⟨by decide, q, hq, ?_⟩
  rw [hpop, hkept]
  rfl

end FrameMerge
