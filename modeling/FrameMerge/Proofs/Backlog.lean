import FrameMerge.Proofs.Entries
import Mathlib.Data.List.TakeWhile

/-!
# The queue as a sorted list

A backlog is a bounded list of frames that is kept in the order of their keys, frames of one key in the order in which
they came. A queue answers as a backlog does (`observations_backlog`), whatever the shape of its heap: the backlog of a
queue is its contents, and pushing and popping do to the contents what they do to a list. That a backlog is sorted and
that frames of one key keep their order is an invariant of its own (`Backlog.InOrder`), carried through any history.
-/

namespace FrameMerge

/-! ## Histories -/

/-- What can be done to a queue. -/
inductive QueueOperation
  | push (frame : Frame)
  | pop

/-- The frame that an operation puts in. -/
def QueueOperation.pushed? : QueueOperation → Option Frame
  | .push frame => some frame
  | .pop => none

/-- The frames that a history puts in, in their order. -/
def framesPushed (ops : List QueueOperation) : List Frame := ops.filterMap QueueOperation.pushed?

theorem framesPushed_cons (op : QueueOperation) (ops : List QueueOperation) :
    framesPushed (op :: ops) = op.pushed?.toList ++ framesPushed ops := by
  cases op <;> rfl

/-- What a queue answers. -/
inductive QueueAnswer
  | pushed (outcome : PushOutcome)
  | popped (frame : Option Frame)

/-- What a queue answers, and what is seen of it afterwards. -/
structure QueueObservation where
  answer : QueueAnswer
  first : Option Key
  length : Nat
  isEmpty : Bool

/-- What can be pushed to, popped from and looked at. -/
class Buffer (B : Type) where
  push : B → Frame → PushOutcome × B
  pop : B → Option Frame × B
  peek? : B → Option Key
  length : B → Nat
  isEmpty : B → Bool

namespace Buffer

variable {B : Type} [Buffer B]

/-- Carries an operation out. -/
def apply (b : B) : QueueOperation → QueueAnswer × B
  | .push frame => (.pushed (push b frame).1, (push b frame).2)
  | .pop => (.popped (pop b).1, (pop b).2)

/-- What is seen after an answer. -/
def observe (answer : QueueAnswer) (b : B) : QueueObservation := ⟨answer, peek? b, length b, isEmpty b⟩

/-- What is seen of a history, operation by operation. -/
def observations (b : B) : List QueueOperation → List QueueObservation
  | [] => []
  | op :: ops => observe (apply b op).1 (apply b op).2 :: observations (apply b op).2 ops

/-- What a history leaves. -/
def after (b : B) (ops : List QueueOperation) : B := ops.foldl (fun b op => (apply b op).2) b

end Buffer

instance : Buffer Queue where
  push := Queue.push
  pop q := match q.pop? with
    | none => (none, q)
    | some (frame, rest) => (some frame, rest)
  peek? := Queue.peek?
  length := Queue.count
  isEmpty := Queue.isEmpty

/-- A bounded list of frames, in the order in which they leave. -/
structure Backlog where
  capacity : Nat
  frames : List Frame

namespace Backlog

/-- Nothing waits. -/
def empty (capacity : Nat) : Backlog := ⟨capacity, []⟩

/-- Puts a frame in behind all whose keys are not above its own; if the list is full, its first frame goes before. -/
def push (b : Backlog) (frame : Frame) : PushOutcome × Backlog :=
  if b.frames.length < b.capacity then (.queued, { b with frames := insertInOrder frame b.frames })
  else match b.frames with
    | [] => (.queued, { b with frames := [frame] })
    | first :: others => (.evicted first, { b with frames := insertInOrder frame others })

theorem push_of_room {b : Backlog} (frame : Frame) (room : b.frames.length < b.capacity) :
    b.push frame = (.queued, { b with frames := insertInOrder frame b.frames }) := if_pos room

theorem push_of_full {b : Backlog} (frame : Frame) {first : Frame} {others : List Frame}
    (h : b.frames = first :: others) (full : b.capacity ≤ b.frames.length) :
    b.push frame = (.evicted first, { b with frames := insertInOrder frame others }) := by
  rw [push, if_neg (Nat.not_lt.2 full)]
  simp only [h]

/-- Takes the first frame out. -/
def pop (b : Backlog) : Option Frame × Backlog := (b.frames.head?, { b with frames := b.frames.tail })

end Backlog

instance : Buffer Backlog where
  push := Backlog.push
  pop := Backlog.pop
  peek? b := b.frames.head?.map Frame.key
  length b := b.frames.length
  isEmpty b := b.frames.isEmpty

namespace Backlog

/-- No operation changes the capacity. -/
theorem capacity_apply (b : Backlog) (op : QueueOperation) : (Buffer.apply b op).2.capacity = b.capacity := by
  cases op with
  | push frame =>
    show (b.push frame).2.capacity = b.capacity
    rw [push]
    split
    · rfl
    · split <;> rfl
  | pop => rfl

end Backlog

open Buffer

/-! ## A queue answers as its backlog does -/

namespace Queue

/-- What a queue holds, as a list. -/
def backlog (q : Queue) : Backlog := ⟨q.capacity, q.contents⟩

theorem push_backlog (q : Queue) (frame : Frame) :
    (q.push frame).1 = (q.backlog.push frame).1 ∧ (q.push frame).2.backlog = (q.backlog.push frame).2 := by
  have hnext : (q.push frame).2.backlog = ⟨q.capacity, (q.push frame).2.contents⟩ := by
    rw [backlog, q.capacity_push frame]
  by_cases room : q.contents.length < q.capacity
  · obtain ⟨houtcome, hcontents⟩ := q.push_of_room frame room
    have hpush : q.backlog.push frame = (.queued, ⟨q.capacity, insertInOrder frame q.contents⟩) :=
      Backlog.push_of_room frame room
    rw [hpush, hnext, hcontents]
    exact ⟨houtcome, rfl⟩
  · have full : q.capacity ≤ q.contents.length := Nat.not_lt.1 room
    obtain ⟨first, others, hq⟩ := List.exists_cons_of_length_pos (Nat.lt_of_lt_of_le q.capacity_pos full)
    obtain ⟨houtcome, hcontents⟩ := @push_of_full q frame first others hq full
    have hpush : q.backlog.push frame = (.evicted first, ⟨q.capacity, insertInOrder frame others⟩) :=
      Backlog.push_of_full frame hq full
    rw [hpush, hnext, hcontents]
    exact ⟨houtcome, rfl⟩

theorem pop_backlog (q : Queue) : (pop q).1 = (pop q.backlog).1 ∧ (pop q).2.backlog = (pop q.backlog).2 := by
  cases hpop : q.pop? with
  | none =>
    have hempty : q.contents = [] := q.pop?_eq_none_iff.1 hpop
    have hq : pop q = (none, q) := by simp only [pop, hpop]
    rw [hq]
    simp only [pop, Backlog.pop, backlog, hempty]
    exact ⟨rfl, rfl⟩
  | some popped =>
    obtain ⟨frame, rest⟩ := popped
    have hcontents : q.contents = frame :: rest.contents := contents_of_pop? hpop
    have hcapacity : rest.capacity = q.capacity := (count_of_pop? hpop).2
    have hq : pop q = (some frame, rest) := by simp only [pop, hpop]
    rw [hq]
    simp only [pop, Backlog.pop, backlog, hcontents, hcapacity]
    exact ⟨rfl, rfl⟩

/-- One operation is answered from the contents alone, and does to them what it does to the list. -/
theorem apply_backlog (q : Queue) (op : QueueOperation) :
    (apply q op).1 = (apply q.backlog op).1 ∧ (apply q op).2.backlog = (apply q.backlog op).2 := by
  cases op with
  | push frame =>
    obtain ⟨houtcome, hnext⟩ := q.push_backlog frame
    exact ⟨congrArg QueueAnswer.pushed houtcome, hnext⟩
  | pop =>
    obtain ⟨hframe, hnext⟩ := q.pop_backlog
    exact ⟨congrArg QueueAnswer.popped hframe, hnext⟩

/-- What is seen of a queue is seen of its contents. -/
theorem observe_backlog (q : Queue) (answer : QueueAnswer) : observe answer q = observe answer q.backlog := by
  have hempty : q.isEmpty = q.contents.isEmpty := by
    rw [Bool.eq_iff_iff, q.isEmpty_iff, List.isEmpty_iff]
  show (⟨answer, q.peek?, q.count, q.isEmpty⟩ : QueueObservation) = _
  rw [q.peek?_eq, ← q.length_contents, hempty]
  rfl

/-- Over any history, a queue answers as the list of its contents does. -/
theorem observations_backlog (q : Queue) (ops : List QueueOperation) :
    observations q ops = observations q.backlog ops := by
  induction ops generalizing q with
  | nil => rfl
  | cons op ops ih =>
    obtain ⟨hanswer, hnext⟩ := q.apply_backlog op
    rw [observations, observations, ih, observe_backlog, hanswer, hnext]

end Queue

/-! ## A backlog is sorted and stable -/

/-- A frame whose key none exceeds goes to the end. -/
theorem insertInOrder_of_le {frame : Frame} {frames : List Frame} (h : ∀ f ∈ frames, f.key ≤ frame.key) :
    insertInOrder frame frames = frames ++ [frame] := by
  have hall : ∀ f ∈ frames, decide (f.key ≤ frame.key) = true := fun f hf => decide_eq_true (h f hf)
  rw [insertInOrder, List.takeWhile_eq_self_iff.2 hall, List.dropWhile_eq_nil_iff.2 hall]

/-- Frames of one key keep their order when another is put in, which goes behind them. -/
theorem filter_insertInOrder (frame : Frame) {frames : List Frame} (h : frames.Pairwise fun f g => f.key ≤ g.key)
    (key : Key) :
    (insertInOrder frame frames).filter (·.key = key) =
      frames.filter (·.key = key) ++ [frame].filter (·.key = key) := by
  obtain ⟨before, behind, rfl, hinsert, -, hbehind⟩ := insertInOrder_split frame h
  rw [hinsert, List.filter_append, List.filter_append, ← List.singleton_append, List.filter_append]
  by_cases hkey : frame.key = key
  · have hnone : behind.filter (·.key = key) = [] := by
      rw [List.filter_eq_nil_iff]
      intro f hf
      have hlt := hbehind f hf
      rw [hkey] at hlt
      simpa using (ne_of_lt hlt).symm
    simp [hnone]
  · simp [hkey]

/-- Sorted frames stay sorted when another is put in. -/
theorem insertInOrder_pairwise (frame : Frame) {frames : List Frame} (h : frames.Pairwise fun f g => f.key ≤ g.key) :
    (insertInOrder frame frames).Pairwise fun f g => f.key ≤ g.key := by
  obtain ⟨before, behind, rfl, hinsert, hbefore, hbehind⟩ := insertInOrder_split frame h
  obtain ⟨hleft, hright, hcross⟩ := List.pairwise_append.1 h
  rw [hinsert, List.pairwise_append, List.pairwise_cons]
  refine ⟨hleft, ⟨fun g hg => le_of_lt (hbehind g hg), hright⟩, fun f hf g hg => ?_⟩
  rcases List.mem_cons.1 hg with rfl | hg
  · exact hbefore f hf
  · exact hcross f hf g hg

namespace Backlog

/-- The frames are within the capacity and sorted by key, and those of one key are the last of this key that came in, in
the order in which they came. -/
structure InOrder (pushed : List Frame) (b : Backlog) : Prop where
  bounded : b.frames.length ≤ b.capacity
  sorted : b.frames.Pairwise fun f g => f.key ≤ g.key
  stable : ∀ key, (b.frames.filter (·.key = key)) <:+ pushed.filter (·.key = key)

namespace InOrder

variable {pushed : List Frame} {b : Backlog}

theorem empty (capacity : Nat) : InOrder [] (Backlog.empty capacity) where
  bounded := Nat.zero_le _
  sorted := List.Pairwise.nil
  stable _ := List.suffix_rfl

/-- What is left when some frames have gone from the front is in order. -/
theorem rest (h : InOrder pushed b) (gone : List Frame) {frames : List Frame} (hframes : b.frames = gone ++ frames) :
    InOrder pushed { b with frames } where
  bounded := by
    have hbounded := h.bounded
    rw [hframes, List.length_append] at hbounded
    exact Nat.le_trans (Nat.le_add_left _ _) hbounded
  sorted := by
    have hsorted := h.sorted
    rw [hframes] at hsorted
    exact (List.pairwise_append.1 hsorted).2.1
  stable key := by
    have hstable := h.stable key
    rw [hframes] at hstable
    exact ((List.suffix_append gone frames).filter _).trans hstable

/-- A frame put in where there is room keeps the order. -/
theorem insert (h : InOrder pushed b) (frame : Frame) (room : b.frames.length < b.capacity) :
    InOrder (pushed ++ [frame]) { b with frames := insertInOrder frame b.frames } where
  bounded := by
    show (insertInOrder frame b.frames).length ≤ b.capacity
    rw [length_insertInOrder]
    exact room
  sorted := insertInOrder_pairwise frame h.sorted
  stable key := by
    obtain ⟨earlier, hearlier⟩ := h.stable key
    refine ⟨earlier, ?_⟩
    show earlier ++ (insertInOrder frame b.frames).filter _ = _
    rw [filter_insertInOrder frame h.sorted, ← List.append_assoc, hearlier, List.filter_append]

theorem push (h : InOrder pushed b) (hpos : 0 < b.capacity) (frame : Frame) :
    InOrder (pushed ++ [frame]) (b.push frame).2 := by
  by_cases room : b.frames.length < b.capacity
  · rw [push_of_room frame room]
    exact h.insert frame room
  · have full : b.capacity ≤ b.frames.length := Nat.not_lt.1 room
    obtain ⟨first, others, hframes⟩ := List.exists_cons_of_length_pos (Nat.lt_of_lt_of_le hpos full)
    have hbounded := h.bounded
    rw [hframes, List.length_cons] at hbounded
    rw [push_of_full frame hframes full]
    exact (h.rest [first] hframes).insert frame hbounded

theorem pop (h : InOrder pushed b) : InOrder pushed b.pop.2 := by
  refine h.rest b.frames.head?.toList ?_
  cases b.frames <;> rfl

/-- Every operation keeps the order. -/
theorem apply (h : InOrder pushed b) (hpos : 0 < b.capacity) (op : QueueOperation) :
    InOrder (pushed ++ op.pushed?.toList) (Buffer.apply b op).2 := by
  cases op with
  | push frame => exact h.push hpos frame
  | pop =>
    rw [QueueOperation.pushed?, Option.toList_none, List.append_nil]
    exact h.pop

/-- Every history keeps the order, with what it puts in behind what came before it. -/
theorem after (h : InOrder pushed b) (hpos : 0 < b.capacity) (ops : List QueueOperation) :
    InOrder (pushed ++ framesPushed ops) (Buffer.after b ops) := by
  induction ops generalizing pushed b with
  | nil =>
    rw [framesPushed, List.filterMap_nil, List.append_nil]
    exact h
  | cons op ops ih =>
    have hnext : 0 < (Buffer.apply b op).2.capacity := by
      rw [b.capacity_apply]
      exact hpos
    have hrest := ih (h.apply hpos op) hnext
    rwa [List.append_assoc, ← framesPushed_cons] at hrest

/-- No history makes a backlog longer than its capacity. -/
theorem length_le (h : InOrder pushed b) (hpos : 0 < b.capacity) (ops : List QueueOperation) :
    ∀ o ∈ observations b ops, o.length ≤ b.capacity := by
  induction ops generalizing pushed b with
  | nil => simp [observations]
  | cons op ops ih =>
    have hnext := h.apply hpos op
    have hcapacity := b.capacity_apply op
    intro o ho
    rw [← hcapacity]
    rcases List.mem_cons.1 ho with rfl | ho
    · exact hnext.bounded
    · exact ih hnext (hcapacity ▸ hpos) o ho

end InOrder

end Backlog

/-! ## A new queue -/

/-- A queue just set up holds nothing. -/
theorem Queue.backlog_of_create {capacity : Nat} {q : Queue} (h : create capacity = .ok q) :
    q.backlog = Backlog.empty capacity := by
  unfold create at h
  split at h
  · cases h
    rw [backlog, Backlog.empty, Backlog.mk.injEq, ← List.length_eq_zero_iff, length_contents]
    exact ⟨rfl, rfl⟩
  · cases h

/-- A queue is a stable sorted list.
1. There is one for every capacity but zero, and over every history it answers and looks as a list does that starts empty,
gives up its first frame for a new one when it is full, and puts a frame in behind all whose keys are not above its own.
2. It never holds more frames than its capacity.
3. That list is always sorted by key, and the frames of one key in it are the last of this key that were put in, in the
order in which they were put in. -/
theorem queue_is_sorted_list (capacity : Nat) (hpos : 0 < capacity) :
    ∃ q, Queue.create capacity = .ok q ∧ ∀ ops,
      observations q ops = observations (Backlog.empty capacity) ops ∧
        (∀ o ∈ observations q ops, o.length ≤ capacity) ∧
        (after (Backlog.empty capacity) ops).InOrder (framesPushed ops) := by
  obtain ⟨q, hq⟩ : ∃ q, Queue.create capacity = .ok q := ⟨_, dif_pos hpos⟩
  refine ⟨q, hq, fun ops => ?_⟩
  have hstart := Backlog.InOrder.empty capacity
  have hsame : observations q ops = observations (Backlog.empty capacity) ops := by
    rw [q.observations_backlog, Queue.backlog_of_create hq]
  refine ⟨hsame, ?_, ?_⟩
  · rw [hsame]
    exact hstart.length_le hpos ops
  · exact hstart.after hpos ops

/-- The third frame finds the queue full: the first goes, and the third, which is older than both, leaves next. -/
theorem queue_is_sorted_list_sample :
    0 < 2 ∧ ∃ q, Queue.create 2 = .ok q ∧
      (observations q [.push (Sample.frame ⟨0, 5⟩), .push (Sample.frame ⟨0, 6⟩), .push (Sample.frame ⟨0, 1⟩), .pop,
        .pop]).map (·.first) = [some ⟨0, 5⟩, some ⟨0, 5⟩, some ⟨0, 1⟩, some ⟨0, 6⟩, none] := by
  obtain ⟨q, hq, hlist⟩ := queue_is_sorted_list 2 (by decide)
  refine ⟨by decide, q, hq, ?_⟩
  rw [(hlist _).1]
  decide

end FrameMerge
