import FrameMerge.Queue

/-!
# What a queue holds

The contents of a queue are its frames in the order in which they leave. Everything a queue answers can be read off
them: the first frame leaves next (`contents_of_pop?`), and a new one goes behind all frames whose keys are not
above its own (`contents_insert`).
-/

namespace FrameMerge

/-- Entries that leave no later than each other agree in key and arrival. -/
theorem Entry.eq_of_le_of_le {a b : Entry} (hab : a.le b) (hba : b.le a) : a.key = b.key ∧ a.arrival = b.arrival := by
  rw [Entry.le_iff] at hab hba
  rw [Key.lt_iff_not_le] at hab hba
  rcases hab with hab | ⟨hk, hab⟩
  · rcases hba with hba | ⟨hk, -⟩
    · exact absurd ((Key.le_total a.key b.key).resolve_right hab) hba
    · rw [hk] at hab
      exact absurd (Key.le_refl _) hab
  · rcases hba with hba | ⟨-, hba⟩
    · rw [hk] at hba
      exact absurd (Key.le_refl _) hba
    · exact ⟨hk, Nat.le_antisymm hab hba⟩

/-- Entries with distinct arrival numbers are told apart by them. -/
theorem eq_of_arrival_eq {l : List Entry} (h : l.Pairwise fun a b => a.arrival ≠ b.arrival)
    {a b : Entry} (ha : a ∈ l) (hb : b ∈ l)
    (hab : a.arrival = b.arrival) : a = b := by
  induction h with
  | nil => cases ha
  | cons hne _ ih =>
    rcases List.mem_cons.1 ha with rfl | ha'
    · rcases List.mem_cons.1 hb with rfl | hb'
      · rfl
      · exact absurd hab (hne b hb')
    · rcases List.mem_cons.1 hb with rfl | hb'
      · exact absurd hab.symm (hne a ha')
      · exact ih ha' hb'

/-- An entry that leaves no later than another has no greater key. -/
theorem Entry.key_le_of_le {a b : Entry} (h : a.le b) : a.key ≤ b.key := by
  rcases Entry.le_iff.1 h with hlt | ⟨heq, -⟩
  · exact (Key.le_total _ _).resolve_right (Key.lt_iff_not_le.1 hlt)
  · rw [heq]
    exact Key.le_refl _

/-- Where keys do not decrease, all that is left behind the keys up to a bound is above it. -/
theorem lt_of_mem_dropWhile {α : Type} (key : α → Key) {l : List α} (h : l.Pairwise fun a b => key a ≤ key b)
    {bound : Key} {x : α} (hx : x ∈ l.dropWhile (key · ≤ bound)) : bound < key x := by
  induction h with
  | nil => cases hx
  | @cons first rest hle _ ih =>
    by_cases hfirst : key first ≤ bound
    · rw [List.dropWhile_cons_of_pos (by simpa using hfirst)] at hx
      exact ih hx
    · rw [List.dropWhile_cons_of_neg (by simpa using hfirst)] at hx
      rcases List.mem_cons.1 hx with rfl | hx'
      · exact Key.lt_iff_not_le.2 hfirst
      · exact Key.lt_iff_not_le.2 fun hkey => hfirst (Key.le_trans (hle x hx') hkey)

/-- Puts a frame behind all whose keys are not above its own. -/
def insertInOrder (frame : Frame) (frames : List Frame) : List Frame :=
  frames.takeWhile (·.key ≤ frame.key) ++ frame :: frames.dropWhile (·.key ≤ frame.key)

/-- Where keys do not decrease, a frame is put behind all whose keys are not above its own and before all others. -/
theorem insertInOrder_split (frame : Frame) {frames : List Frame} (h : frames.Pairwise fun f g => f.key ≤ g.key) :
    ∃ before behind, frames = before ++ behind ∧ insertInOrder frame frames = before ++ frame :: behind ∧
      (∀ f ∈ before, f.key ≤ frame.key) ∧ ∀ f ∈ behind, frame.key < f.key := by
  refine ⟨_, _, List.takeWhile_append_dropWhile.symm, rfl, fun f hf => ?_, fun f hf => ?_⟩
  · exact of_decide_eq_true (List.all_eq_true.1 List.all_takeWhile f hf)
  · exact lt_of_mem_dropWhile Frame.key h hf

/-- One frame is inserted, and none is lost. -/
theorem length_insertInOrder (frame : Frame) (frames : List Frame) :
    (insertInOrder frame frames).length = frames.length + 1 := by
  have hlength := congrArg List.length (@List.takeWhile_append_dropWhile _ (fun f : Frame => decide (f.key ≤ frame.key)) frames)
  rw [List.length_append] at hlength
  rw [insertInOrder, List.length_append, List.length_cons, ← hlength]
  rfl

namespace Queue

/-- The entries in the order in which they leave. -/
def entries (q : Queue) : List Entry := q.heap.toList.mergeSort Entry.le

/-- The frames in the order in which they leave. -/
def contents (q : Queue) : List Frame := q.entries.map Entry.frame

/-- The entries are those of the heap. -/
theorem entries_perm (q : Queue) : q.entries.Perm q.heap.toList := List.mergeSort_perm _ _

/-- The entries stand in the order of leaving. -/
theorem entries_pairwise (q : Queue) : q.entries.Pairwise fun a b => a.le b :=
  List.pairwise_mergeSort Entry.le_trans Entry.le_total _

/-- Keys do not decrease along the entries. -/
theorem entries_pairwise_key (q : Queue) : q.entries.Pairwise fun a b => a.key ≤ b.key :=
  q.entries_pairwise.imp Entry.key_le_of_le

/-- Keys do not decrease along the contents. -/
theorem contents_pairwise_key (q : Queue) : q.contents.Pairwise fun f g => f.key ≤ g.key :=
  List.pairwise_map.2 q.entries_pairwise_key

/-- A queue's entries are the only ordered list of what its heap holds. -/
theorem entries_eq (q : Queue) {l : List Entry} (hperm : l.Perm q.heap.toList) (hle : l.Pairwise fun a b => a.le b) :
    q.entries = l := by
  refine List.Perm.eq_of_pairwise (fun a b ha hb hab hba => ?_) q.entries_pairwise hle
    (q.entries_perm.trans hperm.symm)
  have ha := q.entries_perm.mem_iff.1 ha
  have hb := hperm.mem_iff.1 hb
  exact eq_of_arrival_eq q.distinct ha hb (Entry.eq_of_le_of_le hab hba).2

/-- The count is that of the frames queued. -/
theorem length_contents (q : Queue) : q.contents.length = q.count := by
  rw [contents, List.length_map, q.entries_perm.length_eq, Heap.length_toList, q.count_eq]

/-- No more frames are queued than there is room for. -/
theorem contents_length_le (q : Queue) : q.contents.length ≤ q.capacity := by
  rw [length_contents]
  exact q.count_le

/-- The queue is empty exactly if nothing is queued. -/
theorem isEmpty_iff (q : Queue) : q.isEmpty ↔ q.contents = [] := by
  rw [← List.length_eq_zero_iff, length_contents]
  simp [isEmpty]

/-- The entry taken out is the first, and the others stay in their order. -/
theorem entries_of_pop? {q rest : Queue} {frame : Frame} (h : q.pop? = some (frame, rest)) :
    ∃ first, first.frame = frame ∧ q.entries = first :: rest.entries := by
  rw [pop?] at h
  split at h
  · cases h
  · rename_i first left right hheap
    simp only [Option.some.injEq, Prod.mk.injEq] at h
    obtain ⟨rfl, rfl⟩ := h
    have hordered := q.ordered
    rw [hheap] at hordered
    refine ⟨first, rfl, q.entries_eq (l := first :: (Heap.merge Entry.le left right).toList.mergeSort Entry.le) ?_ ?_⟩
    · rw [hheap, Heap.toList]
      exact ((List.mergeSort_perm _ _).trans (Heap.merge_perm Entry.le left right)).cons first
    · refine List.pairwise_cons.2 ⟨fun e he => ?_, List.pairwise_mergeSort Entry.le_trans Entry.le_total _⟩
      exact hordered.1 e ((Heap.merge_perm Entry.le left right).mem_iff.1 ((List.mergeSort_perm _ _).mem_iff.1 he))

/-- The frame taken out is the first, and the others stay in their order. -/
theorem contents_of_pop? {q rest : Queue} {frame : Frame} (h : q.pop? = some (frame, rest)) :
    q.contents = frame :: rest.contents := by
  obtain ⟨first, rfl, hentries⟩ := entries_of_pop? h
  rw [contents, hentries]
  rfl

/-- Nothing can be taken exactly if nothing is queued. -/
theorem pop?_eq_none_iff (q : Queue) : q.pop? = none ↔ q.contents = [] := by
  rw [← List.length_eq_zero_iff, length_contents, q.count_eq, pop?]
  split <;> rename_i h <;> simp [h, Heap.size]

/-- The key shown is that of the frame that leaves next. -/
theorem peek?_eq (q : Queue) : q.peek? = q.contents.head?.map Frame.key := by
  rw [peek?]
  cases hheap : q.heap with
  | empty =>
    have : q.pop? = none := by
      rw [pop?]
      split <;> simp_all
    rw [(q.pop?_eq_none_iff).1 this]
    rfl
  | node first left right =>
    obtain ⟨rest, hpop⟩ : ∃ rest, q.pop? = some (first.frame, rest) := by
      rw [pop?]
      split <;> simp_all
    rw [contents_of_pop? hpop]
    rfl

/-- A new frame goes behind all whose keys are not above its own: its arrival number is the greatest so far. -/
theorem contents_insert (q : Queue) (frame : Frame) (room : q.count < q.capacity) :
    (q.insert frame room).contents = insertInOrder frame q.contents := by
  have before : ∀ e ∈ q.entries, e.le ⟨frame, q.nextArrival⟩ = decide (e.frame.key ≤ frame.key) := by
    intro e he
    have harrival := q.fresh e (q.entries_perm.mem_iff.1 he)
    rw [Bool.eq_iff_iff, Entry.le_iff, decide_eq_true_iff]
    constructor
    · rintro (h | ⟨h, -⟩)
      · exact (Key.le_total _ _).resolve_right (Key.lt_iff_not_le.1 h)
      · exact (show e.frame.key = frame.key from h) ▸ Key.le_refl _
    · intro h
      by_cases hk : frame.key ≤ e.frame.key
      · exact Or.inr ⟨Key.le_antisymm h hk, Nat.le_of_lt harrival⟩
      · exact Or.inl (Key.lt_iff_not_le.2 hk)
  have hlist : insertInOrder frame q.contents =
      (q.entries.takeWhile (·.frame.key ≤ frame.key) ++
        ⟨frame, q.nextArrival⟩ :: q.entries.dropWhile (·.frame.key ≤ frame.key)).map Entry.frame := by
    simp only [insertInOrder, contents, List.takeWhile_map, List.dropWhile_map, List.map_append, List.map_cons]
    rfl
  rw [hlist, contents]
  congr 1
  refine (q.insert frame room).entries_eq ?_ ?_
  · refine List.perm_middle.trans ?_
    rw [List.takeWhile_append_dropWhile]
    exact (q.entries_perm.cons _).trans
      (Heap.merge_perm Entry.le (.node ⟨frame, q.nextArrival⟩ .empty .empty) q.heap).symm
  · rw [List.pairwise_append]
    refine ⟨q.entries_pairwise.sublist (List.takeWhile_sublist _), List.pairwise_cons.2 ⟨fun e he => ?_,
      q.entries_pairwise.sublist (List.dropWhile_sublist _)⟩, fun a ha b hb => ?_⟩
    · exact Entry.le_iff.2 (Or.inl (lt_of_mem_dropWhile Entry.key q.entries_pairwise_key he))
    · have hle : a.le ⟨frame, q.nextArrival⟩ := by
        rw [before a ((List.takeWhile_sublist _).mem ha)]
        exact List.all_eq_true.1 List.all_takeWhile a ha
      rcases List.mem_cons.1 hb with rfl | hb
      · exact hle
      · exact Entry.le_trans _ _ _ hle (Entry.le_iff.2 (Or.inl (lt_of_mem_dropWhile Entry.key q.entries_pairwise_key hb)))

/-! ## Putting a frame in -/

/-- Where there is room, a frame takes its place and nothing leaves. -/
theorem push_of_room (q : Queue) (frame : Frame) (room : q.contents.length < q.capacity) :
    (q.push frame).1 = .queued ∧ (q.push frame).2.contents = insertInOrder frame q.contents := by
  rw [length_contents] at room
  rw [push, dif_pos room]
  exact ⟨rfl, q.contents_insert frame room⟩

/-- A full queue gives up its first frame before the new one takes its place. -/
theorem push_of_full {q : Queue} {frame first : Frame} {others : List Frame} (h : q.contents = first :: others)
    (full : q.capacity ≤ q.contents.length) :
    (q.push frame).1 = .evicted first ∧ (q.push frame).2.contents = insertInOrder frame others := by
  rw [length_contents] at full
  rw [push, dif_neg (Nat.not_lt.2 full)]
  split
  · rename_i hpop
    rw [(q.pop?_eq_none_iff).1 hpop] at h
    cases h
  · rename_i front rest hpop
    rw [contents_of_pop? hpop, List.cons.injEq] at h
    obtain ⟨rfl, rfl⟩ := h
    exact ⟨rfl, contents_insert rest frame _⟩

/-- Putting a frame in does not change the capacity. -/
theorem capacity_push (q : Queue) (frame : Frame) : (q.push frame).2.capacity = q.capacity := by
  rw [push]
  split
  · rfl
  · split
    · rfl
    · rename_i hpop
      exact (count_of_pop? hpop).2

end Queue

end FrameMerge
