import FrameMerge.Proofs.Numbering

/-!
# The order of a source's frames

Frames of one source leave in the order in which they came, as far as they leave at all. Arrival numbers only grow, so
an entry that leaves after another has entered was in the queue beside it (`Relay.mem_entries_of_after`), and of two
entries in one queue the one with the lesser key and the earlier arrival is out first (`Relay.leaves_first`). Between two
resets the keys of a source's frames never decrease, which is all that is needed of the numbering.
-/

namespace FrameMerge

variable {P : Type} [Publisher P]

namespace Step

/-- An entry that is added gets the next arrival number. -/
theorem arrival_of_entered? {s : Step P} {e : Entry} (h : s.entered? = some e) :
    e.arrival = s.relay.combiner.queue.nextArrival := by
  obtain ⟨o, -, -, rfl⟩ := offer?_of_entered? h
  rfl

/-- A step gives out an arrival number exactly if it adds an entry. -/
theorem nextArrival_next (s : Step P) :
    s.next.combiner.queue.nextArrival = s.relay.combiner.queue.nextArrival + s.entered?.toList.length := by
  cases s.move with
  | still hoffer _ _ hqueue => simp [entered?, hoffer, hqueue]
  | stale o hoffer hstale _ _ _ hqueue => simp [entered?, hoffer, hstale, hqueue, Admission.isStale]
  | pushed o _ _ hoffer hstale _ _ _ _ _ harrival => simp [entered?, hoffer, hstale, harrival]
  | taken _ hoffer _ _ _ harrival => simp [entered?, hoffer, harrival]
  | reset hoffer _ _ hqueue => simp [entered?, hoffer, hqueue]

/-- What is added by a message of a source was read from it. -/
theorem framesRead_of_entered? {r : Relay P} {id : Nat} {raw payload : Bytes} {e : Entry}
    (h : (⟨r, .ingest id raw payload⟩ : Step P).entered? = some e) :
    framesRead id [(⟨r, .ingest id raw payload⟩ : Step P)] = [e.frame] := by
  obtain ⟨o, hoffer, -, rfl⟩ := offer?_of_entered? h
  rw [framesRead_singleton, hoffer]
  cases hframe : r.combiner.frame? id raw payload with
  | none =>
    rw [(of_no_frame hframe).1] at hoffer
    cases hoffer
  | some frame =>
    obtain ⟨source, header, admission, c, -, -, -, -, -, -, hoffer', -⟩ := of_frame? hframe
    rw [hoffer', Option.some.injEq] at hoffer
    subst hoffer
    simp [Queue.incoming]

/-- What is added is in the queue from then on. -/
theorem mem_entries_of_entered? {s : Step P} {e : Entry} (h : s.entered? = some e) :
    e ∈ s.next.combiner.queue.entries := by
  obtain ⟨o, hoffer, hstale, rfl⟩ := offer?_of_entered? h
  cases s.move with
  | still hnone | taken _ hnone | reset hnone =>
    rw [hnone] at hoffer
    cases hoffer
  | stale o' hoffer' hstale' =>
    rw [hoffer', Option.some.injEq] at hoffer
    rw [← hoffer, hstale'] at hstale
    cases hstale
  | pushed o' _ _ hoffer' _ _ _ _ _ hnext =>
    rw [hoffer', Option.some.injEq] at hoffer
    rw [hoffer] at hnext
    exact hnext.mem_iff.2 List.mem_cons_self

/-- A message adds an entry only if its source is known, which it is from then on. -/
theorem source_of_entered? {r : Relay P} {id : Nat} {raw payload : Bytes} {e : Entry}
    (h : (⟨r, .ingest id raw payload⟩ : Step P).entered? = some e) :
    ∃ source, (⟨r, .ingest id raw payload⟩ : Step P).next.combiner.sources[id]? = some source := by
  obtain ⟨o, hoffer, -, -⟩ := offer?_of_entered? h
  cases hframe : r.combiner.frame? id raw payload with
  | none =>
    rw [(of_no_frame hframe).1] at hoffer
    cases hoffer
  | some frame =>
    obtain ⟨source, header, admission, c, hsource, -⟩ := of_frame? hframe
    obtain ⟨new, hnew, -⟩ := source_next (⟨r, .ingest id raw payload⟩ : Step P) hsource
    exact ⟨new, hnew⟩

end Step

namespace Relay

/-- The entry whose frame an operation of a run takes; operations are counted from zero. -/
def leavingAt? (r : Relay P) (ops : List Operation) (k : Nat) : Option Entry := (r.steps ops)[k]?.bind Step.leaving?

/-- The frame that an operation of a run takes. -/
def takenAt? (r : Relay P) (ops : List Operation) (k : Nat) : Option Frame := (r.steps ops)[k]?.bind Step.taken?

/-- What is taken is the frame of what leaves. -/
theorem takenAt?_eq (r : Relay P) (ops : List Operation) (k : Nat) :
    r.takenAt? ops k = (r.leavingAt? ops k).map Entry.frame := by
  rw [takenAt?, leavingAt?, Option.map_bind]
  congr 1
  funext s
  exact s.taken?_eq

/-- Each operation meets the relay that those before it left. -/
theorem steps_getElem? (r : Relay P) (ops : List Operation) (k : Nat) :
    (r.steps ops)[k]? = ops[k]?.map fun op => ⟨r.after (ops.take k), op⟩ := by
  induction ops generalizing r k with
  | nil => rfl
  | cons op ops ih =>
    cases k with
    | zero => rfl
    | succ k => exact ih (r.apply op).state k

/-- What leaves is the first entry. -/
theorem entries_of_leavingAt? {r : Relay P} {ops : List Operation} {k : Nat} {e : Entry}
    (h : r.leavingAt? ops k = some e) : ∃ others, (r.after (ops.take k)).combiner.queue.entries = e :: others := by
  rw [leavingAt?, steps_getElem?] at h
  obtain ⟨s, hs, hleaving⟩ := Option.bind_eq_some_iff.1 h
  obtain ⟨op, -, rfl⟩ := Option.map_eq_some_iff.1 hs
  obtain ⟨-, hentries, -⟩ := Step.of_leaving? hleaving
  exact ⟨_, hentries⟩

/-- Arrival numbers only grow. -/
theorem nextArrival_le_after (r : Relay P) (ops : List Operation) :
    r.combiner.queue.nextArrival ≤ (r.after ops).combiner.queue.nextArrival := by
  induction ops generalizing r with
  | nil => exact Nat.le_refl _
  | cons op ops ih =>
    have hstep := Step.nextArrival_next (⟨r, op⟩ : Step P)
    have hrest := ih (r.apply op).state
    have hnext : r.combiner.queue.nextArrival ≤ (r.apply op).state.combiner.queue.nextArrival := by
      show _ ≤ (⟨r, op⟩ : Step P).next.combiner.queue.nextArrival
      rw [hstep]
      exact Nat.le_add_right _ _
    exact hnext.trans hrest

/-- What is in the queue after a run, and has an arrival number from before it, was there all along. -/
theorem mem_entries_of_after {r : Relay P} {ops : List Operation} {e : Entry}
    (h : e ∈ (r.after ops).combiner.queue.entries) (hbefore : e.arrival < r.combiner.queue.nextArrival) :
    e ∈ r.combiner.queue.entries := by
  rcases Relay.mem_entries_after h with hmem | ⟨s, hs, hentered⟩
  · exact hmem
  · obtain ⟨earlier, -, -, hrelay⟩ := Relay.mem_steps_iff.1 hs
    have harrival := Step.arrival_of_entered? hentered
    have hle := r.nextArrival_le_after earlier
    rw [hrelay] at harrival
    omega

/-- What leaves with an arrival number is what entered with it. -/
theorem eq_of_leavingAt? {r : Relay P} {before later : List Operation} {op : Operation} {e left : Entry} {k : Nat}
    (hentered : (⟨r.after before, op⟩ : Step P).entered? = some e)
    (hleaving : r.leavingAt? (before ++ op :: later) k = some left) (harrival : left.arrival = e.arrival) : left = e := by
  obtain ⟨others, hentries⟩ := entries_of_leavingAt? hleaving
  have hmem : left ∈ (r.after ((before ++ op :: later).take k)).combiner.queue.entries := by
    rw [hentries]
    exact List.mem_cons_self
  have hnumber : e.arrival = (r.after before).combiner.queue.nextArrival := Step.arrival_of_entered? hentered
  rcases Nat.lt_or_ge before.length k with hlate | hearly
  · -- the entry left after it had entered, so both are in the queue that the operation leaves
    obtain ⟨m, rfl⟩ := Nat.exists_eq_add_of_lt hlate
    have hentry := Step.mem_entries_of_entered? hentered
    have htake : (before ++ op :: later).take (before.length + m + 1) = before ++ op :: later.take m := by
      rw [Nat.add_assoc, List.take_length_add_append, List.take_succ_cons]
    rw [htake, r.after_append, after_cons] at hmem
    have hgiven := Queue.arrival_lt_of_mem hentry
    rw [← harrival] at hgiven
    have hthere := mem_entries_of_after hmem hgiven
    exact Queue.eq_of_mem_entries hthere hentry harrival
  · exfalso
    have hgiven := Queue.arrival_lt_of_mem hmem
    rw [List.take_append_of_le_length hearly] at hgiven
    have hgrow := (r.after (before.take k)).nextArrival_le_after (before.drop k)
    rw [← r.after_append, List.take_append_drop] at hgrow
    omega

/-- Of two entries that leave, the one that is not above the other in key, and arrived before it, leaves first. -/
theorem leaves_first {r : Relay P} {ops : List Operation} {e e' : Entry} (hkey : e.key ≤ e'.key)
    (harrival : e.arrival < e'.arrival) {k l : Nat} (hk : r.leavingAt? ops k = some e)
    (hl : r.leavingAt? ops l = some e') : k < l := by
  obtain ⟨othersAtK, hentries⟩ := entries_of_leavingAt? hk
  obtain ⟨othersAtL, hentries'⟩ := entries_of_leavingAt? hl
  refine Nat.lt_of_not_le fun hle => ?_
  -- otherwise the first entry is still in the queue when the second leaves
  obtain ⟨m, rfl⟩ := Nat.exists_eq_add_of_le hle
  have hatK : e ∈ ((r.after (ops.take l)).after ((ops.drop l).take m)).combiner.queue.entries := by
    rw [← r.after_append, ← List.take_add, hentries]
    exact List.mem_cons_self
  have hgiven : e'.arrival < (r.after (ops.take l)).combiner.queue.nextArrival := by
    refine Queue.arrival_lt_of_mem ?_
    rw [hentries']
    exact List.mem_cons_self
  have hatL := mem_entries_of_after hatK (harrival.trans hgiven)
  rw [hentries'] at hatL
  rcases List.mem_cons.1 hatL with rfl | hbehind
  · exact Nat.lt_irrefl _ harrival
  · rcases Entry.le_iff.1 (Queue.le_of_entries hentries' e hbehind) with hlt | ⟨-, hearlier⟩
    · exact absurd hkey (not_le.2 hlt)
    · omega

/-- Between two resets, a source's frames enter the queue with keys that do not decrease, and with arrival numbers that
grow. -/
theorem entered_in_order {r : Relay P} (hr : r.IsNew) {before between : List Operation} {id : Nat}
    {raw payload raw' payload' : Bytes} (hbetween : ∀ op ∈ between, op.isReset = false) {e e' : Entry}
    (he : (⟨r.after before, .ingest id raw payload⟩ : Step P).entered? = some e)
    (he' : (⟨r.after (before ++ .ingest id raw payload :: between), .ingest id raw' payload'⟩ : Step P).entered? =
      some e') : e.key ≤ e'.key ∧ e.arrival < e'.arrival := by
  have hwindow : ∀ op ∈ .ingest id raw payload :: between ++ [.ingest id raw' payload'], op.isReset = false := by
    intro op hop
    rcases List.mem_append.1 hop with hop | hop
    · rcases List.mem_cons.1 hop with rfl | hop
      · rfl
      · exact hbetween op hop
    · rw [List.mem_singleton.1 hop]
      rfl
  have hmiddle : r.after (before ++ .ingest id raw payload :: between) =
      ((r.after before).apply (.ingest id raw payload)).state.after between := by
    rw [r.after_append, after_cons]
  obtain ⟨source, hsource⟩ := Step.source_of_entered? he'
  rw [← r.after_snoc, List.append_assoc] at hsource
  rw [hmiddle] at he'
  constructor
  · -- both frames are among those that the source has sent since the last reset
    have hsorted := (Numbering.recent hr hsource).sorted
    rw [r.recent_append before _ hwindow, List.cons_append, steps, steps_snoc, ← List.singleton_append, framesRead_append,
      framesRead_append, framesRead_append, Step.framesRead_of_entered? he, Step.framesRead_of_entered? he'] at hsorted
    have hlater := (List.pairwise_append.1 (List.pairwise_append.1 hsorted).2.1).2.2
    exact hlater e.frame (List.mem_singleton_self _) e'.frame (by simp)
  · have hfirst := Step.arrival_of_entered? he
    have hsecond := Step.arrival_of_entered? he'
    have hnext := Step.nextArrival_next (⟨r.after before, .ingest id raw payload⟩ : Step P)
    have hgrow := ((r.after before).apply (.ingest id raw payload)).state.nextArrival_le_after between
    rw [he, Option.toList_some, List.length_singleton, Step.next] at hnext
    simp only at hfirst hsecond hnext
    omega

end Relay

/-- Frames of one source are taken in the order in which they came. Let two messages of a source be read in a run from a
new relay with no reset between them, and let both frames enter the queue. If both leave it to be taken in the course of
the run, whatever else happens in it, before, in between and afterwards, the first is taken first. -/
theorem taken_in_order_of_source (r : Relay P) (hr : r.IsNew) (before between later : List Operation) (id : Nat)
    (raw payload raw' payload' : Bytes) (hbetween : ∀ op ∈ between, op.isReset = false) (e e' : Entry)
    (he : (⟨r.after before, .ingest id raw payload⟩ : Step P).entered? = some e)
    (he' : (⟨r.after (before ++ .ingest id raw payload :: between), .ingest id raw' payload'⟩ : Step P).entered? =
      some e') (k l : Nat)
    (hk : r.leavingAt? (before ++ .ingest id raw payload :: between ++ .ingest id raw' payload' :: later) k = some e)
    (hl : r.leavingAt? (before ++ .ingest id raw payload :: between ++ .ingest id raw' payload' :: later) l = some e') :
    k < l ∧
      r.takenAt? (before ++ .ingest id raw payload :: between ++ .ingest id raw' payload' :: later) k = some e.frame ∧
      r.takenAt? (before ++ .ingest id raw payload :: between ++ .ingest id raw' payload' :: later) l =
        some e'.frame := by
  obtain ⟨hkey, harrival⟩ := Relay.entered_in_order hr hbetween he he'
  refine ⟨Relay.leaves_first hkey harrival hk hl, ?_, ?_⟩
  · rw [Relay.takenAt?_eq, hk, Option.map_some]
  · rw [Relay.takenAt?_eq, hl, Option.map_some]

namespace Sample

/-- A frame of a source is taken, and then one of its next acquisition enters. -/
def upToSecond : List Operation := [.ingest 0 (message 4) [], .drain]

/-- A reset comes before the second frame is taken. -/
def bothTaken : List Operation := upToSecond ++ [.ingest 0 (message 1) [], .reset, .drain]

end Sample

/-- Of two frames of a source, the second has the lesser number and is taken after a reset, and still comes second. -/
theorem taken_in_order_of_source_sample :
    Sample.relay.IsNew ∧ ∃ e e' : Entry,
      (⟨Sample.relay, .ingest 0 (Sample.message 4) []⟩ : Step Recorder).entered? = some e ∧
      (⟨Sample.relay.after Sample.upToSecond, .ingest 0 (Sample.message 1) []⟩ : Step Recorder).entered? = some e' ∧
      Sample.relay.leavingAt? Sample.bothTaken 1 = some e ∧ Sample.relay.leavingAt? Sample.bothTaken 4 = some e' ∧
      1 < 4 ∧ Sample.relay.takenAt? Sample.bothTaken 1 = some e.frame ∧
      Sample.relay.takenAt? Sample.bothTaken 4 = some e'.frame := by
  have hfirst : ((⟨Sample.relay, .ingest 0 (Sample.message 4) []⟩ : Step Recorder).entered?.map Entry.arrival) =
      some 0 := by decide +kernel
  have hsecond : ((⟨Sample.relay.after Sample.upToSecond, .ingest 0 (Sample.message 1) []⟩ :
      Step Recorder).entered?.map Entry.arrival) = some 1 := by decide +kernel
  have hfirstLeaves : (Sample.relay.leavingAt? Sample.bothTaken 1).map Entry.arrival = some 0 := by decide +kernel
  have hsecondLeaves : (Sample.relay.leavingAt? Sample.bothTaken 4).map Entry.arrival = some 1 := by decide +kernel
  obtain ⟨e, he, harrival⟩ := Option.map_eq_some_iff.1 hfirst
  obtain ⟨e', he', harrival'⟩ := Option.map_eq_some_iff.1 hsecond
  obtain ⟨left, hk, hleft⟩ := Option.map_eq_some_iff.1 hfirstLeaves
  obtain ⟨left', hl, hleft'⟩ := Option.map_eq_some_iff.1 hsecondLeaves
  -- arrival numbers tell entries apart, so what leaves is what entered
  obtain rfl : left = e :=
    @Relay.eq_of_leavingAt? _ _ Sample.relay [] _ _ _ _ _ he hk (hleft.trans harrival.symm)
  obtain rfl : left' = e' :=
    @Relay.eq_of_leavingAt? _ _ Sample.relay Sample.upToSecond _ _ _ _ _ he' hl (hleft'.trans harrival'.symm)
  have hresult := taken_in_order_of_source Sample.relay Sample.isNew [] [.drain] [.reset, .drain] 0 (Sample.message 4) []
    (Sample.message 1) [] (by decide) left left' he he' 1 4 hk hl
  exact ⟨Sample.isNew, left, left', he, he', hk, hl, hresult⟩

end FrameMerge
