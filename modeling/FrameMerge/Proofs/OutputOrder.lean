import FrameMerge.Proofs.Run

/-!
# The order in which frames are taken

Between two resets the keys taken never decrease, and the mark says exactly which frames come too late. The invariant
behind it, `InOrder`, ties the frames taken since the last reset to the mark and the mark to all that is queued; a reset
starts it afresh, whatever the queue still holds.
-/

namespace FrameMerge

/-- The frames taken since the last reset stand in order, the mark is the key of the last of them, and nothing queued is
below it. -/
structure InOrder (taken : List Frame) (c : Combiner) : Prop where
  sorted : taken.Pairwise fun a b => a.key ≤ b.key
  mark : c.mark = taken.getLast?.map Frame.key
  above : ∀ mark ∈ c.mark, ∀ e ∈ c.queue.entries, mark ≤ e.key

namespace InOrder

variable {taken : List Frame} {c : Combiner}

/-- Without a mark, nothing has been taken and anything may be queued. -/
theorem nil (h : c.mark = none) : InOrder [] c where
  sorted := List.Pairwise.nil
  mark := h
  above := by simp [h]

/-- There is a mark exactly if something was taken. -/
theorem mark_eq_none_iff (h : InOrder taken c) : c.mark = none ↔ taken = [] := by
  rw [h.mark, Option.map_eq_none_iff, List.getLast?_eq_none_iff]

/-- The mark is the key of a frame taken. -/
theorem exists_of_mark (h : InOrder taken c) {mark : Key} (hmark : mark ∈ c.mark) : ∃ f ∈ taken, f.key = mark := by
  rw [h.mark, Option.mem_def, Option.map_eq_some_iff] at hmark
  obtain ⟨f, hf, rfl⟩ := hmark
  exact ⟨f, List.mem_of_getLast? hf, rfl⟩

/-- No frame taken is above the mark. -/
theorem le_mark (h : InOrder taken c) {f : Frame} (hf : f ∈ taken) : ∃ mark ∈ c.mark, f.key ≤ mark := by
  obtain ⟨before, last, rfl⟩ := List.eq_nil_or_concat taken |>.resolve_left (List.ne_nil_of_mem hf)
  rw [List.concat_eq_append] at *
  refine ⟨last.key, by simp [h.mark], ?_⟩
  rcases List.mem_append.1 hf with hf | hf
  · exact (List.pairwise_append.1 h.sorted).2.2 f hf last (List.mem_singleton_self _)
  · rw [List.mem_singleton.1 hf]

/-- The mark is the greatest key taken. -/
theorem le_of_mark (h : InOrder taken c) {mark : Key} (hmark : mark ∈ c.mark) : ∀ f ∈ taken, f.key ≤ mark := by
  intro f hf
  obtain ⟨mark', hmark', hle⟩ := h.le_mark hf
  rw [Option.mem_unique hmark hmark']
  exact hle

/-- A frame comes too late exactly if one at or above its key was taken. -/
theorem isStale_iff (h : InOrder taken c) (key : Key) : c.isStale key = true ↔ ∃ f ∈ taken, key ≤ f.key := by
  rw [c.isStale_iff]
  constructor
  · rintro ⟨mark, hmark, hle⟩
    obtain ⟨f, hf, rfl⟩ := h.exists_of_mark hmark
    exact ⟨f, hf, hle⟩
  · rintro ⟨f, hf, hle⟩
    obtain ⟨mark, hmark, hle'⟩ := h.le_mark hf
    exact ⟨mark, hmark, hle.trans hle'⟩

/-- Taking the first entry keeps the order: it is at or above the mark and at or below all others. -/
theorem take {e : Entry} {c' : Combiner} (h : InOrder taken c) (hentries : c.queue.entries = e :: c'.queue.entries)
    (hmark : c'.mark = some e.key) : InOrder (taken ++ [e.frame]) c' where
  sorted := by
    rw [List.pairwise_append]
    refine ⟨h.sorted, List.pairwise_singleton _ _, fun f hf f' hf' => ?_⟩
    obtain ⟨mark, hmem, hle⟩ := h.le_mark hf
    rw [List.mem_singleton.1 hf']
    exact hle.trans (h.above mark hmem e (hentries ▸ List.mem_cons_self))
  mark := by
    rw [hmark, List.getLast?_append_of_ne_nil _ (List.cons_ne_nil _ _)]
    rfl
  above := by
    intro mark hmem
    rw [hmark, Option.mem_some_iff] at hmem
    rw [← hmem]
    exact Queue.key_le_of_entries hentries

/-- The order is kept where the mark stays and no entry comes in below it. -/
theorem keep {c' : Combiner} (h : InOrder taken c) (hmark : c'.mark = c.mark)
    (hentries : ∀ e ∈ c'.queue.entries, e ∈ c.queue.entries ∨ ∀ mark ∈ c.mark, mark < e.key) : InOrder taken c' where
  sorted := h.sorted
  mark := hmark.trans h.mark
  above := by
    intro mark hmem e he
    rw [hmark] at hmem
    rcases hentries e he with hbefore | hnew
    · exact h.above mark hmem e hbefore
    · exact le_of_lt (hnew mark hmem)

variable {P : Type} [Publisher P]

/-- Every step but a reset keeps the order. -/
theorem step {s : Step P} (h : InOrder taken s.relay.combiner) (hreset : s.operation.isReset = false) :
    InOrder (taken ++ s.taken?.toList) s.next.combiner := by
  rw [s.taken?_eq]
  cases hleaving : s.leaving? with
  | none =>
    rw [Option.map_none, Option.toList_none, List.append_nil]
    exact h.keep (Step.mark_next hreset hleaving) fun e he => (Step.mem_entries_next he).imp_right Step.lt_key_of_entered?
  | some e =>
    obtain ⟨-, hentries, hmark⟩ := Step.of_leaving? hleaving
    exact h.take hentries hmark

/-- The order is kept while there is no reset. -/
theorem steps {r : Relay P} {taken : List Frame} (h : InOrder taken r.combiner) {window : List Operation}
    (hwindow : ∀ op ∈ window, op.isReset = false) :
    InOrder (taken ++ framesTaken (r.steps window)) (r.after window).combiner := by
  induction window generalizing r taken with
  | nil => simpa [Relay.steps] using h
  | cons op window ih =>
    have hstep := h.step (s := ⟨r, op⟩) (hwindow op List.mem_cons_self)
    have hrest := ih (r := (r.apply op).state) hstep fun op' hmem => hwindow op' (List.mem_cons_of_mem _ hmem)
    rwa [List.append_assoc, ← framesTaken_cons] at hrest

/-- The order holds after every run, for what was taken since the last reset. -/
theorem recent {r : Relay P} (hr : r.IsNew) (ops : List Operation) :
    InOrder (framesTaken (r.recent ops)) (r.after ops).combiner := by
  have hmark := Relay.mark_atReset hr ops
  obtain ⟨before, window, rfl, hwindow, hat, hrecent⟩ := r.exists_window ops
  rw [hrecent, r.after_append]
  rw [hat] at hmark
  exact (nil hmark).steps hwindow

end InOrder

variable {P : Type} [Publisher P]

/-- Frames of one key that are taken without a reset in between were queued together: the second was not put in
after the first was taken, since it would have come too late. -/
theorem queued_together {r : Relay P} (hr : r.IsNew) {before window : List Operation} {first second : Operation}
    {e e' : Entry} (hwindow : ∀ op ∈ window, op.isReset = false)
    (he : (⟨r.after before, first⟩ : Step P).leaving? = some e)
    (he' : (⟨r.after (before ++ first :: window), second⟩ : Step P).leaving? = some e') (hkey : e.key = e'.key) :
    [e, e'].Sublist (r.after before).combiner.queue.entries := by
  obtain ⟨hfirst, hentries, -⟩ := Step.of_leaving? he
  obtain ⟨-, hentries', -⟩ := Step.of_leaving? he'
  have hmem : e' ∈ ((⟨r.after before, first⟩ : Step P).next.after window).combiner.queue.entries := by
    have hmem : e' ∈ (r.after (before ++ first :: window)).combiner.queue.entries := hentries' ▸ List.mem_cons_self
    rwa [r.after_append] at hmem
  rcases Relay.mem_entries_after hmem with hqueued | ⟨s, hs, hentered⟩
  · rw [hentries]
    exact (List.singleton_sublist.2 hqueued).cons_cons e
  · exfalso
    obtain ⟨earlier, later, rfl, hrelay⟩ := Relay.mem_steps_iff.1 hs
    -- at the step that put `e'` in, `e` was among the frames taken since the last reset
    have horder := InOrder.recent hr (before ++ first :: earlier)
    have htaken : e.frame ∈ framesTaken (r.recent (before ++ first :: earlier)) := by
      rw [r.recent_append before (first :: earlier), framesTaken_append, Relay.steps, framesTaken_cons, Step.taken?_eq, he]
      · simp
      · intro op hop
        rcases List.mem_cons.1 hop with rfl | hop
        · exact hfirst
        · exact hwindow op (List.mem_append_left _ hop)
    obtain ⟨mark, hmark, hle⟩ := horder.le_mark htaken
    rw [r.after_append] at hmark
    have hlt : mark < e'.key := Step.lt_key_of_entered? hentered mark (by rw [hrelay]; exact hmark)
    exact absurd hkey (ne_of_lt (lt_of_le_of_lt hle hlt))

/-- Output order and exact staleness, for every run from a new relay.
1. The keys taken while there is no reset never decrease.
2. There is a mark exactly if something was taken since the last reset; it is then the greatest key taken since, and
nothing queued is below it.
3. An offer that names a known source is answered "stale" exactly if a frame at or above its key was taken since the last
reset.
4. Two frames of one key taken without a reset in between were both queued before the first of them was taken. -/
theorem output_in_order (r : Relay P) (hr : r.IsNew) :
    (∀ before window, (∀ op ∈ window, op.isReset = false) →
      (framesTaken ((r.after before).steps window)).Pairwise fun a b => a.key ≤ b.key) ∧
    (∀ ops, ((r.after ops).combiner.mark = none ↔ framesTaken (r.recent ops) = []) ∧
      ∀ mark ∈ (r.after ops).combiner.mark, (∃ f ∈ framesTaken (r.recent ops), f.key = mark) ∧
        (∀ f ∈ framesTaken (r.recent ops), f.key ≤ mark) ∧
        ∀ f ∈ (r.after ops).combiner.queue.contents, mark ≤ f.key) ∧
    (∀ ops id frame, id < (r.after ops).combiner.sources.length →
      (((r.after ops).combiner.offer frame id).value = .ok .stale ↔
        ∃ f ∈ framesTaken (r.recent ops), frame.key ≤ f.key)) ∧
    ∀ before window first second e e', (∀ op ∈ window, op.isReset = false) →
      (⟨r.after before, first⟩ : Step P).leaving? = some e →
      (⟨r.after (before ++ first :: window), second⟩ : Step P).leaving? = some e' → e.key = e'.key →
      [e, e'].Sublist (r.after before).combiner.queue.entries := by
  refine ⟨fun before window hwindow => ?_, fun ops => ?_, fun ops id frame hid => ?_, ?_⟩
  · have h := (InOrder.recent hr (before ++ window)).sorted
    rw [r.recent_append before window hwindow, framesTaken_append] at h
    exact (List.pairwise_append.1 h).2.1
  · have h := InOrder.recent hr ops
    refine ⟨h.mark_eq_none_iff, fun mark hmark => ⟨h.exists_of_mark hmark, h.le_of_mark hmark, fun f hf => ?_⟩⟩
    obtain ⟨e, he, rfl⟩ := List.mem_map.1 hf
    exact h.above mark hmark e he
  · obtain ⟨source, hsource⟩ : ∃ source, (r.after ops).combiner.sources[id]? = some source :=
      ⟨_, List.getElem?_eq_getElem hid⟩
    rw [Combiner.offer_value_eq_stale_iff frame hsource, (InOrder.recent hr ops).isStale_iff]
  · intro before window first second e e' hwindow he he' hkey
    exact queued_together hr hwindow he he' hkey

/-- Once the frame of key (0, 5) is taken, a frame of key (0, 4) comes too late. -/
theorem output_in_order_sample :
    Sample.relay.IsNew ∧
      1 < (Sample.relay.after [.offer 0 (Sample.frame ⟨0, 5⟩), .drain]).combiner.sources.length ∧
      ((Sample.relay.after [.offer 0 (Sample.frame ⟨0, 5⟩), .drain]).combiner.offer (Sample.frame ⟨0, 4⟩) 1).value =
        .ok .stale := by
  have hid : 1 < (Sample.relay.after [.offer 0 (Sample.frame ⟨0, 5⟩), .drain]).combiner.sources.length := by
    decide +kernel
  have htaken : (framesTaken (Sample.relay.recent [.offer 0 (Sample.frame ⟨0, 5⟩), .drain])).any
      (fun f => (⟨0, 4⟩ : Key) ≤ f.key) = true := by decide +kernel
  obtain ⟨f, hf, hle⟩ := List.any_eq_true.1 htaken
  exact ⟨Sample.isNew, hid,
    ((output_in_order Sample.relay Sample.isNew).2.2.1 _ _ _ hid).2 ⟨f, hf, of_decide_eq_true hle⟩⟩

end FrameMerge
