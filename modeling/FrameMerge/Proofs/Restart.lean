import FrameMerge.Proofs.OutputOrder

/-!
# What a reset leaves behind

A reset forgets the mark, so at first no frame comes too late. It keeps the queue, though, and a frame that was queued
before it sets the new mark when it is taken: frames offered after the reset can then come too late although none of
their own run was taken. Nothing else can be the cause, since what a run takes was queued at its start or put into the
queue by the run itself (`Relay.origin_of_leaving?`).
-/

namespace FrameMerge

variable {P : Type} [Publisher P]

/-- Whenever an offer of the run comes too late, the run has already taken an entry at or above its key, which is one of
`stock` or which the run itself has put into the queue. -/
def Relay.LateOnlyAfter (r : Relay P) (stock : List Entry) (window : List Operation) : Prop :=
  ∀ before op later o, window = before ++ op :: later → (⟨r.after before, op⟩ : Step P).offer? = some o →
    o.admission = .stale →
      ∃ s ∈ r.steps before, ∃ e, s.leaving? = some e ∧ o.frame.key ≤ e.key ∧
        (e ∈ stock ∨ ∃ s' ∈ r.steps before, s'.entered? = some e)

/-- An entry that a run takes was in the queue at its start, or the run has put it there. -/
theorem Relay.origin_of_leaving? {r : Relay P} {ops : List Operation} {s : Step P} {e : Entry} (hs : s ∈ r.steps ops)
    (h : s.leaving? = some e) : e ∈ r.combiner.queue.entries ∨ ∃ s' ∈ r.steps ops, s'.entered? = some e := by
  obtain ⟨before, later, rfl, hrelay⟩ := Relay.mem_steps_iff.1 hs
  obtain ⟨-, hentries, -⟩ := Step.of_leaving? h
  have hmem : e ∈ (r.after before).combiner.queue.entries := by
    rw [← hrelay, hentries]
    exact List.mem_cons_self
  rcases Relay.mem_entries_after hmem with hstart | ⟨s', hs', hentered⟩
  · exact Or.inl hstart
  · refine Or.inr ⟨s', ?_, hentered⟩
    rw [r.steps_append]
    exact List.mem_append_left _ hs'

/-- While there is no reset, a run that starts without a mark has frames come too late only after it has taken others. -/
theorem Relay.late_of_mark_eq_none {r : Relay P} (hmark : r.combiner.mark = none) {window : List Operation}
    (hwindow : ∀ op ∈ window, op.isReset = false) : r.LateOnlyAfter r.combiner.queue.entries window := by
  intro before op later o hops hoffer hstale
  obtain ⟨mark, hmem, hle⟩ := (Step.isStale_iff_of_offer? hoffer).1 (Admission.isStale_iff.2 hstale)
  -- the mark is the key of a frame that the run has taken
  have hbefore : ∀ op' ∈ before, op'.isReset = false := by
    intro op' hop'
    exact hwindow op' (by rw [hops]; exact List.mem_append_left _ hop')
  have horder := (InOrder.nil hmark).steps hbefore
  obtain ⟨f, hf, rfl⟩ := horder.exists_of_mark hmem
  obtain ⟨s, hs, htaken⟩ := List.mem_filterMap.1 hf
  rw [s.taken?_eq, Option.map_eq_some_iff] at htaken
  obtain ⟨e, hleaving, rfl⟩ := htaken
  exact ⟨s, hs, e, hleaving, hle, Relay.origin_of_leaving? hs hleaving⟩

/-- After a reset and before the next, a frame comes too late only if one at or above its key was taken in the meantime,
which was queued at the reset or put into the queue since. If nothing was queued at the reset, it was put there since. -/
theorem late_after_reset (r : Relay P) (window : List Operation) (hwindow : ∀ op ∈ window, op.isReset = false) :
    (⟨r, .reset⟩ : Step P).next.LateOnlyAfter r.combiner.queue.entries window ∧
      (r.combiner.queue.entries = [] → (⟨r, .reset⟩ : Step P).next.LateOnlyAfter [] window) := by
  have hlate := Relay.late_of_mark_eq_none (r := (⟨r, .reset⟩ : Step P).next) rfl hwindow
  refine ⟨hlate, fun hempty => ?_⟩
  rw [← hempty]
  exact hlate

/-- The frame of key (0, 0) follows one of key (0, 5) that was queued at the reset. -/
theorem late_after_reset_sample :
    (∀ op ∈ [Operation.drain, .ingest 0 (Sample.message 0) []], op.isReset = false) ∧
      (⟨Sample.relay.after [.ingest 0 (Sample.message 5) []], .reset⟩ : Step Recorder).next.LateOnlyAfter
        (Sample.relay.after [.ingest 0 (Sample.message 5) []]).combiner.queue.entries
        [.drain, .ingest 0 (Sample.message 0) []] := by
  have hwindow : ∀ op ∈ [Operation.drain, .ingest 0 (Sample.message 0) []], op.isReset = false := by
    simp [Operation.isReset]
  exact ⟨hwindow, (late_after_reset _ _ hwindow).1⟩

/-- A reset does not start over. After it the frame of key (0, 5), queued before it, is taken, and then the first frame of
the new run, of key (0, 0), comes too late, although the run has put nothing else into the queue. -/
theorem reset_not_fresh :
    Sample.relay.IsNew ∧
      ¬(Sample.relay.after [.ingest 0 (Sample.message 5) [], .reset]).LateOnlyAfter []
        [.drain, .ingest 0 (Sample.message 0) []] := by
  refine ⟨Sample.isNew, fun h => ?_⟩
  have hlate : (⟨(Sample.relay.after [.ingest 0 (Sample.message 5) [], .reset]).after [.drain],
      .ingest 0 (Sample.message 0) []⟩ : Step Recorder).offer?.any (fun o => o.admission.isStale) = true := by
    decide +kernel
  have hnone : ((Sample.relay.after [.ingest 0 (Sample.message 5) [], .reset]).steps [.drain]).all
      (fun s => s.entered?.isNone) = true := by
    decide +kernel
  obtain ⟨o, hoffer, hstale⟩ := (Option.any_eq_true _ _).1 hlate
  obtain ⟨s, -, e, -, -, hstock | ⟨s', hs', hentered⟩⟩ := h [.drain] _ [] o rfl hoffer (Admission.isStale_iff.1 hstale)
  · cases hstock
  · have hentered' := List.all_eq_true.1 hnone s' hs'
    rw [hentered] at hentered'
    cases hentered'

end FrameMerge
