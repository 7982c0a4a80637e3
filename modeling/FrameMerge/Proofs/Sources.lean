import FrameMerge.Proofs.Run

/-!
# What a step does to a source

`Step.source_next` lists all that a step can do to the source in one place: read one of its messages, charge it a frame
that came too late, move its cutoff, reset it, or leave it alone. What is said of a source over a whole run is said of
these few cases first.
-/

namespace FrameMerge

/-- The frame number that an operation brings a source. -/
def Operation.number? (id : Nat) : Operation → Option Nat
  | .ingest source raw _ => if source = id then (Header.decode raw).toOption.map Header.frameNumber else none
  | _ => none

/-- A source charges itself a frame that came too late. -/
def Source.charge (s : Source) (admission : Admission) : Source :=
  if admission.isStale then s.recordDrop.state else s

/-- Moving the cutoff replaces the monitor and nothing else. -/
theorem Source.setCutoff_ok {s s' : Source} {cutoff : Binary64} (h : s.setCutoff cutoff = .ok s') :
    ∃ monitor, s' = { s with monitor } := by
  unfold setCutoff at h
  cases hmonitor : Monitor.create cutoff with
  | error e =>
    rw [hmonitor] at h
    cases h
  | ok monitor =>
    rw [hmonitor] at h
    cases h
    exact ⟨_, rfl⟩

namespace Combiner

/-- A message of a known source makes a frame exactly if its header can be read. -/
theorem frame?_eq {c : Combiner} {id : Nat} {source : Source} (h : c.sources[id]? = some source) (raw payload : Bytes) :
    c.frame? id raw payload = (Header.decode raw).toOption.map fun header => (source.accept header payload).value := by
  rw [frame?, h, Option.bind_some, Source.ingest]
  cases Header.decode raw <;> rfl

/-- The sources with another in one place. -/
theorem sources_withSource {c : Combiner} {id : Nat} {old : Source} (new : Source) (h : c.sources[id]? = some old)
    (k : Nat) : (c.withSource id new).sources[k]? = if id = k then some new else c.sources[k]? := by
  by_cases hk : id = k
  · subst hk
    rw [if_pos rfl, withSource_self new h]
  · rw [if_neg hk, withSource_other new hk]

/-- An offer that does not fail has its source charge itself the frame, and leaves the other sources. -/
theorem sources_offer {c : Combiner} {frame : Frame} {id : Nat} {source : Source} {admission : Admission}
    (hsource : c.sources[id]? = some source) (hvalue : (c.offer frame id).value = .ok admission) (k : Nat) :
    (c.offer frame id).state.sources[k]? = if id = k then some (source.charge admission) else c.sources[k]? := by
  cases hs : c.isStale frame.key with
  | true =>
    obtain ⟨hv, hstate⟩ := offer_stale hsource hs
    rw [hv, Except.ok.injEq] at hvalue
    rw [hstate, ← hvalue]
    exact sources_withSource _ hsource k
  | false =>
    obtain ⟨hv, hstate⟩ := offer_fresh hsource hs
    rw [hv, Except.ok.injEq] at hvalue
    have hcharge : source.charge admission = source := by
      rw [Source.charge, ← hvalue, PushOutcome.isStale_admission]
      rfl
    rw [hstate, hcharge]
    by_cases hk : id = k
    · subst hk
      rw [if_pos rfl]
      exact hsource
    · rw [if_neg hk]

theorem length_sources_offer (c : Combiner) (frame : Frame) (id : Nat) :
    (c.offer frame id).state.sources.length = c.sources.length := by
  cases hsource : c.sources[id]? with
  | none => rw [offer_unknown frame hsource]
  | some source =>
    cases hs : c.isStale frame.key with
    | true =>
      rw [(offer_stale hsource hs).2]
      exact List.length_set
    | false => rw [(offer_fresh hsource hs).2]

/-- Moving the cutoff moves it at every source. -/
theorem sources_setCutoff {c c' : Combiner} {cutoff : Binary64} (h : c.setCutoff cutoff = .ok c') :
    c'.sources.length = c.sources.length ∧
      ∀ (k : Nat) (old : Source), c.sources[k]? = some old →
        ∃ new, c'.sources[k]? = some new ∧ old.setCutoff cutoff = .ok new := by
  obtain ⟨-, -, -, hsources⟩ := setCutoff_ok h
  obtain ⟨hlength, hset⟩ := List.forall₂_iff_get.1 (forall₂_of_mapM hsources)
  refine ⟨hlength.symm, fun k old hold => ?_⟩
  obtain ⟨hk, rfl⟩ := List.getElem?_eq_some_iff.1 hold
  exact ⟨_, List.getElem?_eq_getElem (hlength ▸ hk), hset k hk (hlength ▸ hk)⟩

end Combiner

variable {P : Type} [Publisher P]

namespace Step

/-- What a step can do to the source in one place. -/
inductive SourceMove (s : Step P) (id : Nat) (old new : Source) : Prop
  /-- The step does not concern the source. -/
  | still (hnumber : s.operation.number? id = none) (hoffer : ∀ o ∈ s.offer?, o.source ≠ id)
      (hreset : s.operation.isReset = false) (hnew : new = old)
  /-- The step reads a message of the source and offers its frame. -/
  | read (header : Header) (payload : Bytes) (admission : Admission)
      (hnumber : s.operation.number? id = some header.frameNumber)
      (hoffer : s.offer? = some ⟨id, (old.accept header payload).value, true, admission⟩)
      (hreset : s.operation.isReset = false) (hnew : new = (old.accept header payload).state.charge admission)
  /-- The step offers a frame on behalf of the source. -/
  | offered (frame : Frame) (admission : Admission) (hnumber : s.operation.number? id = none)
      (hoffer : s.offer? = some ⟨id, frame, false, admission⟩) (hreset : s.operation.isReset = false)
      (hnew : new = old.charge admission)
  /-- The step moves the source's cutoff. -/
  | cutoff (cutoff : Binary64) (hnumber : s.operation.number? id = none) (hoffer : s.offer? = none)
      (hreset : s.operation.isReset = false) (hnew : old.setCutoff cutoff = .ok new)
  /-- The step resets the source. -/
  | reset (hreset : s.operation.isReset = true) (hnew : new = old.reset)

/-- A message is read by its own source, if by any. -/
theorem source_next_of_ingest (r : Relay P) (sender : Nat) (raw payload : Bytes) {id : Nat} {old : Source}
    (h : r.combiner.sources[id]? = some old) :
    ∃ new, (⟨r, .ingest sender raw payload⟩ : Step P).next.combiner.sources[id]? = some new ∧
      (⟨r, .ingest sender raw payload⟩ : Step P).SourceMove id old new := by
  cases hframe : r.combiner.frame? sender raw payload with
  | none =>
    obtain ⟨hoffer, hnext⟩ := of_no_frame hframe
    have hnumber : (Operation.ingest sender raw payload).number? id = none := by
      rw [Operation.number?]
      split
      · rename_i hsender
        subst hsender
        rw [Combiner.frame?_eq h, Option.map_eq_none_iff] at hframe
        rw [hframe, Option.map_none]
      · rfl
    refine ⟨old, ?_, .still hnumber (by simp [hoffer]) rfl rfl⟩
    rw [hnext]
    exact h
  | some frame =>
    obtain ⟨source, header, admission, c, hsource, hdecode, rfl, hc, hself, hvalue, hoffer, hnext⟩ := of_frame? hframe
    have hnew := Combiner.sources_offer hself hvalue id
    rw [← hnext, hc, Combiner.sources_withSource _ hsource] at hnew
    by_cases hid : sender = id
    · subst hid
      rw [hsource, Option.some.injEq] at h
      subst h
      rw [if_pos rfl] at hnew
      refine ⟨_, hnew, .read header payload admission ?_ hoffer rfl rfl⟩
      rw [Operation.number?, if_pos rfl, hdecode]
      rfl
    · rw [if_neg hid, if_neg hid] at hnew
      exact ⟨old, hnew.trans h, .still (if_neg hid) (by simp [hoffer, hid]) rfl rfl⟩

/-- A frame that is offered is charged to its own source, if to any. -/
theorem source_next_of_offer (r : Relay P) (sender : Nat) (frame : Frame) {id : Nat} {old : Source}
    (h : r.combiner.sources[id]? = some old) :
    ∃ new, (⟨r, .offer sender frame⟩ : Step P).next.combiner.sources[id]? = some new ∧
      (⟨r, .offer sender frame⟩ : Step P).SourceMove id old new := by
  cases hsource : r.combiner.sources[sender]? with
  | none =>
    obtain ⟨hoffer, hnext⟩ := of_unknown frame hsource
    refine ⟨old, ?_, .still rfl (by simp [hoffer]) rfl rfl⟩
    rw [hnext]
    exact h
  | some source =>
    obtain ⟨admission, hvalue, hoffer⟩ := of_known frame hsource
    have hnew := Combiner.sources_offer hsource hvalue id
    by_cases hid : sender = id
    · subst hid
      rw [hsource, Option.some.injEq] at h
      subst h
      rw [if_pos rfl] at hnew
      exact ⟨_, hnew, .offered frame admission rfl hoffer rfl rfl⟩
    · rw [if_neg hid] at hnew
      exact ⟨old, hnew.trans h, .still rfl (by simp [hoffer, hid]) rfl rfl⟩

/-- All that a step can do to the source in one place. -/
theorem source_next (s : Step P) {id : Nat} {old : Source} (h : s.relay.combiner.sources[id]? = some old) :
    ∃ new, s.next.combiner.sources[id]? = some new ∧ s.SourceMove id old new := by
  obtain ⟨r, op⟩ := s
  have htake : r.combiner.takeNext.2.sources[id]? = some old := by
    rw [r.combiner.sources_takeNext]
    exact h
  cases op with
  | ingest sender raw payload => exact source_next_of_ingest r sender raw payload h
  | offer sender frame => exact source_next_of_offer r sender frame h
  | drain =>
    refine ⟨old, ?_, .still rfl (by simp [offer?]) rfl rfl⟩
    rw [← htake, ← r.combiner_drain]
    rfl
  | takeNext => exact ⟨old, htake, .still rfl (by simp [offer?]) rfl rfl⟩
  | reset =>
    refine ⟨old.reset, ?_, .reset rfl rfl⟩
    show (r.combiner.sources.map Source.reset)[id]? = some old.reset
    rw [List.getElem?_map, h, Option.map_some]
  | setCutoff cutoff =>
    cases hset : r.combiner.setCutoff cutoff with
    | error cause =>
      refine ⟨old, ?_, .still rfl (by simp [offer?]) rfl rfl⟩
      simpa only [next, Relay.apply, hset] using h
    | ok c =>
      obtain ⟨new, hnew, hold⟩ := (Combiner.sources_setCutoff hset).2 id old h
      refine ⟨new, ?_, .cutoff cutoff rfl (by simp [offer?]) rfl hold⟩
      simpa only [next, Relay.apply, hset] using hnew
  | stats => exact ⟨old, h, .still rfl (by simp [offer?]) rfl rfl⟩

/-- No step adds or removes a source. -/
theorem length_sources_next (s : Step P) : s.next.combiner.sources.length = s.relay.combiner.sources.length := by
  obtain ⟨r, op⟩ := s
  cases op with
  | ingest source raw payload =>
    cases hframe : r.combiner.frame? source raw payload with
    | none => rw [(of_no_frame hframe).2]
    | some frame =>
      obtain ⟨source', header, admission, c, -, -, -, hc, -, -, -, hnext⟩ := of_frame? hframe
      rw [hnext, c.length_sources_offer, hc]
      exact List.length_set
  | offer source frame => exact r.combiner.length_sources_offer frame source
  | drain =>
    show r.drain.2.combiner.sources.length = _
    rw [r.combiner_drain, r.combiner.sources_takeNext]
  | takeNext =>
    show r.combiner.takeNext.2.sources.length = _
    rw [r.combiner.sources_takeNext]
  | reset => exact List.length_map _
  | setCutoff cutoff =>
    cases hset : r.combiner.setCutoff cutoff with
    | error cause => simp only [next, Relay.apply, hset]
    | ok c => simpa only [next, Relay.apply, hset] using (Combiner.sources_setCutoff hset).1
  | stats => rfl

/-- A source that a step leaves was there before. -/
theorem source_of_next {s : Step P} {id : Nat} {new : Source} (h : s.next.combiner.sources[id]? = some new) :
    ∃ old, s.relay.combiner.sources[id]? = some old ∧ s.SourceMove id old new := by
  have hlt : id < s.relay.combiner.sources.length := by
    rw [← s.length_sources_next]
    exact (List.getElem?_eq_some_iff.1 h).1
  obtain ⟨new', hnew, hmove⟩ := s.source_next (List.getElem?_eq_getElem hlt)
  rw [h, Option.some.injEq] at hnew
  subst hnew
  exact ⟨_, List.getElem?_eq_getElem hlt, hmove⟩

end Step

/-- A relay keeps its sources. -/
theorem Relay.length_sources_after (r : Relay P) (ops : List Operation) :
    (r.after ops).combiner.sources.length = r.combiner.sources.length := by
  induction ops generalizing r with
  | nil => rfl
  | cons op ops ih =>
    rw [after_cons, ih]
    exact Step.length_sources_next ⟨r, op⟩

end FrameMerge
