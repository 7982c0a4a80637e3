import FrameMerge.Proofs.Renewal

/-!
# Operations that fail

A message that is no frame of a known source, a frame of no known source and a cutoff that is no share are answered with
an error, and nothing else happens (`apply_of_failure`). What can go wrong is found out before anything is changed: an
offer cannot fail any more once its message was counted, and a cutoff that one source accepts is accepted by all
(`Source.setCutoff_eq`), so that moving it source by source never stops halfway (`moveCutoff_eq`). All sources have the
cutoff of the combiner, since setting them up anew with it would give what a reset makes of them (`band_after`).
-/

namespace FrameMerge

/-- What was given to the operation was not accepted. A drain that loses its frame has done its work. -/
def Reply.isFailure : Reply → Bool
  | .admission (.error _) => true
  | .cutoff (.error _) => true
  | _ => false

/-! ## Shares -/

/-- A cutoff is a share unless it is not a number, or lies below zero or above one. -/
theorem isShare_eq_false_iff (cutoff : Binary64) :
    isShare cutoff = false ↔
      cutoff.isNaN = true ∨ cutoff.position < Binary64.zero.position ∨ (Binary64.ofNat 1).position < cutoff.position := by
  have hzero : Binary64.zero.isNaN = false := by decide
  have hone : (Binary64.ofNat 1).isNaN = false := by decide +kernel
  unfold isShare Binary64.le
  rw [hzero, hone]
  cases cutoff.isNaN with
  | true => simp
  | false =>
    simp only [Bool.not_false, Bool.true_and, Bool.and_eq_false_iff, decide_eq_false_iff_not, Int.not_le, Bool.false_eq_true,
      false_or]

theorem checkCutoff_of_share {cutoff : Binary64} (h : isShare cutoff = true) : checkCutoff cutoff = .ok () := if_pos h

theorem checkCutoff_of_not_share {cutoff : Binary64} (h : isShare cutoff = false) :
    checkCutoff cutoff = .error ⟨cutoff⟩ := by
  unfold checkCutoff
  rw [h]
  rfl

/-! ## Moving the cutoff -/

namespace Source

/-- The source with the band of another cutoff; whether it has warned, and all that it counted, stays. -/
def withCutoff (s : Source) (cutoff : Binary64) : Source :=
  { s with monitor := { s.monitor with warn := cutoff, unwarn := cutoff.mul Monitor.unwarnShare } }

/-- A source just set up has the band that belongs to its cutoff, and has not warned. -/
theorem monitor_of_create {name endpoint : String} {cutoff : Binary64} {s : Source}
    (h : create name endpoint cutoff = .ok s) : s.monitor = ⟨cutoff, cutoff.mul Monitor.unwarnShare, false⟩ := by
  unfold create Monitor.create at h
  cases hcutoff : checkCutoff cutoff with
  | error cause =>
    rw [hcutoff] at h
    cases h
  | ok u =>
    rw [hcutoff] at h
    cases h
    rfl

/-- Whether a source accepts a cutoff does not depend on the source. -/
theorem setCutoff_eq (s : Source) (cutoff : Binary64) :
    s.setCutoff cutoff = if isShare cutoff then .ok (s.withCutoff cutoff) else .error ⟨cutoff⟩ := by
  unfold setCutoff Monitor.create
  cases h : isShare cutoff with
  | true =>
    rw [checkCutoff_of_share h]
    rfl
  | false =>
    rw [checkCutoff_of_not_share h]
    rfl

/-- Moves the cutoff at one source after the other, and stops at the first that does not accept it: the sources before it
have moved by then. -/
def moveEach (cutoff : Binary64) : List Source → Except CutoffError Unit × List Source
  | [] => (.ok (), [])
  | source :: rest =>
    match source.setCutoff cutoff with
    | .error cause => (.error cause, source :: rest)
    | .ok moved => ((moveEach cutoff rest).1, moved :: (moveEach cutoff rest).2)

/-- A share is accepted by all sources. -/
theorem moveEach_of_share {cutoff : Binary64} (h : isShare cutoff = true) (sources : List Source) :
    moveEach cutoff sources = (.ok (), sources.map (·.withCutoff cutoff)) := by
  induction sources with
  | nil => rfl
  | cons source rest ih =>
    have hfirst : source.setCutoff cutoff = .ok (source.withCutoff cutoff) := by
      rw [source.setCutoff_eq, h]
      rfl
    rw [moveEach, hfirst, ih]
    rfl

end Source

namespace Combiner

/-- The combiner with the cutoff moved, at its sources too. -/
def withCutoff (c : Combiner) (cutoff : Binary64) : Combiner :=
  { c with sources := c.sources.map (·.withCutoff cutoff), cutoff }

/-- The cutoff is moved exactly if it is a share. -/
theorem setCutoff_eq (c : Combiner) (cutoff : Binary64) :
    c.setCutoff cutoff = if isShare cutoff then .ok (c.withCutoff cutoff) else .error ⟨cutoff⟩ := by
  unfold setCutoff
  cases h : isShare cutoff with
  | true =>
    have hmoved : c.sources.mapM (Source.setCutoff · cutoff) = .ok (c.sources.map (·.withCutoff cutoff)) := by
      apply mapM_eq_ok
      rw [List.forall₂_map_right_iff, List.forall₂_same]
      intro source _
      rw [source.setCutoff_eq, h]
      rfl
    rw [checkCutoff_of_share h, hmoved]
    rfl
  | false =>
    rw [checkCutoff_of_not_share h]
    rfl

/-- Moves the cutoff in place: what was changed up to a failure stays changed. -/
def moveCutoff (c : Combiner) (cutoff : Binary64) : Except CutoffError Unit × Combiner :=
  match checkCutoff cutoff with
  | .error cause => (.error cause, c)
  | .ok () =>
    match Source.moveEach cutoff c.sources with
    | (.error cause, sources) => (.error cause, { c with sources })
    | (.ok (), sources) => (.ok (), { c with sources, cutoff })

/-- In place, too, the cutoff is moved everywhere or nowhere. -/
theorem moveCutoff_eq (c : Combiner) (cutoff : Binary64) :
    c.moveCutoff cutoff = if isShare cutoff then (.ok (), c.withCutoff cutoff) else (.error ⟨cutoff⟩, c) := by
  unfold moveCutoff
  cases h : isShare cutoff with
  | true =>
    rw [checkCutoff_of_share h, Source.moveEach_of_share h]
    rfl
  | false =>
    rw [checkCutoff_of_not_share h]
    rfl

/-! ## Messages and frames -/

/-- A message makes no frame exactly if its source is not known or its header cannot be read. -/
theorem frame?_eq_none_iff (c : Combiner) (id : Nat) (raw payload : Bytes) :
    c.frame? id raw payload = none ↔ c.sources.length ≤ id ∨ ∃ cause, Header.decode raw = .error cause := by
  cases hsource : c.sources[id]? with
  | none =>
    have hunknown : c.sources.length ≤ id := List.getElem?_eq_none_iff.1 hsource
    have hnone : c.frame? id raw payload = none := by
      rw [frame?, hsource]
      rfl
    exact iff_of_true hnone (Or.inl hunknown)
  | some source =>
    have hknown : id < c.sources.length := (List.getElem?_eq_some_iff.1 hsource).1
    rw [frame?_eq hsource, Option.map_eq_none_iff]
    cases Header.decode raw with
    | error cause => simp [Except.toOption]
    | ok header => simp [Except.toOption, hknown]

end Combiner

variable {P : Type} [Publisher P]

namespace Relay

/-- A relay that some run leaves of one whose combiner was just set up. -/
def Reachable (s : Relay P) : Prop := ∃ (r : Relay P) (ops : List Operation), r.IsNew ∧ r.after ops = s

/-- A message fails exactly if it makes no frame: once its frame is counted, the offer of it cannot fail. -/
theorem isFailure_ingest (s : Relay P) (id : Nat) (raw payload : Bytes) :
    (s.apply (.ingest id raw payload)).value.isFailure = true ↔ s.combiner.frame? id raw payload = none := by
  cases hframe : s.combiner.frame? id raw payload with
  | none =>
    obtain ⟨⟨cause, hvalue⟩, -⟩ := Combiner.ingest_of_no_frame hframe
    simp only [apply, hvalue, Reply.isFailure]
  | some frame =>
    obtain ⟨source, header, hsource, -, -, hvalue, -⟩ := Combiner.ingest_of_frame? hframe
    obtain ⟨admission, hoffer⟩ := Combiner.offer_ok frame (Combiner.withSource_self _ hsource)
    rw [hoffer] at hvalue
    simp [apply, hvalue, Reply.isFailure]

/-- An offer fails exactly if its source is not known. -/
theorem isFailure_offer (s : Relay P) (id : Nat) (frame : Frame) :
    (s.apply (.offer id frame)).value.isFailure = true ↔ s.combiner.sources.length ≤ id := by
  cases hsource : s.combiner.sources[id]? with
  | none =>
    have hunknown := List.getElem?_eq_none_iff.1 hsource
    simp [apply, Combiner.offer_unknown frame hsource, Reply.isFailure, hunknown]
  | some source =>
    have hknown := (List.getElem?_eq_some_iff.1 hsource).1
    obtain ⟨admission, hvalue⟩ := Combiner.offer_ok frame hsource
    simp [apply, hvalue, Reply.isFailure, hknown]

/-- What moving the cutoff answers and leaves. -/
theorem apply_setCutoff (s : Relay P) (cutoff : Binary64) :
    s.apply (.setCutoff cutoff) =
      if isShare cutoff then ⟨.cutoff (.ok ()), { s with combiner := s.combiner.withCutoff cutoff }, []⟩
      else ⟨.cutoff (.error ⟨cutoff⟩), s, []⟩ := by
  simp only [apply, s.combiner.setCutoff_eq]
  cases isShare cutoff <;> rfl

/-- Moving the cutoff fails exactly if it is no share. -/
theorem isFailure_setCutoff (s : Relay P) (cutoff : Binary64) :
    (s.apply (.setCutoff cutoff)).value.isFailure = true ↔ isShare cutoff = false := by
  rw [s.apply_setCutoff]
  cases isShare cutoff <;> simp [Reply.isFailure]

/-- An operation that fails leaves all as it was. -/
theorem apply_of_failure {s : Relay P} {op : Operation} (h : (s.apply op).value.isFailure = true) :
    (s.apply op).state = s := by
  cases op with
  | ingest id raw payload =>
    have hframe := (s.isFailure_ingest id raw payload).1 h
    have hstate := (Combiner.ingest_of_no_frame hframe).2
    simp only [apply, hstate]
  | offer id frame =>
    have hunknown := (s.isFailure_offer id frame).1 h
    have hstate := congrArg Outcome.state (Combiner.offer_unknown frame (List.getElem?_eq_none_iff.2 hunknown))
    simp only [apply, hstate]
  | setCutoff cutoff =>
    have hshare := (s.isFailure_setCutoff cutoff).1 h
    rw [s.apply_setCutoff, hshare]
    rfl
  | drain | takeNext | reset | stats => cases h

/-- All sources of a relay have the band that belongs to the cutoff of the combiner. -/
theorem Reachable.band {s : Relay P} (h : s.Reachable) {source : Source} (hsource : source ∈ s.combiner.sources) :
    source.monitor.warn = s.combiner.cutoff ∧
      source.monitor.unwarn = s.combiner.cutoff.mul Monitor.unwarnShare := by
  obtain ⟨r, ops, ⟨settings, specs, hcreate⟩, rfl⟩ := h
  have hrenewable := renewable_after (Combiner.Renewable.of_create hcreate) ops
  -- a reset keeps the band, and makes of the source what setting it up with the cutoff of now would
  obtain ⟨spec, -, hspec⟩ := exists_of_forall₂ hrenewable.sources (List.mem_map_of_mem hsource)
  have hmonitor := Source.monitor_of_create hspec
  exact ⟨congrArg Monitor.warn hmonitor, congrArg Monitor.unwarn hmonitor⟩

end Relay

/-! ## Main statement -/

/-- Operations that fail change nothing, whatever state the relay has come to.
1. A message fails exactly if its source is not known or its header cannot be read, a frame exactly if its source is not
known, be it late or not, and moving the cutoff exactly if the new one is not a number or lies below zero or above one.
2. Whatever fails leaves the relay exactly as it was.
3. Where the cutoff is moved, the sources get the band that belongs to it, and nothing else changes.
4. Moving it in place, source by source, comes to the same: it never stops halfway.
5. The sources have the band that belongs to the cutoff of the combiner. -/
theorem failures_change_nothing (s : Relay P) (hs : s.Reachable) :
    ((∀ id raw payload, (s.apply (.ingest id raw payload)).value.isFailure = true ↔
        s.combiner.sources.length ≤ id ∨ ∃ cause, Header.decode raw = .error cause) ∧
      (∀ id frame, (s.apply (.offer id frame)).value.isFailure = true ↔ s.combiner.sources.length ≤ id) ∧
      ∀ cutoff, (s.apply (.setCutoff cutoff)).value.isFailure = true ↔
        cutoff.isNaN = true ∨ cutoff.position < Binary64.zero.position ∨
          (Binary64.ofNat 1).position < cutoff.position) ∧
    (∀ op, (s.apply op).value.isFailure = true → (s.apply op).state = s) ∧
    (∀ cutoff, (s.apply (.setCutoff cutoff)).value.isFailure = false →
      (s.apply (.setCutoff cutoff)).state = { s with combiner := s.combiner.withCutoff cutoff }) ∧
    (∀ cutoff, s.apply (.setCutoff cutoff) =
      ⟨.cutoff (s.combiner.moveCutoff cutoff).1, { s with combiner := (s.combiner.moveCutoff cutoff).2 }, []⟩) ∧
    ∀ source ∈ s.combiner.sources,
      source.monitor.warn = s.combiner.cutoff ∧
        source.monitor.unwarn = s.combiner.cutoff.mul Monitor.unwarnShare := by
  refine ⟨⟨fun id raw payload => ?_, s.isFailure_offer, fun cutoff => ?_⟩, fun op => Relay.apply_of_failure,
    fun cutoff h => ?_, fun cutoff => ?_, fun source => hs.band⟩
  · rw [s.isFailure_ingest, Combiner.frame?_eq_none_iff]
  · rw [s.isFailure_setCutoff, isShare_eq_false_iff]
  · cases hshare : isShare cutoff with
    | true =>
      rw [s.apply_setCutoff, hshare]
      rfl
    | false =>
      rw [(s.isFailure_setCutoff cutoff).2 hshare] at h
      cases h
  · rw [s.apply_setCutoff, s.combiner.moveCutoff_eq]
    cases isShare cutoff <;> rfl

/-- A frame is queued and the cutoff was moved to a quarter; then a frame of no source and a cutoff that is not a number
are given. -/
theorem failures_change_nothing_sample :
    (Sample.relay.after Sample.busy).Reachable ∧
      ((Sample.relay.after Sample.busy).apply (.offer 2 (Sample.frame ⟨0, 0⟩))).state = Sample.relay.after Sample.busy ∧
      ((Sample.relay.after Sample.busy).apply (.setCutoff Binary64.nan)).state = Sample.relay.after Sample.busy ∧
      ∀ source ∈ (Sample.relay.after Sample.busy).combiner.sources,
        source.monitor.warn = Binary64.ofDecimal false 25 (-2) := by
  have hreachable : (Sample.relay.after Sample.busy).Reachable := ⟨Sample.relay, Sample.busy, Sample.isNew, rfl⟩
  obtain ⟨⟨-, hoffer, hcutoff⟩, hfailed, -, -, hband⟩ := failures_change_nothing _ hreachable
  refine ⟨hreachable, hfailed _ ((hoffer _ _).2 ?_), hfailed _ ((hcutoff _).2 (Or.inl (by decide))), ?_⟩
  · decide +kernel
  · intro source hsource
    have hmoved : (Sample.relay.after Sample.busy).combiner.cutoff = Binary64.ofDecimal false 25 (-2) := by
      decide +kernel
    rw [(hband source hsource).1, hmoved]

end FrameMerge
