import FrameMerge.Relay
import FrameMerge.Proofs.Admission
import Mathlib.Data.List.DropRight

/-!
# Runs and their steps

A run is a list of operations; its steps are the operations with the relay each of them met. What a step does to
frames is read off the answers of the relay: the frame it offers and what became of it, the frame it makes a full
queue give up, the frame it takes. `Step.move` lists all a step can do to the queue and the mark.
-/

namespace FrameMerge

/-- The operation starts all counting anew. -/
def Operation.isReset : Operation → Bool
  | .reset => true
  | _ => false

/-- An operation of a run with the relay it met. -/
structure Step (P : Type) where
  relay : Relay P
  operation : Operation

/-- A frame that an operation offered without failing, and what became of it. -/
structure Offer where
  source : Nat
  frame : Frame
  /-- The frame was read from a message, and so counted by its source. -/
  ingested : Bool
  admission : Admission

variable {P : Type} [Publisher P]

namespace Step

/-- The relay that a step leaves. -/
def next (s : Step P) : Relay P := (s.relay.apply s.operation).state

/-- The frame that a step offers, if it offers one and does not fail. -/
def offer? (s : Step P) : Option Offer :=
  match s.operation, (s.relay.apply s.operation).value with
  | .ingest source raw payload, .admission (.ok admission) =>
    (s.relay.combiner.frame? source raw payload).map fun frame => ⟨source, frame, true, admission⟩
  | .offer source frame, .admission (.ok admission) => some ⟨source, frame, false, admission⟩
  | _, _ => none

/-- The answer to an offer that does not fail. -/
def admission? (s : Step P) : Option Admission :=
  match (s.relay.apply s.operation).value with
  | .admission (.ok admission) => some admission
  | _ => none

/-- The frame that a step makes a full queue give up. -/
def evicted? (s : Step P) : Option Frame :=
  s.offer?.bind fun o =>
    if o.admission.isStale then none else (s.relay.combiner.queue.push o.frame).1.evicted?

/-- The entry that a step adds to the queue. -/
def entered? (s : Step P) : Option Entry :=
  s.offer?.bind fun o => if o.admission.isStale then none else some (s.relay.combiner.queue.incoming o.frame)

/-- The frame that a step takes. -/
def taken? (s : Step P) : Option Frame :=
  match s.operation with
  | .drain | .takeNext => s.relay.combiner.takeNext.1
  | _ => none

/-- The entry whose frame a step takes. -/
def leaving? (s : Step P) : Option Entry :=
  match s.operation with
  | .drain | .takeNext => s.relay.combiner.queue.entries.head?
  | _ => none

omit [Publisher P] in
/-- What is taken is the frame of the first entry. -/
theorem taken?_eq (s : Step P) : s.taken? = s.leaving?.map Entry.frame := by
  obtain ⟨r, op⟩ := s
  cases op <;> first | exact r.combiner.takeNext_fst | rfl

end Step

/-! ## Steps of a run -/

namespace Relay

/-- Sending a frame does not touch the combiner. -/
theorem combiner_publish (r : Relay P) (frame : Frame) : (r.publish frame).2.combiner = r.combiner := by
  unfold publish
  split <;> rfl

/-- Draining leaves the combiner as taking does, whether the frame is sent or lost. -/
theorem combiner_drain (r : Relay P) : r.drain.2.combiner = r.combiner.takeNext.2 := by
  unfold drain
  split
  · rename_i combiner htake
    rcases r.combiner.takeNext_cases with ⟨htake', -⟩ | ⟨first, rest, htake', -, -⟩ <;> rw [htake'] at htake ⊢
    cases htake
  · rename_i frame combiner htake
    have hsent := combiner_publish { r with combiner } frame
    rw [htake]
    split <;> rename_i hpublish <;> rw [hpublish] at hsent <;> exact hsent

/-- The relay after a run. -/
def after (r : Relay P) (ops : List Operation) : Relay P := (r.replay ops).2

/-- The steps of a run, oldest first. -/
def steps (r : Relay P) : List Operation → List (Step P)
  | [] => []
  | op :: rest => ⟨r, op⟩ :: (r.apply op).state.steps rest

/-- The steps since the last reset, or since the start if there was none. -/
def recent (r : Relay P) (ops : List Operation) : List (Step P) :=
  (r.steps ops).rtakeWhile fun s => !s.operation.isReset

/-- The relay as the last reset left it, or as it was at the start if there was none. -/
def atReset (r : Relay P) (ops : List Operation) : Relay P := r.after (ops.rdropWhile fun op => !op.isReset)

@[simp] theorem after_nil (r : Relay P) : r.after [] = r := rfl

@[simp] theorem after_cons (r : Relay P) (op : Operation) (ops : List Operation) :
    r.after (op :: ops) = (r.apply op).state.after ops := rfl

theorem after_append (r : Relay P) (a b : List Operation) : r.after (a ++ b) = (r.after a).after b := by
  induction a generalizing r with
  | nil => rfl
  | cons op a ih => exact ih (r.apply op).state

/-- What a run leaves is what its last step leaves. -/
theorem after_snoc (r : Relay P) (ops : List Operation) (op : Operation) :
    r.after (ops ++ [op]) = (⟨r.after ops, op⟩ : Step P).next := r.after_append ops [op]

theorem steps_append (r : Relay P) (a b : List Operation) :
    r.steps (a ++ b) = r.steps a ++ (r.after a).steps b := by
  induction a generalizing r with
  | nil => rfl
  | cons op a ih => exact congrArg (_ :: ·) (ih (r.apply op).state)

/-- The last step of a run is taken from what the others leave. -/
theorem steps_snoc (r : Relay P) (ops : List Operation) (op : Operation) :
    r.steps (ops ++ [op]) = r.steps ops ++ [⟨r.after ops, op⟩] := r.steps_append ops [op]

/-- A step of a run is one of its operations with the relay that the operations before it left. -/
theorem mem_steps_iff {r : Relay P} {ops : List Operation} {s : Step P} :
    s ∈ r.steps ops ↔ ∃ before later, ops = before ++ s.operation :: later ∧ s.relay = r.after before := by
  constructor
  · intro h
    induction ops generalizing r with
    | nil => cases h
    | cons op ops ih =>
      rcases List.mem_cons.1 h with rfl | h
      · exact ⟨[], ops, rfl, rfl⟩
      · obtain ⟨before, later, rfl, hs⟩ := ih h
        exact ⟨op :: before, later, rfl, hs⟩
  · rintro ⟨before, later, rfl, hs⟩
    rw [steps_append, ← hs]
    exact List.mem_append_right _ List.mem_cons_self

@[simp] theorem recent_nil (r : Relay P) : r.recent [] = [] := rfl

/-- A reset leaves nothing to look back on; any other operation is one more step. -/
theorem recent_snoc (r : Relay P) (ops : List Operation) (op : Operation) :
    r.recent (ops ++ [op]) = if op.isReset then [] else r.recent ops ++ [⟨r.after ops, op⟩] := by
  unfold recent
  rw [steps_snoc, List.rtakeWhile_concat]
  cases op.isReset <;> rfl

/-- A reset at the end of a run is its last. -/
theorem atReset_snoc (r : Relay P) (ops : List Operation) (op : Operation) :
    r.atReset (ops ++ [op]) = if op.isReset then r.after (ops ++ [op]) else r.atReset ops := by
  unfold atReset
  rw [List.rdropWhile_concat]
  cases op.isReset <;> rfl

/-- The steps that follow a run without a reset among them are recent. -/
theorem recent_append (r : Relay P) (before window : List Operation) (h : ∀ op ∈ window, op.isReset = false) :
    r.recent (before ++ window) = r.recent before ++ (r.after before).steps window := by
  induction window using List.reverseRecOn with
  | nil => simp [steps]
  | append_singleton window op ih =>
    have hop : op.isReset = false := h op (by simp)
    rw [← List.append_assoc, recent_snoc, hop, ih fun op' hmem => h op' (by simp [hmem]), steps_snoc, after_append]
    simp

/-- A run falls into what leads up to the last reset and what comes after it. -/
theorem exists_window (r : Relay P) (ops : List Operation) :
    ∃ before window, ops = before ++ window ∧ (∀ op ∈ window, op.isReset = false) ∧ r.atReset ops = r.after before ∧
      r.recent ops = (r.after before).steps window := by
  induction ops using List.reverseRecOn with
  | nil => exact ⟨[], [], rfl, by simp, rfl, rfl⟩
  | append_singleton ops op ih =>
    rw [atReset_snoc, recent_snoc]
    cases hreset : op.isReset with
    | true => exact ⟨ops ++ [op], [], by simp, by simp, rfl, rfl⟩
    | false =>
      obtain ⟨before, window, rfl, hwindow, hat, hrecent⟩ := ih
      refine ⟨before, window ++ [op], List.append_assoc _ _ _, ?_, hat, ?_⟩
      · intro op' hmem
        rcases List.mem_append.1 hmem with hmem | hmem
        · exact hwindow op' hmem
        · rw [List.mem_singleton.1 hmem, hreset]
      · rw [hrecent, steps_snoc, after_append]
        rfl

end Relay

/-- The frames that steps take, in their order. -/
def framesTaken (steps : List (Step P)) : List Frame := steps.filterMap Step.taken?

/-- The frames that steps make full queues give up, in their order. -/
def framesEvicted (steps : List (Step P)) : List Frame := steps.filterMap Step.evicted?

/-- The frames that steps offer without failing, with what became of them, in their order. -/
def offers (steps : List (Step P)) : List Offer := steps.filterMap Step.offer?

omit [Publisher P] in
@[simp] theorem framesTaken_nil : framesTaken ([] : List (Step P)) = [] := rfl

omit [Publisher P] in
@[simp] theorem framesTaken_append (a b : List (Step P)) : framesTaken (a ++ b) = framesTaken a ++ framesTaken b :=
  List.filterMap_append

omit [Publisher P] in
@[simp] theorem framesTaken_cons (s : Step P) (steps : List (Step P)) :
    framesTaken (s :: steps) = s.taken?.toList ++ framesTaken steps := by
  simp only [framesTaken, List.filterMap_eq_flatMap_toList, List.flatMap_cons]

@[simp] theorem framesEvicted_nil : framesEvicted ([] : List (Step P)) = [] := rfl

@[simp] theorem framesEvicted_append (a b : List (Step P)) :
    framesEvicted (a ++ b) = framesEvicted a ++ framesEvicted b :=
  List.filterMap_append

@[simp] theorem framesEvicted_cons (s : Step P) (steps : List (Step P)) :
    framesEvicted (s :: steps) = s.evicted?.toList ++ framesEvicted steps := by
  simp only [framesEvicted, List.filterMap_eq_flatMap_toList, List.flatMap_cons]

@[simp] theorem offers_nil : offers ([] : List (Step P)) = [] := rfl

@[simp] theorem offers_append (a b : List (Step P)) : offers (a ++ b) = offers a ++ offers b :=
  List.filterMap_append

@[simp] theorem offers_cons (s : Step P) (steps : List (Step P)) :
    offers (s :: steps) = s.offer?.toList ++ offers steps := by
  simp only [offers, List.filterMap_eq_flatMap_toList, List.flatMap_cons]

/-! ## The start of a run -/

/-- The relay's combiner was just set up. -/
def Relay.IsNew (r : Relay P) : Prop := ∃ settings specs, Combiner.create settings specs = .ok r.combiner

omit [Publisher P] in
/-- A combiner just set up makes a new relay with any publisher. -/
theorem Relay.isNew_of_create {settings : CombinerSettings} {specs : List SourceSpec} {c : Combiner} (publisher : P)
    (h : Combiner.create settings specs = .ok c) : (⟨c, publisher⟩ : Relay P).IsNew :=
  ⟨settings, specs, h⟩

omit [Publisher P] in
/-- A new relay has taken nothing, holds nothing and has counted nothing. -/
theorem Relay.IsNew.spec {r : Relay P} (h : r.IsNew) :
    r.combiner.mark = none ∧ r.combiner.dropped = 0 ∧ r.combiner.queue.entries = [] ∧
      ∀ source ∈ r.combiner.sources, ∃ name endpoint monitor, source = ⟨name, endpoint, 0, 0, 0, 0, monitor⟩ := by
  obtain ⟨settings, specs, h⟩ := h
  obtain ⟨hmark, hdropped, hcount, hsources⟩ := Combiner.create_ok h
  refine ⟨hmark, hdropped, ?_, hsources⟩
  rw [← List.length_eq_zero_iff, Queue.length_entries, hcount]

/-- After a reset, as at the start, there is no mark. -/
theorem Relay.mark_atReset {r : Relay P} (hr : r.IsNew) (ops : List Operation) : (r.atReset ops).combiner.mark = none := by
  induction ops using List.reverseRecOn with
  | nil => exact hr.spec.1
  | append_singleton ops op ih =>
    rw [r.atReset_snoc, r.after_snoc]
    cases hreset : op.isReset with
    | true =>
      cases op <;> cases hreset
      rfl
    | false => exact ih

/-! ## What a step can do -/

namespace Step

/-- A message that makes no frame is not offered, and changes nothing. -/
theorem of_no_frame {r : Relay P} {id : Nat} {raw payload : Bytes} (h : r.combiner.frame? id raw payload = none) :
    (⟨r, .ingest id raw payload⟩ : Step P).offer? = none ∧
      (⟨r, .ingest id raw payload⟩ : Step P).next.combiner = r.combiner := by
  obtain ⟨⟨cause, hvalue⟩, hstate⟩ := Combiner.ingest_of_no_frame h
  constructor
  · simp only [offer?, Relay.apply, hvalue]
  · exact hstate

/-- The frame of a message is offered after its source has counted it. -/
theorem of_frame? {r : Relay P} {id : Nat} {raw payload : Bytes} {frame : Frame}
    (h : r.combiner.frame? id raw payload = some frame) :
    ∃ source header admission c, r.combiner.sources[id]? = some source ∧ Header.decode raw = .ok header ∧
      frame = (source.accept header payload).value ∧
      c = r.combiner.withSource id (source.accept header payload).state ∧
      c.sources[id]? = some (source.accept header payload).state ∧ (c.offer frame id).value = .ok admission ∧
      (⟨r, .ingest id raw payload⟩ : Step P).offer? = some ⟨id, frame, true, admission⟩ ∧
      (⟨r, .ingest id raw payload⟩ : Step P).next.combiner = (c.offer frame id).state := by
  obtain ⟨source, header, hsource, hdecode, hframe, hvalue, hstate⟩ := Combiner.ingest_of_frame? h
  have hself := Combiner.withSource_self (source.accept header payload).state hsource
  obtain ⟨admission, hadmission⟩ := Combiner.offer_ok frame hself
  refine ⟨source, header, admission, _, hsource, hdecode, hframe, rfl, hself, hadmission, ?_, hstate⟩
  rw [← hvalue] at hadmission
  simp only [offer?, Relay.apply, hadmission, h, Option.map_some]

/-- An offer that names no known source fails, and changes nothing. -/
theorem of_unknown {r : Relay P} {id : Nat} (frame : Frame) (h : r.combiner.sources[id]? = none) :
    (⟨r, .offer id frame⟩ : Step P).offer? = none ∧ (⟨r, .offer id frame⟩ : Step P).next.combiner = r.combiner := by
  have hunknown := Combiner.offer_unknown frame h
  constructor <;> simp only [offer?, next, Relay.apply, hunknown]

/-- An offer that names a known source does not fail. -/
theorem of_known {r : Relay P} {id : Nat} {source : Source} (frame : Frame)
    (h : r.combiner.sources[id]? = some source) :
    ∃ admission, (r.combiner.offer frame id).value = .ok admission ∧
      (⟨r, .offer id frame⟩ : Step P).offer? = some ⟨id, frame, false, admission⟩ := by
  obtain ⟨admission, hadmission⟩ := Combiner.offer_ok frame h
  refine ⟨admission, hadmission, ?_⟩
  simp only [offer?, Relay.apply, hadmission]

/-- A step offers a frame exactly if it is answered so. -/
theorem admission?_eq (s : Step P) : s.admission? = s.offer?.map Offer.admission := by
  obtain ⟨r, op⟩ := s
  cases op with
  | ingest id raw payload =>
    cases hframe : r.combiner.frame? id raw payload with
    | none =>
      obtain ⟨⟨cause, hvalue⟩, -⟩ := Combiner.ingest_of_no_frame hframe
      simp only [admission?, offer?, Relay.apply, hvalue, Option.map_none]
    | some frame =>
      cases hvalue : (r.combiner.ingest id raw payload).value <;>
        simp only [admission?, offer?, Relay.apply, hvalue, hframe, Option.map_some, Option.map_none]
  | offer id frame =>
    cases hvalue : (r.combiner.offer frame id).value <;>
      simp only [admission?, offer?, Relay.apply, hvalue, Option.map_some, Option.map_none]
  | drain => rfl
  | takeNext => rfl
  | reset => rfl
  | setCutoff cutoff =>
    cases hset : r.combiner.setCutoff cutoff <;> simp only [admission?, offer?, Relay.apply, hset, Option.map_none]
  | stats => rfl

/-- What a step can do to the queue, the mark and the number of frames given up. -/
inductive Move (s : Step P) : Prop
  /-- The step fails, only looks, moves the cutoff or finds nothing to take. -/
  | still (hoffer : s.offer? = none) (htaken : s.leaving? = none) (hreset : s.operation.isReset = false)
      (hqueue : s.next.combiner.queue = s.relay.combiner.queue)
      (hmark : s.next.combiner.mark = s.relay.combiner.mark)
      (hdropped : s.next.combiner.dropped = s.relay.combiner.dropped)
  /-- The step offers a frame at or below the mark. -/
  | stale (o : Offer) (hoffer : s.offer? = some o) (hstale : o.admission = .stale) (htaken : s.leaving? = none)
      (hreset : s.operation.isReset = false) (hlate : ∃ mark ∈ s.relay.combiner.mark, o.frame.key ≤ mark)
      (hqueue : s.next.combiner.queue = s.relay.combiner.queue)
      (hmark : s.next.combiner.mark = s.relay.combiner.mark)
      (hdropped : s.next.combiner.dropped = s.relay.combiner.dropped)
      (hsource : o.source < s.relay.combiner.sources.length)
  /-- The step offers a frame above the mark, for which at most one entry has to go. -/
  | pushed (o : Offer) (gone others : List Entry) (hoffer : s.offer? = some o) (hstale : o.admission.isStale = false)
      (htaken : s.leaving? = none) (hreset : s.operation.isReset = false)
      (hfresh : ∀ mark ∈ s.relay.combiner.mark, mark < o.frame.key)
      (hentries : s.relay.combiner.queue.entries = gone ++ others)
      (hnext : s.next.combiner.queue.entries.Perm (s.relay.combiner.queue.incoming o.frame :: others))
      (harrival : s.next.combiner.queue.nextArrival = s.relay.combiner.queue.nextArrival + 1)
      (hmark : s.next.combiner.mark = s.relay.combiner.mark)
      (hdropped : s.next.combiner.dropped = s.relay.combiner.dropped + gone.length)
      (hgone : s.evicted?.toList = gone.map Entry.frame)
      (hcount : o.admission.isEvicted.toNat = gone.length)
      (hsource : o.source < s.relay.combiner.sources.length)
  /-- The step takes the first entry. -/
  | taken (e : Entry) (hoffer : s.offer? = none) (htaken : s.leaving? = some e)
      (hreset : s.operation.isReset = false)
      (hentries : s.relay.combiner.queue.entries = e :: s.next.combiner.queue.entries)
      (harrival : s.next.combiner.queue.nextArrival = s.relay.combiner.queue.nextArrival)
      (hmark : s.next.combiner.mark = some e.key)
      (hdropped : s.next.combiner.dropped = s.relay.combiner.dropped)
  /-- The step forgets the mark and the counters. -/
  | reset (hoffer : s.offer? = none) (htaken : s.leaving? = none) (hreset : s.operation.isReset = true)
      (hqueue : s.next.combiner.queue = s.relay.combiner.queue) (hmark : s.next.combiner.mark = none)
      (hdropped : s.next.combiner.dropped = 0)

/-- A step that offers a frame to a combiner like its own, counters aside, drops the frame or pushes it. -/
theorem move_of_offer {s : Step P} {o : Offer} {c : Combiner} {source : Source}
    (hlength : c.sources.length = s.relay.combiner.sources.length) (hqueue : c.queue = s.relay.combiner.queue)
    (hmark : c.mark = s.relay.combiner.mark) (hdropped : c.dropped = s.relay.combiner.dropped)
    (hoffer : s.offer? = some o) (htaken : s.leaving? = none) (hreset : s.operation.isReset = false)
    (hsource : c.sources[o.source]? = some source) (hvalue : (c.offer o.frame o.source).value = .ok o.admission)
    (hstate : s.next.combiner = (c.offer o.frame o.source).state) : s.Move := by
  have hknown : o.source < s.relay.combiner.sources.length := hlength ▸ (List.getElem?_eq_some_iff.1 hsource).1
  cases hs : c.isStale o.frame.key with
  | true =>
    obtain ⟨hv, hst⟩ := Combiner.offer_stale hsource hs
    rw [hv] at hvalue
    rw [hst] at hstate
    obtain ⟨mark, hmem, hle⟩ := (c.isStale_iff _).1 hs
    refine .stale o hoffer (Except.ok.inj hvalue).symm htaken hreset ⟨mark, hmark ▸ hmem, hle⟩ ?_ ?_ ?_
      hknown <;> rw [hstate] <;> assumption
  | false =>
    obtain ⟨hv, hst⟩ := Combiner.offer_fresh hsource hs
    rw [hv] at hvalue
    rw [hst] at hstate
    have hadmission : (c.queue.push o.frame).1.admission = o.admission := Except.ok.inj hvalue
    have hfresh : ∀ mark ∈ s.relay.combiner.mark, mark < o.frame.key := by
      intro mark hmem
      refine not_le.1 fun hle => ?_
      rw [(c.isStale_iff _).2 ⟨mark, hmark ▸ hmem, hle⟩] at hs
      cases hs
    obtain ⟨gone, others, hentries, hperm, harrival, hgone⟩ := c.queue.push_cases o.frame
    have hstale : o.admission.isStale = false := by
      rw [← hadmission]
      exact PushOutcome.isStale_admission _
    have hevicted : s.evicted? = (c.queue.push o.frame).1.evicted? := by
      unfold evicted?
      rw [hoffer, ← hqueue, Option.bind_some, hstale]
      rfl
    rw [hqueue] at hentries
    refine .pushed o gone others hoffer hstale htaken hreset hfresh hentries ?_ ?_ ?_ ?_ ?_ ?_ hknown
    · rw [hstate, ← hqueue]
      exact hperm
    · rw [hstate, ← hqueue]
      exact harrival
    · rw [hstate]
      exact hmark
    · rw [hstate, ← hdropped]
      rcases hgone with ⟨rfl, hpush⟩ | ⟨first, rfl, hpush⟩ <;> simp only [hpush] <;> rfl
    · rw [hevicted]
      rcases hgone with ⟨rfl, hpush⟩ | ⟨first, rfl, hpush⟩ <;> rw [hpush] <;> rfl
    · rw [← hadmission]
      rcases hgone with ⟨rfl, hpush⟩ | ⟨first, rfl, hpush⟩ <;> rw [hpush] <;> rfl

/-- A step that takes what there is to take. -/
theorem move_of_take {s : Step P} (hoffer : s.offer? = none) (hreset : s.operation.isReset = false)
    (htaken : s.leaving? = s.relay.combiner.queue.entries.head?)
    (hnext : s.next.combiner = s.relay.combiner.takeNext.2) : s.Move := by
  rcases s.relay.combiner.takeNext_cases with ⟨htake, hentries⟩ | ⟨first, rest, htake, hentries, harrival⟩
  · rw [hentries] at htaken
    refine .still hoffer htaken hreset ?_ ?_ ?_ <;> rw [hnext, htake]
  · rw [hentries] at htaken
    refine .taken first hoffer htaken hreset ?_ ?_ ?_ ?_ <;> rw [hnext, htake]
    · exact hentries
    · exact harrival

/-- All that a step can do. -/
theorem move (s : Step P) : s.Move := by
  obtain ⟨r, op⟩ := s
  cases op with
  | ingest id raw payload =>
    cases hframe : r.combiner.frame? id raw payload with
    | none =>
      obtain ⟨hoffer, hnext⟩ := of_no_frame hframe
      refine .still hoffer rfl rfl ?_ ?_ ?_ <;> rw [hnext]
    | some frame =>
      obtain ⟨source, header, admission, c, -, -, -, hc, hself, hvalue, hoffer, hnext⟩ := of_frame? hframe
      refine move_of_offer (c := c) ?_ ?_ ?_ ?_ hoffer rfl rfl hself hvalue hnext <;> rw [hc]
      · exact List.length_set
      all_goals rfl
  | offer id frame =>
    cases hsource : r.combiner.sources[id]? with
    | none =>
      obtain ⟨hoffer, hnext⟩ := of_unknown frame hsource
      refine .still hoffer rfl rfl ?_ ?_ ?_ <;> rw [hnext]
    | some source =>
      obtain ⟨admission, hvalue, hoffer⟩ := of_known frame hsource
      exact move_of_offer rfl rfl rfl rfl hoffer rfl rfl hsource hvalue rfl
  | drain => exact move_of_take rfl rfl rfl r.combiner_drain
  | takeNext => exact move_of_take rfl rfl rfl rfl
  | reset => exact .reset rfl rfl rfl rfl rfl rfl
  | setCutoff cutoff =>
    cases hset : r.combiner.setCutoff cutoff with
    | error cause =>
      refine .still ?_ rfl rfl ?_ ?_ ?_ <;> simp only [offer?, next, Relay.apply, hset]
    | ok combiner =>
      obtain ⟨hqueue, hmark, hdropped, -⟩ := Combiner.setCutoff_ok hset
      refine .still ?_ rfl rfl ?_ ?_ ?_ <;> simp only [offer?, next, Relay.apply, hset, hqueue, hmark, hdropped]
  | stats => exact .still rfl rfl rfl rfl rfl rfl

/-! ## Where entries go and come from -/

/-- A step that takes an entry takes the first and moves the mark to its key. -/
theorem of_leaving? {s : Step P} {e : Entry} (h : s.leaving? = some e) :
    s.operation.isReset = false ∧ s.relay.combiner.queue.entries = e :: s.next.combiner.queue.entries ∧
      s.next.combiner.mark = some e.key := by
  cases s.move with
  | still _ hnone => rw [hnone] at h; cases h
  | stale _ _ _ hnone => rw [hnone] at h; cases h
  | pushed _ _ _ _ _ hnone => rw [hnone] at h; cases h
  | taken e' _ htaken hreset hentries _ hmark =>
    rw [htaken, Option.some.injEq] at h
    subst h
    exact ⟨hreset, hentries, hmark⟩
  | reset _ hnone => rw [hnone] at h; cases h

/-- A step that takes nothing leaves the mark, unless it resets. -/
theorem mark_next {s : Step P} (hreset : s.operation.isReset = false) (h : s.leaving? = none) :
    s.next.combiner.mark = s.relay.combiner.mark := by
  cases s.move with
  | still _ _ _ _ hmark => exact hmark
  | stale _ _ _ _ _ _ _ hmark => exact hmark
  | pushed _ _ _ _ _ _ _ _ _ _ _ hmark => exact hmark
  | taken _ _ htaken => rw [htaken] at h; cases h
  | reset _ _ hreset' => rw [hreset] at hreset'; cases hreset'

/-- An offer comes too late exactly if its frame is at or below the mark. -/
theorem isStale_iff_of_offer? {s : Step P} {o : Offer} (h : s.offer? = some o) :
    o.admission.isStale = true ↔ ∃ mark ∈ s.relay.combiner.mark, o.frame.key ≤ mark := by
  cases s.move with
  | still hnone => rw [hnone] at h; cases h
  | stale o' hoffer hstale _ _ hlate =>
    rw [hoffer, Option.some.injEq] at h
    subst h
    exact iff_of_true (Admission.isStale_iff.2 hstale) hlate
  | pushed o' _ _ hoffer hstale _ _ hfresh =>
    rw [hoffer, Option.some.injEq] at h
    subst h
    rw [hstale]
    refine iff_of_false (by simp) ?_
    rintro ⟨mark, hmem, hle⟩
    exact not_le.2 (hfresh mark hmem) hle
  | taken _ hnone => rw [hnone] at h; cases h
  | reset hnone => rw [hnone] at h; cases h

/-- An offer that does not fail is one of a known source. -/
theorem source_lt {s : Step P} {o : Offer} (h : s.offer? = some o) : o.source < s.relay.combiner.sources.length := by
  cases s.move with
  | still hnone => rw [hnone] at h; cases h
  | stale o' hoffer _ _ _ _ _ _ _ hsource =>
    rw [hoffer, Option.some.injEq] at h
    exact h ▸ hsource
  | pushed o' _ _ hoffer _ _ _ _ _ _ _ _ _ _ _ hsource =>
    rw [hoffer, Option.some.injEq] at h
    exact h ▸ hsource
  | taken _ hnone => rw [hnone] at h; cases h
  | reset hnone => rw [hnone] at h; cases h

/-- What is in the queue was there before, or the step has added it. -/
theorem mem_entries_next {s : Step P} {e : Entry} (h : e ∈ s.next.combiner.queue.entries) :
    e ∈ s.relay.combiner.queue.entries ∨ s.entered? = some e := by
  cases s.move with
  | still _ _ _ hqueue => exact Or.inl (hqueue ▸ h)
  | stale _ _ _ _ _ _ hqueue => exact Or.inl (hqueue ▸ h)
  | pushed o gone others hoffer hstale _ _ _ hentries hnext =>
    rcases List.mem_cons.1 (hnext.mem_iff.1 h) with rfl | hmem
    · exact Or.inr (by simp [entered?, hoffer, hstale])
    · rw [hentries]
      exact Or.inl (List.mem_append_right _ hmem)
  | taken first _ _ _ hentries =>
    rw [hentries]
    exact Or.inl (List.mem_cons_of_mem _ h)
  | reset _ _ _ hqueue => exact Or.inl (hqueue ▸ h)

/-- An entry is added by an offer that is not dropped. -/
theorem offer?_of_entered? {s : Step P} {e : Entry} (h : s.entered? = some e) :
    ∃ o, s.offer? = some o ∧ o.admission.isStale = false ∧ e = s.relay.combiner.queue.incoming o.frame := by
  unfold entered? at h
  obtain ⟨o, hoffer, ho⟩ := Option.bind_eq_some_iff.1 h
  cases hstale : o.admission.isStale with
  | true => simp [hstale] at ho
  | false =>
    simp only [hstale, Bool.false_eq_true, if_false, Option.some.injEq] at ho
    exact ⟨o, hoffer, hstale, ho.symm⟩

/-- An entry that is added is above the mark. -/
theorem lt_key_of_entered? {s : Step P} {e : Entry} (h : s.entered? = some e) :
    ∀ mark ∈ s.relay.combiner.mark, mark < e.key := by
  obtain ⟨o, hoffer, hstale, rfl⟩ := offer?_of_entered? h
  intro mark hmem
  refine not_le.1 fun hle => ?_
  rw [(isStale_iff_of_offer? hoffer).2 ⟨mark, hmem, hle⟩] at hstale
  cases hstale

end Step

/-- What is in the queue after a run was there at its start, or a step of the run has added it. -/
theorem Relay.mem_entries_after {r : Relay P} {ops : List Operation} {e : Entry}
    (h : e ∈ (r.after ops).combiner.queue.entries) :
    e ∈ r.combiner.queue.entries ∨ ∃ s ∈ r.steps ops, s.entered? = some e := by
  induction ops generalizing r with
  | nil => exact Or.inl h
  | cons op ops ih =>
    rcases ih h with hmem | ⟨s, hs, hentered⟩
    · rcases Step.mem_entries_next (s := ⟨r, op⟩) hmem with hbefore | hentered
      · exact Or.inl hbefore
      · exact Or.inr ⟨⟨r, op⟩, List.mem_cons_self, hentered⟩
    · exact Or.inr ⟨s, List.mem_cons_of_mem _ hs, hentered⟩

/-! ## A small relay -/

/-- A success is what it carries. -/
theorem eq_ok_get {ε α : Type} {x : Except ε α} (h : x.toOption.isSome = true) : x = .ok (x.toOption.get h) := by
  cases x with
  | error e => cases h
  | ok a => rfl

namespace Sample

/-- Room for two frames, and a warning once half the frames were dropped. -/
def settings : CombinerSettings := ⟨"tcp://127.0.0.1:5020", 2, Binary64.ofDecimal false 5 (-1)⟩

def sources : List SourceSpec := [⟨"node_1", ⟨"127.0.0.1", 5010⟩⟩, ⟨"node_2", ⟨"127.0.0.1", 5011⟩⟩]

theorem create_isSome : (Combiner.create settings sources).toOption.isSome = true := by decide +kernel

/-- A combiner of two sources that has seen nothing. -/
def combiner : Combiner := (Combiner.create settings sources).toOption.get create_isSome

/-- A relay that has done nothing yet. -/
def relay : Relay Recorder := ⟨combiner, .empty⟩

theorem create_eq : Combiner.create settings sources = .ok combiner := eq_ok_get create_isSome

theorem isNew : relay.IsNew := Relay.isNew_of_create _ create_eq

/-- A message that bears a frame number. -/
def message (n : Nat) : Bytes := ("\x7b\"frame_num\": " ++ toString n ++ "\x7d").toUTF8.data.toList

/-- A reset comes between the two frames of a run. -/
def history : List Operation := [.ingest 0 (message 5) [], .reset, .drain, .ingest 0 (message 0) []]

end Sample

end FrameMerge
