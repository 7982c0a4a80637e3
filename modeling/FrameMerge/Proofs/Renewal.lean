import FrameMerge.Proofs.Likeness
import FrameMerge.Proofs.Sources

/-!
# What a reset is

A reset makes of a combiner what setting it up anew would, with the cutoff it has by then, except that the queue is kept.
No operation changes what a reset would make of a source, but for moving the cutoff (`Combiner.settled`), so the
combiner stays one that its specifications could have set up (`Renewable`). Offering the queued frames to the new
combiner in the order in which they leave makes the two alike.
-/

namespace FrameMerge

/-! ## What a reset makes of a source -/

namespace Source

/-- A source just set up bears the name and the endpoint it was given, and has nothing to forget. -/
theorem reset_of_create {name endpoint : String} {cutoff : Binary64} {s : Source}
    (h : create name endpoint cutoff = .ok s) : s.name = name ∧ s.endpoint = endpoint ∧ s.reset = s := by
  unfold create Monitor.create at h
  cases hcutoff : checkCutoff cutoff with
  | error cause =>
    rw [hcutoff] at h
    cases h
  | ok u =>
    rw [hcutoff] at h
    cases h
    exact ⟨rfl, rfl, rfl⟩

/-- A reset forgets a frame that was counted. -/
theorem reset_accept (s : Source) (header : Header) (payload : Bytes) :
    (s.accept header payload).state.reset = s.reset := by
  simp only [accept, reset, Monitor.rearm]
  split <;> rfl

/-- A reset forgets a frame that was dropped. -/
theorem reset_recordDrop (s : Source) : s.recordDrop.state.reset = s.reset := by
  simp only [recordDrop, Monitor.observe, reset, Monitor.rearm]
  split
  · rfl
  · split <;> rfl

/-- A second reset finds nothing to forget. -/
theorem reset_reset (s : Source) : s.reset.reset = s.reset := rfl

/-- A source whose cutoff is moved is, once reset, as one set up with that cutoff. -/
theorem create_of_setCutoff {s s' : Source} {cutoff : Binary64} (h : s.setCutoff cutoff = .ok s') :
    create s.name s.endpoint cutoff = .ok s'.reset := by
  unfold setCutoff Monitor.create at h
  unfold create Monitor.create
  cases hcutoff : checkCutoff cutoff with
  | error cause =>
    rw [hcutoff] at h
    cases h
  | ok u =>
    rw [hcutoff] at h
    cases h
    rfl

end Source

/-- Where no result is a failure, the results are a list. -/
theorem mapM_eq_ok {α β ε : Type} {f : α → Except ε β} {l : List α} {l' : List β}
    (h : List.Forall₂ (fun a b => f a = .ok b) l l') : l.mapM f = .ok l' := by
  induction h with
  | nil => rfl
  | cons hfirst _ ih =>
    rw [List.mapM_cons, hfirst, ih]
    rfl

/-- Relations along lists compose. -/
theorem forall₂_comp {α β γ : Type} {R : α → β → Prop} {S : β → γ → Prop} {T : α → γ → Prop}
    (h : ∀ a b c, R a b → S b c → T a c) {l : List α} {m : List β} {n : List γ} (hlm : List.Forall₂ R l m)
    (hmn : List.Forall₂ S m n) : List.Forall₂ T l n := by
  induction hlm generalizing n with
  | nil =>
    cases hmn
    exact .nil
  | cons hab _ ih =>
    cases hmn with
    | cons hbc hrest => exact .cons (h _ _ _ hab hbc) (ih hrest)

namespace Combiner

/-- What a combiner is set up with, had it its cutoff from the start. -/
def settings (c : Combiner) : CombinerSettings := ⟨c.destination, c.queue.capacity, c.cutoff⟩

/-- What only moving the cutoff changes: the settings, and what a reset makes of the sources. -/
def settled (c : Combiner) : CombinerSettings × List Source := (c.settings, c.sources.map Source.reset)

/-- A source put in the place of one that a reset does not tell from it changes nothing that is settled. -/
theorem settled_withSource {c : Combiner} {id : Nat} {old new : Source} (h : c.sources[id]? = some old)
    (hreset : new.reset = old.reset) : (c.withSource id new).settled = c.settled := by
  have hsources : (c.sources.set id new).map Source.reset = c.sources.map Source.reset := by
    refine List.ext_getElem? fun k => ?_
    rw [List.getElem?_map, List.getElem?_map]
    by_cases hk : id = k
    · subst hk
      rw [List.getElem?_set_self (List.getElem?_eq_some_iff.1 h).1, h, Option.map_some, Option.map_some, hreset]
    · rw [List.getElem?_set_ne hk]
  exact congrArg (Prod.mk c.settings) hsources

/-- Offering a frame settles nothing anew. -/
theorem settled_offer (c : Combiner) (frame : Frame) (id : Nat) : (c.offer frame id).state.settled = c.settled := by
  cases hsource : c.sources[id]? with
  | none => rw [offer_unknown frame hsource]
  | some source =>
    cases hlate : c.isStale frame.key with
    | true =>
      rw [(offer_stale hsource hlate).2]
      exact settled_withSource hsource source.reset_recordDrop
    | false =>
      rw [(offer_fresh hsource hlate).2]
      simp only [settled, settings, c.queue.capacity_push frame]

theorem settled_ingest (c : Combiner) (id : Nat) (raw payload : Bytes) :
    (c.ingest id raw payload).state.settled = c.settled := by
  cases hframe : c.frame? id raw payload with
  | none => rw [(ingest_of_no_frame hframe).2]
  | some frame =>
    obtain ⟨source, header, hsource, -, -, -, hstate⟩ := ingest_of_frame? hframe
    rw [hstate, settled_offer]
    exact settled_withSource hsource (source.reset_accept header payload)

theorem settled_takeNext (c : Combiner) : c.takeNext.2.settled = c.settled := by
  rcases c.takeNext_contents with ⟨-, htake⟩ | ⟨frame, queue, -, hcapacity, htake⟩
  · rw [htake]
  · rw [htake]
    simp only [settled, settings, hcapacity]

theorem settled_reset (c : Combiner) : c.reset.state.settled = c.settled := by
  have hsources : (c.sources.map Source.reset).map Source.reset = c.sources.map Source.reset := by
    rw [List.map_map]
    exact List.map_congr_left fun s _ => s.reset_reset
  exact congrArg (Prod.mk c.settings) hsources

/-- A combiner that was set up with these settings and specifications but for the cutoff, with sources that a reset makes
what setting them up with the cutoff of now would. -/
structure Renewable (settings : CombinerSettings) (specs : List SourceSpec) (c : Combiner) : Prop where
  settings : c.settings = { settings with cutoff := c.cutoff }
  cutoff : checkCutoff c.cutoff = .ok ()
  sources : List.Forall₂ (fun spec source => Source.create spec.name spec.endpoint.text c.cutoff = .ok source) specs
    (c.sources.map Source.reset)

namespace Renewable

variable {settings : CombinerSettings} {specs : List SourceSpec} {c : Combiner}

theorem of_create (h : create settings specs = .ok c) : Renewable settings specs c := by
  obtain ⟨hcutoff, hqueue, hsources, -, -, hdestination, hsame⟩ := create_eq_ok_iff.1 h
  have hmade := forall₂_of_mapM hsources
  refine ⟨?_, hsame ▸ hcutoff, ?_⟩
  · have hcapacity := congrArg Backlog.capacity (Queue.backlog_of_create hqueue)
    rw [Combiner.settings, hdestination, CombinerSettings.mk.injEq]
    exact ⟨rfl, hcapacity, rfl⟩
  · rw [hsame, List.forall₂_map_right_iff]
    refine hmade.imp fun spec source hcreate => ?_
    rw [(Source.reset_of_create hcreate).2.2]
    exact hcreate

/-- What leaves all settled leaves the combiner renewable. -/
theorem of_settled {c' : Combiner} (h : Renewable settings specs c) (hsettled : c'.settled = c.settled) :
    Renewable settings specs c' := by
  obtain ⟨hsettings, hsources⟩ := Prod.mk.inj hsettled
  have hcutoff : c'.cutoff = c.cutoff := congrArg CombinerSettings.cutoff hsettings
  refine ⟨?_, hcutoff ▸ h.cutoff, ?_⟩
  · rw [hsettings, h.settings, hcutoff]
  · rw [hsources, hcutoff]
    exact h.sources

/-- Moving the cutoff leaves it renewable, too: the sources could have been set up with the new one. -/
theorem setCutoff {c' : Combiner} {cutoff : Binary64} (h : Renewable settings specs c)
    (hset : c.setCutoff cutoff = .ok c') : Renewable settings specs c' := by
  obtain ⟨hchecked, sources, hmoved, rfl⟩ := setCutoff_eq_ok_iff.1 hset
  have hmade := List.forall₂_map_right_iff.1 h.sources
  refine ⟨congrArg (fun s : CombinerSettings => { s with cutoff }) h.settings, hchecked, ?_⟩
  show List.Forall₂ _ specs (sources.map Source.reset)
  rw [List.forall₂_map_right_iff]
  refine forall₂_comp (fun spec old new hcreate hmove => ?_) hmade (forall₂_of_mapM hmoved)
  obtain ⟨hname, hendpoint, -⟩ := Source.reset_of_create hcreate
  have hcreate' := Source.create_of_setCutoff hmove
  rwa [show old.name = spec.name from hname, show old.endpoint = spec.endpoint.text from hendpoint] at hcreate'

/-- Setting up anew gives the sources as a reset makes them, and an empty queue of the same capacity. -/
theorem create (h : Renewable settings specs c) :
    ∃ fresh, Combiner.create { settings with cutoff := c.cutoff } specs = .ok fresh ∧
      fresh.sources = c.sources.map Source.reset ∧ fresh.queue.backlog = Backlog.empty c.queue.capacity ∧
      fresh.mark = none ∧ fresh.dropped = 0 ∧ fresh.destination = c.destination ∧ fresh.cutoff = c.cutoff := by
  obtain ⟨queue, hqueue⟩ : ∃ queue, Queue.create c.queue.capacity = .ok queue := ⟨_, dif_pos c.queue.capacity_pos⟩
  rw [← h.settings]
  refine ⟨⟨c.sources.map Source.reset, queue, none, 0, c.destination, c.cutoff⟩, ?_, rfl,
    Queue.backlog_of_create hqueue, rfl, rfl, rfl, rfl⟩
  exact create_eq_ok_iff.2 ⟨h.cutoff, hqueue, mapM_eq_ok h.sources, rfl, rfl, rfl, rfl⟩

end Renewable

end Combiner

variable {P P' : Type} [Publisher P] [Publisher P']

/-- What is settled, only moving the cutoff changes. -/
theorem Step.settled_next {s : Step P} (h : ∀ cutoff, s.operation ≠ .setCutoff cutoff) :
    s.next.combiner.settled = s.relay.combiner.settled := by
  obtain ⟨r, op⟩ := s
  cases op with
  | ingest id raw payload => exact r.combiner.settled_ingest id raw payload
  | offer id frame => exact r.combiner.settled_offer frame id
  | drain =>
    show r.drain.2.combiner.settled = _
    rw [r.combiner_drain]
    exact r.combiner.settled_takeNext
  | takeNext => exact r.combiner.settled_takeNext
  | reset => exact r.combiner.settled_reset
  | setCutoff cutoff => exact absurd rfl (h cutoff)
  | stats => rfl

/-- No step takes from a combiner that it could be set up anew. -/
theorem Step.renewable_next {settings : CombinerSettings} {specs : List SourceSpec} {s : Step P}
    (h : s.relay.combiner.Renewable settings specs) : s.next.combiner.Renewable settings specs := by
  obtain ⟨r, op⟩ := s
  cases op with
  | setCutoff cutoff =>
    cases hset : r.combiner.setCutoff cutoff with
    | error cause => simpa only [next, Relay.apply, hset] using h
    | ok c => simpa only [next, Relay.apply, hset] using h.setCutoff hset
  | ingest | offer | drain | takeNext | reset | stats => exact h.of_settled (Step.settled_next (by simp))

/-- No step changes the capacity of the queue. -/
theorem Step.capacity_next (s : Step P) : s.next.combiner.queue.capacity = s.relay.combiner.queue.capacity := by
  by_cases h : ∀ cutoff, s.operation ≠ .setCutoff cutoff
  · exact congrArg (fun settled => settled.1.queueLength) (Step.settled_next h)
  · obtain ⟨r, op⟩ := s
    obtain ⟨cutoff, rfl⟩ := not_forall_not.1 h
    cases hset : r.combiner.setCutoff cutoff with
    | error cause => simp only [next, Relay.apply, hset]
    | ok c => simp only [next, Relay.apply, hset, (Combiner.setCutoff_ok hset).1]

/-- No run changes how much room there is. -/
theorem Relay.capacity_after (r : Relay P) (ops : List Operation) :
    (r.after ops).combiner.queue.capacity = r.combiner.queue.capacity := by
  induction ops generalizing r with
  | nil => rfl
  | cons op ops ih => exact (ih (r.apply op).state).trans (Step.capacity_next ⟨r, op⟩)

/-- A run leaves what a reset needs. -/
theorem Relay.renewable_after {settings : CombinerSettings} {specs : List SourceSpec} {r : Relay P}
    (h : r.combiner.Renewable settings specs) (ops : List Operation) :
    (r.after ops).combiner.Renewable settings specs := by
  induction ops generalizing r with
  | nil => exact h
  | cons op ops ih => exact ih (Step.renewable_next (s := ⟨r, op⟩) h)

/-! ## Filling a queue again -/

/-- The operations offer these frames in their order, each on behalf of one of so many sources. -/
def Refills (sources : Nat) (frames : List Frame) (ops : List Operation) : Prop :=
  List.Forall₂ (fun frame op => ∃ id < sources, op = .offer id frame) frames ops

/-- If there is a source, frames can be offered on behalf of it. -/
theorem Refills.exists {sources : Nat} {frames : List Frame} (h : frames ≠ [] → 0 < sources) :
    ∃ ops, Refills sources frames ops := by
  refine ⟨frames.map (.offer 0), ?_⟩
  rw [Refills, List.forall₂_map_right_iff, List.forall₂_same]
  intro frame hframe
  exact ⟨0, h (List.ne_nil_of_mem hframe), rfl⟩

/-- Without a mark, frames that are offered in order, and for which there is room, are all queued behind those that are
there. -/
theorem Relay.refill {r : Relay P} {sources : Nat} {frames : List Frame} {ops : List Operation}
    (h : Refills sources frames ops) (hsources : r.combiner.sources.length = sources) (hmark : r.combiner.mark = none)
    (hsorted : (r.combiner.queue.contents ++ frames).Pairwise fun f g => f.key ≤ g.key)
    (hroom : (r.combiner.queue.contents ++ frames).length ≤ r.combiner.queue.capacity) :
    (∃ queue, r.after ops = { r with combiner := { r.combiner with queue } } ∧
      queue.backlog = ⟨r.combiner.queue.capacity, r.combiner.queue.contents ++ frames⟩) ∧
      (r.steps ops).map Step.admission? = ops.map fun _ => some .queued := by
  induction h generalizing r with
  | nil => exact ⟨⟨r.combiner.queue, rfl, by rw [List.append_nil]; rfl⟩, rfl⟩
  | @cons frame op frames ops hoffer _ ih =>
    obtain ⟨id, hid, rfl⟩ := hoffer
    have hfresh : r.combiner.isStale frame.key = false := by rw [Combiner.isStale, hmark]; rfl
    obtain ⟨hvalue, hstate⟩ := Combiner.offer_fresh (List.getElem?_eq_getElem (hsources ▸ hid)) hfresh
    have hlt : r.combiner.queue.contents.length < r.combiner.queue.capacity := by
      rw [List.length_append, List.length_cons] at hroom
      omega
    obtain ⟨houtcome, hcontents⟩ := r.combiner.queue.push_of_room frame hlt
    have hlast : ∀ f ∈ r.combiner.queue.contents, f.key ≤ frame.key := fun f hf =>
      (List.pairwise_append.1 hsorted).2.2 f hf frame List.mem_cons_self
    rw [insertInOrder_of_le hlast] at hcontents
    have hcapacity := r.combiner.queue.capacity_push frame
    have hnext : (r.apply (.offer id frame)).state =
        { r with combiner := { r.combiner with queue := (r.combiner.queue.push frame).2 } } := by
      rw [Relay.apply, hstate, houtcome]
      rfl
    obtain ⟨⟨queue, hafter, hbacklog⟩, hanswers⟩ := ih (r := (r.apply (.offer id frame)).state)
      (by rw [hnext]; exact hsources) (by rw [hnext]; exact hmark)
      (by rw [hnext, hcontents, List.append_assoc]; exact hsorted)
      (by rw [hnext, hcontents, List.append_assoc, hcapacity]; exact hroom)
    refine ⟨⟨queue, ?_, ?_⟩, ?_⟩
    · rw [Relay.after_cons, hafter, hnext]
    · rw [hbacklog, hnext, hcontents, hcapacity, List.append_assoc]
      rfl
    · rw [Relay.steps, List.map_cons, hanswers, List.map_cons]
      have hanswer : (⟨r, .offer id frame⟩ : Step P).admission? = some .queued := by
        simp only [Step.admission?, Relay.apply, hvalue, houtcome, PushOutcome.admission]
      rw [hanswer]

/-- What is queued after a run from an empty queue was offered on behalf of a source. -/
theorem Relay.sources_of_contents {r : Relay P} (hempty : r.combiner.queue.entries = []) {ops : List Operation}
    (h : (r.after ops).combiner.queue.contents ≠ []) : 0 < r.combiner.sources.length := by
  obtain ⟨frame, hframe⟩ := List.exists_mem_of_ne_nil _ h
  obtain ⟨e, he, -⟩ := List.mem_map.1 hframe
  rcases Relay.mem_entries_after he with hstart | ⟨s, hs, hentered⟩
  · rw [hempty] at hstart
    cases hstart
  · obtain ⟨before, later, -, hrelay⟩ := Relay.mem_steps_iff.1 hs
    obtain ⟨o, hoffer, -, -⟩ := Step.offer?_of_entered? hentered
    have hlt := Step.source_lt hoffer
    rw [hrelay, Relay.length_sources_after] at hlt
    omega

/-! ## Main statement -/

/-- A combiner that is reset is one just set up, with what was queued put into it. Let a combiner be set up and go through
any run, and let another be set up with the cutoff that the first has by then and nothing else changed. Let the same
become of whatever is sent to their publishers.
1. The second can be set up.
2. The frames that the first has in its queue can be offered to the second, in the order in which they leave, and on
behalf of whichever sources they are offered, they are all queued.
3. After that, every run is answered by the second as by the first after a reset, the frames that drains take included.
4. If the first has nothing in its queue, then the second does so as it was set up. -/
theorem reset_renews (settings : CombinerSettings) (specs : List SourceSpec) (r : Relay P)
    (hr : Combiner.create settings specs = .ok r.combiner) (ops : List Operation) (publisher : P')
    (hout : Publisher.SameOutcomes (r.after ops).publisher publisher) :
    ∃ fresh, Combiner.create { settings with cutoff := (r.after ops).combiner.cutoff } specs = .ok fresh ∧
      (∃ refill, Refills specs.length (r.after ops).combiner.queue.contents refill) ∧
      (∀ refill, Refills specs.length (r.after ops).combiner.queue.contents refill →
        ((⟨fresh, publisher⟩ : Relay P').steps refill).map Step.admission? = (refill.map fun _ => some .queued) ∧
        ∀ run,
          ((r.after (ops ++ [.reset])).replay run).1 =
            (((⟨fresh, publisher⟩ : Relay P').after refill).replay run).1 ∧
          ((r.after (ops ++ [.reset])).steps run).map Step.answer =
            (((⟨fresh, publisher⟩ : Relay P').after refill).steps run).map Step.answer) ∧
      ((r.after ops).combiner.queue.contents = [] → ∀ run,
        ((r.after (ops ++ [.reset])).replay run).1 = ((⟨fresh, publisher⟩ : Relay P').replay run).1 ∧
          ((r.after (ops ++ [.reset])).steps run).map Step.answer =
            ((⟨fresh, publisher⟩ : Relay P').steps run).map Step.answer) := by
  have hrenewable := Relay.renewable_after (Combiner.Renewable.of_create hr) ops
  have hlength : (r.after ops).combiner.sources.length = specs.length := by
    rw [hrenewable.sources.length_eq, List.length_map]
  have hempty : r.combiner.queue.entries = [] := (Relay.isNew_of_create r.publisher hr).spec.2.2.1
  obtain ⟨fresh, hfresh, hsources, hbacklog, hmark, hdropped, hdestination, hcutoff⟩ := hrenewable.create
  have hcontents : fresh.queue.contents = [] := congrArg Backlog.frames hbacklog
  have hcapacity : fresh.queue.capacity = (r.after ops).combiner.queue.capacity := congrArg Backlog.capacity hbacklog
  -- refilled, the new combiner is like the old one once that is reset
  have hrefill : ∀ refill, Refills specs.length (r.after ops).combiner.queue.contents refill →
      ((⟨fresh, publisher⟩ : Relay P').steps refill).map Step.admission? = (refill.map fun _ => some .queued) ∧
        (r.after (ops ++ [.reset])).Alike ((⟨fresh, publisher⟩ : Relay P').after refill) := by
    intro refill hoffers
    obtain ⟨⟨queue, hafter, hqueue⟩, hanswers⟩ := Relay.refill (r := (⟨fresh, publisher⟩ : Relay P')) hoffers
      (by show fresh.sources.length = _; rw [hsources, List.length_map, hlength]) hmark
      (by
        show (fresh.queue.contents ++ _).Pairwise _
        rw [hcontents]
        exact (r.after ops).combiner.queue.contents_pairwise_key)
      (by
        show (fresh.queue.contents ++ _).length ≤ fresh.queue.capacity
        rw [hcontents, hcapacity]
        exact (r.after ops).combiner.queue.contents_length_le)
    refine ⟨hanswers, ?_⟩
    rw [hafter, r.after_snoc]
    refine ⟨⟨hsources.symm, ?_, hmark.symm, hdropped.symm, hdestination.symm, hcutoff.symm⟩, hout⟩
    show (r.after ops).combiner.queue.backlog = queue.backlog
    rw [hqueue]
    show _ = (⟨fresh.queue.capacity, fresh.queue.contents ++ _⟩ : Backlog)
    rw [hcontents, hcapacity]
    rfl
  refine ⟨fresh, hfresh, Refills.exists fun h => ?_, fun refill hoffers => ?_, fun hnone run => ?_⟩
  · have hpos := Relay.sources_of_contents hempty h
    rwa [← Relay.length_sources_after r ops, hlength] at hpos
  · obtain ⟨hanswers, halike⟩ := hrefill refill hoffers
    exact ⟨hanswers, halike.replay⟩
  · exact (hrefill [] (by rw [hnone]; exact .nil)).2.replay run

namespace Sample

/-- One frame is taken, another stays in the queue, and the cutoff is moved. -/
def busy : List Operation :=
  [.ingest 0 (message 5) [], .drain, .ingest 1 (message 7) [], .setCutoff (Binary64.ofDecimal false 25 (-2))]

end Sample

/-- Recorders that are to refuse as many frames do so whatever they have recorded. -/
theorem Recorder.sameOutcomes {recorder recorder' : Recorder} (h : recorder.failures = recorder'.failures) :
    Publisher.SameOutcomes recorder recorder' := by
  intro sent
  induction sent generalizing recorder recorder' with
  | nil => rfl
  | cons part rest ih =>
    obtain ⟨published, failures⟩ := recorder
    obtain ⟨published', failures'⟩ := recorder'
    obtain rfl : failures = failures' := h
    cases failures <;> exact congrArg (_ :: ·) (ih rfl)

/-- A frame is queued when the combiner is reset; it is offered to a new one, whose recorder starts afresh. -/
theorem reset_renews_sample :
    Combiner.create Sample.settings Sample.sources = .ok Sample.relay.combiner ∧
      Publisher.SameOutcomes (Sample.relay.after Sample.busy).publisher Recorder.empty ∧
      (Sample.relay.after Sample.busy).combiner.queue.peek? = some ⟨0, 7⟩ ∧
      ∃ fresh refill,
        Combiner.create { Sample.settings with cutoff := (Sample.relay.after Sample.busy).combiner.cutoff }
          Sample.sources = .ok fresh ∧
        Refills 2 (Sample.relay.after Sample.busy).combiner.queue.contents refill ∧
        ∀ run, ((Sample.relay.after (Sample.busy ++ [.reset])).replay run).1 =
          (((⟨fresh, .empty⟩ : Relay Recorder).after refill).replay run).1 := by
  have hcreate : Combiner.create Sample.settings Sample.sources = .ok Sample.relay.combiner := by
    simp only [Sample.relay, Sample.create_eq]
  have hout : Publisher.SameOutcomes (Sample.relay.after Sample.busy).publisher Recorder.empty :=
    Recorder.sameOutcomes (by decide +kernel)
  obtain ⟨fresh, hfresh, ⟨refill, hrefill⟩, hall, -⟩ :=
    reset_renews Sample.settings Sample.sources Sample.relay hcreate Sample.busy Recorder.empty hout
  exact ⟨hcreate, hout, by decide +kernel, fresh, refill, hfresh, hrefill, fun run =>
    ((hall refill hrefill).2 run).1⟩

end FrameMerge
