import FrameMerge.Combiner
import FrameMerge.Proofs.Entries
import Mathlib.Data.List.Forall2

/-!
# What offering a frame does

An offer that names a known source either drops the frame as late, and charges it to the source (`offer_stale`), or
pushes it (`offer_fresh`). Reading a message is counting its frame and then offering it (`ingest_of_frame?`). The source is
put back in any case; a message without a frame has left it as it was (`Source.ingest_of_error`), so nothing changes
(`ingest_of_no_frame`).
-/

namespace FrameMerge

/-- What a push is called when it is answered. -/
def PushOutcome.admission : PushOutcome → Admission
  | .queued => .queued
  | .evicted frame => .evicted frame.key

/-- The frame took the place of an older one. -/
def Admission.isEvicted : Admission → Bool
  | .evicted _ => true
  | _ => false

/-- The frame was dropped. -/
def Admission.isStale : Admission → Bool
  | .stale => true
  | _ => false

theorem Admission.isStale_iff {admission : Admission} : admission.isStale = true ↔ admission = .stale := by
  cases admission <;> simp [isStale]

namespace Source

/-- A source just set up has counted nothing. -/
theorem create_ok {name endpoint : String} {cutoff : Binary64} {s : Source} (h : create name endpoint cutoff = .ok s) :
    ∃ name endpoint monitor, s = ⟨name, endpoint, 0, 0, 0, 0, monitor⟩ := by
  unfold create at h
  cases hm : Monitor.create cutoff with
  | error e => rw [hm] at h; cases h
  | ok monitor =>
    rw [hm] at h
    cases h
    exact ⟨name, endpoint, monitor, rfl⟩

/-- A message that is no frame leaves the source as it was, and nothing is logged. -/
theorem ingest_of_error {s : Source} {raw payload : Bytes} {cause : SourceError}
    (h : (s.ingest raw payload).value = .error cause) :
    (s.ingest raw payload).state = s ∧ (s.ingest raw payload).events = [] := by
  unfold ingest at h ⊢
  cases hdecode : Header.decode raw with
  | error fault => exact ⟨rfl, rfl⟩
  | ok header =>
    rw [hdecode] at h
    cases h

end Source

/-- A frame that was pushed did not come too late. -/
theorem PushOutcome.isStale_admission (outcome : PushOutcome) : outcome.admission.isStale = false := by
  cases outcome <;> rfl

/-- What a list of results is made of, if none of them is a failure. -/
theorem forall₂_of_mapM {α β ε : Type} {f : α → Except ε β} {l : List α} {l' : List β} (h : l.mapM f = .ok l') :
    List.Forall₂ (fun a b => f a = .ok b) l l' := by
  induction l generalizing l' with
  | nil => cases h; exact .nil
  | cons a l ih =>
    rw [List.mapM_cons] at h
    cases ha : f a with
    | error e => rw [ha] at h; cases h
    | ok b =>
      rw [ha] at h
      cases hl : l.mapM f with
      | error e => rw [hl] at h; cases h
      | ok rest =>
        rw [hl] at h
        cases h
        exact .cons ha (ih hl)

/-- What is on the right of a relation along lists is related to something on the left. -/
theorem exists_of_forall₂ {α β : Type} {R : α → β → Prop} {l : List α} {l' : List β} (h : List.Forall₂ R l l') {b : β}
    (hb : b ∈ l') : ∃ a ∈ l, R a b := by
  induction h with
  | nil => cases hb
  | @cons a b' l l' hfirst _ ih =>
    rcases List.mem_cons.1 hb with rfl | hmem
    · exact ⟨a, List.mem_cons_self, hfirst⟩
    · obtain ⟨a', ha', hrel⟩ := ih hmem
      exact ⟨a', List.mem_cons_of_mem a ha', hrel⟩

namespace Combiner

/-- Puts a source in the place of another. -/
def withSource (c : Combiner) (id : Nat) (source : Source) : Combiner := { c with sources := c.sources.set id source }

/-- The frame that a message makes, if it is one of a known source. -/
def frame? (c : Combiner) (id : Nat) (raw payload : Bytes) : Option Frame :=
  c.sources[id]?.bind fun source => (source.ingest raw payload).value.toOption

/-- A source put in an occupied place is found there. -/
theorem withSource_self {c : Combiner} {id : Nat} {old : Source} (source : Source) (h : c.sources[id]? = some old) :
    (c.withSource id source).sources[id]? = some source := by
  have hlt : id < c.sources.length := (List.getElem?_eq_some_iff.1 h).1
  simp [withSource, hlt]

/-- The other places are as they were. -/
theorem withSource_other {c : Combiner} {id other : Nat} (source : Source) (h : id ≠ other) :
    (c.withSource id source).sources[other]? = c.sources[other]? := by
  simp [withSource, List.getElem?_set_ne h]

/-- To put a source back in its place changes nothing. -/
theorem withSource_eq_self {c : Combiner} {id : Nat} {source : Source} (h : c.sources[id]? = some source) :
    c.withSource id source = c := by
  obtain ⟨hlt, rfl⟩ := List.getElem?_eq_some_iff.1 h
  rw [withSource, List.set_getElem_self]

theorem isStale_iff (c : Combiner) (key : Key) : c.isStale key = true ↔ ∃ mark ∈ c.mark, key ≤ mark := by
  cases hm : c.mark <;> simp [isStale, hm]

/-- A frame of no known source is refused, whatever its key. -/
theorem offer_unknown {c : Combiner} (frame : Frame) {id : Nat} (h : c.sources[id]? = none) :
    c.offer frame id = ⟨.error (.unknownSource id), c, []⟩ := by
  unfold offer
  rw [h]

/-- A late frame is dropped and charged to its source; the queue and the mark stay. -/
theorem offer_stale {c : Combiner} {frame : Frame} {id : Nat} {source : Source} (h : c.sources[id]? = some source)
    (hlate : c.isStale frame.key = true) :
    (c.offer frame id).value = .ok .stale ∧ (c.offer frame id).state = c.withSource id source.recordDrop.state := by
  unfold offer
  rw [h]
  simp only [hlate, if_true, withSource, and_self]

/-- A frame that is not late is pushed; the sources and the mark stay. -/
theorem offer_fresh {c : Combiner} {frame : Frame} {id : Nat} {source : Source} (h : c.sources[id]? = some source)
    (hfresh : c.isStale frame.key = false) :
    (c.offer frame id).value = .ok (c.queue.push frame).1.admission ∧
      (c.offer frame id).state = { c with
        queue := (c.queue.push frame).2
        dropped := c.dropped + (c.queue.push frame).1.evicted?.toList.length } := by
  unfold offer
  rw [h]
  simp only [hfresh, Bool.false_eq_true, if_false]
  split <;> rename_i hpush <;> rw [hpush] <;> exact ⟨rfl, rfl⟩

/-- An offer that names a known source does not fail. -/
theorem offer_ok {c : Combiner} (frame : Frame) {id : Nat} {source : Source} (h : c.sources[id]? = some source) :
    ∃ admission, (c.offer frame id).value = .ok admission := by
  cases hs : c.isStale frame.key with
  | true => exact ⟨_, (offer_stale h hs).1⟩
  | false => exact ⟨_, (offer_fresh h hs).1⟩

/-- An offer that names a known source is answered "stale" exactly if its frame is at or below the mark. -/
theorem offer_value_eq_stale_iff {c : Combiner} (frame : Frame) {id : Nat} {source : Source}
    (h : c.sources[id]? = some source) : (c.offer frame id).value = .ok .stale ↔ c.isStale frame.key = true := by
  cases hs : c.isStale frame.key with
  | true => simp [(offer_stale h hs).1]
  | false =>
    rw [(offer_fresh h hs).1]
    cases (c.queue.push frame).1 <;> simp [PushOutcome.admission]

/-- A message that makes no frame is refused and changes nothing: its source is put back as it was. -/
theorem ingest_of_no_frame {c : Combiner} {id : Nat} {raw payload : Bytes} (h : c.frame? id raw payload = none) :
    (∃ cause, (c.ingest id raw payload).value = .error cause) ∧ (c.ingest id raw payload).state = c := by
  unfold ingest
  unfold frame? at h
  cases hs : c.sources[id]? with
  | none => exact ⟨⟨_, rfl⟩, rfl⟩
  | some source =>
    rw [hs, Option.bind_some] at h
    cases hv : (source.ingest raw payload).value with
    | error cause =>
      simp only [hv, (Source.ingest_of_error hv).1]
      exact ⟨⟨_, rfl⟩, withSource_eq_self hs⟩
    | ok frame => rw [hv] at h; cases h

/-- A message whose header can be read is counted by its source, and its frame is then offered. -/
theorem ingest_of_read {c : Combiner} {id : Nat} {source : Source} (hsource : c.sources[id]? = some source) {raw : Bytes}
    {header : Header} (hread : Header.decode raw = .ok header) (payload : Bytes) :
    (c.ingest id raw payload).value =
        ((c.withSource id (source.accept header payload).state).offer (source.accept header payload).value id).value ∧
      (c.ingest id raw payload).state =
        ((c.withSource id (source.accept header payload).state).offer (source.accept header payload).value id).state := by
  simp only [ingest, hsource, Source.ingest, hread]
  exact ⟨rfl, rfl⟩

/-- A message that makes a frame has it counted by its source, and then offers it. -/
theorem ingest_of_frame? {c : Combiner} {id : Nat} {raw payload : Bytes} {frame : Frame}
    (h : c.frame? id raw payload = some frame) :
    ∃ source header, c.sources[id]? = some source ∧ Header.decode raw = .ok header ∧
      frame = (source.accept header payload).value ∧
      (c.ingest id raw payload).value =
        ((c.withSource id (source.accept header payload).state).offer frame id).value ∧
      (c.ingest id raw payload).state =
        ((c.withSource id (source.accept header payload).state).offer frame id).state := by
  unfold frame? at h
  cases hs : c.sources[id]? with
  | none => rw [hs] at h; cases h
  | some source =>
    rw [hs, Option.bind_some] at h
    cases hd : Header.decode raw with
    | error cause => simp [Source.ingest, hd, Except.toOption] at h
    | ok header =>
      simp only [Source.ingest, hd, Except.toOption, Option.some.injEq] at h
      subst h
      exact ⟨source, header, rfl, rfl, rfl, ingest_of_read hs hd payload⟩

/-- Taking the next frame removes the first entry and moves the mark to its key. -/
theorem takeNext_cases (c : Combiner) :
    (c.takeNext = (none, c) ∧ c.queue.entries = []) ∨
      ∃ first rest, c.takeNext = (some first.frame, { c with queue := rest, mark := some first.key }) ∧
        c.queue.entries = first :: rest.entries ∧ rest.nextArrival = c.queue.nextArrival := by
  unfold takeNext
  rcases c.queue.pop?_cases with ⟨hpop, hentries⟩ | ⟨first, rest, hpop, hentries, harrival⟩
  · rw [hpop]
    exact Or.inl ⟨rfl, hentries⟩
  · rw [hpop]
    exact Or.inr ⟨first, rest, rfl, hentries, harrival⟩

/-- The frame taken next is that of the first entry. -/
theorem takeNext_fst (c : Combiner) : c.takeNext.1 = c.queue.entries.head?.map Entry.frame := by
  rcases c.takeNext_cases with ⟨htake, hentries⟩ | ⟨first, rest, htake, hentries, -⟩ <;> rw [htake, hentries] <;> rfl

/-- Taking the next frame does not touch the sources. -/
theorem sources_takeNext (c : Combiner) : c.takeNext.2.sources = c.sources := by
  rcases c.takeNext_cases with ⟨htake, -⟩ | ⟨first, rest, htake, -, -⟩ <;> rw [htake]

/-- The cutoff is moved exactly if it is a share and every source moves its own. -/
theorem setCutoff_eq_ok_iff {c c' : Combiner} {cutoff : Binary64} :
    c.setCutoff cutoff = .ok c' ↔
      checkCutoff cutoff = .ok () ∧
        ∃ sources, c.sources.mapM (Source.setCutoff · cutoff) = .ok sources ∧ c' = { c with sources, cutoff } := by
  unfold setCutoff
  cases checkCutoff cutoff with
  | error cause => simp [Except.bind]
  | ok u =>
    cases c.sources.mapM (Source.setCutoff · cutoff) with
    | error cause => simp [Except.bind, Except.map]
    | ok sources =>
      simp only [Except.bind, Except.map, Except.ok.injEq, true_and, exists_eq_left']
      exact eq_comm

/-- Moving the cutoff concerns the sources only, and not their counters. -/
theorem setCutoff_ok {c c' : Combiner} {cutoff : Binary64} (h : c.setCutoff cutoff = .ok c') :
    c'.queue = c.queue ∧ c'.mark = c.mark ∧ c'.dropped = c.dropped ∧
      c.sources.mapM (Source.setCutoff · cutoff) = .ok c'.sources := by
  obtain ⟨-, sources, hsources, rfl⟩ := setCutoff_eq_ok_iff.1 h
  exact ⟨rfl, rfl, rfl, hsources⟩

/-- A combiner can be set up exactly if the cutoff is a share, there is room for a frame and all sources can be set up. -/
theorem create_eq_ok_iff {settings : CombinerSettings} {specs : List SourceSpec} {c : Combiner} :
    create settings specs = .ok c ↔
      checkCutoff settings.cutoff = .ok () ∧ Queue.create settings.queueLength = .ok c.queue ∧
        (specs.mapM fun spec => Source.create spec.name spec.endpoint.text settings.cutoff) = .ok c.sources ∧
        c.mark = none ∧ c.dropped = 0 ∧ c.destination = settings.destination ∧ c.cutoff = settings.cutoff := by
  obtain ⟨sources, queue, mark, dropped, destination, cutoff⟩ := c
  unfold create
  cases checkCutoff settings.cutoff with
  | error cause => simp
  | ok u =>
    cases Queue.create settings.queueLength with
    | error cause => simp
    | ok fresh =>
      cases specs.mapM fun spec => Source.create spec.name spec.endpoint.text settings.cutoff with
      | error cause => simp
      | ok made =>
        simp only [Except.ok.injEq, mk.injEq, true_and]
        constructor
        · rintro ⟨rfl, rfl, rfl, rfl, rfl, rfl⟩
          exact ⟨rfl, rfl, rfl, rfl, rfl, rfl⟩
        · rintro ⟨rfl, rfl, rfl, rfl, rfl, rfl⟩
          exact ⟨rfl, rfl, rfl, rfl, rfl, rfl⟩

/-- A combiner just set up has taken nothing, holds nothing and has counted nothing. -/
theorem create_ok {settings : CombinerSettings} {specs : List SourceSpec} {c : Combiner}
    (h : create settings specs = .ok c) :
    c.mark = none ∧ c.dropped = 0 ∧ c.queue.count = 0 ∧
      ∀ source ∈ c.sources, ∃ name endpoint monitor, source = ⟨name, endpoint, 0, 0, 0, 0, monitor⟩ := by
  obtain ⟨-, hqueue, hsources, hmark, hdropped, -, -⟩ := create_eq_ok_iff.1 h
  refine ⟨hmark, hdropped, ?_, fun source hsource => ?_⟩
  · unfold Queue.create at hqueue
    split at hqueue
    · rw [← Except.ok.inj hqueue]
    · cases hqueue
  · obtain ⟨spec, -, hcreate⟩ := exists_of_forall₂ (forall₂_of_mapM hsources) hsource
    exact Source.create_ok hcreate

end Combiner

end FrameMerge
