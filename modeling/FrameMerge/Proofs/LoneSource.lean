import FrameMerge.Proofs.Likeness
import FrameMerge.Proofs.Numbering
import Mathlib.Data.List.Chain

/-!
# One source

A combiner with one source is a plain buffer: first in, first out, and when it is full the oldest frame goes. The keys of
one source never decrease, through any number of restarts (`Fifo.InOrder`), so the order of keys is the order of arrival,
and the one frame that can come too late is one with the key of the frame taken last. `Fifo` is such a buffer, in which
nothing is sorted; it and the combiner stay the same over every run (`Fifo.Mirrors`).
-/

namespace FrameMerge

/-- The operation offers a frame that was not read from a message. -/
def Operation.isOffer : Operation → Bool
  | .offer _ _ => true
  | _ => false

/-- A buffer for the frames of one producer, oldest first. -/
structure Fifo where
  capacity : Nat
  frames : List Frame
  /-- The key of the frame that left last. -/
  last : Option Key
  /-- The frame numbers sent so far. -/
  numbers : List Nat

namespace Fifo

/-- Nothing was sent. -/
def empty (capacity : Nat) : Fifo := ⟨capacity, [], none, []⟩

/-- The frame of the next message. The numbers sent so far tell its acquisition. -/
def incoming (f : Fifo) (header : Header) (payload : Bytes) : Frame :=
  ⟨⟨descents (f.numbers ++ [header.frameNumber]), header.frameNumber⟩, header, payload⟩

/-- Appends a frame; a full buffer discards its front before. -/
def append (f : Fifo) (frame : Frame) : Admission × Fifo :=
  if f.frames.length < f.capacity then (.queued, { f with frames := f.frames ++ [frame] })
  else (f.frames.head?.elim .queued fun front => .evicted front.key, { f with frames := f.frames.tail ++ [frame] })

/-- Notes the number of a message. -/
def count (f : Fifo) (header : Header) : Fifo := { f with numbers := f.numbers ++ [header.frameNumber] }

/-- Takes a message in. Its frame is dropped if its key is that of the frame that left last, and appended otherwise. -/
def accept (f : Fifo) (header : Header) (payload : Bytes) : Admission × Fifo :=
  if f.last = some (f.incoming header payload).key then (.stale, f.count header)
  else (f.count header).append (f.incoming header payload)

/-- Removes the front. -/
def remove (f : Fifo) : Option Frame × Fifo :=
  (f.frames.head?, { f with frames := f.frames.tail, last := (f.frames.head?.map Frame.key).or f.last })

/-- What a buffer makes of an operation: its answer to a message, and the frame that leaves. Only messages of the first
source are for it, and of these only those whose headers can be read. -/
def apply (f : Fifo) : Operation → (Option Admission × Option Frame) × Fifo
  | .ingest 0 raw payload =>
    match Header.decode raw with
    | .error _ => ((none, none), f)
    | .ok header => ((some (f.accept header payload).1, none), (f.accept header payload).2)
  | .drain | .takeNext => ((none, f.remove.1), f.remove.2)
  | _ => ((none, none), f)

/-- What is seen of a run. -/
def shown (f : Fifo) : List Operation → List (Option Admission × Option Frame)
  | [] => []
  | op :: ops => (f.apply op).1 :: (f.apply op).2.shown ops

/-- What a run leaves. -/
def after (f : Fifo) (ops : List Operation) : Fifo := ops.foldl (fun f op => (f.apply op).2) f

/-! ## The numbers -/

theorem numbers_append (f : Fifo) (frame : Frame) : (f.append frame).2.numbers = f.numbers := by
  rw [append]
  split <;> rfl

theorem numbers_accept (f : Fifo) (header : Header) (payload : Bytes) :
    (f.accept header payload).2.numbers = f.numbers ++ [header.frameNumber] := by
  rw [accept]
  split
  · rfl
  · exact (f.count header).numbers_append _

/-- An operation adds the number that it brings, if it brings one. -/
theorem numbers_apply (f : Fifo) (op : Operation) : (f.apply op).2.numbers = f.numbers ++ (op.number? 0).toList := by
  cases op with
  | ingest id raw payload =>
    cases id with
    | zero =>
      rw [apply, Operation.number?, if_pos rfl]
      cases Header.decode raw with
      | error cause => exact (List.append_nil _).symm
      | ok header => exact f.numbers_accept header payload
    | succ id => simp [apply, Operation.number?]
  | _ => simp [apply, Operation.number?, remove]

theorem numbers_after (f : Fifo) (ops : List Operation) : (f.after ops).numbers = f.numbers ++ numbersSent 0 ops := by
  induction ops using List.reverseRecOn with
  | nil => simp [after, numbersSent]
  | append_singleton ops op ih =>
    rw [after, List.foldl_append, numbersSent_snoc, ← List.append_assoc, ← ih]
    exact (f.after ops).numbers_apply op

/-! ## The order -/

/-- The key of the message sent last. -/
def current (f : Fifo) : Key := ⟨descents f.numbers, f.numbers.getLastD 0⟩

/-- The numbers sent so far have come as far as the key. -/
def Reached (f : Fifo) (key : Key) : Prop := f.numbers ≠ [] ∧ key ≤ f.current

variable {f : Fifo}

/-- The next message has the key that its number reaches. -/
theorem current_count (f : Fifo) (header : Header) (payload : Bytes) :
    (f.count header).current = (f.incoming header payload).key := by
  rw [current, count, List.getLastD_concat]
  rfl

theorem reached_incoming (f : Fifo) (header : Header) (payload : Bytes) :
    (f.count header).Reached (f.incoming header payload).key :=
  ⟨by simp [count], (f.current_count header payload).ge⟩

/-- The next message does not fall behind. -/
theorem Reached.le_incoming {key : Key} (h : f.Reached key) (header : Header) (payload : Bytes) :
    key ≤ (f.incoming header payload).key :=
  h.2.trans (key_le_snoc f.numbers header.frameNumber)

theorem Reached.count {key : Key} (h : f.Reached key) (header : Header) : (f.count header).Reached key := by
  refine ⟨by simp [Fifo.count], ?_⟩
  rw [f.current_count header []]
  exact h.le_incoming header []

/-- Whatever is in the buffer, or has left it last, was sent before. -/
structure InOrder (f : Fifo) : Prop where
  frames : ∀ frame ∈ f.frames, f.Reached frame.key
  last : ∀ key ∈ f.last, f.Reached key

namespace InOrder

theorem empty (capacity : Nat) : (Fifo.empty capacity).InOrder := ⟨by simp [Fifo.empty], by simp [Fifo.empty]⟩

theorem count (h : f.InOrder) (header : Header) : (f.count header).InOrder where
  frames frame hframe := (h.frames frame hframe).count header
  last key hkey := (h.last key hkey).count header

theorem append (h : f.InOrder) {frame : Frame} (hframe : f.Reached frame.key) : (f.append frame).2.InOrder := by
  have hinto : ∀ rest ⊆ f.frames, ∀ g ∈ rest ++ [frame], f.Reached g.key := by
    intro rest hrest g hg
    rcases List.mem_append.1 hg with hg | hg
    · exact h.frames g (hrest hg)
    · rw [List.mem_singleton.1 hg]
      exact hframe
  rw [Fifo.append]
  split
  · exact ⟨hinto f.frames (List.Subset.refl _), h.last⟩
  · exact ⟨hinto f.frames.tail fun _ => List.mem_of_mem_tail, h.last⟩

theorem remove (h : f.InOrder) : f.remove.2.InOrder := by
  refine ⟨fun frame hframe => h.frames frame (List.mem_of_mem_tail hframe), fun key hkey => ?_⟩
  cases hfront : f.frames.head? with
  | none =>
    rw [Fifo.remove, hfront] at hkey
    exact h.last key hkey
  | some front =>
    rw [Fifo.remove, hfront] at hkey
    cases hkey
    exact h.frames front (List.mem_of_mem_head? hfront)

/-- A message with the key of the frame that left last has the number of the message before it. -/
theorem getLast?_numbers (h : f.InOrder) {header : Header} {payload : Bytes}
    (hlast : f.last = some (f.incoming header payload).key) : f.numbers.getLast? = some header.frameNumber := by
  obtain ⟨hsent, hle⟩ := h.last _ hlast
  have hkey : f.current = (f.incoming header payload).key :=
    le_antisymm (key_le_snoc f.numbers header.frameNumber) hle
  have hnumber : f.numbers.getLastD 0 = header.frameNumber := congrArg Key.frame hkey
  rw [List.getLastD_eq_getLast?, List.getLast?_eq_some_getLast hsent, Option.getD_some] at hnumber
  rw [List.getLast?_eq_some_getLast hsent, hnumber]

end InOrder

/-! ## A buffer and a combiner -/

/-- The buffer holds what the combiner has in its queue, its last key is the mark, and the one source is numbered by the
numbers sent. -/
structure Mirrors (f : Fifo) (c : Combiner) : Prop where
  inOrder : f.InOrder
  capacity : c.queue.capacity = f.capacity
  frames : c.queue.contents = f.frames
  mark : c.mark = f.last
  source : ∃ source read, c.sources = [source] ∧ Numbering f.numbers read source

namespace Mirrors

variable {c : Combiner}

/-- A combiner just set up is an empty buffer. -/
theorem of_create {settings : CombinerSettings} {spec : SourceSpec} (h : Combiner.create settings [spec] = .ok c) :
    (Fifo.empty settings.queueLength).Mirrors c := by
  obtain ⟨-, hqueue, hsources, hmark, -, -, -⟩ := Combiner.create_eq_ok_iff.1 h
  have hbacklog := Queue.backlog_of_create hqueue
  refine ⟨.empty _, congrArg Backlog.capacity hbacklog, congrArg Backlog.frames hbacklog, hmark, ?_⟩
  cases hall : c.sources with
  | nil => rw [hall] at hsources; cases forall₂_of_mapM hsources
  | cons source others =>
    rw [hall] at hsources
    cases forall₂_of_mapM hsources with
    | cons hsource hnone =>
      cases hnone
      obtain ⟨name, endpoint, monitor, rfl⟩ := Source.create_ok hsource
      exact ⟨_, [], rfl, rfl, rfl, rfl, rfl⟩

/-- A frame that none in the buffer exceeds is pushed as it is appended. -/
theorem append (h : f.Mirrors c) {frame : Frame} (hframe : f.Reached frame.key)
    (hbehind : ∀ g ∈ f.frames, g.key ≤ frame.key) (dropped : Nat) :
    (c.queue.push frame).1.admission = (f.append frame).1 ∧
      (f.append frame).2.Mirrors { c with queue := (c.queue.push frame).2, dropped } := by
  have hinOrder := h.inOrder.append hframe
  have hcapacity := (c.queue.capacity_push frame).trans h.capacity
  by_cases room : f.frames.length < f.capacity
  · have room' : c.queue.contents.length < c.queue.capacity := by rwa [h.frames, h.capacity]
    obtain ⟨houtcome, hcontents⟩ := c.queue.push_of_room frame room'
    rw [h.frames, insertInOrder_of_le hbehind] at hcontents
    have happend : f.append frame = (.queued, { f with frames := f.frames ++ [frame] }) := if_pos room
    rw [happend] at hinOrder ⊢
    exact ⟨congrArg PushOutcome.admission houtcome, hinOrder, hcapacity, hcontents, h.mark, h.source⟩
  · have full : c.queue.capacity ≤ c.queue.contents.length := by
      rw [h.frames, h.capacity]
      exact Nat.not_lt.1 room
    obtain ⟨front, rest, hqueue⟩ := List.exists_cons_of_length_pos (Nat.lt_of_lt_of_le c.queue.capacity_pos full)
    obtain ⟨houtcome, hcontents⟩ := @Queue.push_of_full c.queue frame front rest hqueue full
    have hframes : f.frames = front :: rest := h.frames.symm.trans hqueue
    rw [insertInOrder_of_le fun g hg => hbehind g (hframes ▸ List.mem_cons_of_mem _ hg)] at hcontents
    have happend : f.append frame = (.evicted front.key, { f with frames := rest ++ [frame] }) := by
      rw [Fifo.append, if_neg room, hframes]
      rfl
    rw [happend] at hinOrder ⊢
    exact ⟨congrArg PushOutcome.admission houtcome, hinOrder, hcapacity, hcontents, h.mark, h.source⟩

/-- The mark is not above the key of the next message, so this key comes too late only if it is the mark. -/
theorem isStale_iff (h : f.Mirrors c) (header : Header) (payload : Bytes) :
    c.isStale (f.incoming header payload).key = true ↔ f.last = some (f.incoming header payload).key := by
  rw [Combiner.isStale_iff, h.mark]
  constructor
  · rintro ⟨mark, hmark, hle⟩
    rw [le_antisymm hle ((h.inOrder.last mark hmark).le_incoming header payload)]
    exact hmark
  · intro hlast
    exact ⟨_, hlast, le_refl _⟩

/-- A message of the source is answered as the buffer takes it in. -/
theorem accept (h : f.Mirrors c) {source : Source} {read : List Frame} (hsource : c.sources = [source])
    (hnumbering : Numbering f.numbers read source) (header : Header) (payload : Bytes) :
    ((c.withSource 0 (source.accept header payload).state).offer (source.accept header payload).value 0).value =
        .ok (f.accept header payload).1 ∧
      (f.accept header payload).2.Mirrors
        ((c.withSource 0 (source.accept header payload).state).offer (source.accept header payload).value 0).state := by
  obtain ⟨accepted, haccepted⟩ : ∃ accepted, accepted = (source.accept header payload).state := ⟨_, rfl⟩
  have hnext := hnumbering.accept header payload
  have hframe : (source.accept header payload).value = f.incoming header payload := by
    rw [Fifo.incoming, ← hnext.acquisition]
    rfl
  rw [hframe, ← haccepted] at hnext ⊢
  have hcounted : (f.count header).Mirrors (c.withSource 0 accepted) :=
    ⟨h.inOrder.count header, h.capacity, h.frames, h.mark, accepted, _, by rw [Combiner.withSource, hsource]; rfl, hnext⟩
  have hself : (c.withSource 0 accepted).sources[0]? = some accepted := by rw [Combiner.withSource, hsource]; rfl
  have hlate : (c.withSource 0 accepted).isStale (f.incoming header payload).key = true ↔
      f.last = some (f.incoming header payload).key := h.isStale_iff header payload
  by_cases hlast : f.last = some (f.incoming header payload).key
  · obtain ⟨hvalue, hstate⟩ := Combiner.offer_stale hself (hlate.2 hlast)
    rw [hvalue, hstate, Fifo.accept, if_pos hlast]
    refine ⟨rfl, hcounted.inOrder, h.capacity, h.frames, h.mark, _, _, ?_, hnext.charge .stale⟩
    rw [Combiner.withSource, Combiner.withSource, hsource]
    rfl
  · have hfresh : (c.withSource 0 accepted).isStale (f.incoming header payload).key = false := by
      rw [← Bool.not_eq_true, hlate]
      exact hlast
    obtain ⟨hvalue, hstate⟩ := Combiner.offer_fresh hself hfresh
    rw [hvalue, hstate, Fifo.accept, if_neg hlast]
    obtain ⟨hadmission, hmirrors⟩ := hcounted.append (f.reached_incoming header payload)
      (fun g hg => (h.inOrder.frames g hg).le_incoming header payload) _
    exact ⟨congrArg Except.ok hadmission, hmirrors⟩

/-- What is taken is the front. -/
theorem remove (h : f.Mirrors c) : c.takeNext.1 = f.remove.1 ∧ f.remove.2.Mirrors c.takeNext.2 := by
  have hinOrder := h.inOrder.remove
  rcases c.takeNext_contents with ⟨hcontents, htake⟩ | ⟨frame, queue, hcontents, hcapacity, htake⟩
  · have hframes : f.frames = [] := h.frames.symm.trans hcontents
    rw [Fifo.remove, hframes] at hinOrder ⊢
    rw [htake]
    exact ⟨rfl, hinOrder, h.capacity, hcontents, h.mark, h.source⟩
  · have hframes : f.frames = frame :: queue.contents := h.frames.symm.trans hcontents
    rw [Fifo.remove, hframes] at hinOrder ⊢
    rw [htake]
    exact ⟨rfl, hinOrder, hcapacity.trans h.capacity, rfl, rfl, h.source⟩

/-- What makes no frame is a message of another source or one whose header cannot be read, and the buffer skips both. -/
theorem apply_of_no_frame (h : f.Mirrors c) {id : Nat} {raw payload : Bytes} (hframe : c.frame? id raw payload = none) :
    f.apply (.ingest id raw payload) = ((none, none), f) := by
  cases id with
  | zero =>
    obtain ⟨source, read, hsource, -⟩ := h.source
    have hself : c.sources[0]? = some source := by rw [hsource]; rfl
    rw [Combiner.frame?_eq hself, Option.map_eq_none_iff] at hframe
    rw [apply]
    cases hdecode : Header.decode raw with
    | error cause => rfl
    | ok header => rw [hdecode] at hframe; cases hframe
  | succ id => rfl

/-- A message that makes a frame is one of the source, and is answered as the buffer takes it in. -/
theorem apply_of_frame? (h : f.Mirrors c) {id : Nat} {raw payload : Bytes} {frame : Frame}
    (hframe : c.frame? id raw payload = some frame) :
    ∃ admission, (c.ingest id raw payload).value = .ok admission ∧
      (f.apply (.ingest id raw payload)).1 = (some admission, none) ∧
      (f.apply (.ingest id raw payload)).2.Mirrors (c.ingest id raw payload).state := by
  obtain ⟨source, read, hsource, hnumbering⟩ := h.source
  obtain ⟨sender, header, hsender, hdecode, rfl, hvalue, hstate⟩ := Combiner.ingest_of_frame? hframe
  rw [hsource, List.getElem?_singleton] at hsender
  split at hsender
  · subst id
    obtain rfl : source = sender := Option.some.inj hsender
    obtain ⟨hadmission, hmirrors⟩ := h.accept hsource hnumbering header payload
    rw [← hvalue] at hadmission
    rw [← hstate] at hmirrors
    have happly : f.apply (.ingest 0 raw payload) =
        ((some (f.accept header payload).1, none), (f.accept header payload).2) := by
      rw [apply, hdecode]
    rw [happly]
    exact ⟨_, hadmission, rfl, hmirrors⟩
  · cases hsender

/-- The buffer knows nothing of the cutoff, and the numbering does not depend on it. -/
theorem setCutoff (h : f.Mirrors c) {cutoff : Binary64} {moved : Combiner} (hset : c.setCutoff cutoff = .ok moved) :
    f.Mirrors moved := by
  obtain ⟨source, read, hsource, hnumbering⟩ := h.source
  obtain ⟨-, sources, hsources, rfl⟩ := Combiner.setCutoff_eq_ok_iff.1 hset
  rw [hsource] at hsources
  cases forall₂_of_mapM hsources with
  | cons hmoved hnone =>
    cases hnone
    exact ⟨h.inOrder, h.capacity, h.frames, h.mark, _, read, rfl, hnumbering.setCutoff hmoved⟩

variable {P : Type} [Publisher P]

/-- A step that neither resets nor offers is answered as the buffer answers it, and the two stay the same. -/
theorem step {s : Step P} (h : f.Mirrors s.relay.combiner) (hreset : s.operation.isReset = false)
    (hoffer : s.operation.isOffer = false) :
    (s.admission?, s.taken?) = (f.apply s.operation).1 ∧ (f.apply s.operation).2.Mirrors s.next.combiner := by
  obtain ⟨r, op⟩ := s
  cases op with
  | ingest id raw payload =>
    cases hframe : r.combiner.frame? id raw payload with
    | none =>
      obtain ⟨hnone, hnext⟩ := Step.of_no_frame hframe
      rw [h.apply_of_no_frame hframe, Step.admission?_eq, hnone, hnext]
      exact ⟨rfl, h⟩
    | some frame =>
      obtain ⟨admission, hvalue, hshown, hmirrors⟩ := h.apply_of_frame? hframe
      refine ⟨?_, hmirrors⟩
      simp only [Step.admission?, Relay.apply, hvalue, hshown]
      rfl
  | offer id frame => cases hoffer
  | drain =>
    obtain ⟨hfront, hmirrors⟩ := h.remove
    refine ⟨congrArg (Prod.mk none) hfront, ?_⟩
    show f.remove.2.Mirrors r.drain.2.combiner
    rw [r.combiner_drain]
    exact hmirrors
  | takeNext =>
    obtain ⟨hfront, hmirrors⟩ := h.remove
    exact ⟨congrArg (Prod.mk none) hfront, hmirrors⟩
  | reset => cases hreset
  | setCutoff cutoff =>
    cases hset : r.combiner.setCutoff cutoff with
    | error cause =>
      simp only [Step.admission?, Step.next, Relay.apply, hset]
      exact ⟨rfl, h⟩
    | ok moved =>
      simp only [Step.admission?, Step.next, Relay.apply, hset]
      exact ⟨rfl, h.setCutoff hset⟩
  | stats => exact ⟨rfl, h⟩

/-- A run of such steps is answered as the buffer answers it, and the two stay the same. -/
theorem run {r : Relay P} (h : f.Mirrors r.combiner) {ops : List Operation}
    (hops : ∀ op ∈ ops, op.isReset = false ∧ op.isOffer = false) :
    (r.steps ops).map (fun s => (s.admission?, s.taken?)) = f.shown ops ∧
      (f.after ops).Mirrors (r.after ops).combiner := by
  induction ops generalizing f r with
  | nil => exact ⟨rfl, h⟩
  | cons op ops ih =>
    obtain ⟨hreset, hoffer⟩ := hops op List.mem_cons_self
    obtain ⟨hshown, hnext⟩ := h.step (s := ⟨r, op⟩) hreset hoffer
    obtain ⟨hrest, hafter⟩ := ih hnext fun op' hmem => hops op' (List.mem_cons_of_mem _ hmem)
    exact ⟨congrArg₂ List.cons hshown hrest, hafter⟩

end Mirrors

/-- Only a message is answered, and "stale" only if its key is that of the frame that left last. -/
theorem last_of_stale {op : Operation} (h : (f.apply op).1.1 = some .stale) :
    ∃ header payload, op.number? 0 = some header.frameNumber ∧ f.last = some (f.incoming header payload).key := by
  cases op with
  | ingest id raw payload =>
    cases id with
    | zero =>
      rw [apply] at h
      cases hdecode : Header.decode raw with
      | error cause => rw [hdecode] at h; cases h
      | ok header =>
        rw [hdecode, Option.some.injEq] at h
        refine ⟨header, payload, by rw [Operation.number?, if_pos rfl, hdecode]; rfl, ?_⟩
        by_contra hlast
        rw [accept, if_neg hlast, append] at h
        split at h
        · cases h
        · cases hframes : (f.count header).frames <;> rw [hframes] at h <;> cases h
    | succ id => cases h
  | _ => cases h

end Fifo

variable {P : Type} [Publisher P]

/-- From a new combiner with one source, a message comes too late only if its frame number is that of the message before
it. -/
theorem repeated_of_stale {settings : CombinerSettings} {spec : SourceSpec} {r : Relay P}
    (hr : Combiner.create settings [spec] = .ok r.combiner) {before : List Operation} {op : Operation}
    (hops : ∀ op' ∈ before ++ [op], op'.isReset = false ∧ op'.isOffer = false)
    (h : (⟨r.after before, op⟩ : Step P).admission? = some .stale) :
    ∃ n, op.number? 0 = some n ∧ (numbersSent 0 before).getLast? = some n := by
  obtain ⟨-, hafter⟩ := (Fifo.Mirrors.of_create hr).run fun op' hmem => hops op' (List.mem_append_left _ hmem)
  obtain ⟨hreset, hoffer⟩ := hops op (by simp)
  obtain ⟨hanswer, -⟩ := hafter.step (s := ⟨r.after before, op⟩) hreset hoffer
  obtain ⟨header, payload, hnumber, hlast⟩ := Fifo.last_of_stale ((congrArg Prod.fst hanswer).symm.trans h)
  have hprevious := hafter.inOrder.getLast?_numbers hlast
  rw [Fifo.numbers_after] at hprevious
  exact ⟨_, hnumber, hprevious⟩

/-- A combiner with one source is a plain buffer that is first in, first out and, when it is full, gives up its oldest
frame. Let it be set up with one source and go through any run without a reset in which all frames are read from messages.
1. Every message is answered as the buffer answers it, and every frame taken is the one that leaves the buffer.
2. A message is answered "stale" only if its frame number is that of the message accepted before it.
3. If no two neighbouring frame numbers sent are the same, then no message is answered "stale", however often the numbers
start anew. -/
theorem lone_source_is_fifo (settings : CombinerSettings) (spec : SourceSpec) (r : Relay P)
    (hr : Combiner.create settings [spec] = .ok r.combiner) (ops : List Operation)
    (hops : ∀ op ∈ ops, op.isReset = false ∧ op.isOffer = false) :
    (r.steps ops).map (fun s => (s.admission?, s.taken?)) = (Fifo.empty settings.queueLength).shown ops ∧
    (∀ before op later, ops = before ++ op :: later → (⟨r.after before, op⟩ : Step P).admission? = some .stale →
      ∃ n, op.number? 0 = some n ∧ (numbersSent 0 before).getLast? = some n) ∧
    ((numbersSent 0 ops).IsChain (· ≠ ·) → ∀ s ∈ r.steps ops, s.admission? ≠ some .stale) := by
  have hrepeated : ∀ before op later, ops = before ++ op :: later →
      (⟨r.after before, op⟩ : Step P).admission? = some .stale →
      ∃ n, op.number? 0 = some n ∧ (numbersSent 0 before).getLast? = some n := by
    rintro before op later rfl hstale
    refine repeated_of_stale hr (fun op' hmem => hops op' ?_) hstale
    simp only [List.mem_append, List.mem_cons, List.not_mem_nil] at hmem ⊢
    tauto
  refine ⟨((Fifo.Mirrors.of_create hr).run hops).1, hrepeated, fun hchain s hs hstale => ?_⟩
  obtain ⟨before, later, rfl, hrelay⟩ := Relay.mem_steps_iff.1 hs
  obtain ⟨_, op⟩ := s
  obtain rfl : _ = r.after before := hrelay
  obtain ⟨n, hnumber, hlast⟩ := hrepeated before op later rfl hstale
  have hsent : numbersSent 0 (before ++ op :: later) = numbersSent 0 before ++ n :: numbersSent 0 later := by
    rw [numbersSent, List.filterMap_append, List.filterMap_cons_some hnumber]
    rfl
  rw [hsent, List.isChain_append] at hchain
  exact hchain.2.2 n hlast n rfl rfl

namespace Sample

theorem createLone_isSome : (Combiner.create settings (sources.take 1)).toOption.isSome = true := by decide +kernel

/-- A combiner of one source that has seen nothing. -/
def loneCombiner : Combiner := (Combiner.create settings (sources.take 1)).toOption.get createLone_isSome

theorem createLone_eq : Combiner.create settings (sources.take 1) = .ok loneCombiner := eq_ok_get createLone_isSome

/-- A relay of one source that has done nothing yet. -/
def loneRelay : Relay Recorder := ⟨loneCombiner, .empty⟩

/-- The numbers start anew at 2, and there is room for two of the three frames. -/
def restarting : List Operation :=
  [.ingest 0 (message 5) [], .ingest 0 (message 2) [], .ingest 0 (message 7) [], .drain, .drain]

end Sample

/-- The oldest of three frames is given up. A message that repeats the number 7 comes too late once the frame with it was
taken. -/
theorem lone_source_is_fifo_sample :
    Combiner.create Sample.settings (Sample.sources.take 1) = .ok Sample.loneRelay.combiner ∧
      (∀ op ∈ Sample.restarting ++ [.ingest 0 (Sample.message 7) []], op.isReset = false ∧ op.isOffer = false) ∧
      (Sample.loneRelay.steps (Sample.restarting ++ [.ingest 0 (Sample.message 7) []])).map Step.admission? =
        [some .queued, some .queued, some (.evicted ⟨0, 5⟩), none, none, some .stale] ∧
      (numbersSent 0 Sample.restarting).IsChain (· ≠ ·) ∧
      ∀ s ∈ Sample.loneRelay.steps Sample.restarting, s.admission? ≠ some .stale := by
  have hcreate : Combiner.create Sample.settings (Sample.sources.take 1) = .ok Sample.loneRelay.combiner := by
    simp only [Sample.loneRelay, Sample.createLone_eq]
  have hops : ∀ op ∈ Sample.restarting ++ [.ingest 0 (Sample.message 7) []], op.isReset = false ∧ op.isOffer = false := by
    simp [Sample.restarting, Operation.isReset, Operation.isOffer]
  have hchain : (numbersSent 0 Sample.restarting).IsChain (· ≠ ·) := by decide +kernel
  obtain ⟨hshown, -, -⟩ := lone_source_is_fifo Sample.settings _ Sample.loneRelay hcreate _ hops
  obtain ⟨-, -, hfresh⟩ := lone_source_is_fifo Sample.settings _ Sample.loneRelay hcreate Sample.restarting
    fun op hop => hops op (List.mem_append_left _ hop)
  refine ⟨hcreate, hops, ?_, hchain, hfresh hchain⟩
  have hadmissions := congrArg (List.map Prod.fst) hshown
  rw [List.map_map] at hadmissions
  exact hadmissions.trans (by decide +kernel)

end FrameMerge
