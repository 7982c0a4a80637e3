import FrameMerge.Proofs.Conservation
import FrameMerge.Proofs.Interleaving
import FrameMerge.Proofs.Renewal

/-!
# The order of messages of different sources

Between two drains it does not matter how the messages of different sources are interleaved. The mark stays, so that what
becomes of a source and of its frames depends on its own messages alone (`Source.hearAll`); how many frames a full queue
gives up depends on how many came in time, though not which ones; and the keys that leave are those in the queue, in their
order.
-/

namespace FrameMerge

/-! ## What a source makes of its messages -/

namespace Source

/-- A source takes in a message, where some keys come too late: what is left of the source, and its frame if it is in
time. -/
def hear (late : Key → Bool) (s : Source) (message : Message) : Source × List Frame :=
  match Header.decode message.header with
  | .error _ => (s, [])
  | .ok header =>
    let accepted := s.accept header message.payload
    if late accepted.value.key then (accepted.state.recordDrop.state, []) else (accepted.state, [accepted.value])

/-- A source takes in messages one after the other. -/
def hearAll (late : Key → Bool) (s : Source) : List Message → Source × List Frame
  | [] => (s, [])
  | message :: rest =>
    ((hearAll late (s.hear late message).1 rest).1,
      (s.hear late message).2 ++ (hearAll late (s.hear late message).1 rest).2)

end Source

variable {P : Type} [Publisher P]

/-- The frames that steps offer in time, with their sources. -/
def framesInTime (steps : List (Step P)) : List (Nat × Frame) :=
  ((offers steps).filter fun o => !o.admission.isStale).map fun o => (o.source, o.frame)

@[simp] theorem framesInTime_append (a b : List (Step P)) :
    framesInTime (a ++ b) = framesInTime a ++ framesInTime b := by
  simp [framesInTime]

theorem framesInTime_cons (s : Step P) (steps : List (Step P)) :
    framesInTime (s :: steps) = framesInTime [s] ++ framesInTime steps := framesInTime_append [s] steps

theorem framesInTime_singleton (s : Step P) :
    framesInTime [s] = (s.offer?.toList.filter fun o => !o.admission.isStale).map fun o => (o.source, o.frame) := by
  rw [framesInTime, offers_cons, offers_nil, List.append_nil]

namespace Step

/-- An offer comes too late exactly if its key does. -/
theorem isStale_of_offer? {s : Step P} {o : Offer} (h : s.offer? = some o) :
    o.admission.isStale = s.relay.combiner.isStale o.frame.key := by
  rw [Bool.eq_iff_iff, isStale_iff_of_offer? h, Combiner.isStale_iff]

/-- A message is heard by its source. -/
theorem hears (r : Relay P) (message : Message) {source : Source}
    (h : r.combiner.sources[message.source]? = some source) :
    (⟨r, message.operation⟩ : Step P).next.combiner.sources[message.source]? =
        some (source.hear r.combiner.isStale message).1 ∧
      framesInTime [(⟨r, message.operation⟩ : Step P)] =
        (source.hear r.combiner.isStale message).2.map (Prod.mk message.source) := by
  rw [framesInTime_singleton, Message.operation, Source.hear]
  have hread := Combiner.frame?_eq h message.header message.payload
  cases hdecode : Header.decode message.header with
  | error cause =>
    rw [hdecode] at hread
    obtain ⟨hoffer, hnext⟩ := of_no_frame hread
    rw [hoffer, hnext]
    exact ⟨h, rfl⟩
  | ok header =>
    rw [hdecode] at hread
    obtain ⟨sender, header', admission, c, hsender, hdecode', -, -, hself, hvalue, hoffer, hnext⟩ := of_frame? hread
    rw [hsender, Option.some.injEq] at h
    rw [hdecode, Except.ok.injEq] at hdecode'
    subst h hdecode'
    have hlate := isStale_of_offer? hoffer
    have hnew := Combiner.sources_offer hself hvalue message.source
    rw [if_pos rfl] at hnew
    rw [hoffer, hnext, hnew, Source.charge, hlate]
    cases hkey : r.combiner.isStale (sender.accept header message.payload).value.key <;> simp [hkey, hlate]

/-- No other source learns of it. -/
theorem hears_not (r : Relay P) (message : Message) {id : Nat} (h : message.source ≠ id) :
    (⟨r, message.operation⟩ : Step P).next.combiner.sources[id]? = r.combiner.sources[id]? ∧
      (framesInTime [(⟨r, message.operation⟩ : Step P)]).filter (·.1 = id) = [] := by
  rw [framesInTime_singleton, Message.operation]
  cases hframe : r.combiner.frame? message.source message.header message.payload with
  | none =>
    obtain ⟨hoffer, hnext⟩ := of_no_frame hframe
    rw [hoffer, hnext]
    exact ⟨rfl, rfl⟩
  | some frame =>
    obtain ⟨sender, header, admission, c, hsender, -, -, hc, hself, hvalue, hoffer, hnext⟩ := of_frame? hframe
    have hnew := Combiner.sources_offer hself hvalue id
    rw [if_neg h, hc, Combiner.withSource_other _ h] at hnew
    rw [hoffer, hnext, hc]
    refine ⟨hnew, ?_⟩
    cases admission.isStale <;> simp [h]

/-- A message leaves the settings and the mark. -/
theorem unmoved_of_message (r : Relay P) (message : Message) :
    (⟨r, message.operation⟩ : Step P).next.combiner.settings = r.combiner.settings ∧
      (⟨r, message.operation⟩ : Step P).next.combiner.mark = r.combiner.mark := by
  constructor
  · exact congrArg Prod.fst (r.combiner.settled_ingest message.source message.header message.payload)
  · exact mark_next (s := ⟨r, message.operation⟩) rfl rfl

theorem capacity_of_message (r : Relay P) (message : Message) :
    (⟨r, message.operation⟩ : Step P).next.combiner.queue.capacity = r.combiner.queue.capacity :=
  Step.capacity_next ⟨r, message.operation⟩

/-- A queue gives up a frame only if it is full and another comes in time. -/
theorem full_of_evicted? {s : Step P} {frame : Frame} (h : s.evicted? = some frame) :
    s.relay.combiner.queue.capacity ≤ s.relay.combiner.queue.count ∧ (framesInTime [s]).length = 1 := by
  unfold evicted? at h
  obtain ⟨o, hoffer, ho⟩ := Option.bind_eq_some_iff.1 h
  cases hstale : o.admission.isStale with
  | true =>
    rw [hstale] at ho
    cases ho
  | false =>
    rw [hstale] at ho
    constructor
    · by_contra hroom
      have houtcome := (s.relay.combiner.queue.push_of_room o.frame
        (by rw [Queue.length_contents]; exact Nat.not_le.1 hroom)).1
      rw [houtcome] at ho
      cases ho
    · rw [framesInTime_singleton, hoffer]
      simp [hstale]

end Step

/-- What was queued and what came in time is what was given up, what was taken and what is queued. -/
theorem balance_inTime (r : Relay P) (ops : List Operation) :
    (r.combiner.queue.contents : Multiset Frame) + ((framesInTime (r.steps ops)).map Prod.snd : List Frame) =
      framesEvicted (r.steps ops) + framesTaken (r.steps ops) + (r.after ops).combiner.queue.contents := by
  have hoffered : (framesOffered (r.steps ops) : Multiset Frame) =
      framesStale (r.steps ops) + ((framesInTime (r.steps ops)).map Prod.snd : List Frame) := by
    rw [framesOffered, framesStale, framesInTime, List.map_map, Multiset.coe_add, Multiset.coe_eq_coe]
    show List.Perm _ (List.map Offer.frame _ ++ List.map Offer.frame _)
    rw [← List.map_append]
    exact ((List.filter_append_perm _ _).map Offer.frame).symm
  have hbalance := balance_steps r ops
  rw [hoffered] at hbalance
  refine add_left_cancel (a := (framesStale (r.steps ops) : Multiset Frame)) ?_
  rw [← add_assoc, ← add_assoc, ← add_assoc, ← hbalance]
  abel

/-- A frame in time finds room in a queue that is not full, and takes the place of another in one that is. -/
theorem Step.count_of_message (r : Relay P) (message : Message) :
    (⟨r, message.operation⟩ : Step P).next.combiner.queue.count =
      min (r.combiner.queue.count + (framesInTime [(⟨r, message.operation⟩ : Step P)]).length)
        r.combiner.queue.capacity := by
  have hcapacity := capacity_of_message r message
  have hle := (⟨r, message.operation⟩ : Step P).next.combiner.queue.count_le
  have hbefore := r.combiner.queue.count_le
  -- the balance tells how many frames are queued once it is known whether one was given up
  have hbalance := congrArg Multiset.card (balance_inTime r [message.operation])
  simp only [Multiset.card_add, Multiset.coe_card, Queue.length_contents, List.length_map, Relay.steps,
    framesEvicted_cons, framesEvicted_nil, List.append_nil, framesTaken_cons, framesTaken_nil] at hbalance
  have htaken : (⟨r, message.operation⟩ : Step P).taken? = none := rfl
  rw [htaken] at hbalance
  change _ = _ + _ + (⟨r, message.operation⟩ : Step P).next.combiner.queue.count at hbalance
  cases hevicted : (⟨r, message.operation⟩ : Step P).evicted? with
  | none =>
    rw [hevicted] at hbalance
    simp only [Option.toList_none, List.length_nil] at hbalance
    omega
  | some frame =>
    obtain ⟨hfull, hone⟩ := full_of_evicted? hevicted
    replace hfull : r.combiner.queue.capacity ≤ r.combiner.queue.count := hfull
    rw [hevicted] at hbalance
    simp only [Option.toList_none, Option.toList_some, List.length_nil, List.length_singleton] at hbalance
    omega

namespace Relay

/-- Messages leave the settings and the mark. -/
theorem unmoved_of_messages (r : Relay P) (messages : List Message) :
    (r.after (messages.map Message.operation)).combiner.settings = r.combiner.settings ∧
      (r.after (messages.map Message.operation)).combiner.mark = r.combiner.mark := by
  induction messages generalizing r with
  | nil => exact ⟨rfl, rfl⟩
  | cons message messages ih =>
    obtain ⟨hsettings, hmark⟩ := Step.unmoved_of_message r message
    obtain ⟨hsettings', hmark'⟩ := ih (r.apply message.operation).state
    exact ⟨hsettings'.trans hsettings, hmark'.trans hmark⟩

/-- What becomes of a source, and which of its frames are in time, is told by its own messages. -/
theorem hears_all (r : Relay P) (messages : List Message) {id : Nat} {source : Source}
    (h : r.combiner.sources[id]? = some source) :
    (r.after (messages.map Message.operation)).combiner.sources[id]? =
        some (source.hearAll r.combiner.isStale (messages.filter (·.source = id))).1 ∧
      (framesInTime (r.steps (messages.map Message.operation))).filter (·.1 = id) =
        (source.hearAll r.combiner.isStale (messages.filter (·.source = id))).2.map (Prod.mk id) := by
  induction messages generalizing r source with
  | nil => exact ⟨h, rfl⟩
  | cons message messages ih =>
    have hlate : (r.apply message.operation).state.combiner.isStale = r.combiner.isStale := by
      funext key
      rw [Combiner.isStale, Combiner.isStale]
      exact congrArg _ (Step.unmoved_of_message r message).2
    rw [List.map_cons, after_cons, steps, framesInTime_cons, List.filter_append]
    by_cases hid : message.source = id
    · subst hid
      obtain ⟨hsource, hframes⟩ := Step.hears r message h
      obtain ⟨hsources, hrest⟩ := ih (r.apply message.operation).state hsource
      rw [hlate] at hsources hrest
      rw [List.filter_cons_of_pos (by simp), Source.hearAll, hrest, hframes, List.map_append]
      refine ⟨hsources, congrArg (· ++ _) ?_⟩
      rw [List.filter_eq_self]
      simp
    · obtain ⟨hsource, hframes⟩ := Step.hears_not r message hid
      obtain ⟨hsources, hrest⟩ := ih (r.apply message.operation).state (hsource.trans h)
      rw [hlate] at hsources hrest
      rw [List.filter_cons_of_neg (by simpa using hid), hframes, hrest]
      exact ⟨hsources, rfl⟩

/-- Frames in time fill the queue until it is full. -/
theorem count_of_messages (r : Relay P) (messages : List Message) :
    (r.after (messages.map Message.operation)).combiner.queue.count =
      min (r.combiner.queue.count + (framesInTime (r.steps (messages.map Message.operation))).length)
        r.combiner.queue.capacity := by
  induction messages generalizing r with
  | nil => exact (Nat.min_eq_left r.combiner.queue.count_le).symm
  | cons message messages ih =>
    have hcapacity : (r.apply message.operation).state.combiner.queue.capacity = _ := Step.capacity_of_message r message
    have hfirst : (r.apply message.operation).state.combiner.queue.count = _ := Step.count_of_message r message
    rw [List.map_cons, after_cons, ih, hcapacity, steps, framesInTime_cons, List.length_append, hfirst]
    omega

/-- The combiner counts the frames that messages make the queue give up. -/
theorem dropped_of_messages (r : Relay P) (messages : List Message) :
    (r.after (messages.map Message.operation)).combiner.dropped =
      r.combiner.dropped + (framesEvicted (r.steps (messages.map Message.operation))).length := by
  induction messages generalizing r with
  | nil => rfl
  | cons message messages ih =>
    have hstep := Step.dropped_next (⟨r, message.operation⟩ : Step P)
    rw [List.map_cons, after_cons, ih, steps, framesEvicted_cons, List.length_append, ← Nat.add_assoc]
    exact congrArg (· + _) hstep

/-- Drains take the frames in the queue in their order. -/
theorem drains (r : Relay P) (n : Nat) :
    framesTaken (r.steps (List.replicate n .drain)) = r.combiner.queue.contents.take n ∧
      (r.after (List.replicate n .drain)).combiner.queue.contents = r.combiner.queue.contents.drop n := by
  induction n generalizing r with
  | zero => exact ⟨rfl, rfl⟩
  | succ n ih =>
    obtain ⟨htaken, hleft⟩ := ih (r.apply .drain).state
    have hnext : (r.apply .drain).state.combiner = r.combiner.takeNext.2 := r.combiner_drain
    rw [hnext] at htaken hleft
    rw [List.replicate_succ, steps, framesTaken_cons, after_cons, htaken, hleft]
    show r.combiner.takeNext.1.toList ++ _ = _ ∧ _
    rcases r.combiner.takeNext_contents with ⟨hcontents, htake⟩ | ⟨frame, queue, hcontents, -, htake⟩ <;>
      rw [htake, hcontents]
    · simp
    · exact ⟨rfl, rfl⟩

end Relay

/-! ## Two interleavings -/

/-- Lists that are the same for each label hold the same. -/
theorem perm_of_filter_eq {α : Type} {l l' : List (Nat × α)} (h : ∀ id, l.filter (·.1 = id) = l'.filter (·.1 = id)) :
    l.Perm l' := by
  classical
  rw [List.perm_iff_count]
  intro x
  have hcount := congrArg (List.count x) (h x.1)
  rwa [List.count_filter (by simp), List.count_filter (by simp)] at hcount

/-- Sorted lists of frames that hold the same have the same keys. -/
theorem keys_eq_of_perm {l l' : List Frame} (h : l.Perm l') (hl : l.Pairwise fun f g => f.key ≤ g.key)
    (hl' : l'.Pairwise fun f g => f.key ≤ g.key) : l.map Frame.key = l'.map Frame.key :=
  List.Perm.eq_of_pairwise (fun _ _ _ _ hab hba => le_antisymm hab hba) (List.pairwise_map.2 hl)
    (List.pairwise_map.2 hl') (h.map Frame.key)

/-- Each source has the same messages in both, in the same order. -/
def SameBySource (a b : List Message) : Prop := ∀ id, a.filter (·.source = id) = b.filter (·.source = id)

namespace Relay

variable {r : Relay P} {a b : List Message}

/-- However messages of different sources are interleaved, the same frames are in time. -/
theorem inTime_perm (h : SameBySource a b) :
    (framesInTime (r.steps (a.map Message.operation))).Perm (framesInTime (r.steps (b.map Message.operation))) := by
  refine perm_of_filter_eq fun id => ?_
  cases hsource : r.combiner.sources[id]? with
  | none =>
    -- a message of no known source is refused, and makes no frame
    have hnone : ∀ messages : List Message,
        (framesInTime (r.steps (messages.map Message.operation))).filter (·.1 = id) = [] := by
      intro messages
      rw [List.filter_eq_nil_iff]
      intro labelled hmem
      obtain ⟨o, ho, rfl⟩ := List.mem_map.1 hmem
      have hlt := source_lt_of_offers (List.mem_of_mem_filter ho)
      have hge := List.getElem?_eq_none_iff.1 hsource
      simp only [decide_eq_true_eq]
      omega
    rw [hnone, hnone]
  | some source => rw [(r.hears_all a hsource).2, (r.hears_all b hsource).2, h id]

/-- However messages of different sources are interleaved, the same becomes of each source. -/
theorem sources_eq (h : SameBySource a b) :
    (r.after (a.map Message.operation)).combiner.sources = (r.after (b.map Message.operation)).combiner.sources := by
  refine List.ext_getElem? fun id => ?_
  cases hsource : r.combiner.sources[id]? with
  | none =>
    have hge := List.getElem?_eq_none_iff.1 hsource
    rw [List.getElem?_eq_none_iff.2 (by rwa [length_sources_after]),
      List.getElem?_eq_none_iff.2 (by rwa [length_sources_after])]
  | some source => rw [(r.hears_all a hsource).1, (r.hears_all b hsource).1, h id]

/-- Messages take nothing, so what was queued and came in time is given up or queued. -/
theorem balance_of_messages (r : Relay P) (messages : List Message) :
    (r.combiner.queue.contents : Multiset Frame) +
        ((framesInTime (r.steps (messages.map Message.operation))).map Prod.snd : List Frame) =
      framesEvicted (r.steps (messages.map Message.operation)) +
        (r.after (messages.map Message.operation)).combiner.queue.contents := by
  have hbalance := balance_inTime r (messages.map Message.operation)
  rwa [Shared.framesTaken_ingesting, Multiset.coe_nil, add_zero] at hbalance

/-- However messages of different sources are interleaved, as many frames are given up. -/
theorem length_evicted_eq (h : SameBySource a b) :
    (framesEvicted (r.steps (a.map Message.operation))).length =
      (framesEvicted (r.steps (b.map Message.operation))).length := by
  have hsame := (inTime_perm (r := r) h).length_eq
  -- as many frames come in time and as many are queued afterwards, so as many are given up
  have ha := congrArg Multiset.card (r.balance_of_messages a)
  have hb := congrArg Multiset.card (r.balance_of_messages b)
  simp only [Multiset.card_add, Multiset.coe_card, Queue.length_contents, List.length_map, count_of_messages] at ha hb
  omega

/-- However messages of different sources are interleaved, the combiner counts as many frames given up. -/
theorem dropped_eq (h : SameBySource a b) :
    (r.after (a.map Message.operation)).combiner.dropped = (r.after (b.map Message.operation)).combiner.dropped := by
  rw [r.dropped_of_messages, r.dropped_of_messages, length_evicted_eq h]

/-- However messages of different sources are interleaved, all that can be asked about the combiner is the same. -/
theorem stats_eq (h : SameBySource a b) :
    (r.after (a.map Message.operation)).combiner.stats = (r.after (b.map Message.operation)).combiner.stats := by
  obtain ⟨hsettings, hmark⟩ := r.unmoved_of_messages a
  obtain ⟨hsettings', hmark'⟩ := r.unmoved_of_messages b
  obtain ⟨hdestination, hcapacity, hcutoff⟩ := CombinerSettings.mk.inj (hsettings.trans hsettings'.symm)
  have hcount : (r.after (a.map Message.operation)).combiner.queue.count =
      (r.after (b.map Message.operation)).combiner.queue.count := by
    rw [r.count_of_messages, r.count_of_messages, (inTime_perm h).length_eq]
  simp only [Combiner.stats, Combiner.lastSent, hmark, hmark', hdestination, hcapacity, hcutoff, hcount, dropped_eq h,
    sources_eq h]

/-- Draining often enough after messages takes all that they left in the queue. -/
theorem drained (r : Relay P) (messages : List Message) {n : Nat}
    (hn : (r.after (messages.map Message.operation)).combiner.queue.count ≤ n) :
    (r.after (messages.map Message.operation ++ List.replicate n .drain)).combiner.queue.contents = [] ∧
      framesTaken (r.steps (messages.map Message.operation ++ List.replicate n .drain)) =
        (r.after (messages.map Message.operation)).combiner.queue.contents := by
  rw [← Queue.length_contents] at hn
  obtain ⟨htaken, hleft⟩ := (r.after (messages.map Message.operation)).drains n
  rw [after_append, steps_append, framesTaken_append, Shared.framesTaken_ingesting, htaken, hleft,
    List.take_of_length_le hn, List.drop_of_length_le hn]
  exact ⟨rfl, rfl⟩

/-- However messages of different sources are interleaved, the same frames are queued after them, if none is given up. -/
theorem contents_perm (h : SameBySource a b)
    (hnone : framesEvicted (r.steps (a.map Message.operation)) = []) :
    (r.after (a.map Message.operation)).combiner.queue.contents.Perm
      (r.after (b.map Message.operation)).combiner.queue.contents := by
  have hnone' : framesEvicted (r.steps (b.map Message.operation)) = [] := by
    rw [← List.length_eq_zero_iff, ← length_evicted_eq h, hnone, List.length_nil]
  have ha := r.balance_of_messages a
  have hb := r.balance_of_messages b
  rw [hnone, Multiset.coe_nil, zero_add] at ha
  rw [hnone', Multiset.coe_nil, zero_add] at hb
  rw [← Multiset.coe_eq_coe, ← ha, ← hb, Multiset.coe_eq_coe.2 ((inTime_perm h).map Prod.snd)]

end Relay

/-- The interleaving of sources does not matter between drains. Let a relay in any state be sent the messages of its
sources in two ways that keep the messages of each source in their order.
1. All that can be asked about the combiner afterwards is the same, whatever the queue gave up: every source has the same
counters, the same acquisition and the same monitor, and as many frames were counted as given up.
2. As many frames are given up in both ways.
3. If none is given up, then draining until the queue is empty takes frames of the same keys in the same order, and for
each key the same frames, each as often. -/
theorem interleaving_irrelevant (r : Relay P) (a b : List Message)
    (h : SameBySource a b) :
    ((r.after (a.map Message.operation)).combiner.stats = (r.after (b.map Message.operation)).combiner.stats ∧
      (r.after (a.map Message.operation)).combiner.sources = (r.after (b.map Message.operation)).combiner.sources ∧
      (r.after (a.map Message.operation)).combiner.dropped = (r.after (b.map Message.operation)).combiner.dropped) ∧
    (framesEvicted (r.steps (a.map Message.operation))).length =
      (framesEvicted (r.steps (b.map Message.operation))).length ∧
    (framesEvicted (r.steps (a.map Message.operation)) = [] →
      ∀ n, (r.after (a.map Message.operation)).combiner.queue.count ≤ n →
        (r.after (a.map Message.operation ++ List.replicate n .drain)).combiner.queue.contents = [] ∧
        (r.after (b.map Message.operation ++ List.replicate n .drain)).combiner.queue.contents = [] ∧
        (framesTaken (r.steps (a.map Message.operation ++ List.replicate n .drain))).map Frame.key =
          (framesTaken (r.steps (b.map Message.operation ++ List.replicate n .drain))).map Frame.key ∧
        ∀ key, ((framesTaken (r.steps (a.map Message.operation ++ List.replicate n .drain))).filter (·.key = key)).Perm
          ((framesTaken (r.steps (b.map Message.operation ++ List.replicate n .drain))).filter (·.key = key))) := by
  have hstats := Relay.stats_eq (r := r) h
  refine ⟨⟨hstats, Relay.sources_eq h, Relay.dropped_eq h⟩, Relay.length_evicted_eq h, fun hnone n hn => ?_⟩
  have hqueued := congrArg Stats.queued hstats
  rw [Combiner.stats_queued, Combiner.stats_queued] at hqueued
  have hn' : (r.after (b.map Message.operation)).combiner.queue.count ≤ n := hqueued ▸ hn
  obtain ⟨hempty, htaken⟩ := r.drained a hn
  obtain ⟨hempty', htaken'⟩ := r.drained b hn'
  have hperm := Relay.contents_perm h hnone
  rw [htaken, htaken']
  exact ⟨hempty, hempty', keys_eq_of_perm hperm (Queue.contents_pairwise_key _) (Queue.contents_pairwise_key _),
    fun key => hperm.filter _⟩

namespace Sample

/-- Each source sends a message. -/
def firstThenSecond : List Message := [⟨0, message 5, []⟩, ⟨1, message 7, []⟩]

/-- The same messages, with the sources' turns exchanged. -/
def secondThenFirst : List Message := [⟨1, message 7, []⟩, ⟨0, message 5, []⟩]

end Sample

/-- Whichever of two sources sends first, two drains take frames of the same keys, and then the queue is empty. -/
theorem interleaving_irrelevant_sample :
    SameBySource Sample.firstThenSecond Sample.secondThenFirst ∧
      framesEvicted (Sample.relay.steps (Sample.firstThenSecond.map Message.operation)) = [] ∧
      (Sample.relay.after (Sample.firstThenSecond.map Message.operation)).combiner.queue.count = 2 ∧
      (Sample.relay.after (Sample.firstThenSecond.map Message.operation)).combiner.sources =
        (Sample.relay.after (Sample.secondThenFirst.map Message.operation)).combiner.sources ∧
      (Sample.relay.after
        (Sample.secondThenFirst.map Message.operation ++ List.replicate 2 .drain)).combiner.queue.contents = [] ∧
      (framesTaken (Sample.relay.steps
        (Sample.secondThenFirst.map Message.operation ++ List.replicate 2 .drain))).map Frame.key =
          [⟨0, 5⟩, ⟨0, 7⟩] := by
  have hsame : SameBySource Sample.firstThenSecond Sample.secondThenFirst := by
    intro id
    by_cases h0 : id = 0
    · subst h0; rfl
    · by_cases h1 : id = 1
      · subst h1; rfl
      · have h0' : ¬0 = id := fun h => h0 h.symm
        have h1' : ¬1 = id := fun h => h1 h.symm
        simp [Sample.firstThenSecond, Sample.secondThenFirst, h0', h1']
  have hnone : framesEvicted (Sample.relay.steps (Sample.firstThenSecond.map Message.operation)) = [] :=
    List.isEmpty_iff.1 (by decide +kernel)
  have hcount : (Sample.relay.after (Sample.firstThenSecond.map Message.operation)).combiner.queue.count = 2 := by
    decide +kernel
  obtain ⟨⟨-, hsources, -⟩, -, hdrained⟩ := interleaving_irrelevant Sample.relay _ _ hsame
  obtain ⟨-, hempty, hkeys, -⟩ := hdrained hnone 2 hcount.le
  refine ⟨hsame, hnone, hcount, hsources, hempty, ?_⟩
  rw [← hkeys]
  decide +kernel

end FrameMerge
