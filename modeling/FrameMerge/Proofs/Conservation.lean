import FrameMerge.Proofs.Sources
import Mathlib.Algebra.BigOperators.Group.List.Basic
import Mathlib.Algebra.Group.Prod
import Mathlib.Algebra.Order.Group.Multiset
import Mathlib.Tactic.Abel

/-!
# No frame is lost or doubled

Every frame that was offered came too late, was given up by a full queue, was taken or is still queued
(`balance_steps`), and the counters say how many of each there were since the last reset (`counters_recent`,
`dropped_recent`). A reset forgets the counters and not the queue, so what was queued at the reset stands in the balance
beside what was received since.
-/

namespace FrameMerge

variable {P : Type} [Publisher P]

/-! ## Frames -/

/-- The frames that steps offer without failing. -/
def framesOffered (steps : List (Step P)) : List Frame := (offers steps).map Offer.frame

/-- The frames that steps offer too late. -/
def framesStale (steps : List (Step P)) : List Frame :=
  ((offers steps).filter fun o => o.admission.isStale).map Offer.frame

/-- One step neither loses nor doubles a frame. -/
theorem Step.balance (s : Step P) :
    (s.relay.combiner.queue.contents ++ s.offer?.toList.map Offer.frame).Perm
      ((s.offer?.toList.filter fun o => o.admission.isStale).map Offer.frame ++ s.evicted?.toList ++ s.taken?.toList ++
        s.next.combiner.queue.contents) := by
  rw [s.taken?_eq]
  cases s.move with
  | still hoffer htaken _ hqueue => simp [hoffer, htaken, hqueue, Step.evicted?]
  | stale o hoffer hstale htaken _ _ hqueue =>
    simp [hoffer, htaken, hqueue, hstale, Step.evicted?, Admission.isStale]
  | pushed o gone others hoffer hstale htaken _ _ hentries hnext _ _ _ hgone =>
    have hothers : (others.map Entry.frame ++ [o.frame]).Perm s.next.combiner.queue.contents :=
      List.perm_append_comm.trans (hnext.map Entry.frame).symm
    rw [hgone, hoffer, htaken, Queue.contents, hentries]
    simpa [hstale, List.append_assoc] using hothers.append_left (gone.map Entry.frame)
  | taken e hoffer htaken _ hentries => simp [hoffer, htaken, Queue.contents, hentries, Step.evicted?]
  | reset hoffer htaken _ hqueue => simp [hoffer, htaken, hqueue, Step.evicted?]

/-- No run loses or doubles a frame, wherever it starts. -/
theorem balance_steps (r : Relay P) (ops : List Operation) :
    (r.combiner.queue.contents : Multiset Frame) + framesOffered (r.steps ops) =
      framesStale (r.steps ops) + framesEvicted (r.steps ops) + framesTaken (r.steps ops) +
        (r.after ops).combiner.queue.contents := by
  induction ops generalizing r with
  | nil => simp [Relay.steps, framesOffered, framesStale]
  | cons op ops ih =>
    have hstep := Multiset.coe_eq_coe.2 (Step.balance ⟨r, op⟩)
    have hrest := ih (r.apply op).state
    simp only [framesOffered, framesStale, Relay.steps, Relay.after_cons, offers_cons, framesEvicted_cons,
      framesTaken_cons, List.filter_append, List.map_append, ← Multiset.coe_add] at *
    rw [← add_assoc, hstep, add_assoc]
    show _ + (((r.apply op).state.combiner.queue.contents : Multiset Frame) + _) = _
    rw [hrest]
    abel

/-! ## Counters of a source -/

/-- What a source has counted: the frames it sent, and those of them that were dropped. -/
def Source.counters (s : Source) : Nat × Nat := (s.received, s.dropped)

theorem Source.counters_accept (s : Source) (header : Header) (payload : Bytes) :
    (s.accept header payload).state.counters = s.counters + (1, 0) := rfl

theorem Source.counters_charge (s : Source) (admission : Admission) :
    (s.charge admission).counters = s.counters + (0, admission.isStale.toNat) := by
  rw [charge]
  cases admission.isStale <;> rfl

/-- What offers have a source count: those that were read from its messages, and those that came too late. -/
def countedBy (id : Nat) (offers : List Offer) : Nat × Nat :=
  (offers.countP fun o => o.source = id && o.ingested, offers.countP fun o => o.source = id && o.admission.isStale)

@[simp] theorem countedBy_nil (id : Nat) : countedBy id [] = 0 := rfl

@[simp] theorem countedBy_append (id : Nat) (a b : List Offer) :
    countedBy id (a ++ b) = countedBy id a + countedBy id b := by
  simp [countedBy, List.countP_append]

/-- One offer is counted by its own source only. -/
theorem countedBy_singleton (id : Nat) (o : Offer) :
    countedBy id [o] = if o.source = id then (o.ingested.toNat, o.admission.isStale.toNat) else 0 := by
  unfold countedBy
  by_cases h : o.source = id
  · cases hi : o.ingested <;> cases hs : o.admission.isStale <;> simp [h, hi, hs]
  · simp [h]

/-- What the source in one place has counted. -/
def Combiner.countersAt? (c : Combiner) (id : Nat) : Option (Nat × Nat) := c.sources[id]?.map Source.counters

/-- A reset clears the counters of a source; any other step has it count what it offers. -/
theorem Step.SourceMove.counters {s : Step P} {k : Nat} {old new : Source} (h : s.SourceMove k old new) :
    new.counters = if s.operation.isReset then 0 else old.counters + countedBy k s.offer?.toList := by
  cases h with
  | still _ hoffer hreset hnew =>
    have hnone : countedBy k s.offer?.toList = 0 := by
      cases ho : s.offer? with
      | none => rfl
      | some o => rw [Option.toList_some, countedBy_singleton, if_neg (hoffer o ho)]
    rw [hreset, hnew, hnone]
    rfl
  | read header payload admission _ hoffer hreset hnew =>
    rw [hreset, hnew, hoffer, Option.toList_some, countedBy_singleton, if_pos rfl, Source.counters_charge,
      Source.counters_accept, add_assoc]
    simp
  | offered frame admission _ hoffer hreset hnew =>
    rw [hreset, hnew, hoffer, Option.toList_some, countedBy_singleton, if_pos rfl, Source.counters_charge]
    rfl
  | cutoff _ _ hoffer hreset hnew =>
    obtain ⟨monitor, rfl⟩ := Source.setCutoff_ok hnew
    rw [hreset, hoffer]
    rfl
  | reset hreset hnew =>
    rw [hreset, hnew]
    rfl

/-- What a step does to the counters of the source in one place. -/
theorem Step.countersAt?_next (s : Step P) (k : Nat) :
    s.next.combiner.countersAt? k =
      (s.relay.combiner.countersAt? k).map fun n =>
        if s.operation.isReset then 0 else n + countedBy k s.offer?.toList := by
  rw [Combiner.countersAt?, Combiner.countersAt?]
  cases hold : s.relay.combiner.sources[k]? with
  | none =>
    have hnone : s.next.combiner.sources[k]? = none := by
      rw [List.getElem?_eq_none_iff, s.length_sources_next]
      exact List.getElem?_eq_none_iff.1 hold
    rw [hnone]
    rfl
  | some old =>
    obtain ⟨new, hnew, hmove⟩ := s.source_next hold
    rw [hnew, Option.map_some, Option.map_some, Option.map_some, hmove.counters]

/-- Since the last reset, each source has counted its messages and those of its frames that came too late. -/
theorem counters_recent {r : Relay P} (hr : r.IsNew) (ops : List Operation) (k : Nat) :
    (r.after ops).combiner.countersAt? k =
      (r.combiner.countersAt? k).map fun _ => countedBy k (offers (r.recent ops)) := by
  induction ops using List.reverseRecOn with
  | nil =>
    unfold Combiner.countersAt?
    cases hsource : r.combiner.sources[k]? with
    | none => simp [hsource]
    | some source =>
      obtain ⟨name, endpoint, monitor, rfl⟩ := hr.spec.2.2.2 source (List.mem_of_getElem? hsource)
      simp only [Relay.after_nil, Relay.recent_nil, offers_nil, countedBy_nil, hsource, Option.map_some]
      rfl
  | append_singleton ops op ih =>
    rw [r.after_snoc, Step.countersAt?_next, r.recent_snoc]
    show ((r.after ops).combiner.countersAt? k).map _ = _
    rw [ih, Option.map_map]
    refine congrArg (fun f => Option.map f _) (funext fun n => ?_)
    cases op.isReset <;> simp

/-! ## Counters of the combiner -/

/-- A step makes the queue give up a frame exactly if its offer is answered so. -/
theorem Step.length_evicted? (s : Step P) :
    s.evicted?.toList.length = s.offer?.toList.countP fun o => o.admission.isEvicted := by
  cases s.move with
  | still hoffer => simp [hoffer, evicted?]
  | stale o hoffer hstale => simp [hoffer, hstale, evicted?, Admission.isStale, Admission.isEvicted]
  | pushed o gone _ hoffer _ _ _ _ _ _ _ _ _ hgone hcount =>
    rw [hgone, List.length_map, ← hcount, hoffer]
    cases hevicted : o.admission.isEvicted <;> simp [hevicted]
  | taken _ hoffer => simp [hoffer, evicted?]
  | reset hoffer => simp [hoffer, evicted?]

/-- There are as many frames given up as answers that say so. -/
theorem length_framesEvicted (steps : List (Step P)) :
    (framesEvicted steps).length = (offers steps).countP fun o => o.admission.isEvicted := by
  induction steps with
  | nil => rfl
  | cons s steps ih =>
    rw [framesEvicted_cons, offers_cons, List.length_append, List.countP_append, s.length_evicted?, ih]

/-- What a step does to the number of frames given up. -/
theorem Step.dropped_next (s : Step P) :
    s.next.combiner.dropped =
      if s.operation.isReset then 0 else s.relay.combiner.dropped + s.evicted?.toList.length := by
  cases s.move with
  | still hoffer _ hreset _ _ hdropped => simp [hreset, hdropped, hoffer, evicted?]
  | stale o hoffer hstale _ hreset _ _ _ hdropped =>
    simp [hreset, hdropped, hoffer, hstale, evicted?, Admission.isStale]
  | pushed _ gone _ _ _ _ hreset _ _ _ _ _ hdropped hgone => simp [hreset, hdropped, hgone]
  | taken _ hoffer _ hreset _ _ _ hdropped => simp [hreset, hdropped, hoffer, evicted?]
  | reset _ _ hreset _ _ hdropped => simp [hreset, hdropped]

/-- Since the last reset, the combiner has counted the frames given up. -/
theorem dropped_recent {r : Relay P} (hr : r.IsNew) (ops : List Operation) :
    (r.after ops).combiner.dropped = (framesEvicted (r.recent ops)).length := by
  induction ops using List.reverseRecOn with
  | nil => exact hr.spec.2.1
  | append_singleton ops op ih =>
    rw [r.after_snoc, Step.dropped_next, r.recent_snoc]
    cases op.isReset
    · simp [ih]
    · rfl

/-! ## Sums over the sources -/

/-- The sources of all that a run offers are known. -/
theorem source_lt_of_offers {r : Relay P} {ops : List Operation} {o : Offer}
    (h : o ∈ offers (r.steps ops)) : o.source < r.combiner.sources.length := by
  obtain ⟨s, hs, hoffer⟩ := List.mem_filterMap.1 h
  obtain ⟨before, _, -, hrelay⟩ := Relay.mem_steps_iff.1 hs
  have hlt := Step.source_lt hoffer
  rwa [hrelay, Relay.length_sources_after] at hlt

/-- A sum with one place that counts. -/
theorem sum_range_ite (n i : Nat) : ((List.range n).map fun k => if i = k then 1 else 0).sum = if i < n then 1 else 0 := by
  induction n with
  | zero => rfl
  | succ n ih =>
    rw [List.range_succ, List.map_append, List.sum_append, ih]
    by_cases h : i = n
    · simp [h]
    · by_cases hlt : i < n
      · simp [h, hlt, Nat.lt_succ_of_lt hlt]
      · have hlt' : ¬i < n + 1 := by omega
        simp [h, hlt, hlt']

/-- If every offer is one of `n` sources, then the sources' shares make up all offers. -/
theorem sum_range_countP (p : Offer → Bool) {n : Nat} {l : List Offer} (h : ∀ o ∈ l, o.source < n) :
    ((List.range n).map fun k => l.countP fun o => o.source = k && p o).sum = l.countP p := by
  induction l with
  | nil => simp
  | cons o l ih =>
    have hrest := ih fun o' hmem => h o' (List.mem_cons_of_mem _ hmem)
    have hfirst := sum_range_ite n o.source
    rw [if_pos (h o List.mem_cons_self)] at hfirst
    simp only [List.countP_cons, List.sum_map_add, hrest]
    cases hp : p o with
    | true => simp [hfirst]
    | false => simp

/-- Since the last reset, a source has received its messages and dropped those of its frames that came too late. -/
theorem counters_of_source {r : Relay P} (hr : r.IsNew) {ops : List Operation} {k : Nat} {source : Source}
    (h : (r.after ops).combiner.sources[k]? = some source) :
    source.received = (offers (r.recent ops)).countP (fun o => o.source = k && o.ingested) ∧
      source.dropped = (offers (r.recent ops)).countP fun o => o.source = k && o.admission.isStale := by
  have hcounters := counters_recent hr ops k
  rw [Combiner.countersAt?, h, Option.map_some, eq_comm, Option.map_eq_some_iff] at hcounters
  obtain ⟨-, -, heq⟩ := hcounters
  exact ⟨congrArg Prod.fst heq.symm, congrArg Prod.snd heq.symm⟩

/-- What each source counts of its own offers, all sources together count of all offers. -/
theorem sum_sources {r : Relay P} (ops : List Operation) {f : Source → Nat} {p : Offer → Bool}
    (hf : ∀ k source, (r.after ops).combiner.sources[k]? = some source →
      f source = (offers (r.recent ops)).countP fun o => o.source = k && p o) :
    ((r.after ops).combiner.sources.map f).sum = (offers (r.recent ops)).countP p := by
  have hmap : (r.after ops).combiner.sources.map f =
      (List.range (r.after ops).combiner.sources.length).map fun k =>
        (offers (r.recent ops)).countP fun o => o.source = k && p o := by
    refine List.ext_getElem (by simp) fun k hk _ => ?_
    rw [List.length_map] at hk
    rw [List.getElem_map, List.getElem_map, List.getElem_range]
    exact hf k _ (List.getElem?_eq_getElem hk)
  rw [hmap]
  refine sum_range_countP p fun o ho => ?_
  obtain ⟨before, window, hops, -, -, hrecent⟩ := r.exists_window ops
  rw [Relay.length_sources_after]
  have hmem : o ∈ offers (r.steps ops) := by
    rw [hops, r.steps_append, offers_append, ← hrecent]
    exact List.mem_append_right _ ho
  exact source_lt_of_offers hmem

/-- Where all frames come from messages, those received since the last reset and those it left in the queue are those
dropped, given up, queued and taken. -/
theorem received_balance {r : Relay P} (hr : r.IsNew) {ops : List Operation}
    (h : ∀ o ∈ offers (r.recent ops), o.ingested = true) :
    ((r.after ops).combiner.sources.map Source.received).sum + (r.atReset ops).combiner.queue.count =
      ((r.after ops).combiner.sources.map Source.dropped).sum + (r.after ops).combiner.dropped +
        (r.after ops).combiner.queue.count + (framesTaken (r.recent ops)).length := by
  have hreceived := sum_sources ops fun _ _ hsource => (counters_of_source hr hsource).1
  have hdropped := sum_sources ops fun _ _ hsource => (counters_of_source hr hsource).2
  rw [List.countP_eq_length.2 h] at hreceived
  obtain ⟨before, window, rfl, -, hat, hrecent⟩ := r.exists_window ops
  have hbalance := congrArg Multiset.card (balance_steps (r.after before) window)
  rw [← hrecent, ← r.after_append, ← hat] at hbalance
  simp only [framesOffered, framesStale, Multiset.card_add, Multiset.coe_card, List.length_map, Queue.length_contents,
    ← List.countP_eq_length_filter] at hbalance
  rw [hreceived, hdropped, dropped_recent hr]
  omega

/-- No frame is lost or doubled, and the counters account for all of them, after every run from a new relay.
1. The answers that are not failures are those to the frames offered.
2. The frames offered are those that came too late, those given up by a full queue, those taken and those still queued,
each as often as it was offered.
3. Since the last reset, the combiner has counted the offers that made a full queue give up a frame, and each source its
messages and those of its frames that came too late.
4. If all frames offered since the last reset were read from messages, then what the sources received and what was queued
at the reset is what they dropped, what was given up, what is queued and what was taken since; no source has dropped more
than it received. -/
theorem frames_conserved (r : Relay P) (hr : r.IsNew) (ops : List Operation) :
    (r.steps ops).filterMap Step.admission? = (offers (r.steps ops)).map Offer.admission ∧
    (framesOffered (r.steps ops) : Multiset Frame) =
      framesStale (r.steps ops) + framesEvicted (r.steps ops) + framesTaken (r.steps ops) +
        (r.after ops).combiner.queue.contents ∧
    ((r.after ops).combiner.dropped = (offers (r.recent ops)).countP (fun o => o.admission.isEvicted) ∧
      ∀ id source, (r.after ops).combiner.sources[id]? = some source →
        source.received = (offers (r.recent ops)).countP (fun o => o.source = id && o.ingested) ∧
          source.dropped = (offers (r.recent ops)).countP fun o => o.source = id && o.admission.isStale) ∧
    ((∀ o ∈ offers (r.recent ops), o.ingested = true) →
      ((r.after ops).combiner.sources.map Source.received).sum + (r.atReset ops).combiner.queue.count =
          ((r.after ops).combiner.sources.map Source.dropped).sum + (r.after ops).combiner.dropped +
            (r.after ops).combiner.queue.count + (framesTaken (r.recent ops)).length ∧
        ∀ source ∈ (r.after ops).combiner.sources, source.dropped ≤ source.received) := by
  refine ⟨?_, ?_, ⟨?_, fun _ _ hsource => counters_of_source hr hsource⟩, fun h => ⟨received_balance hr h, ?_⟩⟩
  · rw [offers, List.map_filterMap]
    exact congrArg (List.filterMap · _) (funext Step.admission?_eq)
  · have hbalance := balance_steps r ops
    rw [Queue.contents, hr.spec.2.2.1] at hbalance
    simpa using hbalance
  · rw [dropped_recent hr, length_framesEvicted]
  · intro source hmem
    obtain ⟨id, hsource⟩ := List.mem_iff_getElem?.1 hmem
    obtain ⟨hreceived, hdropped⟩ := counters_of_source hr hsource
    rw [hreceived, hdropped]
    refine List.countP_mono_left fun o ho hp => ?_
    rw [Bool.and_eq_true] at hp ⊢
    exact ⟨hp.1, h o ho⟩

/-- One frame was queued at the reset and one was received since: the first was taken, the second came too late. -/
theorem frames_conserved_sample :
    Sample.relay.IsNew ∧ (∀ o ∈ offers (Sample.relay.recent Sample.history), o.ingested = true) ∧
      ((Sample.relay.after Sample.history).combiner.sources.map Source.received).sum +
          (Sample.relay.atReset Sample.history).combiner.queue.count =
        ((Sample.relay.after Sample.history).combiner.sources.map Source.dropped).sum +
          (Sample.relay.after Sample.history).combiner.dropped + (Sample.relay.after Sample.history).combiner.queue.count +
          (framesTaken (Sample.relay.recent Sample.history)).length := by
  have hall : (offers (Sample.relay.recent Sample.history)).all (fun o => o.ingested) = true := by decide +kernel
  have hingested := List.all_eq_true.1 hall
  exact ⟨Sample.isNew, hingested, ((frames_conserved Sample.relay Sample.isNew Sample.history).2.2.2 hingested).1⟩

end FrameMerge
