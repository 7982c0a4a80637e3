import FrameMerge.Proofs.Conservation
import FrameMerge.Proofs.Interleaving
import FrameMerge.Proofs.Likeness

/-!
# One turn of the loop

A turn that nothing comes between is a batch of messages, ingested one after the other, and one drain (`turn_eq_drain`): it
does not matter that the loop takes the frame first and sends it afterwards, nor that it sends it through a copy of the
publisher, since copies share one record (`Loop.deliver`). The batch is what waits, up to so many messages
(`receive_eq`), and the report counts what became of each of them (`TurnReport.Counts`), so that the length of the queue
can be told from it.
-/

namespace FrameMerge

/-! ## The batch -/

/-- What the messages of the next turn ask of the combiner. -/
def Inbound.operations (inbound : Inbound) : List Operation := (inbound.pending.take 64).map Message.operation

namespace Loop

/-- Messages are received in their order; that all senders have hung up is found out where there is room for more. -/
theorem receiveUpTo_eq (room : Nat) (inbound : Inbound) :
    receiveUpTo room inbound =
      (inbound.pending.take room, inbound.hungUp && inbound.pending.length < room,
        { inbound with pending := inbound.pending.drop room }) := by
  induction room generalizing inbound with
  | zero => simp [receiveUpTo]
  | succ room ih =>
    obtain ⟨pending, hungUp⟩ := inbound
    rw [receiveUpTo]
    cases pending with
    | nil => cases hungUp <;> rfl
    | cons message rest =>
      simp only [Inbound.receive, ih, List.take_succ_cons, List.drop_succ_cons, List.length_cons,
        Nat.add_lt_add_iff_right]

theorem receive_eq (inbound : Inbound) :
    receive inbound =
      (inbound.pending.take 64, inbound.hungUp && inbound.pending.length < 64,
        { inbound with pending := inbound.pending.drop 64 }) := receiveUpTo_eq 64 inbound

end Loop

variable {P : Type} [Publisher P]

/-! ## The report -/

namespace TurnReport

/-- From one report to the other, so many messages were counted, of which these made frames that were offered. -/
structure Counts (messages : Nat) (offered : List Offer) (before after : TurnReport) : Prop where
  ingested : after.ingested = before.ingested + offered.length
  rejected : after.rejected + offered.length = before.rejected + messages
  stale : after.stale = before.stale + offered.countP fun o => o.admission.isStale
  evicted : after.evicted = before.evicted + offered.countP fun o => o.admission.isEvicted
  published : after.published = before.published
  publishFailed : after.publishFailed = before.publishFailed
  disconnected : after.disconnected = before.disconnected

namespace Counts

theorem nil (report : TurnReport) : Counts 0 [] report report := ⟨rfl, rfl, rfl, rfl, rfl, rfl, rfl⟩

theorem append {m n : Nat} {l l' : List Offer} {a b c : TurnReport} (h : Counts m l a b) (h' : Counts n l' b c) :
    Counts (m + n) (l ++ l') a c := by
  refine ⟨?_, ?_, ?_, ?_, h'.published.trans h.published, h'.publishFailed.trans h.publishFailed,
    h'.disconnected.trans h.disconnected⟩
  · rw [h'.ingested, h.ingested, List.length_append, Nat.add_assoc]
  · have hfirst := h.rejected
    have hlater := h'.rejected
    rw [List.length_append]
    omega
  · rw [h'.stale, h.stale, List.countP_append, Nat.add_assoc]
  · rw [h'.evicted, h.evicted, List.countP_append, Nat.add_assoc]

end Counts

/-- A message is counted by what it is answered. -/
theorem counts_count (report : TurnReport) (s : Step P) {result : Except CombinerError Admission}
    (h : (s.relay.apply s.operation).value = .admission result) :
    Counts 1 s.offer?.toList report (report.count result) := by
  have hanswer := s.admission?_eq
  unfold Step.admission? at hanswer
  rw [h] at hanswer
  cases result with
  | error cause =>
    have hnone : s.offer? = none := Option.map_eq_none_iff.1 hanswer.symm
    rw [hnone]
    exact ⟨rfl, rfl, rfl, rfl, rfl, rfl, rfl⟩
  | ok admission =>
    obtain ⟨o, hoffer, rfl⟩ := Option.map_eq_some_iff.1 hanswer.symm
    rw [hoffer]
    cases hadmission : o.admission <;>
      exact ⟨rfl, rfl, by simp [count, hadmission, Admission.isStale], by simp [count, hadmission, Admission.isEvicted],
        rfl, rfl, rfl⟩

/-- The frames that a turn took: the one it sent, or the one it lost. -/
def taken (report : TurnReport) : Nat := report.published.isSome.toNat + report.publishFailed.toNat

theorem taken_eq_ite {report : TurnReport} (h : ¬(report.published.isSome = true ∧ report.publishFailed = true)) :
    report.taken = if report.published.isSome = true ∨ report.publishFailed = true then 1 else 0 := by
  unfold taken
  cases hsome : report.published.isSome <;> cases hfail : report.publishFailed <;> simp [hsome, hfail] at h ⊢

/-- Adds what became of the frame that the turn took, if it took one. -/
def send (report : TurnReport) : Except FrameLost (Option Key) → TurnReport
  | .ok key => { report with published := key }
  | .error _ => { report with publishFailed := true }

/-- What became of a frame touches no count. -/
theorem send_eq (report : TurnReport) (result : Except FrameLost (Option Key)) :
    (report.send result).ingested = report.ingested ∧ (report.send result).rejected = report.rejected ∧
      (report.send result).stale = report.stale ∧ (report.send result).evicted = report.evicted ∧
      (report.send result).disconnected = report.disconnected := by
  cases result <;> exact ⟨rfl, rfl, rfl, rfl, rfl⟩

/-- A report that tells of no frame yet then tells the key of the frame that was sent, or that one was lost. -/
theorem send_iff {report : TurnReport} (hpublished : report.published = none) (hfailed : report.publishFailed = false)
    (result : Except FrameLost (Option Key)) :
    (∀ key, (report.send result).published = some key ↔ result = .ok (some key)) ∧
      ((report.send result).publishFailed = true ↔ ∃ lost, result = .error lost) ∧
      ¬((report.send result).published.isSome = true ∧ (report.send result).publishFailed = true) ∧
      ((report.send result).published.isSome = true ∨ (report.send result).publishFailed = true ↔
        result ≠ .ok none) := by
  cases result with
  | error lost => simp [send, hpublished]
  | ok key => simp [send, hfailed, Option.isSome_iff_ne_none]

end TurnReport

namespace Loop

/-- Handing over a batch counts each of its messages. -/
theorem counts_foldl_ingestOne {r : Relay P} (done : Outcome Combiner TurnReport) (h : done.state = r.combiner)
    (batch : List Message) :
    TurnReport.Counts batch.length (offers (r.steps (batch.map Message.operation))) done.value
      (batch.foldl ingestOne done).value := by
  induction batch generalizing r done with
  | nil => exact .nil done.value
  | cons message batch ih =>
    have hstate : (ingestOne done message).state = (r.apply message.operation).state.combiner := by
      rw [ingestOne, h]
      rfl
    have hcount : TurnReport.Counts 1 (⟨r, message.operation⟩ : Step P).offer?.toList done.value
        (ingestOne done message).value := by
      rw [ingestOne, h]
      exact TurnReport.counts_count done.value ⟨r, message.operation⟩ rfl
    have hall := hcount.append (ih (ingestOne done message) hstate)
    rw [List.length_cons, Nat.add_comm, List.map_cons, Relay.steps, offers_cons]
    exact hall

/-! ## The two halves -/

/-- Ingesting does not touch the publisher. -/
theorem publisher_ingesting (r : Relay P) (batch : List Message) :
    (r.after (batch.map Message.operation)).publisher = r.publisher := by
  induction batch generalizing r with
  | nil => rfl
  | cons message batch ih => exact ih (r.apply message.operation).state

/-- Taking a frame and sending it afterwards is draining. -/
theorem deliver_takeNext (s : Relay P) {report : TurnReport} (h : report.published = none) :
    (deliver { s with combiner := s.combiner.takeNext.2 } report s.combiner.takeNext.1).state = s.drain.2 ∧
      (deliver { s with combiner := s.combiner.takeNext.2 } report s.combiner.takeNext.1).value =
        report.send s.drain.1 := by
  rw [s.drain_eq]
  rcases s.combiner.takeNext_contents with ⟨-, htake⟩ | ⟨frame, queue, -, -, htake⟩
  · rw [htake]
    refine ⟨rfl, ?_⟩
    rw [TurnReport.send, ← h]
    rfl
  · rw [htake]
    simp only [deliver]
    split <;> rename_i hpublish <;> rw [hpublish] <;> exact ⟨rfl, rfl⟩

/-- The report of a turn before its frame is sent. -/
def gathered (r : Relay P) (inbound : Inbound) : TurnReport :=
  ((inbound.pending.take 64).foldl ingestOne
    ⟨{ TurnReport.empty with disconnected := inbound.hungUp && inbound.pending.length < 64 }, r.combiner, []⟩).value

/-- The report of a turn counts the messages of its batch. -/
theorem counts_gathered (r : Relay P) (inbound : Inbound) :
    TurnReport.Counts (min 64 inbound.pending.length) (offers (r.steps inbound.operations))
      { TurnReport.empty with disconnected := inbound.hungUp && inbound.pending.length < 64 } (gathered r inbound) := by
  have hcounts := counts_foldl_ingestOne (r := r)
    ⟨{ TurnReport.empty with disconnected := inbound.hungUp && inbound.pending.length < 64 }, r.combiner, []⟩ rfl
    (inbound.pending.take 64)
  rwa [List.length_take] at hcounts

/-- The first half of a turn takes what a drain after its batch would take. -/
theorem gather_takeNext (r : Relay P) (inbound : Inbound) :
    let half := gather r.combiner (inbound.pending.take 64) (inbound.hungUp && inbound.pending.length < 64)
    half.value = (gathered r inbound, (r.after inbound.operations).combiner.takeNext.1) ∧
      half.state = (r.after inbound.operations).combiner.takeNext.2 := by
  have hcombiner := Shared.state_foldl_ingestOne (r := r)
    ⟨{ TurnReport.empty with disconnected := inbound.hungUp && inbound.pending.length < 64 }, r.combiner, []⟩ rfl
    (inbound.pending.take 64)
  unfold gather
  simp only [hcombiner]
  exact ⟨rfl, rfl⟩

/-- A turn ingests its batch and then drains. -/
theorem turn_eq_drain (r : Relay P) (inbound : Inbound) :
    (turn r inbound).state =
        ((r.after inbound.operations).drain.2, { inbound with pending := inbound.pending.drop 64 }) ∧
      (turn r inbound).value = (gathered r inbound).send (r.after inbound.operations).drain.1 := by
  obtain ⟨hvalue, hstate⟩ := gather_takeNext r inbound
  obtain ⟨hrelay, hreport⟩ := deliver_takeNext (r.after inbound.operations) (counts_gathered r inbound).published
  have hpublisher : (r.after inbound.operations).publisher = r.publisher := publisher_ingesting r _
  rw [hpublisher] at hrelay hreport
  rw [← hrelay, ← hreport, turn, receive_eq]
  simp only [hvalue, hstate, and_self]

/-- A drain finds nothing, or takes the first frame and sends it or loses it. -/
theorem drain_contents (s : Relay P) :
    (s.combiner.queue.contents = [] ∧ s.drain = (.ok none, s)) ∨
      ∃ frame : Frame, s.combiner.queue.contents = frame :: s.drain.2.combiner.queue.contents ∧
        (s.drain.1 = .ok (some frame.key) ∨ ∃ lost, s.drain.1 = .error lost) := by
  rcases s.combiner.takeNext_contents with ⟨hempty, htake⟩ | ⟨frame, queue, hcontents, -, htake⟩
  · refine Or.inl ⟨hempty, ?_⟩
    rw [s.drain_eq, htake]
  · refine Or.inr ⟨frame, ?_, ?_⟩
    · rw [s.combiner_drain, htake, hcontents]
    · rw [s.drain_eq, htake]
      simp only [Relay.publish_eq]
      cases (Publisher.publish s.publisher frame.header frame.payload).1 with
      | error cause => exact Or.inr ⟨_, rfl⟩
      | ok u => exact Or.inl rfl

/-- A drain finds nothing to take exactly if the queue is empty. -/
theorem drain_eq_none_iff (s : Relay P) : s.drain.1 = .ok none ↔ s.combiner.queue.contents = [] := by
  rcases drain_contents s with ⟨hempty, hdrain⟩ | ⟨frame, hcontents, hsent | ⟨lost, hlost⟩⟩
  · simp [hempty, hdrain]
  · simp [hcontents, hsent]
  · simp [hcontents, hlost]

/-- A drain takes the frames that it reports as sent or lost. -/
theorem count_drain (s : Relay P) {report : TurnReport} (hpublished : report.published = none)
    (hfailed : report.publishFailed = false) :
    s.drain.2.combiner.queue.count + (report.send s.drain.1).taken = s.combiner.queue.count := by
  rcases drain_contents s with ⟨-, hdrain⟩ | ⟨frame, hcontents, hdrain⟩
  · rw [hdrain]
    simp [TurnReport.send, TurnReport.taken, hfailed]
  · have hone : (report.send s.drain.1).taken = 1 := by
      rcases hdrain with hsent | ⟨lost, hlost⟩
      · rw [hsent]
        simp [TurnReport.send, TurnReport.taken, hfailed]
      · rw [hlost]
        simp [TurnReport.send, TurnReport.taken, hpublished]
    rw [hone, ← Queue.length_contents, ← Queue.length_contents, hcontents, List.length_cons]

/-- A turn counts the messages of its batch by what they are answered, and says whether it found all senders gone. -/
theorem counts_turn (r : Relay P) (inbound : Inbound) :
    let answered := offers (r.steps inbound.operations)
    let report := (turn r inbound).value
    report.ingested = answered.length ∧ report.stale = answered.countP (fun o => o.admission.isStale) ∧
      report.evicted = answered.countP (fun o => o.admission.isEvicted) ∧
      report.ingested + report.rejected = min 64 inbound.pending.length ∧
      report.disconnected = (inbound.hungUp && inbound.pending.length < 64) := by
  intro answered report
  have hcounts := counts_gathered r inbound
  obtain ⟨hingested, hrejected, hstale, hevicted, hdisconnected⟩ :=
    TurnReport.send_eq (gathered r inbound) (r.after inbound.operations).drain.1
  rw [← (turn_eq_drain r inbound).2] at hingested hrejected hstale hevicted hdisconnected
  refine ⟨?_, ?_, ?_, ?_, hdisconnected.trans hcounts.disconnected⟩
  · rw [hingested, hcounts.ingested]
    exact Nat.zero_add _
  · rw [hstale, hcounts.stale]
    exact Nat.zero_add _
  · rw [hevicted, hcounts.evicted]
    exact Nat.zero_add _
  · have hmade := hcounts.ingested
    have hall := hcounts.rejected
    simp only [TurnReport.empty] at hmade hall
    rw [hingested, hrejected]
    omega

/-- A turn tells what its drain did. -/
theorem sent_turn (r : Relay P) (inbound : Inbound) :
    let ingested := r.after inbound.operations
    let report := (turn r inbound).value
    (∀ key, report.published = some key ↔ ingested.drain.1 = .ok (some key)) ∧
      (report.publishFailed = true ↔ ∃ lost, ingested.drain.1 = .error lost) ∧
      ¬(report.published.isSome = true ∧ report.publishFailed = true) ∧
      (report.published.isSome = true ∨ report.publishFailed = true ↔ ingested.combiner.queue.contents ≠ []) := by
  intro ingested report
  have hcounts := counts_gathered r inbound
  have hsent := TurnReport.send_iff hcounts.published hcounts.publishFailed ingested.drain.1
  rwa [ne_eq, drain_eq_none_iff, ← (turn_eq_drain r inbound).2] at hsent

/-- The length of the queue after a turn can be told from its report. -/
theorem count_turn (r : Relay P) (inbound : Inbound) :
    (turn r inbound).state.1.combiner.queue.count + (turn r inbound).value.stale + (turn r inbound).value.evicted +
        (turn r inbound).value.taken =
      r.combiner.queue.count + (turn r inbound).value.ingested := by
  obtain ⟨hstate, hvalue⟩ := turn_eq_drain r inbound
  obtain ⟨hingested, hstale, hevicted, -, -⟩ := counts_turn r inbound
  have hcounts := counts_gathered r inbound
  have hdrained := count_drain (r.after inbound.operations) hcounts.published hcounts.publishFailed
  rw [← hvalue] at hdrained
  have htaken : framesTaken (r.steps inbound.operations) = [] := Shared.framesTaken_ingesting r _
  have hbalance := congrArg Multiset.card (balance_steps r inbound.operations)
  simp only [framesOffered, framesStale, htaken, Multiset.card_add, Multiset.coe_card, List.length_map, List.length_nil,
    Queue.length_contents, length_framesEvicted, ← List.countP_eq_length_filter] at hbalance
  have hqueue : (turn r inbound).state.1.combiner.queue.count =
      (r.after inbound.operations).drain.2.combiner.queue.count := by rw [hstate]
  omega

/-- A turn that nothing comes between is a batch of messages and one drain, from every state of the relay and the channel.
1. The messages that wait, up to so many, are ingested one after the other, whether or not they are accepted, and then
the relay drains. The channel keeps the rest.
2. The report counts the messages that made frames, and of these frames the late ones and those for which a full queue
gave up another. The messages counted as ingested or as rejected are those of the batch.
3. The turn finds that all senders are gone exactly if they are and less than a whole batch waited.
4. It reports a key exactly if the drain published it, and a failure exactly if the drain failed, never both, and one of
them exactly if the batch left the queue not empty.
5. The queue grows by the frames ingested, and shrinks by the late ones, those given up, and the one sent or lost. -/
theorem turn_is_batch_and_drain (r : Relay P) (inbound : Inbound) :
    let ingested := r.after inbound.operations
    let answered := offers (r.steps inbound.operations)
    let report := (turn r inbound).value
    (turn r inbound).state = (ingested.drain.2, { inbound with pending := inbound.pending.drop 64 }) ∧
    (report.ingested = answered.length ∧ report.stale = answered.countP (fun o => o.admission.isStale) ∧
      report.evicted = answered.countP (fun o => o.admission.isEvicted) ∧
      report.ingested + report.rejected = min 64 inbound.pending.length) ∧
    (report.disconnected = true ↔ inbound.hungUp = true ∧ inbound.pending.length < 64) ∧
    ((∀ key, report.published = some key ↔ ingested.drain.1 = .ok (some key)) ∧
      (report.publishFailed = true ↔ ∃ lost, ingested.drain.1 = .error lost) ∧
      ¬(report.published.isSome = true ∧ report.publishFailed = true) ∧
      (report.published.isSome = true ∨ report.publishFailed = true ↔ ingested.combiner.queue.contents ≠ [])) ∧
    ((turn r inbound).state.1.combiner.queue.count : Int) =
      r.combiner.queue.count + report.ingested - report.stale - report.evicted -
        if report.published.isSome = true ∨ report.publishFailed = true then 1 else 0 := by
  intro ingested answered report
  obtain ⟨hingested, hstale, hevicted, hbatch, hdisconnected⟩ := counts_turn r inbound
  have hsent := sent_turn r inbound
  refine ⟨(turn_eq_drain r inbound).1, ⟨hingested, hstale, hevicted, hbatch⟩, ?_, hsent, ?_⟩
  · rw [hdisconnected, Bool.and_eq_true, decide_eq_true_iff]
  · have hcount : (turn r inbound).state.1.combiner.queue.count + report.stale + report.evicted + report.taken =
        r.combiner.queue.count + report.ingested := count_turn r inbound
    have htaken : report.taken = _ := TurnReport.taken_eq_ite hsent.2.2.1
    split <;> rename_i htold
    · rw [if_pos htold] at htaken
      omega
    · rw [if_neg htold] at htaken
      omega

end Loop

end FrameMerge
