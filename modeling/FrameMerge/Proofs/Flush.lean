import FrameMerge.Proofs.Renewal
import FrameMerge.Proofs.Turn

/-!
# The loop flushes and ends

When all senders have hung up, the loop hands over what still waits, sends what is queued, and ends. `Ends` says which
turns are taken and where they lead, and does not count them; that there is always a last turn is because each turn that
is not the last leaves fewer to come (`turnsLeft_next`). While messages wait, only the batches are counted, since the
queue may grow; after that, only the queue.
-/

namespace FrameMerge

variable {P : Type} [Publisher P]

/-- What a turn accounts for: the messages that were rejected, and the frames that were late, given up, sent or lost. -/
def TurnReport.accounted (report : TurnReport) : Nat := report.rejected + report.stale + report.evicted + report.taken

/-- What a turn with this batch asks of the relay. -/
def Loop.turnOperations (batch : List Message) : List Operation := batch.map Message.operation ++ [.drain]

namespace Loop

/-- Turn by turn up to the last, the loop makes these reports, and leaves this relay and this channel. -/
inductive Ends : Relay P → Inbound → List TurnReport → Relay P × Inbound → Prop
  | last {r : Relay P} {inbound : Inbound} (h : isLast (turn r inbound).value (turn r inbound).state.1 = true) :
    Ends r inbound [(turn r inbound).value] (turn r inbound).state
  | next {r : Relay P} {inbound : Inbound} {reports : List TurnReport} {final : Relay P × Inbound}
    (h : isLast (turn r inbound).value (turn r inbound).state.1 = false)
    (rest : Ends (turn r inbound).state.1 (turn r inbound).state.2 reports final) :
    Ends r inbound ((turn r inbound).value :: reports) final

/-! ## One turn -/

/-- A turn carries its operations out. -/
theorem turn_eq_after (r : Relay P) (inbound : Inbound) :
    (turn r inbound).state.1 = r.after (turnOperations (inbound.pending.take 64)) ∧
      (turn r inbound).state.2 = { inbound with pending := inbound.pending.drop 64 } := by
  have hstate := (turn_eq_drain r inbound).1
  rw [hstate, turnOperations, r.after_append]
  exact ⟨rfl, rfl⟩

/-- What waited and what was queued before a turn is accounted for, or it still waits or is queued. -/
theorem accounted_turn (r : Relay P) (inbound : Inbound) :
    inbound.pending.length + r.combiner.queue.count =
      (turn r inbound).value.accounted +
        ((turn r inbound).state.2.pending.length + (turn r inbound).state.1.combiner.queue.count) := by
  have hcount := count_turn r inbound
  obtain ⟨-, -, -, hbatch, -⟩ := counts_turn r inbound
  rw [(turn_eq_after r inbound).2, TurnReport.accounted, List.length_drop]
  omega

/-- The last turn finds no more than a batch, and leaves nothing. -/
theorem nothing_of_isLast {r : Relay P} {inbound : Inbound}
    (h : isLast (turn r inbound).value (turn r inbound).state.1 = true) :
    inbound.pending.length ≤ 64 ∧ (turn r inbound).state.2 = { inbound with pending := [] } ∧
      (turn r inbound).state.1.combiner.queue.contents = [] := by
  rw [isLast, Bool.and_eq_true, Bool.and_eq_true] at h
  obtain ⟨⟨hdisconnected, -⟩, hempty⟩ := h
  obtain ⟨-, -, -, -, hgone⟩ := counts_turn r inbound
  rw [hdisconnected, eq_comm, Bool.and_eq_true, decide_eq_true_iff] at hgone
  have hfew : inbound.pending.length ≤ 64 := Nat.le_of_lt hgone.2
  refine ⟨hfew, ?_, (Queue.isEmpty_iff _).1 hempty⟩
  rw [(turn_eq_after r inbound).2, List.drop_of_length_le hfew]

/-- Where all senders are gone and no message waits, a turn that takes no frame is the last. -/
theorem isLast_of_taken_eq_zero {r : Relay P} {inbound : Inbound} (hgone : inbound.hungUp = true)
    (hpending : inbound.pending = []) (htaken : (turn r inbound).value.taken = 0) :
    isLast (turn r inbound).value (turn r inbound).state.1 = true := by
  obtain ⟨-, -, -, -, hdisconnected⟩ := counts_turn r inbound
  obtain ⟨-, -, -, hfound⟩ := sent_turn r inbound
  rw [TurnReport.taken, Nat.add_eq_zero_iff, Bool.toNat_eq_zero, Bool.toNat_eq_zero] at htaken
  obtain ⟨hpublished, hfailed⟩ := htaken
  have hnone : (turn r inbound).value.published.isNone = true := by
    rw [← Option.not_isSome, hpublished]
    rfl
  have hempty : (r.after inbound.operations).combiner.queue.contents = [] := by
    by_contra hsome
    rcases hfound.2 hsome with h | h
    · rw [hpublished] at h
      cases h
    · rw [hfailed] at h
      cases h
  have hleft : (turn r inbound).state.1 = r.after inbound.operations := by
    rw [(turn_eq_drain r inbound).1]
    rcases drain_contents (r.after inbound.operations) with ⟨-, hdrain⟩ | ⟨frame, hcontents, -⟩
    · rw [hdrain]
    · rw [hempty] at hcontents
      cases hcontents
  rw [isLast, hdisconnected, hgone, hpending, hnone, hleft, (Queue.isEmpty_iff _).2 hempty]
  rfl

/-! ## The turns to come -/

/-- The most turns to come: while messages wait, one for each batch and as many as may be needed afterwards; once none
waits, one for each frame in the queue and one that finds nothing left. -/
def turnsLeft (r : Relay P) (inbound : Inbound) : Nat :=
  if inbound.pending = [] then r.combiner.queue.count + 1 else turnBound r inbound

omit [Publisher P] in
theorem turnsLeft_le (r : Relay P) (inbound : Inbound) : turnsLeft r inbound ≤ turnBound r inbound := by
  have hcount := r.combiner.queue.count_le
  unfold turnsLeft turnBound maxBatch
  split
  · omega
  · exact Nat.le_refl _

omit [Publisher P] in
theorem turnsLeft_pos (r : Relay P) (inbound : Inbound) : 0 < turnsLeft r inbound := by
  unfold turnsLeft turnBound
  split <;> exact Nat.succ_pos _

/-- A turn that is not the last leaves fewer to come. -/
theorem turnsLeft_next {r : Relay P} {inbound : Inbound} (hgone : inbound.hungUp = true)
    (h : isLast (turn r inbound).value (turn r inbound).state.1 = false) :
    turnsLeft (turn r inbound).state.1 (turn r inbound).state.2 < turnsLeft r inbound := by
  obtain ⟨hrelay, hinbound⟩ := turn_eq_after r inbound
  have hcapacity : (turn r inbound).state.1.combiner.queue.capacity = r.combiner.queue.capacity := by
    rw [hrelay]
    exact r.capacity_after _
  by_cases hpending : inbound.pending = []
  · -- only the queue is left, and each turn but the last takes a frame
    have htaken : (turn r inbound).value.taken ≠ 0 := by
      intro hzero
      rw [isLast_of_taken_eq_zero hgone hpending hzero] at h
      cases h
    have haccounted := accounted_turn r inbound
    rw [turnsLeft, turnsLeft, hinbound, hpending, List.drop_nil, if_pos rfl, if_pos rfl]
    rw [hinbound, hpending, TurnReport.accounted] at haccounted
    simp only [List.drop_nil, List.length_nil] at haccounted
    omega
  · have hsome := List.length_pos_iff.2 hpending
    have hcount := (turn r inbound).state.1.combiner.queue.count_le
    rw [turnsLeft, turnsLeft, if_neg hpending]
    split
    · -- what was the last batch leaves at most a full queue
      unfold turnBound maxBatch
      omega
    · -- more than a batch waited
      rename_i hmore
      rw [hinbound] at hmore ⊢
      have hlong : 64 < inbound.pending.length := List.length_lt_of_drop_ne_nil hmore
      unfold turnBound maxBatch
      rw [hcapacity, List.length_drop]
      omega

/-! ## The whole run -/

namespace Ends

variable {r : Relay P} {inbound : Inbound} {reports : List TurnReport} {final : Relay P × Inbound}

/-- The turns up to the last are determined. -/
theorem unique (h : Ends r inbound reports final) {reports' : List TurnReport} {final' : Relay P × Inbound}
    (h' : Ends r inbound reports' final') : reports = reports' ∧ final = final' := by
  induction h generalizing reports' final' with
  | last hlast =>
    cases h' with
    | last => exact ⟨rfl, rfl⟩
    | next hmore =>
      rw [hlast] at hmore
      cases hmore
  | next hmore _ ih =>
    cases h' with
    | last hlast =>
      rw [hlast] at hmore
      cases hmore
    | next _ rest =>
      obtain ⟨rfl, rfl⟩ := ih rest
      exact ⟨rfl, rfl⟩

/-- At the end, nothing waits and nothing is queued. -/
theorem flushed (h : Ends r inbound reports final) :
    final.2 = { inbound with pending := [] } ∧ final.1.combiner.queue.contents = [] := by
  induction h with
  | last hlast => exact (nothing_of_isLast hlast).2
  | next _ _ ih =>
    rw [(turn_eq_after _ _).2] at ih
    exact ih

/-- Up to the end, all that waited is ingested in its order, batch by batch, and a frame is drained after each batch. -/
theorem carriedOut (h : Ends r inbound reports final) :
    ∃ batches : List (List Message), batches.flatten = inbound.pending ∧ batches.length = reports.length ∧
      (∀ batch ∈ batches, batch.length ≤ 64) ∧ final.1 = r.after (batches.flatMap turnOperations) := by
  induction h with
  | @last r inbound hlast =>
    have hfew := (nothing_of_isLast hlast).1
    refine ⟨[inbound.pending], List.flatten_singleton, rfl, ?_, ?_⟩
    · intro batch hbatch
      rwa [List.mem_singleton.1 hbatch]
    · rw [(turn_eq_after r inbound).1, List.take_of_length_le hfew, List.flatMap_singleton]
  | @next r inbound reports final _ _ ih =>
    obtain ⟨hrelay, hinbound⟩ := turn_eq_after r inbound
    obtain ⟨batches, hflatten, hlength, hsmall, hfinal⟩ := ih
    refine ⟨inbound.pending.take 64 :: batches, ?_, ?_, ?_, ?_⟩
    · rw [List.flatten_cons, hflatten, hinbound]
      exact List.take_append_drop _ _
    · rw [List.length_cons, List.length_cons, hlength]
    · intro batch hbatch
      rcases List.mem_cons.1 hbatch with rfl | hbatch
      · exact List.length_take_le _ _
      · exact hsmall batch hbatch
    · rw [hfinal, hrelay, ← r.after_append, List.flatMap_cons]

/-- Up to the end, all that waited and all that was queued is accounted for. -/
theorem accounted (h : Ends r inbound reports final) :
    inbound.pending.length + r.combiner.queue.count = (reports.map TurnReport.accounted).sum := by
  induction h with
  | @last r inbound hlast =>
    obtain ⟨-, hinbound, hcontents⟩ := nothing_of_isLast hlast
    rw [accounted_turn, hinbound, ← Queue.length_contents, hcontents]
    rfl
  | next _ _ ih => rw [accounted_turn, ih, List.map_cons, List.sum_cons]

end Ends

/-- The last turn ends the run. -/
theorem runTurns_of_isLast (health : Bool) {r : Relay P} {inbound : Inbound} (published turns : Nat)
    (h : isLast (turn r inbound).value (turn r inbound).state.1 = true) :
    (runTurns health r inbound published (turns + 1)).value = [(turn r inbound).value] ∧
      (runTurns health r inbound published (turns + 1)).state = (turn r inbound).state := by
  simp only [runTurns, h, if_true, and_self]

/-- Any other turn is followed by a run of fewer turns, whatever the health log says. -/
theorem runTurns_of_not_isLast (health : Bool) {r : Relay P} {inbound : Inbound} (published turns : Nat)
    (h : isLast (turn r inbound).value (turn r inbound).state.1 = false) :
    ∃ published', let rest := runTurns health (turn r inbound).state.1 (turn r inbound).state.2 published' turns
      (runTurns health r inbound published (turns + 1)).value = (turn r inbound).value :: rest.value ∧
        (runTurns health r inbound published (turns + 1)).state = rest.state := by
  simp only [runTurns, h]
  exact ⟨_, rfl, rfl⟩

/-- With as many turns as may be to come, the loop reaches its end, with or without a health log. -/
theorem ends_runTurns (health : Bool) {r : Relay P} {inbound : Inbound} (published : Nat) {turns : Nat}
    (hgone : inbound.hungUp = true) (h : turnsLeft r inbound ≤ turns) :
    Ends r inbound (runTurns health r inbound published turns).value
      (runTurns health r inbound published turns).state := by
  induction turns generalizing r inbound published with
  | zero =>
    have hpos := turnsLeft_pos r inbound
    omega
  | succ turns ih =>
    cases hlast : isLast (turn r inbound).value (turn r inbound).state.1 with
    | true =>
      obtain ⟨hvalue, hstate⟩ := runTurns_of_isLast health published turns hlast
      rw [hvalue, hstate]
      exact .last hlast
    | false =>
      obtain ⟨published', hvalue, hstate⟩ := runTurns_of_not_isLast health published turns hlast
      have hfewer := turnsLeft_next hgone hlast
      have hstill : (turn r inbound).state.2.hungUp = true := by rw [(turn_eq_after r inbound).2, hgone]
      rw [hvalue, hstate]
      exact .next hlast (ih published' hstill (by omega))

theorem length_runTurns_le (health : Bool) (r : Relay P) (inbound : Inbound) (published turns : Nat) :
    (runTurns health r inbound published turns).value.length ≤ turns := by
  induction turns generalizing r inbound published with
  | zero => exact Nat.le_refl 0
  | succ turns ih =>
    cases hlast : isLast (turn r inbound).value (turn r inbound).state.1 with
    | true =>
      rw [(runTurns_of_isLast health published turns hlast).1]
      exact Nat.succ_le_succ (Nat.zero_le turns)
    | false =>
      obtain ⟨published', hvalue, -⟩ := runTurns_of_not_isLast health published turns hlast
      rw [hvalue, List.length_cons]
      exact Nat.succ_le_succ (ih _ _ published')

/-- Once all senders have hung up, the loop ends and flushes, with any messages waiting and from every state of the relay.
1. The turns up to the last are those that the run makes; it does not matter that the run counts them.
2. There are no more than one for each batch of messages, one for each place in the queue and one more.
3. The messages are ingested each once and in their order, batch by batch, and a frame is drained after each batch; nothing
else happens to the relay.
4. No message waits in the end, and no frame is queued.
5. The messages and the frames queued at the start are as many as were rejected, late, given up, published and lost in all
turns. -/
theorem run_ends_and_flushes (health : Bool) (r : Relay P) (messages : List Message) :
    let done := run health false r ⟨messages, true⟩
    (∀ reports final, Ends r ⟨messages, true⟩ reports final ↔ reports = done.value ∧ final = done.state) ∧
    done.value.length ≤ (messages.length + 63) / 64 + r.combiner.queue.capacity + 1 ∧
    (∃ batches : List (List Message), batches.flatten = messages ∧ batches.length = done.value.length ∧
      (∀ batch ∈ batches, batch.length ≤ 64) ∧ done.state.1 = r.after (batches.flatMap turnOperations)) ∧
    (done.state.2 = ⟨[], true⟩ ∧ done.state.1.combiner.queue.contents = []) ∧
    messages.length + r.combiner.queue.count = (done.value.map TurnReport.accounted).sum := by
  intro done
  have hends : Ends r ⟨messages, true⟩ done.value done.state :=
    ends_runTurns health 0 rfl (turnsLeft_le r ⟨messages, true⟩)
  refine ⟨fun reports final => ?_, length_runTurns_le health r ⟨messages, true⟩ 0 _, hends.carriedOut, hends.flushed,
    hends.accounted⟩
  constructor
  · intro hother
    exact hother.unique hends
  · rintro ⟨rfl, rfl⟩
    exact hends

end Loop

end FrameMerge
