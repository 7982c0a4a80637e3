import FrameMerge.Proofs.Likeness

/-!
# Frames that are refused

The combiner does not learn what becomes of a frame that it gave out. Between the operations of a run, a recorder may be
told to refuse frames, as often as one likes: it shows in the answers to drains and in the record, and nowhere else. The
combiners of two runs that differ in nothing but that stay alike (`Relay.answers_of_commands`). The recorder
refuses as many of the frames that are sent as it was told last, and records the others (`Relay.drain_cases`).
-/

namespace FrameMerge

/-- An operation, or the demand that the next frames be refused. -/
inductive Command
  | operation (op : Operation)
  | failNext (failures : Nat)

/-- The operation that a command asks for. -/
def Command.operation? : Command → Option Operation
  | .operation op => some op
  | .failNext _ => none

namespace Relay

/-- Does as a command says. -/
def obey (r : Relay Recorder) : Command → Relay Recorder
  | .operation op => (r.apply op).state
  | .failNext failures => { r with publisher := r.publisher.failNext failures }

/-- Does as commands say, one after the other. -/
def obeyAll (r : Relay Recorder) (commands : List Command) : Relay Recorder := commands.foldl obey r

/-- The operations that commands ask for, with the relay that each of them met. -/
def commandSteps (r : Relay Recorder) : List Command → List (Step Recorder)
  | [] => []
  | .operation op :: rest => ⟨r, op⟩ :: (r.obey (.operation op)).commandSteps rest
  | .failNext failures :: rest => (r.obey (.failNext failures)).commandSteps rest

end Relay

variable {P : Type} [Publisher P]

/-- The frame that a step sends, whatever becomes of it. -/
def Step.sent? (s : Step P) : Option Frame :=
  match s.operation with
  | .drain => s.relay.combiner.takeNext.1
  | _ => none

/-- The frame that a step sends is lost. -/
def Step.isLost (s : Step P) : Bool :=
  match (s.relay.apply s.operation).value with
  | .drained (.error _) => true
  | _ => false

/-- The frames that steps send, in their order, whatever becomes of them. -/
def framesSent (steps : List (Step P)) : List Frame := steps.filterMap Step.sent?

omit [Publisher P] in
@[simp] theorem framesSent_cons (s : Step P) (steps : List (Step P)) :
    framesSent (s :: steps) = s.sent?.toList ++ framesSent steps := by
  simp only [framesSent, List.filterMap_eq_flatMap_toList, List.flatMap_cons]

/-- The answer to a drain that takes a frame, or none, and has it refused or not. -/
def drainAnswer (refused : Bool) : Option Frame → Except FrameLost (Option Key)
  | none => .ok none
  | some frame => if refused then .error ⟨frame.key, .unavailable⟩ else .ok (some frame.key)

/-! ## The combiner -/

namespace Relay

/-- What the recorder is told does not show in the answers: they are those to the operations alone. -/
theorem answers_of_commands {r r' : Relay Recorder} (h : r.combiner.Alike r'.combiner) (commands : List Command) :
    (r.commandSteps commands).map Step.answer = (r'.steps (commands.filterMap Command.operation?)).map Step.answer ∧
      (r.commandSteps commands).map (fun s => s.next.combiner.stats) =
        (r'.steps (commands.filterMap Command.operation?)).map fun s => s.next.combiner.stats := by
  induction commands generalizing r r' with
  | nil => exact ⟨rfl, rfl⟩
  | cons command commands ih =>
    cases command with
    | operation op =>
      obtain ⟨hanswer, hnext⟩ := Step.alike ⟨r, op⟩ ⟨r', op⟩ h rfl
      obtain ⟨hanswers, hstats⟩ := ih hnext
      exact ⟨congrArg₂ List.cons hanswer hanswers, congrArg₂ List.cons hnext.stats hstats⟩
    | failNext failures => exact ih (r := r.obey (.failNext failures)) h

end Relay

/-! ## The recorder -/

/-- A recorder refuses a frame if it is to refuse any, and records it otherwise. -/
theorem Recorder.publish_eq (recorder : Recorder) (header : Header) (payload : Bytes) :
    Publisher.publish recorder header payload =
      if 0 < recorder.failures then
        (.error .unavailable, { recorder with failures := recorder.failures - 1 })
      else (.ok (), { recorder with published := recorder.published ++ [(header, payload)] }) := by
  obtain ⟨published, failures⟩ := recorder
  cases failures <;> rfl

namespace Relay

/-- A drain finds no frame, or has it refused or recorded. -/
theorem drain_cases (r : Relay Recorder) :
    (r.combiner.takeNext.1 = none ∧ r.drain.1 = .ok none ∧ r.drain.2.publisher = r.publisher) ∨
    ∃ frame, r.combiner.takeNext.1 = some frame ∧
      ((0 < r.publisher.failures ∧ r.drain.1 = .error ⟨frame.key, .unavailable⟩ ∧
          r.drain.2.publisher = { r.publisher with failures := r.publisher.failures - 1 }) ∨
        (r.publisher.failures = 0 ∧ r.drain.1 = .ok (some frame.key) ∧
          r.drain.2.publisher =
            { r.publisher with published := r.publisher.published ++ [(frame.header, frame.payload)] })) := by
  rw [r.drain_eq]
  cases htake : r.combiner.takeNext.1 with
  | none => exact Or.inl ⟨rfl, rfl, rfl⟩
  | some frame =>
    refine Or.inr ⟨frame, rfl, ?_⟩
    simp only [publish_eq, Recorder.publish_eq]
    by_cases hrefuse : 0 < r.publisher.failures
    · rw [if_pos hrefuse]
      exact Or.inl ⟨hrefuse, rfl, rfl⟩
    · rw [if_neg hrefuse]
      exact Or.inr ⟨Nat.eq_zero_of_not_pos hrefuse, rfl, rfl⟩

end Relay

/-- A frame that a step sends is one fewer to be refused, and is added to the record unless it is lost. -/
theorem Step.publisher_next (s : Step Recorder) :
    s.next.publisher.failures = s.relay.publisher.failures - s.sent?.toList.length ∧
      s.next.publisher.published = s.relay.publisher.published ++
        ((if s.isLost then none else s.sent?).toList.map fun frame => (frame.header, frame.payload)) := by
  obtain ⟨r, op⟩ := s
  by_cases hop : op = .drain
  · subst hop
    show r.drain.2.publisher.failures = _ - r.combiner.takeNext.1.toList.length ∧ r.drain.2.publisher.published = _
    rcases r.drain_cases with ⟨htake, hvalue, hpublisher⟩ | ⟨frame, htake, hsent⟩
    · simp [sent?, isLost, Relay.apply, htake, hvalue, hpublisher]
    · rcases hsent with ⟨-, hvalue, hpublisher⟩ | ⟨hnone, hvalue, hpublisher⟩
      · simp [isLost, Relay.apply, htake, hvalue, hpublisher]
      · simp [sent?, isLost, Relay.apply, htake, hvalue, hpublisher, hnone]
  · have hsent : (⟨r, op⟩ : Step Recorder).sent? = none := by
      cases op <;> first | rfl | exact absurd rfl hop
    have hnext : (⟨r, op⟩ : Step Recorder).next.publisher = r.publisher := r.publisher_apply hop
    rw [hsent, hnext]
    simp

namespace Relay

/-- Operations leave as many frames to be refused as they have not sent. -/
theorem failures_after (r : Relay Recorder) (ops : List Operation) :
    (r.after ops).publisher.failures = r.publisher.failures - (framesSent (r.steps ops)).length := by
  induction ops generalizing r with
  | nil => rfl
  | cons op ops ih =>
    have hstep := (Step.publisher_next ⟨r, op⟩).1
    have hrest := ih (r.apply op).state
    rw [after_cons, hrest, steps, framesSent_cons, List.length_append, ← Nat.sub_sub]
    exact congrArg (· - _) hstep

/-- The record is that of the frames sent, without those that were lost. -/
theorem published_obeyAll (r : Relay Recorder) (commands : List Command) :
    (r.obeyAll commands).publisher.published = r.publisher.published ++
      (framesSent ((r.commandSteps commands).filter fun s => !s.isLost)).map
        fun frame => (frame.header, frame.payload) := by
  induction commands generalizing r with
  | nil => simp [obeyAll, commandSteps, framesSent]
  | cons command commands ih =>
    cases command with
    | operation op =>
      have hstep := (Step.publisher_next ⟨r, op⟩).2
      have hrest := ih (r.obey (.operation op))
      show ((r.obey (.operation op)).obeyAll commands).publisher.published = _
      rw [hrest, commandSteps]
      show (⟨r, op⟩ : Step Recorder).next.publisher.published ++ _ = _
      rw [hstep]
      cases hlost : (⟨r, op⟩ : Step Recorder).isLost <;> simp [hlost]
    | failNext failures => exact ih (r.obey (.failNext failures))

theorem obeyAll_append (r : Relay Recorder) (a b : List Command) : r.obeyAll (a ++ b) = (r.obeyAll a).obeyAll b :=
  List.foldl_append

/-- Commands that only ask for operations do what these do. -/
theorem obeyAll_operations (r : Relay Recorder) (ops : List Operation) :
    r.obeyAll (ops.map .operation) = r.after ops := by
  induction ops generalizing r with
  | nil => rfl
  | cons op ops ih => exact ih (r.apply op).state

/-- After operations, the frame that a drain takes is refused exactly if fewer were sent than were to be refused. -/
theorem drain_after (r : Relay Recorder) (ops : List Operation) :
    (r.after ops).drain.1 =
      drainAnswer ((framesSent (r.steps ops)).length < r.publisher.failures) (r.after ops).combiner.takeNext.1 := by
  have hfailures := r.failures_after ops
  rcases (r.after ops).drain_cases with ⟨htake, hvalue, -⟩ | ⟨frame, htake, hsent⟩
  · rw [htake, hvalue]
    rfl
  · rw [htake, drainAnswer]
    rcases hsent with ⟨hrefuse, hvalue, -⟩ | ⟨hnone, hvalue, -⟩
    · rw [hvalue, if_pos (decide_eq_true (by omega))]
    · rw [hvalue, if_neg (by simp only [decide_eq_true_eq]; omega)]

end Relay

/-- The combiner does not depend on what is refused. Let a relay whose publisher is a recorder be given two runs of
commands that ask for the same operations and differ only in when the recorder is told to refuse frames, and how many.
1. The operations are answered alike in both, with the frame that a drain takes in the place of what becomes of it, and
after each of them all that can be asked about the combiner is the same.
2. In every run, a drain that takes a frame fails exactly if fewer frames were sent, since the recorder was last told
how many to refuse, than it was told; otherwise it answers the key of the frame. The same holds before the recorder is
first told, for as many as it was to refuse at the start.
3. In every run, what is added to the record are the frames that drains take, in their order, with their headers and
payloads, and without exactly those whose drains failed. -/
theorem combiner_ignores_refusals (r : Relay Recorder) (a b : List Command)
    (h : a.filterMap Command.operation? = b.filterMap Command.operation?) :
    ((r.commandSteps a).map Step.answer = (r.commandSteps b).map Step.answer ∧
      (r.commandSteps a).map (fun s => s.next.combiner.stats) =
        (r.commandSteps b).map fun s => s.next.combiner.stats) ∧
    ((∀ before failures ops,
        (r.obeyAll (before ++ .failNext failures :: ops.map .operation)).drain.1 =
          drainAnswer ((framesSent ((r.obeyAll (before ++ [.failNext failures])).steps ops)).length < failures)
            (r.obeyAll (before ++ .failNext failures :: ops.map .operation)).combiner.takeNext.1) ∧
      ∀ ops, (r.after ops).drain.1 =
        drainAnswer ((framesSent (r.steps ops)).length < r.publisher.failures) (r.after ops).combiner.takeNext.1) ∧
    ∀ run, (r.obeyAll run).publisher.published = r.publisher.published ++
      (framesSent ((r.commandSteps run).filter fun s => !s.isLost)).map fun frame => (frame.header, frame.payload) := by
  refine ⟨?_, ⟨fun before failures ops => ?_, r.drain_after⟩, r.published_obeyAll⟩
  · obtain ⟨hanswers, hstats⟩ := Relay.answers_of_commands (.refl r.combiner) a
    obtain ⟨hanswers', hstats'⟩ := Relay.answers_of_commands (.refl r.combiner) b
    rw [hanswers, hanswers', hstats, hstats', h]
    exact ⟨rfl, rfl⟩
  · have hrun : r.obeyAll (before ++ .failNext failures :: ops.map .operation) =
        (r.obeyAll (before ++ [.failNext failures])).after ops := by
      rw [List.append_cons, Relay.obeyAll_append, Relay.obeyAll_operations]
    have htold : (r.obeyAll (before ++ [.failNext failures])).publisher.failures = failures := by
      rw [Relay.obeyAll_append]
      rfl
    have hdrain := (r.obeyAll (before ++ [.failNext failures])).drain_after ops
    rw [htold] at hdrain
    rw [hrun, hdrain]

namespace Sample

/-- Two frames are queued, and the first to be sent is to be refused. -/
def refuseFirst : List Command :=
  [.failNext 1, .operation (.ingest 0 (message 5) []), .operation (.ingest 1 (message 7) []), .operation .drain,
    .operation .drain]

/-- The same operations, but the second frame is to be refused. -/
def refuseSecond : List Command :=
  [.operation (.ingest 0 (message 5) []), .operation (.ingest 1 (message 7) []), .operation .drain, .failNext 3,
    .operation .drain]

end Sample

/-- Whichever of two frames is refused, the combiner answers alike, and the other frame is recorded. -/
theorem combiner_ignores_refusals_sample :
    Sample.refuseFirst.filterMap Command.operation? = Sample.refuseSecond.filterMap Command.operation? ∧
      (Sample.relay.commandSteps Sample.refuseFirst).map Step.answer =
        (Sample.relay.commandSteps Sample.refuseSecond).map Step.answer ∧
      (Sample.relay.obeyAll Sample.refuseFirst).publisher.published.map (fun sent => sent.1.frameNumber) = [7] ∧
      (Sample.relay.obeyAll Sample.refuseSecond).publisher.published.map (fun sent => sent.1.frameNumber) = [5] := by
  have hsame : Sample.refuseFirst.filterMap Command.operation? = Sample.refuseSecond.filterMap Command.operation? := rfl
  obtain ⟨⟨hanswers, -⟩, -, hpublished⟩ := combiner_ignores_refusals Sample.relay _ _ hsame
  refine ⟨hsame, hanswers, ?_, ?_⟩
  · rw [hpublished]
    decide +kernel
  · rw [hpublished]
    decide +kernel

end FrameMerge
