import FrameMerge.Relay.Loop
import FrameMerge.Proofs.OutputOrder

/-!
# The loop beside control requests

The loop holds the combiner while it ingests a batch and takes a frame, and lets go of it before it sends the frame. A
reset may fall in between. The frame is then sent after a reset that has forgotten it: the keys sent since the reset
begin with a key that no mark guards, and frames below it may follow. This is the only way for the order to break: the
keys of a run stay `InLine` with what the combiner has taken.
-/

namespace FrameMerge

/-- What the loop and the control requests share, with the turn under way: its report so far and the frame it took. -/
structure Shared (P : Type) where
  relay : Relay P
  inbound : Inbound
  underWay : Option (TurnReport × Option Frame)

/-- What happens next: a sender acts, the loop does the next half of a turn, or a control request is served. -/
inductive Action
  | send (message : Message)
  | hangUp
  | advance
  | reset
  | stats

/-- The action starts all counting anew. -/
def Action.isReset : Action → Bool
  | .reset => true
  | _ => false

/-- What a message asks of the combiner. -/
def Message.operation (message : Message) : Operation := .ingest message.source message.header message.payload

namespace Shared

variable {P : Type} [Publisher P]

/-- A loop that has not begun, on a channel to which nothing was sent. -/
def start (r : Relay P) : Shared P := ⟨r, .empty, none⟩

/-- The frame that a turn has taken and not yet sent. -/
def inFlight? (s : Shared P) : Option Frame := s.underWay.bind Prod.snd

/-- The key of the frame in flight, if sending it succeeds. -/
def delivery? (s : Shared P) : Option Key := s.inFlight?.bind fun frame => (s.relay.publish frame).1.toOption

/-- Lets one thing happen, all at once. -/
def act (s : Shared P) : Action → Shared P
  | .send message => { s with inbound := (s.inbound.send message).2 }
  | .hangUp => { s with inbound := s.inbound.hangUp }
  | .advance =>
    match s.underWay with
    | none =>
      let (batch, disconnected, inbound) := Loop.receive s.inbound
      let gathered := Loop.gather s.relay.combiner batch disconnected
      ⟨{ s.relay with combiner := gathered.state }, inbound, some gathered.value⟩
    | some (report, frame) => { s with relay := (Loop.deliver s.relay report frame).state, underWay := none }
  | .reset => { s with relay := (s.relay.apply .reset).state }
  | .stats => { s with relay := (s.relay.apply .stats).state }

/-- The key that an action publishes. -/
def published? (s : Shared P) : Action → Option Key
  | .advance => s.delivery?
  | _ => none

/-- What a run of actions leaves. -/
def after (s : Shared P) (actions : List Action) : Shared P := actions.foldl act s

/-- The keys that a run of actions publishes, in their order. -/
def published (s : Shared P) : List Action → List Key
  | [] => []
  | action :: rest => (s.published? action).toList ++ (s.act action).published rest

/-! ## Halves of a turn -/

/-- What the first half of a turn asks of the combiner. -/
def gathering (batch : List Message) : List Operation := batch.map Message.operation ++ [.takeNext]

theorem isReset_gathering (batch : List Message) : ∀ op ∈ gathering batch, op.isReset = false := by
  intro op hop
  rcases List.mem_append.1 hop with hop | hop
  · obtain ⟨message, -, rfl⟩ := List.mem_map.1 hop
    rfl
  · rw [List.mem_singleton.1 hop]
    rfl

/-- Handing over a batch is ingesting its messages one after the other. -/
theorem state_foldl_ingestOne {r : Relay P} (done : Outcome Combiner TurnReport) (h : done.state = r.combiner)
    (batch : List Message) :
    (batch.foldl Loop.ingestOne done).state = (r.after (batch.map Message.operation)).combiner := by
  induction batch generalizing r done with
  | nil => exact h
  | cons message batch ih =>
    have hnext : (Loop.ingestOne done message).state = (⟨r, message.operation⟩ : Step P).next.combiner := by
      rw [Loop.ingestOne, h]
      rfl
    exact ih _ hnext

/-- Handing over a batch publishes nothing. -/
theorem published_foldl_ingestOne (done : Outcome Combiner TurnReport) (batch : List Message) :
    (batch.foldl Loop.ingestOne done).value.published = done.value.published := by
  induction batch generalizing done with
  | nil => rfl
  | cons message batch ih =>
    have hcount : ∀ report : TurnReport, ∀ result, (report.count result).published = report.published := by
      intro report result
      rcases result with _ | _ | _ | _ <;> rfl
    rw [List.foldl_cons, ih]
    exact hcount _ _

/-- Ingesting takes nothing. -/
theorem framesTaken_ingesting (r : Relay P) (batch : List Message) :
    framesTaken (r.steps (batch.map Message.operation)) = [] := by
  induction batch generalizing r with
  | nil => rfl
  | cons message batch ih =>
    rw [List.map_cons, Relay.steps, framesTaken_cons, ih]
    rfl

/-- The first half of a turn leaves the combiner, and takes what, its operations do; its report names no key yet. -/
theorem gather_eq (r : Relay P) (batch : List Message) (disconnected : Bool) :
    (Loop.gather r.combiner batch disconnected).state = (r.after (gathering batch)).combiner ∧
      (Loop.gather r.combiner batch disconnected).value.2.toList = framesTaken (r.steps (gathering batch)) ∧
      (Loop.gather r.combiner batch disconnected).value.1.published = none := by
  have hstate := state_foldl_ingestOne (r := r) ⟨{ TurnReport.empty with disconnected }, r.combiner, []⟩ rfl batch
  refine ⟨?_, ?_, published_foldl_ingestOne _ batch⟩
  · rw [gathering, r.after_append, Relay.after_cons, Relay.after_nil]
    show (Combiner.takeNext _).2 = _
    rw [hstate]
    rfl
  · rw [gathering, r.steps_append, framesTaken_append, framesTaken_ingesting, List.nil_append]
    show (Combiner.takeNext _).1.toList = _
    rw [hstate]
    simp [Relay.steps, Step.taken?]

/-- Delivering does not touch the combiner. -/
theorem combiner_deliver (r : Relay P) (report : TurnReport) (frame : Option Frame) :
    (Loop.deliver r report frame).state.combiner = r.combiner := by
  cases frame with
  | none => rfl
  | some frame =>
    have hcombiner := r.combiner_publish frame
    rw [Loop.deliver]
    split <;> rename_i hpublish <;> rw [hpublish] at hcombiner <;> exact hcombiner

/-- Delivering reports the key of the frame exactly if sending it succeeds. -/
theorem published_deliver (r : Relay P) {report : TurnReport} (h : report.published = none) (frame : Option Frame) :
    (Loop.deliver r report frame).value.published = frame.bind fun frame => (r.publish frame).1.toOption := by
  cases frame with
  | none => exact h
  | some frame =>
    rw [Loop.deliver, Option.bind_some]
    split <;> rename_i hpublish <;> rw [hpublish]
    · rfl
    · exact h

/-- A turn that nothing comes between is its two halves. -/
theorem turn_eq {s : Shared P} (h : s.underWay = none) :
    (s.act .advance).act .advance =
        ⟨(Loop.turn s.relay s.inbound).state.1, (Loop.turn s.relay s.inbound).state.2, none⟩ ∧
      (s.act .advance).published? .advance = (Loop.turn s.relay s.inbound).value.published := by
  obtain ⟨r, inbound, underWay⟩ := s
  subst h
  obtain ⟨-, -, hreport⟩ := gather_eq r (Loop.receive inbound).1 (Loop.receive inbound).2.1
  exact ⟨rfl, (published_deliver _ hreport _).symm⟩

/-- What an action can do to the combiner and the frame in flight. -/
inductive Change (s : Shared P) (action : Action) : Prop
  /-- The action concerns the channel, or only looks. -/
  | still (hreset : action.isReset = false) (hrelay : (s.act action).relay = s.relay)
      (hflight : (s.act action).inFlight? = s.inFlight?) (hpublished : s.published? action = none)
  /-- The loop ingests a batch and takes the next frame. -/
  | gather (batch : List Message) (hreset : action.isReset = false) (hidle : s.inFlight? = none)
      (hcombiner : (s.act action).relay.combiner = (s.relay.after (gathering batch)).combiner)
      (hflight : (s.act action).inFlight?.toList = framesTaken (s.relay.steps (gathering batch)))
      (hpublished : s.published? action = none)
  /-- The loop sends the frame in flight. -/
  | deliver (hreset : action.isReset = false) (hcombiner : (s.act action).relay.combiner = s.relay.combiner)
      (hflight : (s.act action).inFlight? = none) (hpublished : s.published? action = s.delivery?)
  /-- The combiner is reset. -/
  | reset (hreset : action.isReset = true)

/-- All that an action can do. -/
theorem change (s : Shared P) (action : Action) : s.Change action := by
  obtain ⟨r, inbound, underWay⟩ := s
  cases action with
  | send message => exact .still rfl rfl rfl rfl
  | hangUp => exact .still rfl rfl rfl rfl
  | stats => exact .still rfl rfl rfl rfl
  | reset => exact .reset rfl
  | advance =>
    cases underWay with
    | none =>
      obtain ⟨hstate, htaken, -⟩ := gather_eq r (Loop.receive inbound).1 (Loop.receive inbound).2.1
      exact .gather _ rfl rfl hstate htaken rfl
    | some turn => exact .deliver rfl (combiner_deliver r turn.1 turn.2) rfl rfl

/-! ## Between two resets -/

/-- The keys published and the key in flight are, in this order, among the keys taken since the mark was last forgotten. -/
def InLine (keys : List Key) (s : Shared P) : Prop :=
  ∃ taken, InOrder taken s.relay.combiner ∧ (keys ++ s.inFlight?.toList.map Frame.key).Sublist (taken.map Frame.key)

/-- The key that delivering publishes is that of the frame in flight. -/
theorem toList_delivery?_sublist (s : Shared P) : s.delivery?.toList.Sublist (s.inFlight?.toList.map Frame.key) := by
  unfold delivery?
  cases s.inFlight? with
  | none => exact List.Sublist.refl _
  | some frame =>
    rw [Option.bind_some, Relay.publish]
    split
    · exact List.nil_sublist _
    · exact List.Sublist.refl _

namespace InLine

variable {keys : List Key} {s : Shared P}

omit [Publisher P] in
/-- Without a mark and with nothing in flight, nothing has to be in line. -/
theorem nil (hmark : s.relay.combiner.mark = none) (hflight : s.inFlight? = none) : InLine [] s :=
  ⟨[], InOrder.nil hmark, by simp [hflight]⟩

omit [Publisher P] in
/-- Keys in line do not decrease. -/
theorem sorted (h : InLine keys s) : keys.Pairwise (· ≤ ·) := by
  obtain ⟨taken, horder, hsub⟩ := h
  have hkeys : (taken.map Frame.key).Pairwise (· ≤ ·) := List.pairwise_map.2 horder.sorted
  exact hkeys.sublist ((List.sublist_append_left _ _).trans hsub)

/-- Every action but a reset keeps the keys in line. -/
theorem act (h : InLine keys s) {action : Action} (haction : action.isReset = false) :
    InLine (keys ++ (s.published? action).toList) (s.act action) := by
  obtain ⟨taken, horder, hsub⟩ := h
  cases s.change action with
  | still _ hrelay hflight hpublished =>
    rw [hpublished, Option.toList_none, List.append_nil]
    exact ⟨taken, hrelay ▸ horder, hflight ▸ hsub⟩
  | gather batch _ hidle hcombiner hflight hpublished =>
    -- the frame taken now is the last of those taken, and in flight
    have hsteps := horder.steps (isReset_gathering batch)
    rw [hpublished, Option.toList_none, List.append_nil]
    refine ⟨_, hcombiner ▸ hsteps, ?_⟩
    rw [hflight, List.map_append]
    rw [hidle, Option.toList_none, List.map_nil, List.append_nil] at hsub
    exact hsub.append (List.Sublist.refl _)
  | deliver _ hcombiner hflight hpublished =>
    -- the frame in flight is published or lost, and in flight no more
    refine ⟨taken, hcombiner ▸ horder, ?_⟩
    rw [hflight, hpublished, Option.toList_none, List.map_nil, List.append_nil]
    exact ((List.Sublist.refl keys).append s.toList_delivery?_sublist).trans hsub
  | reset hreset =>
    rw [haction] at hreset
    cases hreset

/-- The keys stay in line while there is no reset. -/
theorem published (h : InLine keys s) {window : List Action} (hwindow : ∀ action ∈ window, action.isReset = false) :
    InLine (keys ++ s.published window) (s.after window) := by
  induction window generalizing s keys with
  | nil =>
    rw [Shared.published, List.append_nil]
    exact h
  | cons action window ih =>
    have hact := h.act (hwindow action List.mem_cons_self)
    have hrest := ih hact fun action' hmem => hwindow action' (List.mem_cons_of_mem _ hmem)
    rwa [List.append_assoc] at hrest

end InLine

/-- Without a mark, the first key published is that in flight, if there is one, and those after it do not decrease. -/
theorem published_eq_of_mark_eq_none {s : Shared P} (hmark : s.relay.combiner.mark = none) {window : List Action}
    (hwindow : ∀ action ∈ window, action.isReset = false) :
    s.published window = [] ∨
      ∃ rest, s.published window = s.delivery?.toList ++ rest ∧ rest.Pairwise (· ≤ ·) := by
  induction window generalizing s with
  | nil => exact Or.inl rfl
  | cons action window ih =>
    have haction := hwindow action List.mem_cons_self
    have hrest : ∀ action' ∈ window, action'.isReset = false := fun action' hmem =>
      hwindow action' (List.mem_cons_of_mem _ hmem)
    rw [Shared.published]
    cases s.change action with
    | still _ hrelay hflight hpublished =>
      have hdelivery : (s.act action).delivery? = s.delivery? := by rw [delivery?, delivery?, hflight, hrelay]
      rw [hpublished, Option.toList_none, List.nil_append, ← hdelivery]
      exact ih (hrelay ▸ hmark) hrest
    | gather batch _ hidle _ _ hpublished =>
      refine Or.inr ⟨_, ?_, ((InLine.nil hmark hidle).published hwindow).sorted⟩
      rw [List.nil_append, Shared.published, delivery?, hidle]
      rfl
    | deliver _ hcombiner hflight hpublished =>
      refine Or.inr ⟨_, by rw [hpublished], ?_⟩
      exact ((InLine.nil (hcombiner ▸ hmark) hflight).published hrest).sorted
    | reset hreset =>
      rw [haction] at hreset
      cases hreset

/-- A reset does not touch the frame in flight. -/
theorem delivery?_reset (s : Shared P) : (s.act .reset).delivery? = s.delivery? := by
  have hpublish : ∀ frame, ((s.act .reset).relay.publish frame).1 = (s.relay.publish frame).1 := by
    intro frame
    have hpublisher : (s.act .reset).relay.publisher = s.relay.publisher := rfl
    unfold Relay.publish
    rw [hpublisher]
    split <;> rfl
  exact congrArg (Option.bind s.inFlight?) (funext fun frame => congrArg Except.toOption (hpublish frame))

/-- The order of the keys published, for every interleaving of turns, resets and other control requests.
1. Before the first reset they do not decrease.
2. From one reset to the next they do not decrease, unless the reset came between the two halves of a turn, the frame then
in flight was sent after it, and a frame of a lesser key followed. -/
theorem published_in_order_iff (r : Relay P) (hr : r.IsNew) (s : Shared P) (window : List Action)
    (hwindow : ∀ action ∈ window, action.isReset = false) :
    ((start r).published window).Pairwise (· ≤ ·) ∧
      (((s.act .reset).published window).Pairwise (· ≤ ·) ↔
        ∀ key ∈ s.delivery?, ∀ later ∈ (s.act .reset).published window, key ≤ later) := by
  constructor
  · exact ((InLine.nil (s := start r) hr.spec.1 rfl).published hwindow).sorted
  · rw [← s.delivery?_reset]
    rcases published_eq_of_mark_eq_none (s := s.act .reset) rfl hwindow with hnil | ⟨rest, hpublished, hrest⟩
    · simp [hnil]
    · rw [hpublished]
      cases (s.act .reset).delivery? with
      | none => simpa using hrest
      | some key => simp [hrest]

/-- A reset comes between the halves of a turn, and the order holds since the next frame is above that in flight. -/
theorem published_in_order_sample :
    Sample.relay.IsNew ∧
      (∀ action ∈ [Action.advance, .send ⟨0, Sample.message 7, []⟩, .advance, .advance], action.isReset = false) ∧
      ((((start Sample.relay).after [.send ⟨0, Sample.message 5, []⟩, .advance]).act .reset).published
        [.advance, .send ⟨0, Sample.message 7, []⟩, .advance, .advance]).Pairwise (· ≤ ·) := by
  have hwindow : ∀ action ∈ [Action.advance, .send ⟨0, Sample.message 7, []⟩, .advance, .advance],
      action.isReset = false := by
    simp [Action.isReset]
  refine ⟨Sample.isNew, hwindow, (published_in_order_iff Sample.relay Sample.isNew _ _ hwindow).2.2 ?_⟩
  decide +kernel

/-- The order does not always hold. A turn takes the frame of key (0, 5), a reset comes, and the turn sends the frame; the
next turn then sends a frame of key (0, 0), which nothing marks as late. -/
theorem published_not_in_order :
    Sample.relay.IsNew ∧
      ¬((((start Sample.relay).after [.send ⟨0, Sample.message 5, []⟩, .advance]).act .reset).published
        [.advance, .send ⟨0, Sample.message 0, []⟩, .advance, .advance]).Pairwise (· ≤ ·) := by
  have hpublished : (((start Sample.relay).after [.send ⟨0, Sample.message 5, []⟩, .advance]).act .reset).published
      [.advance, .send ⟨0, Sample.message 0, []⟩, .advance, .advance] = [⟨0, 5⟩, ⟨0, 0⟩] := by
    decide +kernel
  rw [hpublished]
  exact ⟨Sample.isNew, by decide⟩

end Shared

end FrameMerge
