import FrameMerge.Monitor
import FrameMerge.Proofs.Rounding
import Mathlib.Data.List.Induction

/-!
# When a monitor warns

Whether a monitor has warned can be read off all that happened to it: the share of dropped frames rose above the cutoff, and
since it last did so it has not fallen below the band, nor was the monitor rearmed (`Monitor.warned_after_iff`). That the
share cannot be above the cutoff and below the band at once is a matter of rounding: three quarters of a cutoff, rounded,
are no more than the cutoff, be it zero, negative zero or so small that its three quarters are rounded up
(`Monitor.unwarn_le_warn`).
-/

namespace FrameMerge

/-- What can happen to a monitor. -/
inductive MonitorAct
  | observe (dropped received : Nat)
  | rearm

namespace Monitor

/-- Carries an act out; says whether a warning is due. -/
def act (m : Monitor) : MonitorAct → Bool × Monitor
  | .observe dropped received => m.observe dropped received
  | .rearm => (false, m.rearm)

/-- What a history leaves. -/
def after (m : Monitor) (history : List MonitorAct) : Monitor := history.foldl (fun m act => (m.act act).2) m

/-- The share is seen above the cutoff. -/
def Exceeds (m : Monitor) : MonitorAct → Prop
  | .observe dropped received => m.warn.lt (dropRatio dropped received) = true
  | .rearm => False

/-- The share is seen below the band, or the monitor is rearmed. -/
def Clears (m : Monitor) : MonitorAct → Prop
  | .observe dropped received => (dropRatio dropped received).lt m.unwarn = true
  | .rearm => True

/-! ## The band -/

variable {m : Monitor} {cutoff : Binary64}

theorem create_eq (h : create cutoff = .ok m) :
    isShare cutoff = true ∧ m = ⟨cutoff, cutoff.mul unwarnShare, false⟩ := by
  unfold create checkCutoff at h
  cases hshare : isShare cutoff with
  | true =>
    rw [hshare] at h
    cases h
    exact ⟨rfl, rfl⟩
  | false =>
    rw [hshare] at h
    cases h

/-- A share is finite, and if it has a minus sign it is zero. -/
theorem finite_of_isShare (h : isShare cutoff = true) :
    cutoff.isFinite = true ∧ (cutoff.negative = true → cutoff.magnitude = 0) := by
  have hone : (Binary64.ofNat 1).position = 1023 <<< 52 ∧ Binary64.zero.position = 0 := by decide +kernel
  rw [isShare, Bool.and_eq_true, Binary64.le_iff, Binary64.le_iff] at h
  obtain ⟨⟨-, -, hzero⟩, -, -, hupper⟩ := h
  rw [hone.1] at hupper
  rw [hone.2] at hzero
  unfold Binary64.position at hzero hupper
  rw [Binary64.isFinite, decide_eq_true_iff, Binary64.infinityMagnitude]
  cases hsign : cutoff.negative with
  | true =>
    simp only [hsign, if_true] at hzero
    exact ⟨by omega, fun _ => by omega⟩
  | false =>
    simp only [hsign, Bool.false_eq_true, if_false] at hupper
    refine ⟨?_, fun hnegative => by cases hnegative⟩
    simp only [Nat.shiftLeft_eq]
    omega

/-- The lower end of the band does not lie above its upper end. -/
theorem unwarn_le_warn (h : create cutoff = .ok m) : m.unwarn.le m.warn = true := by
  obtain ⟨hshare, rfl⟩ := create_eq h
  obtain ⟨hfinite, hsign⟩ := finite_of_isShare hshare
  have hquarters : unwarnShare.isFinite = true ∧ unwarnShare.units ≤ 1 <<< Binary64.unitPlaces ∧
      unwarnShare.negative = false := by decide +kernel
  have hmagnitude := Binary64.magnitude_mul_le hfinite hquarters.1 hquarters.2.1
  have hproduct := Binary64.mul_eq hfinite hquarters.1
  have hnegative : (cutoff.mul unwarnShare).negative = cutoff.negative := by
    rw [hproduct, hquarters.2.2, Bool.bne_false, Binary64.negative_ofRatio]
  have hnan : (cutoff.mul unwarnShare).isNaN = false := by
    rw [hproduct]
    exact Binary64.isNaN_ofRatio _ _ _
  refine Binary64.le_iff.2 ⟨hnan, Binary64.isNaN_of_isFinite hfinite, ?_⟩
  unfold Binary64.position
  rw [hnegative]
  cases hminus : cutoff.negative with
  | true =>
    have hnone := hsign hminus
    simp only [if_true]
    omega
  | false =>
    simp only [Bool.false_eq_true, if_false]
    omega

/-- While counts are below the bound of their type, their ratio is a number. -/
theorem isNaN_dropRatio {dropped received : Nat} (hdropped : dropped < Text.bound64) (hreceived : received < Text.bound64) :
    (dropRatio dropped received).isNaN = false := by
  unfold dropRatio
  split
  · exact Binary64.isNaN_ofMagnitude _ _
  · rename_i hsome
    exact Binary64.isNaN_div_ofNat hdropped hreceived hsome

/-- No act both exceeds the cutoff and clears the warning. -/
theorem not_clears_of_exceeds (hband : m.unwarn.le m.warn = true) {act : MonitorAct} (h : m.Exceeds act) :
    ¬m.Clears act := by
  cases act with
  | rearm => exact absurd h id
  | observe dropped received =>
    intro hclears
    have hrise := (Binary64.lt_iff.1 h).2.2
    have hfall := (Binary64.lt_iff.1 hclears).2.2
    have hle := (Binary64.le_iff.1 hband).2.2
    omega

/-! ## One act -/

/-- What an observation does: it gives a warning, takes one back or leaves all as it is. -/
theorem observe_cases (m : Monitor) (dropped received : Nat) :
    ((m.Exceeds (.observe dropped received) ∧ m.warned = false) ∧
      m.observe dropped received = (true, { m with warned := true })) ∨
    (¬(m.Exceeds (.observe dropped received) ∧ m.warned = false) ∧ m.Clears (.observe dropped received) ∧
      m.observe dropped received = (false, { m with warned := false })) ∨
    (¬(m.Exceeds (.observe dropped received) ∧ m.warned = false) ∧ ¬m.Clears (.observe dropped received) ∧
      m.observe dropped received = (false, m)) := by
  have hdue : (m.warn.lt (dropRatio dropped received) && !m.warned) = true ↔
      m.Exceeds (.observe dropped received) ∧ m.warned = false := by
    rw [Bool.and_eq_true, Bool.not_eq_true', Exceeds]
  by_cases hrise : m.Exceeds (.observe dropped received) ∧ m.warned = false
  · exact Or.inl ⟨hrise, by rw [observe, if_pos (hdue.2 hrise)]⟩
  · right
    have hsilent := mt hdue.1 hrise
    by_cases hfall : (dropRatio dropped received).lt m.unwarn = true
    · exact Or.inl ⟨hrise, hfall, by rw [observe, if_neg hsilent, if_pos hfall]⟩
    · exact Or.inr ⟨hrise, hfall, by rw [observe, if_neg hsilent, if_neg hfall]⟩

/-- A warning is due exactly if the share exceeds the cutoff and none was given. -/
theorem observe_fst (m : Monitor) (dropped received : Nat) :
    (m.observe dropped received).1 = true ↔ m.Exceeds (.observe dropped received) ∧ m.warned = false := by
  rcases m.observe_cases dropped received with ⟨hdue, heq⟩ | ⟨hdue, -, heq⟩ | ⟨hdue, -, heq⟩
  · rw [heq]
    exact ⟨fun _ => hdue, fun _ => rfl⟩
  · rw [heq]
    exact ⟨fun hfalse => absurd hfalse Bool.false_ne_true, fun hboth => absurd hboth hdue⟩
  · rw [heq]
    exact ⟨fun hfalse => absurd hfalse Bool.false_ne_true, fun hboth => absurd hboth hdue⟩

/-- Inside the band nothing changes. -/
theorem observe_of_band {dropped received : Nat} (hlower : m.unwarn.le (dropRatio dropped received) = true)
    (hupper : (dropRatio dropped received).le m.warn = true) : m.observe dropped received = (false, m) := by
  have hlow := (Binary64.le_iff.1 hlower).2.2
  have hhigh := (Binary64.le_iff.1 hupper).2.2
  rcases m.observe_cases dropped received with ⟨⟨hrise, -⟩, -⟩ | ⟨-, hfall, -⟩ | ⟨-, -, heq⟩
  · have hlt := (Binary64.lt_iff.1 hrise).2.2
    omega
  · have hlt := (Binary64.lt_iff.1 hfall).2.2
    omega
  · exact heq

/-- No act moves the band. -/
theorem band_act (m : Monitor) (act : MonitorAct) : (m.act act).2.warn = m.warn ∧ (m.act act).2.unwarn = m.unwarn := by
  cases act with
  | rearm => exact ⟨rfl, rfl⟩
  | observe dropped received =>
    rw [Monitor.act]
    rcases m.observe_cases dropped received with ⟨-, heq⟩ | ⟨-, -, heq⟩ | ⟨-, -, heq⟩ <;> rw [heq] <;> exact ⟨rfl, rfl⟩

/-- After an act a warning stands if the act exceeds the cutoff, or if one stood and the act does not clear it. -/
theorem warned_act (hband : m.unwarn.le m.warn = true) (act : MonitorAct) :
    (m.act act).2.warned = true ↔ m.Exceeds act ∨ m.warned = true ∧ ¬m.Clears act := by
  have hone : m.Exceeds act → ¬m.Clears act := not_clears_of_exceeds hband
  cases act with
  | rearm => simp [Monitor.act, rearm, Exceeds, Clears]
  | observe dropped received =>
    rw [Monitor.act]
    rcases m.observe_cases dropped received with ⟨⟨hrise, -⟩, heq⟩ | ⟨-, hfall, heq⟩ | ⟨hdue, hfall, heq⟩
    · simp [heq, hrise]
    · have hrise : ¬m.Exceeds (.observe dropped received) := fun h => hone h hfall
      simp [heq, hrise, hfall]
    · -- if the share exceeds the cutoff and no warning is due, one stands already
      have hstands : m.Exceeds (.observe dropped received) → m.warned = true := by
        intro hrise
        rw [← Bool.not_eq_false]
        exact fun hnone => hdue ⟨hrise, hnone⟩
      rw [heq]
      exact ⟨fun h => Or.inr ⟨h, hfall⟩, fun h => h.elim hstands And.left⟩

/-! ## Histories -/

theorem after_snoc (m : Monitor) (history : List MonitorAct) (act : MonitorAct) :
    m.after (history ++ [act]) = ((m.after history).act act).2 := by
  rw [after, List.foldl_append]
  rfl

/-- No history moves the band. -/
theorem band_after (m : Monitor) (history : List MonitorAct) :
    (m.after history).warn = m.warn ∧ (m.after history).unwarn = m.unwarn := by
  induction history using List.reverseRecOn with
  | nil => exact ⟨rfl, rfl⟩
  | append_singleton history act ih =>
    obtain ⟨hwarn, hunwarn⟩ := (m.after history).band_act act
    rw [after_snoc]
    exact ⟨hwarn.trans ih.1, hunwarn.trans ih.2⟩

/-- What exceeds the cutoff at some time does so at all times. -/
theorem exceeds_after (m : Monitor) (history : List MonitorAct) (act : MonitorAct) :
    (m.after history).Exceeds act ↔ m.Exceeds act := by
  cases act with
  | rearm => exact Iff.rfl
  | observe dropped received => rw [Exceeds, Exceeds, (m.band_after history).1]

theorem clears_after (m : Monitor) (history : List MonitorAct) (act : MonitorAct) :
    (m.after history).Clears act ↔ m.Clears act := by
  cases act with
  | rearm => exact Iff.rfl
  | observe dropped received => rw [Clears, Clears, (m.band_after history).2]

theorem warned_after_snoc (hband : m.unwarn.le m.warn = true) (history : List MonitorAct) (act : MonitorAct) :
    (m.after (history ++ [act])).warned = true ↔
      m.Exceeds act ∨ (m.after history).warned = true ∧ ¬m.Clears act := by
  have hsame := m.band_after history
  have hband' : (m.after history).unwarn.le (m.after history).warn = true := by
    rw [hsame.1, hsame.2]
    exact hband
  rw [after_snoc, warned_act hband', exceeds_after, clears_after]

/-- A warning stands until it is cleared. -/
theorem warned_of_not_clears (hband : m.unwarn.le m.warn = true) {history later : List MonitorAct}
    (h : (m.after history).warned = true) (hlater : ∀ act ∈ later, ¬m.Clears act) :
    (m.after (history ++ later)).warned = true := by
  induction later using List.reverseRecOn with
  | nil => rwa [List.append_nil]
  | append_singleton later act ih =>
    rw [List.forall_mem_append, List.forall_mem_singleton] at hlater
    rw [← List.append_assoc, warned_after_snoc hband]
    exact Or.inr ⟨ih hlater.1, hlater.2⟩

/-- A warning stands exactly if the cutoff was exceeded, and since the last time it was, nothing has cleared it. -/
theorem warned_after_iff (hband : m.unwarn.le m.warn = true) (hfresh : m.warned = false) (history : List MonitorAct) :
    (m.after history).warned = true ↔ ∃ before rise later, history = before ++ rise :: later ∧ m.Exceeds rise ∧
      (∀ act ∈ later, ¬m.Exceeds act) ∧ ∀ act ∈ later, ¬m.Clears act := by
  constructor
  · intro h
    induction history using List.reverseRecOn with
    | nil =>
      have hnone : m.warned = true := h
      rw [hfresh] at hnone
      cases hnone
    | append_singleton history act ih =>
      by_cases hrise : m.Exceeds act
      · exact ⟨history, act, [], rfl, hrise, by simp, by simp⟩
      · rcases (warned_after_snoc hband history act).1 h with hexceeds | ⟨hwarned, hclears⟩
        · exact absurd hexceeds hrise
        · obtain ⟨before, rise, later, rfl, hexceeds, hnone, hkept⟩ := ih hwarned
          refine ⟨before, rise, later ++ [act], by simp, hexceeds, ?_, ?_⟩
          · rw [List.forall_mem_append, List.forall_mem_singleton]
            exact ⟨hnone, hrise⟩
          · rw [List.forall_mem_append, List.forall_mem_singleton]
            exact ⟨hkept, hclears⟩
  · rintro ⟨before, rise, later, rfl, hexceeds, -, hkept⟩
    have hwarned : (m.after (before ++ [rise])).warned = true := (warned_after_snoc hband before rise).2 (Or.inl hexceeds)
    have hlast := warned_of_not_clears hband hwarned hkept
    rwa [List.append_assoc] at hlast

/-- Between two warnings something clears the first. -/
theorem exists_clears_between (hband : m.unwarn.le m.warn = true) {history between : List MonitorAct}
    {dropped received dropped' received' : Nat} (hfirst : ((m.after history).observe dropped received).1 = true)
    (hsecond : ((m.after (history ++ .observe dropped received :: between)).observe dropped' received').1 = true) :
    ∃ act ∈ between, m.Clears act := by
  by_contra hnone
  have hkept : ∀ act ∈ between, ¬m.Clears act := by
    intro act hact hclears
    exact hnone ⟨act, hact, hclears⟩
  have hrise : m.Exceeds (.observe dropped received) :=
    (m.exceeds_after history _).1 (((m.after history).observe_fst dropped received).1 hfirst).1
  have hwarned := (warned_after_snoc hband history (.observe dropped received)).2 (Or.inl hrise)
  have hlast := warned_of_not_clears hband hwarned hkept
  rw [List.append_assoc, List.singleton_append] at hlast
  rw [((observe_fst _ _ _).1 hsecond).2] at hlast
  cases hlast

end Monitor

/-- A monitor warns once for each time the share of dropped frames rises out of its band, over every history of
observations and rearmings, for every cutoff that is accepted.
1. The band reaches from three quarters of the cutoff to the cutoff, and its lower end is not above its upper end. Ratios
of counts are numbers, and zero while nothing was received.
2. A warning stands exactly if the share was seen above the cutoff and, since the last time it was, has not been seen below
the band, nor was the monitor rearmed.
3. A warning is due exactly if the share is seen above the cutoff while no warning stands.
4. Between two warnings the share is seen below the band or the monitor is rearmed.
5. A share inside the band changes nothing. -/
theorem warns_once_per_rise (cutoff : Binary64) (m : Monitor) (h : Monitor.create cutoff = .ok m) :
    (m.warn = cutoff ∧ m.unwarn = cutoff.mul (Binary64.ofDecimal false 75 (-2)) ∧ m.unwarn.le m.warn = true ∧
      (∀ dropped received, dropped < Text.bound64 → received < Text.bound64 →
        (dropRatio dropped received).isNaN = false) ∧
      ∀ dropped, dropRatio dropped 0 = Binary64.zero) ∧
    ∀ history : List MonitorAct,
      ((m.after history).warned = true ↔ ∃ before rise later, history = before ++ rise :: later ∧ m.Exceeds rise ∧
        (∀ act ∈ later, ¬m.Exceeds act) ∧ ∀ act ∈ later, ¬m.Clears act) ∧
      (∀ dropped received, ((m.after history).observe dropped received).1 = true ↔
        m.Exceeds (.observe dropped received) ∧ (m.after history).warned = false) ∧
      (∀ dropped received between dropped' received', ((m.after history).observe dropped received).1 = true →
        ((m.after (history ++ .observe dropped received :: between)).observe dropped' received').1 = true →
        ∃ act ∈ between, m.Clears act) ∧
      ∀ dropped received, m.unwarn.le (dropRatio dropped received) = true →
        (dropRatio dropped received).le m.warn = true →
        (m.after history).observe dropped received = (false, m.after history) := by
  have hband := Monitor.unwarn_le_warn h
  obtain ⟨-, rfl⟩ := Monitor.create_eq h
  refine ⟨⟨rfl, rfl, hband, fun _ _ => Monitor.isNaN_dropRatio, fun _ => if_pos rfl⟩, fun history => ?_⟩
  obtain ⟨hwarn, hunwarn⟩ := Monitor.band_after ⟨cutoff, cutoff.mul Monitor.unwarnShare, false⟩ history
  refine ⟨Monitor.warned_after_iff hband rfl history, fun dropped received => ?_, ?_, ?_⟩
  · rw [Monitor.observe_fst, Monitor.exceeds_after]
  · intro dropped received between dropped' received' hfirst hsecond
    exact Monitor.exists_clears_between hband hfirst hsecond
  · intro dropped received hlower hupper
    rw [← hunwarn] at hlower
    rw [← hwarn] at hupper
    exact Monitor.observe_of_band hlower hupper

namespace Sample

def half : Binary64 := .ofDecimal false 5 (-1)

/-- A monitor that warns above one half. -/
def monitor : Monitor := ⟨half, half.mul Monitor.unwarnShare, false⟩

end Sample

/-- Six of ten are too many. Four of ten are inside the band, so that the warning stands; three of ten are below it, so that
the next six of ten are a reason to warn again. -/
theorem warns_once_per_rise_sample :
    Monitor.create Sample.half = .ok Sample.monitor ∧
      (Sample.monitor.after [.observe 6 10, .observe 4 10]).warned = true ∧
      ∃ act ∈ [MonitorAct.observe 4 10, .observe 3 10], Sample.monitor.Clears act := by
  have hcreate : Monitor.create Sample.half = .ok Sample.monitor := by
    have hshare : isShare Sample.half = true := by decide +kernel
    rw [Monitor.create, checkCutoff, hshare]
    rfl
  obtain ⟨-, hhistory⟩ := warns_once_per_rise Sample.half Sample.monitor hcreate
  obtain ⟨hwarned, -⟩ := hhistory [.observe 6 10, .observe 4 10]
  obtain ⟨-, -, hbetween, -⟩ := hhistory []
  have hrise : Sample.monitor.Exceeds (.observe 6 10) := by
    unfold Monitor.Exceeds
    decide +kernel
  have hinside : ¬Sample.monitor.Exceeds (.observe 4 10) ∧ ¬Sample.monitor.Clears (.observe 4 10) := by
    unfold Monitor.Exceeds Monitor.Clears
    decide +kernel
  refine ⟨hcreate, hwarned.2 ⟨[], _, _, rfl, hrise, ?_, ?_⟩, ?_⟩
  · simpa using hinside.1
  · simpa using hinside.2
  · exact hbetween 6 10 [.observe 4 10, .observe 3 10] 6 10 (by decide +kernel) (by decide +kernel)

end FrameMerge
