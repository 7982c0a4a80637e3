import FrameMerge.Decimal.Layout

/-!
# Watching the share of dropped frames

A monitor warns once when the share of dropped frames rises above its cutoff, and may warn again only after the
share has fallen below three quarters of the cutoff. Inside the band between the two nothing changes.
-/

namespace FrameMerge

/-- A cutoff that is no share. -/
structure CutoffError where
  cutoff : Binary64
  deriving DecidableEq

def CutoffError.message (e : CutoffError) : String :=
  "dropped frame warning cutoff must be within 0..=1 (got " ++ Layout.plain.render e.cutoff ++ ")"

/-- Shares lie between zero and one, both included. -/
def isShare (x : Binary64) : Bool := Binary64.zero.le x && x.le (Binary64.ofNat 1)

/-- Refuses a cutoff that is no share. -/
def checkCutoff (cutoff : Binary64) : Except CutoffError Unit :=
  if isShare cutoff then .ok () else .error ⟨cutoff⟩

/-- The share of dropped frames; zero while none was received. -/
def dropRatio (dropped received : Nat) : Binary64 :=
  if received = 0 then Binary64.zero else (Binary64.ofNat dropped).div (Binary64.ofNat received)

structure Monitor where
  /-- Above this share a warning is due. -/
  warn : Binary64
  /-- Below this share a warning may be due again. -/
  unwarn : Binary64
  warned : Bool
  deriving DecidableEq

namespace Monitor

/-- The lower end of the band, as a share of the cutoff. -/
def unwarnShare : Binary64 := Binary64.ofDecimal false 75 (-2)

/-- A monitor that has not warned. -/
def create (cutoff : Binary64) : Except CutoffError Monitor :=
  (checkCutoff cutoff).map fun _ => ⟨cutoff, cutoff.mul unwarnShare, false⟩

/-- Takes new counts into account and says whether a warning is due now. -/
def observe (m : Monitor) (dropped received : Nat) : Bool × Monitor :=
  let ratio := dropRatio dropped received
  if m.warn.lt ratio && !m.warned then (true, { m with warned := true })
  else if ratio.lt m.unwarn then (false, { m with warned := false })
  else (false, m)

/-- Forgets that a warning was given. -/
def rearm (m : Monitor) : Monitor := { m with warned := false }

end Monitor

end FrameMerge
