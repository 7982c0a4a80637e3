import FrameMerge.Address
import FrameMerge.Combiner
import FrameMerge.Decimal.Reading

/-!
# Settings

What a relay is run with. Each setting comes from the environment if that overrides it, else from a settings file,
else from its default; only the merged values are checked. Text variables override when they are not blank, numeric
ones whenever they are set. The checks run in a fixed order, and the first that fails decides.
-/

namespace FrameMerge

/-- The variables of the environment that settings come from. -/
inductive Variable
  | config
  | sources
  | destination
  | apiAddress
  | queueLength
  | cutoff
  | drainInterval
  deriving DecidableEq

def Variable.name : Variable → String
  | .config => "LIVE_VIEW_CONFIG"
  | .sources => "LIVE_VIEW_SOURCE_ENDPOINTS"
  | .destination => "LIVE_VIEW_DEST_ENDPOINT"
  | .apiAddress => "LIVE_VIEW_API_ADDR"
  | .queueLength => "LIVE_VIEW_QUEUE_LENGTH"
  | .cutoff => "LIVE_VIEW_DROP_WARN_CUTOFF"
  | .drainInterval => "LIVE_VIEW_DRAIN_INTERVAL_MS"

/-- The values of the variables that are set. A variable whose value is no text counts as not set. -/
abbrev Environment := Variable → Option String

/-- The settings of a file; each may be left out. -/
structure FileSettings where
  sources : Option String
  destination : Option String
  queueLength : Option Nat
  cutoff : Option Binary64
  drainInterval : Option Nat
  apiAddress : Option String
  deriving DecidableEq

/-- A file that sets nothing. -/
def FileSettings.none : FileSettings := ⟨.none, .none, .none, .none, .none, .none⟩

/-- Why merged settings cannot be used. -/
inductive SettingsError
  | variable (which : Variable) (demand : String)
  | zeroQueueLength
  | cutoff (cause : CutoffError)
  | destination (text : String) (cause : EndpointError)
  | apiAddress (text : String)
  | noSources
  deriving DecidableEq

def SettingsError.message : SettingsError → String
  | .variable which demand => which.name ++ " must be " ++ demand
  | .zeroQueueLength => "queue_length must be greater than zero"
  | .cutoff cause => cause.message
  | .destination text cause => "invalid destination endpoint " ++ text ++ ": " ++ cause.message
  | .apiAddress text => "invalid api address " ++ text ++ ": " ++ invalidSocketAddress
  | .noSources => "no usable source endpoints configured"

/-- The merged settings, before they are checked. -/
structure MergedSettings where
  /-- The source list; the default source if there is none. -/
  sources : Option String
  destination : String
  queueLength : Nat
  cutoff : Binary64
  apiAddress : String
  drainInterval : Nat
  deriving DecidableEq

/-- Settings that passed the checks. -/
structure Settings where
  sources : List SourceSpec
  destination : Endpoint
  queueLength : Nat
  cutoff : Binary64
  apiAddress : String
  /-- How long an idle turn of the loop waits, in milliseconds. -/
  drainInterval : Nat
  deriving DecidableEq

namespace Settings

/-! ## Defaults -/

def defaultSource : SourceSpec := ⟨"node_1", ⟨"127.0.0.1", 5010⟩⟩

def defaultDestination : String := "tcp://127.0.0.1:5020"

def defaultQueueLength : Nat := 10

def defaultCutoff : Binary64 := Binary64.ofDecimal false 5 (-1)

def defaultApiAddress : String := "127.0.0.1:8888"

def defaultDrainInterval : Nat := 1

/-! ## Merging -/

/-- A text of the environment, if it is set and not blank. -/
def textOverride? (env : Environment) (which : Variable) : Option String :=
  (env which).filter fun text => !(Text.trim text.toList).isEmpty

/-- A number of the environment, if it is set; blanks around it do not matter. -/
def numberOverride? {α : Type} (env : Environment) (which : Variable) (demand : String)
    (read? : List Char → Option α) : Except SettingsError (Option α) :=
  match env which with
  | none => .ok none
  | some text =>
    match read? (Text.trim text.toList) with
    | none => .error (.variable which demand)
    | some value => .ok (some value)

/-- A natural number of sixty-four bits. -/
def readCount? (s : List Char) : Option Nat := (Text.readNatural Text.bound64 s).toOption

/-- The environment over the file over the defaults. -/
def merge (file : FileSettings) (env : Environment) : Except SettingsError MergedSettings := do
  let queueLength ← numberOverride? env .queueLength "a positive integer" readCount?
  let cutoff ← numberOverride? env .cutoff "a number in 0..=1" Decimal.read?
  let drainInterval ← numberOverride? env .drainInterval "an integer number of milliseconds" readCount?
  return {
    sources := (textOverride? env .sources).or file.sources
    destination := ((textOverride? env .destination).or file.destination).getD defaultDestination
    queueLength := (queueLength.or file.queueLength).getD defaultQueueLength
    cutoff := (cutoff.or file.cutoff).getD defaultCutoff
    apiAddress := ((textOverride? env .apiAddress).or file.apiAddress).getD defaultApiAddress
    drainInterval := (drainInterval.or file.drainInterval).getD defaultDrainInterval }

/-! ## Checking -/

/-- The sources of merged settings, with the warnings about entries passed over. -/
def sourcesOf (merged : MergedSettings) : List SourceSpec × List Event :=
  match merged.sources with
  | none => ([defaultSource], [])
  | some list => SourceList.parse list

/-- Checks all but the sources; answers the destination. -/
def checkValues (merged : MergedSettings) : Except SettingsError Endpoint :=
  if merged.queueLength = 0 then .error .zeroQueueLength
  else match checkCutoff merged.cutoff with
    | .error cause => .error (.cutoff cause)
    | .ok () =>
      match Endpoint.parse merged.destination with
      | .error cause => .error (.destination merged.destination cause)
      | .ok destination =>
        if (SocketAddress.read? merged.apiAddress.toList).isNone then .error (.apiAddress merged.apiAddress)
        else .ok destination

/-- Checks merged settings. The source list is looked at last, and only then are its warnings given. -/
def validate (merged : MergedSettings) : Except SettingsError Settings × List Event :=
  match checkValues merged with
  | .error e => (.error e, [])
  | .ok destination =>
    let (sources, events) := sourcesOf merged
    if sources.isEmpty then (.error .noSources, events)
    else
      (.ok { sources, destination, queueLength := merged.queueLength, cutoff := merged.cutoff,
             apiAddress := merged.apiAddress, drainInterval := merged.drainInterval }, events)

/-- Merges and checks. -/
def resolve (file : FileSettings) (env : Environment) : Except SettingsError Settings × List Event :=
  match merge file env with
  | .error e => (.error e, [])
  | .ok merged => validate merged

/-- What a combiner is set up with. -/
def combinerSettings (s : Settings) : CombinerSettings := ⟨s.destination.text, s.queueLength, s.cutoff⟩

end Settings

end FrameMerge
