import FrameMerge.Proofs.Cuts
import FrameMerge.Proofs.Startup

/-!
# Environment over file over default

Settings come in layers. What the environment overrides is a layer of its own (`Settings.overrides`), of the same form as a
file; it is laid over the file (`FileSettings.above`), and the defaults stand below both (`FileSettings.withDefaults`).
Merging is nothing else (`Settings.merge_eq`), and only what comes out of it is checked. So what a file says of a setting
that is overridden does not even reach the checks (`Settings.load_congr`). What a single setting comes to is said apart from
all that (`Setting.effective?`), without a word on the others, and loading gives just this (`Settings.load_eq_ok_iff`).
-/

namespace FrameMerge

/-! ## Results -/

/-- To forget why there is no result forgets nothing about one that is there. -/
theorem toOption_eq_some_iff {ε α : Type} {x : Except ε α} {a : α} : x.toOption = some a ↔ x = .ok a := by
  cases x <;> simp [Except.toOption]

/-- A chain of two succeeds exactly if both of its links do. -/
theorem bind_eq_ok_iff {ε α β : Type} {x : Except ε α} {f : α → Except ε β} {b : β} :
    (x >>= f) = .ok b ↔ ∃ a, x = .ok a ∧ f a = .ok b := by
  cases x <;> simp [bind, Except.bind]

/-! ## Settings one by one -/

/-- What can be set, in a file and by a variable of the environment. -/
inductive Setting
  | sources
  | destination
  | apiAddress
  | queueLength
  | cutoff
  | drainInterval
  deriving DecidableEq

namespace Setting

/-- What stands for a setting in a file: a text or a number. -/
@[reducible]
def Written : Setting → Type
  | .sources | .destination | .apiAddress => String
  | .queueLength | .drainInterval => Nat
  | .cutoff => Binary64

/-- What a setting is once it was checked. -/
@[reducible]
def Value : Setting → Type
  | .sources => List SourceSpec
  | .destination => Endpoint
  | .apiAddress => String
  | .queueLength | .drainInterval => Nat
  | .cutoff => Binary64

/-- The variable that overrides a setting. -/
def overriddenBy : Setting → Variable
  | .sources => .sources
  | .destination => .destination
  | .apiAddress => .apiAddress
  | .queueLength => .queueLength
  | .cutoff => .cutoff
  | .drainInterval => .drainInterval

/-- Some settings are texts, the others numbers. -/
def isText : Setting → Bool
  | .sources | .destination | .apiAddress => true
  | .queueLength | .cutoff | .drainInterval => false

/-- What the text of a variable says: a text is taken as it is, a number is read, whatever blanks are around it. -/
def ofText? : (key : Setting) → String → Option key.Written
  | .sources, text | .destination, text | .apiAddress, text => some text
  | .queueLength, text | .drainInterval, text => Settings.readCount? (Text.trim text.toList)
  | .cutoff, text => Decimal.read? (Text.trim text.toList)

/-- What is written, once it was read. A source list can always be read, an endpoint not. -/
def ofWritten? : (key : Setting) → key.Written → Option key.Value
  | .sources, list => some (SourceList.parse list).1
  | .destination, text => (Endpoint.parse text).toOption
  | .apiAddress, text => some text
  | .queueLength, n | .drainInterval, n => some n
  | .cutoff, x => some x

/-- What a setting is if nothing sets it. -/
def default : (key : Setting) → key.Value
  | .sources => [Settings.defaultSource]
  | .destination => ⟨"127.0.0.1", 5020⟩
  | .apiAddress => Settings.defaultApiAddress
  | .queueLength => Settings.defaultQueueLength
  | .cutoff => Settings.defaultCutoff
  | .drainInterval => Settings.defaultDrainInterval

end Setting

/-- The text with which the environment overrides a setting: a number is overridden whenever its variable is set, a text only
if not all of its variable is blank. -/
def Environment.override? (env : Environment) (key : Setting) : Option String :=
  (env key.overriddenBy).filter fun text => !key.isText || text.toList.any fun c => !Text.isBlank c

/-- What a file says of a setting. -/
def FileSettings.written? (file : FileSettings) : (key : Setting) → Option key.Written
  | .sources => file.sources
  | .destination => file.destination
  | .apiAddress => file.apiAddress
  | .queueLength => file.queueLength
  | .cutoff => file.cutoff
  | .drainInterval => file.drainInterval

/-- A setting among those a relay is run with. -/
def Settings.value (s : Settings) : (key : Setting) → key.Value
  | .sources => s.sources
  | .destination => s.destination
  | .apiAddress => s.apiAddress
  | .queueLength => s.queueLength
  | .cutoff => s.cutoff
  | .drainInterval => s.drainInterval

/-- What a setting comes to: what the environment says if it overrides the setting, else what the file says if it sets it,
else the default. None if that cannot be read. -/
def Setting.effective? (key : Setting) (file : FileSettings) (env : Environment) : Option key.Value :=
  match env.override? key with
  | some text => (key.ofText? text).bind key.ofWritten?
  | none =>
    match file.written? key with
    | some written => key.ofWritten? written
    | none => some key.default

/-! ## Layers -/

namespace FileSettings

/-- One layer over another: the upper one decides wherever it sets something. -/
def above (upper lower : FileSettings) : FileSettings where
  sources := upper.sources.or lower.sources
  destination := upper.destination.or lower.destination
  queueLength := upper.queueLength.or lower.queueLength
  cutoff := upper.cutoff.or lower.cutoff
  drainInterval := upper.drainInterval.or lower.drainInterval
  apiAddress := upper.apiAddress.or lower.apiAddress

/-- The defaults below a layer. -/
def withDefaults (layer : FileSettings) : MergedSettings where
  sources := layer.sources
  destination := layer.destination.getD Settings.defaultDestination
  queueLength := layer.queueLength.getD Settings.defaultQueueLength
  cutoff := layer.cutoff.getD Settings.defaultCutoff
  apiAddress := layer.apiAddress.getD Settings.defaultApiAddress
  drainInterval := layer.drainInterval.getD Settings.defaultDrainInterval

/-- Layers that say the same of every setting are the same. -/
theorem eq_of_written {a b : FileSettings} (h : ∀ key, a.written? key = b.written? key) : a = b := by
  obtain ⟨sources, destination, queueLength, cutoff, drainInterval, apiAddress⟩ := a
  obtain rfl : sources = b.sources := h .sources
  obtain rfl : destination = b.destination := h .destination
  obtain rfl : queueLength = b.queueLength := h .queueLength
  obtain rfl : cutoff = b.cutoff := h .cutoff
  obtain rfl : drainInterval = b.drainInterval := h .drainInterval
  obtain rfl : apiAddress = b.apiAddress := h .apiAddress
  rfl

/-- Any choice of what is set is a layer. -/
theorem exists_layer (said? : (key : Setting) → Option key.Written) : ∃ layer : FileSettings, layer.written? = said? := by
  refine ⟨⟨said? .sources, said? .destination, said? .queueLength, said? .cutoff, said? .drainInterval,
    said? .apiAddress⟩, funext fun key => ?_⟩
  cases key <;> rfl

/-- The upper file decides on what it writes, and the lower one on the rest. -/
@[simp]
theorem written?_above (upper lower : FileSettings) (key : Setting) :
    (upper.above lower).written? key = (upper.written? key).or (lower.written? key) := by
  cases key <;> rfl

/-- A layer hides what it sets itself from the one below. -/
theorem above_congr {upper a b : FileSettings} (h : ∀ key, upper.written? key = .none → a.written? key = b.written? key) :
    upper.above a = upper.above b := by
  refine eq_of_written fun key => ?_
  rw [written?_above, written?_above]
  cases hupper : upper.written? key with
  | none => rw [h key hupper]
  | some written => rfl

end FileSettings

/-! ## The environment as a layer -/

/-- What the environment gives for a setting: nothing if it does not override it, else what its text says. None if that cannot
be read. -/
def Setting.given? (key : Setting) (env : Environment) : Option (Option key.Written) :=
  (env.override? key).mapM key.ofText?

namespace Settings

/-- What the environment overrides, as a layer. The numbers are read in a fixed order, and the first that cannot be read
decides. -/
def overrides (env : Environment) : Except SettingsError FileSettings := do
  let queueLength ← numberOverride? env .queueLength "a positive integer" readCount?
  let cutoff ← numberOverride? env .cutoff "a number in 0..=1" Decimal.read?
  let drainInterval ← numberOverride? env .drainInterval "an integer number of milliseconds" readCount?
  return {
    sources := textOverride? env .sources
    destination := textOverride? env .destination
    queueLength := queueLength
    cutoff := cutoff
    drainInterval := drainInterval
    apiAddress := textOverride? env .apiAddress }

/-- Merging lays the environment over the file and both over the defaults. -/
theorem merge_eq (file : FileSettings) (env : Environment) :
    merge file env = (overrides env).map fun upper => (upper.above file).withDefaults := by
  unfold merge overrides
  cases numberOverride? env .queueLength "a positive integer" readCount? with
  | error cause => rfl
  | ok queueLength =>
    cases numberOverride? env .cutoff "a number in 0..=1" Decimal.read? with
    | error cause => rfl
    | ok cutoff => cases numberOverride? env .drainInterval "an integer number of milliseconds" readCount? <;> rfl

/-- Settings are merged exactly if every override is of its type. -/
theorem merge_eq_ok_iff {file : FileSettings} {env : Environment} {merged : MergedSettings} :
    merge file env = .ok merged ↔ ∃ upper, overrides env = .ok upper ∧ (upper.above file).withDefaults = merged := by
  rw [merge_eq]
  cases overrides env <;> simp [Except.map]

section Giving

variable (env : Environment) {key : Setting}

/-- A variable that overrides a number does so whatever its value is. -/
theorem override?_of_number (hkey : key.isText = false) : env.override? key = env key.overriddenBy := by
  unfold Environment.override?
  rw [hkey]
  cases env key.overriddenBy <;> rfl

/-- One that overrides a text does so only if there is more than blanks in it. -/
theorem override?_of_text (hkey : key.isText = true) : env.override? key = textOverride? env key.overriddenBy := by
  unfold Environment.override? textOverride?
  congr 1
  funext text
  rw [hkey, Bool.not_true, Bool.false_or, Bool.eq_iff_iff, Bool.not_eq_true', List.isEmpty_eq_false_iff, ne_eq,
    Text.trim_eq_nil_iff]
  simp

/-- Texts are given as they are. -/
theorem given?_of_text (hkey : key.isText = true) :
    key.given? env = some ((textOverride? env key.overriddenBy).bind key.ofText?) := by
  unfold Setting.given?
  rw [override?_of_text env hkey]
  cases textOverride? env key.overriddenBy with
  | none => rfl
  | some text =>
    cases key with
    | sources | destination | apiAddress => rfl
    | queueLength | cutoff | drainInterval => cases hkey

/-- Numbers are given as they are read. -/
theorem given?_eq_some_iff_of_number (hkey : key.isText = false) {read? : List Char → Option key.Written}
    (hread : ∀ text, key.ofText? text = read? (Text.trim text.toList)) {demand : String} {given : Option key.Written} :
    key.given? env = some given ↔ numberOverride? env key.overriddenBy demand read? = .ok given := by
  unfold Setting.given? numberOverride?
  rw [override?_of_number env hkey]
  cases env key.overriddenBy with
  | none => simp
  | some text => cases hvalue : read? (Text.trim text.toList) <;> simp [hread, hvalue]

end Giving

/-- The layer of the environment sets what the environment gives. -/
theorem given?_of_overrides {env : Environment} {upper : FileSettings} (h : overrides env = .ok upper) (key : Setting) :
    key.given? env = some (upper.written? key) := by
  simp only [overrides, bind_eq_ok_iff] at h
  obtain ⟨queueLength, hqueueLength, cutoff, hcutoff, drainInterval, hdrainInterval, hlayer⟩ := h
  cases hlayer
  cases key with
  | sources | destination | apiAddress =>
    rw [given?_of_text env rfl]
    exact congrArg some (Option.bind_fun_some _)
  | queueLength => exact (given?_eq_some_iff_of_number env rfl fun _ => rfl).2 hqueueLength
  | cutoff => exact (given?_eq_some_iff_of_number env rfl fun _ => rfl).2 hcutoff
  | drainInterval => exact (given?_eq_some_iff_of_number env rfl fun _ => rfl).2 hdrainInterval

/-- What the environment overrides makes a layer exactly if it can be read, setting by setting. -/
theorem overrides_eq_ok_iff {env : Environment} {upper : FileSettings} :
    overrides env = .ok upper ↔ ∀ key : Setting, key.given? env = some (upper.written? key) := by
  constructor
  · exact given?_of_overrides
  · intro h
    -- all numbers can be read, so there is some layer, and it can differ from `upper` in no setting
    obtain ⟨layer, hlayer⟩ : ∃ layer, overrides env = .ok layer := by
      have hqueueLength : numberOverride? env .queueLength "a positive integer" readCount? = .ok upper.queueLength :=
        (given?_eq_some_iff_of_number env rfl fun _ => rfl).1 (h .queueLength)
      have hcutoff : numberOverride? env .cutoff "a number in 0..=1" Decimal.read? = .ok upper.cutoff :=
        (given?_eq_some_iff_of_number env rfl fun _ => rfl).1 (h .cutoff)
      have hdrainInterval : numberOverride? env .drainInterval "an integer number of milliseconds" readCount? =
          .ok upper.drainInterval :=
        (given?_eq_some_iff_of_number env rfl fun _ => rfl).1 (h .drainInterval)
      simp only [overrides, bind_eq_ok_iff]
      exact ⟨_, _, hqueueLength, _, hcutoff, _, hdrainInterval, rfl⟩
    have hsame : layer = upper := by
      refine FileSettings.eq_of_written fun key => ?_
      have hgiven := given?_of_overrides hlayer key
      rw [h key] at hgiven
      exact (Option.some.inj hgiven).symm
    rw [hlayer, hsame]

/-! ## Merging -/

/-- Nothing is given exactly if nothing overrides. -/
theorem given?_eq_some_none_iff {env : Environment} {key : Setting} :
    key.given? env = some none ↔ env.override? key = none := by
  unfold Setting.given?
  cases env.override? key with
  | none => simp
  | some text => cases key.ofText? text <;> simp

/-- Files that say the same of what is not overridden are merged to the same. -/
theorem merge_congr {env : Environment} {file other : FileSettings}
    (h : ∀ key, env.override? key = none → file.written? key = other.written? key) : merge file env = merge other env := by
  rw [merge_eq, merge_eq]
  cases hupper : overrides env with
  | error cause => rfl
  | ok upper =>
    have hlayers : upper.above file = upper.above other := by
      refine FileSettings.above_congr fun key hnone => h key ?_
      have hgiven := given?_of_overrides hupper key
      rw [hnone] at hgiven
      exact given?_eq_some_none_iff.1 hgiven
    simp only [Except.map, hlayers]

end Settings

/-- A setting among those that were merged; none if it cannot be read. -/
def MergedSettings.value? (merged : MergedSettings) : (key : Setting) → Option key.Value
  | .sources => some (Settings.sourcesOf merged).1
  | .destination => (Endpoint.parse merged.destination).toOption
  | .apiAddress => some merged.apiAddress
  | .queueLength => some merged.queueLength
  | .cutoff => some merged.cutoff
  | .drainInterval => some merged.drainInterval

/-- A layer over the defaults says what is written in it, and for all else the default. -/
theorem MergedSettings.value?_withDefaults (layer : FileSettings) (key : Setting) :
    layer.withDefaults.value? key = match layer.written? key with
      | some written => key.ofWritten? written
      | none => some key.default := by
  obtain ⟨sources, destination, queueLength, cutoff, drainInterval, apiAddress⟩ := layer
  cases key with
  | sources => cases sources <;> rfl
  | destination =>
    cases destination with
    | none =>
      have hdefault : Endpoint.parse Settings.defaultDestination = .ok ⟨"127.0.0.1", 5020⟩ := by decide
      exact congrArg Except.toOption hdefault
    | some text => rfl
  | apiAddress => cases apiAddress <;> rfl
  | queueLength => cases queueLength <;> rfl
  | cutoff => cases cutoff <;> rfl
  | drainInterval => cases drainInterval <;> rfl

namespace Settings

/-- The checks let settings through exactly if each of them is what was merged for it, and they are fit for use. -/
theorem validate_eq_ok_iff_values {merged : MergedSettings} {s : Settings} :
    (validate merged).1 = .ok s ↔ (∀ key, merged.value? key = some (s.value key)) ∧ s.Accepted ∧
      (SocketAddress.read? s.apiAddress.toList).isSome = true := by
  constructor
  · intro h
    have haccepted := accepted_of_validate h
    rw [validate_eq_ok_iff, checkValues_eq_ok_iff] at h
    obtain ⟨⟨-, -, hdestination, haddress⟩, -, hsources, hqueueLength, hcutoff, hapiAddress, hdrainInterval⟩ := h
    refine ⟨fun key => ?_, haccepted, hapiAddress ▸ haddress⟩
    cases key with
    | sources => exact congrArg some hsources
    | destination => exact congrArg Except.toOption hdestination
    | apiAddress => exact congrArg some hapiAddress
    | queueLength => exact congrArg some hqueueLength
    | cutoff => exact congrArg some hcutoff
    | drainInterval => exact congrArg some hdrainInterval
  · rintro ⟨hvalue, haccepted, haddress⟩
    have hsources : (sourcesOf merged).1 = s.sources := Option.some.inj (hvalue .sources)
    have hdestination : Endpoint.parse merged.destination = .ok s.destination := toOption_eq_some_iff.1 (hvalue .destination)
    have hapiAddress : merged.apiAddress = s.apiAddress := Option.some.inj (hvalue .apiAddress)
    have hqueueLength : merged.queueLength = s.queueLength := Option.some.inj (hvalue .queueLength)
    have hcutoff : merged.cutoff = s.cutoff := Option.some.inj (hvalue .cutoff)
    have hdrainInterval : merged.drainInterval = s.drainInterval := Option.some.inj (hvalue .drainInterval)
    rw [validate_eq_ok_iff, checkValues_eq_ok_iff, hsources, hapiAddress, hqueueLength, hcutoff]
    have hpos : s.queueLength ≠ 0 := Nat.one_le_iff_ne_zero.1 haccepted.queueLength
    exact ⟨⟨hpos, haccepted.cutoff, hdestination, haddress⟩, haccepted.sources, rfl, rfl, rfl, rfl, hdrainInterval⟩

/-- What the environment gives decides; where it gives nothing, the file and then the default. -/
theorem effective?_of_given? {file : FileSettings} {env : Environment} {key : Setting} {given : Option key.Written}
    (h : key.given? env = some given) :
    key.effective? file env = match given.or (file.written? key) with
      | some written => key.ofWritten? written
      | none => some key.default := by
  unfold Setting.effective?
  unfold Setting.given? at h
  cases hover : env.override? key with
  | none =>
    rw [hover] at h
    cases h
    rfl
  | some text =>
    rw [hover] at h
    obtain ⟨written, hwritten, rfl⟩ := Option.map_eq_some_iff.1 h
    simp only [hwritten]
    rfl

/-- A setting that comes to something is not overridden with what cannot be read. -/
theorem exists_given?_of_effective? {file : FileSettings} {env : Environment} {key : Setting} {value : key.Value}
    (h : key.effective? file env = some value) : ∃ given, key.given? env = some given := by
  unfold Setting.effective? at h
  unfold Setting.given?
  cases hover : env.override? key with
  | none => exact ⟨none, rfl⟩
  | some text =>
    rw [hover] at h
    obtain ⟨written, hwritten, -⟩ := Option.bind_eq_some_iff.1 h
    exact ⟨some written, by simp [hwritten]⟩

/-- The environment over the file over the defaults says what a setting comes to. -/
theorem value?_of_overrides {file : FileSettings} {env : Environment} {upper : FileSettings}
    (h : overrides env = .ok upper) (key : Setting) :
    (upper.above file).withDefaults.value? key = key.effective? file env := by
  rw [MergedSettings.value?_withDefaults, FileSettings.written?_above, effective?_of_given? (given?_of_overrides h key)]

/-- Settings are resolved exactly to what each of them comes to, as far as that is fit for use. -/
theorem resolve_eq_ok_iff {file : FileSettings} {env : Environment} {s : Settings} :
    (resolve file env).1 = .ok s ↔ (∀ key : Setting, key.effective? file env = some (s.value key)) ∧ s.Accepted ∧
      (SocketAddress.read? s.apiAddress.toList).isSome = true := by
  rw [resolve_eq_ok_iff_validate]
  constructor
  · rintro ⟨merged, hmerged, hvalid⟩
    obtain ⟨upper, hupper, rfl⟩ := merge_eq_ok_iff.1 hmerged
    obtain ⟨hvalue, hfit⟩ := validate_eq_ok_iff_values.1 hvalid
    exact ⟨fun key => (value?_of_overrides hupper key).symm.trans (hvalue key), hfit⟩
  · rintro ⟨hvalue, hfit⟩
    have hgiven (key : Setting) : ∃ given, key.given? env = some given := exists_given?_of_effective? (hvalue key)
    -- what is given setting by setting makes one layer, and that is what the environment overrides
    choose given hgiven using hgiven
    obtain ⟨upper, rfl⟩ := FileSettings.exists_layer given
    have hupper : overrides env = .ok upper := overrides_eq_ok_iff.2 hgiven
    refine ⟨(upper.above file).withDefaults, merge_eq_ok_iff.2 ⟨upper, hupper, rfl⟩, ?_⟩
    exact validate_eq_ok_iff_values.2 ⟨fun key => (value?_of_overrides hupper key).trans (hvalue key), hfit⟩

/-! ## Loading -/

/-- Files that say the same of what is not overridden are loaded to the same: the same settings or the same error, and the
same warnings. -/
theorem load_congr {env : Environment} {file other : Option (String × FileContent)} {settings otherSettings : FileSettings}
    (hfile : FileSettings.ofNamed file = .ok settings) (hother : FileSettings.ofNamed other = .ok otherSettings)
    (h : ∀ key, env.override? key = none → settings.written? key = otherSettings.written? key) :
    load file env = load other env := by
  rw [load_eq, load_eq, hfile, hother]
  simp only [resolve, merge_congr h]

/-- Settings are loaded exactly if every setting has an effective value, these are the settings, and they pass the
checks. -/
theorem load_eq_ok_iff {file : Option (String × FileContent)} {env : Environment} {s : Settings} :
    (load file env).1 = .ok s ↔ ∃ settings, FileSettings.ofNamed file = .ok settings ∧
      (∀ key : Setting, key.effective? settings env = some (s.value key)) ∧ s.Accepted ∧
        (SocketAddress.read? s.apiAddress.toList).isSome = true := by
  simp only [load_eq_ok_iff_resolve, resolve_eq_ok_iff]

/-- What a setting comes to depends on nothing that the environment does to others. -/
theorem effective?_congr {file : FileSettings} {env other : Environment} {key : Setting}
    (h : env.override? key = other.override? key) : key.effective? file env = key.effective? file other := by
  unfold Setting.effective?
  rw [h]

/-- Which word on a setting counts, for all files and environments.
1. If two files can be read and say the same of each setting that the environment does not override, it makes no difference
which of them is loaded: the settings are the same or the error is, and so are the warnings. What a file says of a setting that
is overridden never matters, not even if it would be refused.
2. Settings are loaded exactly if the file can be read, each of them is what the environment says if it overrides the setting,
else what the file says if it sets it, else the default, and they pass the checks.
3. A setting that two environments override in the same way, or not at all, is the same with both, whatever they do to the
others. So a change to the override of one setting changes no other. -/
theorem environment_over_file_over_default (env : Environment) :
    (∀ file other settings otherSettings, FileSettings.ofNamed file = .ok settings →
      FileSettings.ofNamed other = .ok otherSettings →
      (∀ key, env.override? key = none → settings.written? key = otherSettings.written? key) →
      load file env = load other env) ∧
    (∀ file s, (load file env).1 = .ok s ↔ ∃ settings, FileSettings.ofNamed file = .ok settings ∧
      (∀ key : Setting, key.effective? settings env = some (s.value key)) ∧ s.Accepted ∧
        (SocketAddress.read? s.apiAddress.toList).isSome = true) ∧
    ∀ file changed s after, (load file env).1 = .ok s → (load file changed).1 = .ok after →
      ∀ key : Setting, env.override? key = changed.override? key → s.value key = after.value key := by
  refine ⟨?_, ?_, ?_⟩
  · intro file other settings otherSettings hfile hother hagree
    exact load_congr hfile hother hagree
  · intro file s
    exact load_eq_ok_iff
  · intro file changed s after hload hchanged key hover
    obtain ⟨settings, hfile, hvalue, -⟩ := load_eq_ok_iff.1 hload
    obtain ⟨sameSettings, hsame, hafter, -⟩ := load_eq_ok_iff.1 hchanged
    obtain rfl : settings = sameSettings := Except.ok.inj (hfile.symm.trans hsame)
    have hboth : some (s.value key) = some (after.value key) := by
      rw [← hvalue key, ← hafter key]
      exact effective?_congr hover
    exact Option.some.inj hboth

end Settings

namespace Sample

/-- A file with no room for a frame, a cutoff that is no share and a destination that is no endpoint. -/
def unfitFile : String × FileContent :=
  ("relay.json", .octets (Text.utf8 ("\x7b\"queue_length\": 0, \"dropped_frame_warning_cutoff\": 7, " ++
    "\"destination_endpoint\": \"nowhere\", \"drain_interval_ms\": 4\x7d")))

def unfit : FileSettings := ⟨none, some "nowhere", some 0, some (Binary64.ofNat 7), some 4, none⟩

/-- A file in the other format that sets one thing only. -/
def fitFile : String × FileContent := ("relay.toml", .octets (Text.utf8 "drain_interval_ms = 4"))

def fit : FileSettings := { FileSettings.none with drainInterval := some 4 }

theorem ofNamed_unfitFile : FileSettings.ofNamed (some unfitFile) = .ok unfit :=
  toOption_eq_some_iff.1 (by decide +kernel)

theorem ofNamed_fitFile : FileSettings.ofNamed (some fitFile) = .ok fit := toOption_eq_some_iff.1 (by decide +kernel)

/-- All that is unfit is overridden; a source list of blanks overrides nothing. -/
def overriding : Environment
  | .queueLength => some " 64 "
  | .cutoff => some "0.25"
  | .destination => some "tcp://*:6100"
  | .sources => some " \t"
  | _ => none

/-- The same, but for the length of the queue. -/
def shortening : Environment
  | .queueLength => some "1"
  | which => overriding which

def overridden : Settings :=
  ⟨[Settings.defaultSource], ⟨"0.0.0.0", 6100⟩, 64, Binary64.ofDecimal false 25 (-2), "127.0.0.1:8888", 4⟩

theorem accepted_overridden : overridden.Accepted :=
  ⟨by decide, ⟨by decide, by decide⟩, by decide, by decide +kernel⟩

theorem effective?_overridden (key : Setting) : key.effective? unfit overriding = some (overridden.value key) := by
  cases key <;> decide +kernel

theorem unfit_agrees (key : Setting) (h : overriding.override? key = none) : unfit.written? key = fit.written? key := by
  cases key with
  | sources | apiAddress | drainInterval => rfl
  | destination | queueLength | cutoff => cases h

end Sample

/-- By itself the unfit file is refused; with what is unfit overridden it is loaded as the other one is. Another length of the
queue changes nothing else. -/
theorem Settings.environment_over_file_over_default_sample :
    (load (some Sample.unfitFile) fun _ => none).1 = .error (.settings .zeroQueueLength) ∧
      load (some Sample.unfitFile) Sample.overriding = load (some Sample.fitFile) Sample.overriding ∧
      (load (some Sample.unfitFile) Sample.overriding).1 = .ok Sample.overridden ∧
      ∃ after, (load (some Sample.unfitFile) Sample.shortening).1 = .ok after ∧ after.queueLength = 1 ∧
        after.drainInterval = 4 ∧ after.sources = [defaultSource] := by
  have hrefused : (load (some Sample.unfitFile) fun _ => none).1 = .error (.settings .zeroQueueLength) := by
    rw [load_eq, Sample.ofNamed_unfitFile]
    rfl
  obtain ⟨hfiles, hloaded, hchange⟩ := environment_over_file_over_default Sample.overriding
  have hload : (load (some Sample.unfitFile) Sample.overriding).1 = .ok Sample.overridden :=
    (hloaded (some Sample.unfitFile) Sample.overridden).2
      ⟨Sample.unfit, Sample.ofNamed_unfitFile, Sample.effective?_overridden, Sample.accepted_overridden, by decide +kernel⟩
  obtain ⟨after, hafter⟩ : ∃ after, (load (some Sample.unfitFile) Sample.shortening).1 = .ok after := by
    rw [load_eq, Sample.ofNamed_unfitFile]
    exact ⟨_, eq_ok_get (by decide +kernel)⟩
  have hqueueLength : after.queueLength = 1 := by
    obtain ⟨-, hshortened, -⟩ := environment_over_file_over_default Sample.shortening
    obtain ⟨settings, -, hvalue, -⟩ := (hshortened (some Sample.unfitFile) after).1 hafter
    exact Option.some.inj (hvalue .queueLength).symm
  have hsame := hchange (some Sample.unfitFile) Sample.shortening Sample.overridden after hload hafter
  refine ⟨hrefused, ?_, hload, after, hafter, hqueueLength, ?_, ?_⟩
  · exact hfiles _ _ _ _ Sample.ofNamed_unfitFile Sample.ofNamed_fitFile Sample.unfit_agrees
  · exact (hsame .drainInterval rfl).symm
  · exact (hsame .sources rfl).symm

end FrameMerge
