import FrameMerge.Proofs.Failure
import FrameMerge.Settings.File
import Mathlib.Data.List.Nodup

/-!
# Accepted settings

Settings that were loaded can be run with. What is checked when settings are loaded and what is checked when a combiner is
set up are different checks in different places; here the first are found to imply the others (`Settings.Accepted.create`).
Entries of a source list that are passed over leave no gap: the place of a source among the settings is the place at which
the combiner finds its name, and stays it over every run.
-/

namespace FrameMerge

/-! ## Source lists -/

namespace SourceList

/-- All sources have names, and no two the same. -/
structure Named (sources : List SourceSpec) : Prop where
  distinct : (sources.map SourceSpec.name).Nodup
  nonempty : ∀ spec ∈ sources, spec.name ≠ ""

/-- An entry has a name. -/
theorem Piece.name_ne_empty {piece : List Char} {spec : SourceSpec} (h : Piece.read piece = .entry spec) :
    spec.name ≠ "" := by
  unfold Piece.read at h
  simp only at h
  split at h
  · cases h
  · split at h
    · split at h
      · cases h
      · rename_i name endpoint _ hnamed
        split at h
        · cases h
        · cases h
          intro hempty
          have hnil : Text.trim name = [] := String.ofList_injective hempty
          rw [hnil] at hnamed
          exact hnamed rfl
    · cases h

/-- A piece adds a source with a new name, or none. -/
theorem Named.add {found : List SourceSpec × List Event} (h : Named found.1) (piece : List Char) :
    Named (add found piece).1 := by
  obtain ⟨sources, events⟩ := found
  unfold SourceList.add
  cases hread : Piece.read piece with
  | blank | malformed | unnamed | unreachable => exact h
  | entry spec =>
    simp only
    split
    · exact h
    · rename_i hnew
      simp only [List.any_eq_true, decide_eq_true_eq, not_exists, not_and] at hnew
      refine ⟨?_, ?_⟩
      · rw [List.map_append, List.map_singleton, ← List.concat_eq_append, List.nodup_concat]
        refine ⟨?_, h.distinct⟩
        intro hmem
        obtain ⟨other, hother, hsame⟩ := List.mem_map.1 hmem
        exact hnew other hother hsame
      · intro other hother
        rcases List.mem_append.1 hother with hother | hother
        · exact h.nonempty other hother
        · rw [List.mem_singleton.1 hother]
          exact Piece.name_ne_empty hread

/-- Names stay distinct from piece to piece. -/
theorem Named.foldl {found : List SourceSpec × List Event} (h : Named found.1) (pieces : List (List Char)) :
    Named (pieces.foldl SourceList.add found).1 := by
  induction pieces generalizing found with
  | nil => exact h
  | cons piece pieces ih => exact ih (h.add piece)

/-- The sources of a list have names, and no two the same. -/
theorem named_parse (text : String) : Named (parse text).1 := by
  have hnone : Named (([], []) : List SourceSpec × List Event).1 := ⟨List.nodup_nil, by simp⟩
  exact Named.foldl hnone (Text.pieces ',' text.toList)

end SourceList

/-! ## Checked settings -/

namespace Settings

/-- So have those that settings come to, whether they are listed or not. -/
theorem named_sourcesOf (merged : MergedSettings) : SourceList.Named (sourcesOf merged).1 := by
  unfold sourcesOf
  split
  · exact ⟨List.nodup_singleton _, by simp [defaultSource]⟩
  · exact SourceList.named_parse _

/-- Settings that passed the checks. -/
structure Accepted (s : Settings) : Prop where
  sources : s.sources ≠ []
  named : SourceList.Named s.sources
  queueLength : 1 ≤ s.queueLength
  cutoff : checkCutoff s.cutoff = .ok ()

/-- All but the sources pass the checks exactly if there is room for a frame, the cutoff is a share, and both addresses can be
read. -/
theorem checkValues_eq_ok_iff {merged : MergedSettings} {destination : Endpoint} :
    checkValues merged = .ok destination ↔
      merged.queueLength ≠ 0 ∧ checkCutoff merged.cutoff = .ok () ∧ Endpoint.parse merged.destination = .ok destination ∧
        (SocketAddress.read? merged.apiAddress.toList).isSome = true := by
  unfold checkValues
  by_cases hzero : merged.queueLength = 0
  · simp [hzero]
  rw [if_neg hzero]
  cases checkCutoff merged.cutoff with
  | error cause => simp
  | ok u =>
    cases Endpoint.parse merged.destination with
    | error cause => simp
    | ok parsed => cases SocketAddress.read? merged.apiAddress.toList <;> simp [hzero]

/-- The checks let settings through as they are, if there are sources among them. -/
theorem validate_eq_ok_iff {merged : MergedSettings} {s : Settings} :
    (validate merged).1 = .ok s ↔
      checkValues merged = .ok s.destination ∧ (sourcesOf merged).1 ≠ [] ∧ (sourcesOf merged).1 = s.sources ∧
        merged.queueLength = s.queueLength ∧ merged.cutoff = s.cutoff ∧ merged.apiAddress = s.apiAddress ∧
        merged.drainInterval = s.drainInterval := by
  obtain ⟨sources, destination, queueLength, cutoff, apiAddress, drainInterval⟩ := s
  unfold validate
  cases checkValues merged with
  | error cause => simp
  | ok checked =>
    by_cases hnone : (sourcesOf merged).1 = []
    · simp [hnone]
    · simp only [List.isEmpty_iff, hnone, if_false, Except.ok.injEq, Settings.mk.injEq, ne_eq, not_false_eq_true, true_and]
      exact and_left_comm

theorem accepted_of_validate {merged : MergedSettings} {s : Settings} (h : (validate merged).1 = .ok s) :
    s.Accepted := by
  obtain ⟨hchecked, hsome, hsources, hqueue, hcutoff, -, -⟩ := validate_eq_ok_iff.1 h
  obtain ⟨hpos, hshare, -, -⟩ := checkValues_eq_ok_iff.1 hchecked
  rw [hqueue] at hpos
  rw [hcutoff] at hshare
  rw [hsources] at hsome
  exact ⟨hsome, hsources ▸ named_sourcesOf merged, Nat.one_le_iff_ne_zero.2 hpos, hshare⟩

/-- Settings are merged first, and then checked. -/
theorem resolve_eq_ok_iff_validate {file : FileSettings} {env : Environment} {s : Settings} :
    (resolve file env).1 = .ok s ↔ ∃ merged, merge file env = .ok merged ∧ (validate merged).1 = .ok s := by
  unfold resolve
  cases merge file env with
  | error cause => simp
  | ok merged => simp

end Settings

/-- The settings of a file, if one is named; where none is, nothing is set. -/
def FileSettings.ofNamed : Option (String × FileContent) → Except LoadError FileSettings
  | .none => .ok FileSettings.none
  | some (path, content) => (FileSettings.read path content).mapError (LoadError.file path)

namespace Settings

/-- A file is read before anything else, and then only what it sets matters. -/
theorem load_eq (file : Option (String × FileContent)) (env : Environment) :
    load file env = match FileSettings.ofNamed file with
      | .error cause => (.error cause, [])
      | .ok settings => ((resolve settings env).1.mapError .settings, (resolve settings env).2) := by
  cases file <;> rfl

/-- Settings are loaded exactly if the file that is named can be read, and what it says can be used. -/
theorem load_eq_ok_iff_resolve {file : Option (String × FileContent)} {env : Environment} {s : Settings} :
    (load file env).1 = .ok s ↔ ∃ settings, FileSettings.ofNamed file = .ok settings ∧ (resolve settings env).1 = .ok s := by
  rw [load_eq]
  cases FileSettings.ofNamed file with
  | error cause => simp
  | ok settings =>
    simp only [Except.ok.injEq, exists_eq_left']
    cases (resolve settings env).1 <;> simp [Except.mapError]

/-- Wherever they come from, settings that are loaded passed the checks. -/
theorem accepted_of_load {file : Option (String × FileContent)} {env : Environment} {s : Settings}
    (h : (load file env).1 = .ok s) : s.Accepted := by
  obtain ⟨settings, -, hresolved⟩ := load_eq_ok_iff_resolve.1 h
  obtain ⟨merged, -, hvalid⟩ := resolve_eq_ok_iff_validate.1 hresolved
  exact accepted_of_validate hvalid

/-- A combiner can be set up with settings that passed the checks. -/
theorem Accepted.create {s : Settings} (h : s.Accepted) : ∃ c, Combiner.create s.combinerSettings s.sources = .ok c := by
  obtain ⟨queue, hqueue⟩ : ∃ queue, Queue.create s.queueLength = .ok queue := ⟨_, dif_pos h.queueLength⟩
  have hsource (spec : SourceSpec) : ∃ source, Source.create spec.name spec.endpoint.text s.cutoff = .ok source := by
    unfold Source.create Monitor.create
    rw [h.cutoff]
    exact ⟨_, rfl⟩
  choose source hmade using hsource
  have hsources : (s.sources.mapM fun spec => Source.create spec.name spec.endpoint.text s.cutoff) =
      .ok (s.sources.map source) :=
    mapM_eq_ok (List.forall₂_map_right_iff.2 (List.forall₂_same.2 fun spec _ => hmade spec))
  exact ⟨⟨s.sources.map source, queue, none, 0, s.destination.text, s.cutoff⟩,
    Combiner.create_eq_ok_iff.2 ⟨h.cutoff, hqueue, hsources, rfl, rfl, rfl, rfl⟩⟩

end Settings

/-! ## Sources keep their places -/

namespace Combiner

variable {settings : CombinerSettings} {specs : List SourceSpec} {c : Combiner}

/-- The sources are those that were specified, each in its place. -/
theorem Renewable.source (h : c.Renewable settings specs) {id : Nat} {spec : SourceSpec} (hspec : specs[id]? = some spec) :
    ∃ source, c.sources[id]? = some source ∧ source.name = spec.name ∧ source.endpoint = spec.endpoint.text := by
  have hmade := List.forall₂_map_right_iff.1 h.sources
  obtain ⟨hid, rfl⟩ := List.getElem?_eq_some_iff.1 hspec
  have hlt : id < c.sources.length := hmade.length_eq ▸ hid
  obtain ⟨hname, hendpoint, -⟩ := Source.reset_of_create (hmade.get hid hlt)
  exact ⟨c.sources[id], List.getElem?_eq_getElem hlt, hname, hendpoint⟩

/-- The sources keep their names. -/
theorem Renewable.names (h : c.Renewable settings specs) :
    c.sources.map Source.name = specs.map SourceSpec.name := by
  refine List.ext_getElem? fun id => ?_
  rw [List.getElem?_map, List.getElem?_map]
  cases hspec : specs[id]? with
  | none =>
    have hlength : specs.length = c.sources.length := (List.forall₂_map_right_iff.1 h.sources).length_eq
    rw [List.getElem?_eq_none_iff.2 (hlength ▸ List.getElem?_eq_none_iff.1 hspec)]
    rfl
  | some spec =>
    obtain ⟨source, hsource, hname, -⟩ := h.source hspec
    rw [hsource, Option.map_some, Option.map_some, hname]

/-- A name that no other source bears is found in its place. -/
theorem Renewable.sourceId? (h : c.Renewable settings specs) (hdistinct : (specs.map SourceSpec.name).Nodup) {id : Nat}
    {spec : SourceSpec} (hspec : specs[id]? = some spec) : c.sourceId? spec.name = some id := by
  obtain ⟨source, hsource, hname, -⟩ := h.source hspec
  obtain ⟨hid, rfl⟩ := List.getElem?_eq_some_iff.1 hsource
  rw [Combiner.sourceId?, List.findIdx?_eq_some_iff_getElem]
  refine ⟨hid, decide_eq_true hname, fun j hj hsame => ?_⟩
  rw [← h.names, List.nodup_iff_pairwise_ne, List.pairwise_map] at hdistinct
  have hdiffer := List.pairwise_iff_getElem.1 hdistinct j id (hj.trans hid) hid hj
  exact hdiffer ((decide_eq_true_iff.1 hsame).trans hname.symm)

/-- A message is counted by the source in its place and by no other. -/
theorem sources_ingest {id : Nat} {source : Source} (hsource : c.sources[id]? = some source) {raw : Bytes}
    {header : Header} (hread : Header.decode raw = .ok header) (payload : Bytes) :
    ∃ admission, (c.ingest id raw payload).value = .ok admission ∧
      ∀ k, (c.ingest id raw payload).state.sources[k]? =
        if id = k then some ((source.accept header payload).state.charge admission) else c.sources[k]? := by
  obtain ⟨hvalue, hstate⟩ := ingest_of_read hsource hread payload
  have hself := withSource_self (source.accept header payload).state hsource
  obtain ⟨admission, hadmission⟩ := offer_ok (source.accept header payload).value hself
  refine ⟨admission, hvalue.trans hadmission, fun k => ?_⟩
  rw [hstate, sources_offer hself hadmission, sources_withSource _ hsource]
  split <;> rfl

end Combiner

/-- A frame that comes too late is counted as dropped, and nothing else changes but the monitor. -/
theorem Source.charge_eq (s : Source) (admission : Admission) :
    (s.charge admission).name = s.name ∧ (s.charge admission).endpoint = s.endpoint ∧
      (s.charge admission).received = s.received := by
  unfold charge
  split <;> exact ⟨rfl, rfl, rfl⟩

/-- Settings that are loaded can be run with, whatever the file holds and whichever variables are set.
1. There are sources, all with names, and no two with the same.
2. A combiner can be set up with them. Its queue has the capacity that is set, which is at least one, it has as many sources
as are set, and all of them watch the cutoff that is set.
3. Over every run of a relay with that combiner, the name of each source leads to its place among the settings, and the
source in that place has its name and its endpoint.
4. A message for that place whose header can be read is counted by that source and by no other. -/
theorem loaded_settings_run (file : Option (String × FileContent)) (env : Environment) (s : Settings)
    (h : (Settings.load file env).1 = .ok s) :
    (s.sources ≠ [] ∧ (s.sources.map SourceSpec.name).Nodup ∧ ∀ spec ∈ s.sources, spec.name ≠ "") ∧
    ∃ c, Combiner.create s.combinerSettings s.sources = .ok c ∧
      (c.queue.capacity = s.queueLength ∧ 1 ≤ s.queueLength ∧ c.sources.length = s.sources.length ∧
        ∀ source ∈ c.sources, source.monitor.warn = s.cutoff) ∧
      ∀ {P : Type} [Publisher P] (publisher : P) (ops : List Operation) (id : Nat) (spec : SourceSpec),
        s.sources[id]? = some spec →
        let reached := ((⟨c, publisher⟩ : Relay P).after ops).combiner
        reached.sourceId? spec.name = some id ∧
        ∃ source, reached.sources[id]? = some source ∧ source.name = spec.name ∧ source.endpoint = spec.endpoint.text ∧
          ∀ raw payload header, Header.decode raw = .ok header →
            let next := (reached.ingest id raw payload).state
            (∃ counted, next.sources[id]? = some counted ∧ counted.name = spec.name ∧
              counted.endpoint = spec.endpoint.text ∧ counted.received = source.received + 1) ∧
            ∀ other, other ≠ id → next.sources[other]? = reached.sources[other]? := by
  have haccepted := Settings.accepted_of_load h
  obtain ⟨c, hcreate⟩ := haccepted.create
  have hrenewable := Combiner.Renewable.of_create hcreate
  obtain ⟨-, hqueue, hsources, -⟩ := Combiner.create_eq_ok_iff.1 hcreate
  have hmade := forall₂_of_mapM hsources
  refine ⟨⟨haccepted.sources, haccepted.named.distinct, haccepted.named.nonempty⟩, c, hcreate,
    ⟨congrArg Backlog.capacity (Queue.backlog_of_create hqueue), haccepted.queueLength, hmade.length_eq.symm, ?_⟩, ?_⟩
  · intro source hsource
    obtain ⟨spec, -, hspec⟩ := exists_of_forall₂ hmade hsource
    rw [Source.monitor_of_create hspec]
    rfl
  · intro P _ publisher ops id spec hspec reached
    have hreached : reached.Renewable s.combinerSettings s.sources :=
      Relay.renewable_after (r := ⟨c, publisher⟩) hrenewable ops
    obtain ⟨source, hsource, hname, hendpoint⟩ := hreached.source hspec
    refine ⟨hreached.sourceId? haccepted.named.distinct hspec, source, hsource, hname, hendpoint, ?_⟩
    intro raw payload header hread next
    obtain ⟨admission, -, hcounted⟩ := Combiner.sources_ingest hsource hread payload
    obtain ⟨hsameName, hsameEndpoint, hreceived⟩ := (source.accept header payload).state.charge_eq admission
    refine ⟨⟨_, (hcounted id).trans (if_pos rfl), hsameName.trans hname, hsameEndpoint.trans hendpoint, hreceived⟩, ?_⟩
    intro other hother
    exact (hcounted other).trans (if_neg hother.symm)

namespace Sample

/-- A file that sets a queue of three frames, and negative zero as the cutoff. -/
def settingsFile : String × FileContent :=
  ("relay.json", .octets "\x7b\"queue_length\": 3, \"dropped_frame_warning_cutoff\": -0.0\x7d".toUTF8.data.toList)

/-- Of the five entries of the list, one has no name, one no endpoint, and one repeats a name. -/
def environment : Environment
  | .sources => some "=tcp://host:1, a = tcp://host:2, b, a=tcp://host:3, c=tcp://[::1]:4"
  | _ => none

theorem load_isSome : (Settings.load (some settingsFile) environment).1.toOption.isSome = true := by decide +kernel

def loaded : Settings := (Settings.load (some settingsFile) environment).1.toOption.get load_isSome

theorem names_loaded : loaded.sources.map SourceSpec.name = ["a", "c"] ∧ loaded.queueLength = 3 := by decide +kernel

end Sample

/-- The last entry of the list is the second source, and messages for the second place are counted by it. -/
theorem loaded_settings_run_sample :
    (Settings.load (some Sample.settingsFile) Sample.environment).1 = .ok Sample.loaded ∧
      ∃ c, Combiner.create Sample.loaded.combinerSettings Sample.loaded.sources = .ok c ∧ c.queue.capacity = 3 ∧
        c.sourceId? "c" = some 1 ∧
        ∃ counted, (c.ingest 1 (Sample.message 5) []).state.sources[1]? = some counted ∧ counted.name = "c" ∧
          ∃ source, c.sources[1]? = some source ∧ counted.received = source.received + 1 := by
  have hload := eq_ok_get Sample.load_isSome
  obtain ⟨hnames, hlength⟩ := Sample.names_loaded
  obtain ⟨spec, hspec, hname⟩ : ∃ spec, Sample.loaded.sources[1]? = some spec ∧ spec.name = "c" := by
    have hsecond := congrArg (·[1]?) hnames
    simpa using hsecond
  obtain ⟨header, hread⟩ : ∃ header, Header.decode (Sample.message 5) = .ok header :=
    ⟨_, eq_ok_get (by decide +kernel)⟩
  obtain ⟨-, c, hcreate, ⟨hcapacity, -⟩, hrun⟩ := loaded_settings_run _ _ Sample.loaded hload
  obtain ⟨hfound, source, hsource, -, -, hcounts⟩ := hrun Recorder.empty [] 1 spec hspec
  obtain ⟨⟨counted, hcounted, hcountedName, -, hreceived⟩, -⟩ := hcounts _ [] header hread
  rw [hname] at hfound hcountedName
  exact ⟨hload, c, hcreate, hcapacity.trans hlength, hfound, counted, hcounted, hcountedName, source, hsource, hreceived⟩

end FrameMerge
