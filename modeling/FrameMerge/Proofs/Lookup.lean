import FrameMerge.Proofs.Leniency
import FrameMerge.Proofs.Literals
import FrameMerge.Proofs.RequestReading
import FrameMerge.Proofs.Responses
import FrameMerge.Proofs.Startup

/-!
# Sources that can be looked up

A source is looked up by its name, which stands in a request as it is: nothing in it is escaped. So a name can be asked for
exactly if nothing in it means something else there (`Control.Nameable`). A blank would end the target, a question mark would
start a query, and a slash at the end would be cut off; whatever a connection brings, no demand is for such a name
(`Control.nameable_of_understand`). All other names that fit are asked for by writing them down (`Control.asksFor_lookup`), and
since no two sources of a list have the same name, the source that is shown is the one that was meant
(`Control.sources_found_by_name`).
-/

namespace FrameMerge

/-- The octets of plain blanks are read as blanks. -/
theorem Text.isBlank_of_octet {b : UInt8} (h : b ∈ [9, 10, 11, 12, 13, 32]) :
    b < 0x80 ∧ isBlank (Char.ofNat b.toNat) = true := by
  simp only [List.mem_cons, List.not_mem_nil, or_false] at h
  rcases h with rfl | rfl | rfl | rfl | rfl | rfl <;> decide

/-! ## Bodies -/

namespace Json

/-- Values of the same octets are written alike. -/
theorem chars_eq_of_encode_eq {v w : Json} (h : v.encode = w.encode) : v.chars = w.chars := by
  have htext : v.text = w.text := by
    have hback := congrArg Text.ofUtf8? h
    rwa [encode, encode, Text.ofUtf8?_utf8, Text.ofUtf8?_utf8, Option.some.injEq] at hback
  exact String.ofList_injective htext

/-- A string in quotes tells where it ends, and which string it is. -/
theorem quoted_append_inj {a b : String} {s t : List Char} (h : quoted a ++ s = quoted b ++ t) : a = b ∧ s = t := by
  obtain ⟨octetsA, hquotedA, hreadA⟩ := readText_quoted a (Text.encodeChars s)
  obtain ⟨octetsB, hquotedB, hreadB⟩ := readText_quoted b (Text.encodeChars t)
  have hoctets := congrArg Text.encodeChars h
  rw [Text.encodeChars_append, Text.encodeChars_append, hquotedA, hquotedB] at hoctets
  have hbehind : octetsA ++ Text.encodeChars s = octetsB ++ Text.encodeChars t := (List.cons.inj hoctets).2
  rw [hbehind, hreadB] at hreadA
  obtain rfl : a = b := (Prod.mk.inj (Except.ok.inj hreadA)).1.symm
  exact ⟨rfl, List.append_cancel_left h⟩

/-- Objects of the same octets have the same first name, and the same text behind it. -/
theorem encode_object_inj {a b : String} {v w : Json} {fields others : List (String × Json)}
    (h : (object ((a, v) :: fields)).encode = (object ((b, w) :: others)).encode) :
    a = b ∧ v.chars ++ (moreFieldChars fields ++ ['\x7d']) = w.chars ++ (moreFieldChars others ++ ['\x7d']) := by
  have hchars := chars_eq_of_encode_eq h
  simp only [chars, fieldChars, List.cons_append, List.append_assoc] at hchars
  obtain ⟨hname, hbehind⟩ := quoted_append_inj (List.cons.inj hchars).2
  exact ⟨hname, (List.cons.inj hbehind).2⟩

/-- The text of an array is not that of an object: their first octets differ. -/
theorem encode_array_ne_object (items : List Json) (fields : List (String × Json)) :
    (array items).encode ≠ (object fields).encode := by
  intro h
  have hchars := chars_eq_of_encode_eq h
  simp [chars] at hchars

end Json

/-- The statistics of a source tell its name. -/
theorem SourceStats.name_eq_of_encode_eq {shown other : SourceStats} (h : shown.toJson.encode = other.toJson.encode) :
    shown.name = other.name := by
  obtain ⟨-, hbehind⟩ := Json.encode_object_inj h
  rw [Json.chars, Json.chars] at hbehind
  exact (Json.quoted_append_inj hbehind).1

/-! ## What is asked for -/

namespace Control

/-- A name that stands for itself in a request: no blank ends it, no question mark cuts it off, and no slash at its end is
dropped. -/
structure Nameable (name : String) : Prop where
  solid : Text.Solid name.toList
  query : '?' ∉ name.toList
  slash : name.toList.getLast? ≠ some '/'

/-- The shortest request that looks up the source of a name. -/
def lookup (name : String) : Bytes := Text.utf8 ("GET /nodes/" ++ name ++ "\r\n\r\n")

/-- A stream asks for the source of a name: it brings a request, and it starts with the words that look up the source, up to a
blank behind them. -/
def AsksFor (name : String) (stream : Bytes) : Prop :=
  (∃ request, Brings stream request) ∧
    ∃ b ∈ ([9, 10, 11, 12, 13, 32] : Bytes), ∃ later, stream = Text.utf8 ("GET /nodes/" ++ name) ++ b :: later

/-- The path at which the source of a name is looked up. -/
def place (name : String) : List Char := (sourcesPath ++ ['/']) ++ name.toList

/-! ## Demands for a source -/

section Places

variable {name : String} {path : List Char}

/-- A place ends as the name at its end does. -/
theorem getLast?_place (hname : name ≠ "") : (place name).getLast? = name.toList.getLast? := by
  have hsome : name.toList ≠ [] := fun h => hname (String.toList_eq_nil_iff.1 h)
  rw [place, List.getLast?_append_of_ne_nil _ hsome]

/-- A path that does not start like a place is none. -/
theorem place_ne (hstart : path.take 7 ≠ sourcesPath ++ ['/']) : place name ≠ path := by
  rintro rfl
  exact hstart (List.take_left' rfl)

/-- To look at the place of a name is to ask for the source of that name. -/
theorem lookAt_place (name : String) : lookAt (place name) = .ok (.source name) := by
  have hhealth : place name ≠ healthPath := place_ne (by decide)
  have hroot : ¬isRoot (place name) = true := by
    rw [isRoot_iff, not_or]
    exact ⟨place_ne (by decide), place_ne (by decide)⟩
  have hsources : place name ≠ sourcesPath := place_ne (by decide)
  have hprefix : (sourcesPath ++ ['/']).isPrefixOf (place name) = true :=
    List.isPrefixOf_iff_prefix.2 (List.prefix_append _ _)
  have hname : (place name).drop (sourcesPath.length + 1) = name.toList := List.drop_left' rfl
  rw [lookAt, if_neg hhealth, if_neg hroot, if_neg hsources, if_pos hprefix, hname, String.ofList_toList]

/-- A source is asked for at no other place. -/
theorem eq_place_of_lookAt (h : lookAt path = .ok (.source name)) : path = place name := by
  unfold lookAt at h
  split at h
  · nomatch h
  · split at h
    · nomatch h
    · split at h
      · nomatch h
      · split at h
        · rename_i hprefix
          obtain ⟨rest, rfl⟩ := List.isPrefixOf_iff_prefix.1 hprefix
          have hrest : ((sourcesPath ++ ['/']) ++ rest).drop (sourcesPath.length + 1) = rest := List.drop_left' rfl
          rw [hrest] at h
          rw [← Demand.source.inj (Except.ok.inj h), place, String.toList_ofList]
        · nomatch h

/-- Once its slashes are cut off, a path does not end in one. -/
theorem getLast?_trimSlashes (path : List Char) : (trimSlashes path).getLast? ≠ some '/' := by
  intro h
  have hsome : trimSlashes path ≠ [] := by
    intro hnone
    rw [hnone] at h
    nomatch h
  rw [List.getLast?_eq_some_getLast hsome, Option.some.injEq] at h
  exact List.rdropWhile_last_not (fun c => decide (c = '/')) path hsome (decide_eq_true h)

/-- A request to look at the place of a source demands that source. -/
theorem ofRequest_place (hname : name ≠ "") (hnameable : Nameable name) (body : Bytes) :
    Demand.ofRequest ⟨"GET", String.ofList (place name), body⟩ = .ok (.source name) := by
  have htrim : trimSlashes (place name) = place name :=
    (trimSlashes_eq_iff (getLast?_place hname ▸ hnameable.slash)).2 ⟨0, (List.append_nil _).symm⟩
  simp only [Demand.ofRequest, if_true, String.toList_ofList]
  rw [htrim]
  exact lookAt_place name

/-- Whatever a connection brings, a source that it demands has a name that stands for itself. -/
theorem nameable_of_understand {reads : List Bytes} (h : understand reads = .ok (.source name)) : Nameable name := by
  obtain ⟨request, hread, hdemand⟩ := understand_eq_ok_iff.1 h
  have hmethod := method_eq_get hdemand (by simp)
  simp only [Demand.ofRequest, hmethod, if_true] at hdemand
  have hplace := eq_place_of_lookAt hdemand
  obtain @⟨p, n, method, target, others, -, hwords, -⟩ := read_eq_ok_iff.1 hread
  simp only [String.toList_ofList] at hplace
  obtain ⟨-, htarget⟩ := Text.of_mem_words (hwords ▸ List.mem_cons_of_mem _ List.mem_cons_self : target ∈ Text.words _)
  -- the name is what is left of the target's end
  have hfrom : ∀ c ∈ name.toList, c ∈ target.takeWhile (· ≠ '?') := by
    intro c hc
    have hmem : c ∈ trimSlashes (target.takeWhile (· ≠ '?')) := hplace ▸ List.mem_append_right _ hc
    exact (List.rdropWhile_prefix (fun c => decide (c = '/')) _).subset hmem
  refine ⟨?_, ?_, ?_⟩
  · intro c hc
    exact (htarget c ((List.takeWhile_prefix _).subset (hfrom c hc))).1
  · intro hc
    have hquery := List.mem_takeWhile_imp (hfrom _ hc)
    simp at hquery
  · intro hlast
    have hslash : (trimSlashes (target.takeWhile (· ≠ '?'))).getLast? = some '/' := by
      rw [hplace, place, List.getLast?_append, hlast]
      rfl
    exact getLast?_trimSlashes _ hslash

end Places

/-! ## Streams that ask -/

section Streams

variable {name : String}

/-- The words that look up the source of a name. -/
def lookupWords (name : String) : List Char := "GET".toList ++ ' ' :: place name

/-- The request line up to the name, as octets. -/
theorem utf8_lookupWords (name : String) :
    Text.utf8 ("GET /nodes/" ++ name) = Text.encodeChars (lookupWords name) := by
  rw [Text.utf8_eq, String.toList_append]
  rfl

/-- The place of a name that stands for itself is one word. -/
theorem Nameable.solid_place (h : Nameable name) : Text.Solid (place name) :=
  List.forall_mem_append.2 ⟨(by decide : Text.Solid (sourcesPath ++ ['/'])), h.solid⟩

/-- No line ends within the words. -/
theorem Nameable.notMem_lookupWords (h : Nameable name) {c : Char} (hc : Text.isBlank c = true) (hspace : c ≠ ' ')
    (hmethod : c ∉ "GET".toList) : c ∉ lookupWords name := by
  have hplace : c ∉ place name := by
    intro hmem
    rw [h.solid_place c hmem] at hc
    cases hc
  simp only [lookupWords, List.mem_append, List.mem_cons, not_or]
  exact ⟨hmethod, hspace, hplace⟩

/-- Nothing of it is taken for a query. -/
theorem Nameable.takeWhile_place (h : Nameable name) : (place name).takeWhile (· ≠ '?') = place name := by
  have hquery : '?' ∉ place name := by
    rw [place, List.mem_append, not_or]
    exact ⟨by decide, h.query⟩
  rw [List.takeWhile_eq_self_iff]
  intro c hc
  exact decide_eq_true fun heq => hquery (heq ▸ hc)

/-- In a head that starts with them, the words are the first of the first line. -/
theorem words_lookupWords (h : Nameable name) {rest : Bytes} (hrest : ∀ b ∈ rest.head?, b ∈ ([9, 10, 11, 12, 13, 32] : Bytes)) :
    ∃ others, Text.words ((Text.lines (Text.lenientChars none (Text.encodeChars (lookupWords name) ++ rest))).headD []) =
      "GET".toList :: place name :: others := by
  rw [Text.lenientChars_encodeChars]
  have hblank : ∀ c ∈ (Text.lenientChars none rest).head?, Text.isBlank c = true := by
    cases rest with
    | nil => exact fun c hc => nomatch hc
    | cons b rest =>
      obtain ⟨hsmall, hblank⟩ := Text.isBlank_of_octet (hrest b rfl)
      rw [Text.lenientChars_small hsmall]
      rintro c ⟨rfl⟩
      exact hblank
  obtain ⟨more, hline, hmore⟩ := Text.headD_lines_append
    (h.notMem_lookupWords (c := '\n') (by decide) (by decide) (by decide))
    (h.notMem_lookupWords (c := '\r') (by decide) (by decide) (by decide)) (Text.lenientChars none rest)
  have hstart : ∀ c ∈ more.head?, Text.isBlank c = true := by
    intro c hc
    obtain ⟨behind, hbehind⟩ := hmore
    refine hblank c ?_
    rw [← hbehind, List.head?_append, hc]
    rfl
  obtain ⟨others, hothers⟩ := Text.words_eq_cons (by simp [place]) h.solid_place hstart
  refine ⟨others, ?_⟩
  rw [hline, lookupWords, List.append_assoc, List.cons_append,
    Text.words_append (by decide) (by decide) (by decide), hothers]

/-- Nothing of it is taken for the end of the head. -/
theorem Nameable.head?_append (h : Nameable name) (rest : Bytes) :
    head? (Text.encodeChars (lookupWords name) ++ rest) =
      (head? rest).map (Text.encodeChars (lookupWords name) ++ ·) :=
  Control.head?_append (Text.return_notMem_encodeChars (h.notMem_lookupWords (by decide) (by decide) (by decide))) rest

/-- The request of a stream that asks for a source is one to look at its place. -/
theorem brings_of_asksFor (h : Nameable name) {stream : Bytes} (hasks : AsksFor name stream) :
    ∃ body, Brings stream ⟨"GET", String.ofList (place name), body⟩ := by
  obtain ⟨⟨request, hbrings⟩, b, hb, later, rfl⟩ := hasks
  rw [utf8_lookupWords] at hbrings ⊢
  obtain ⟨head, ⟨octets, hfound, hread, hfits⟩, hall, rfl⟩ := brings_iff.1 hbrings
  rw [h.head?_append, Option.map_eq_some_iff] at hfound
  obtain ⟨rest, hrest, rfl⟩ := hfound
  have hblank : ∀ b' ∈ rest.head?, b' ∈ ([9, 10, 11, 12, 13, 32] : Bytes) := by
    rw [(head?_eq_some_iff.1 hrest).2]
    intro b' hb'
    rw [List.head?_take] at hb'
    split at hb'
    · nomatch hb'
    · exact Option.some.inj hb' ▸ hb
  obtain ⟨others, hwords⟩ := words_lookupWords h hblank
  obtain ⟨method, target, others', hwords', -, hmethod, hpath, -⟩ := Head.read_eq_ok_iff.1 hread
  obtain ⟨rfl, rfl, -⟩ : method = "GET".toList ∧ target = place name ∧ others' = others := by
    simpa using hwords'.symm.trans hwords
  rw [h.takeWhile_place] at hpath
  rw [Head.request, hmethod, hpath] at hbrings
  exact ⟨_, hbrings⟩

/-- The shortest request asks for the source, if it is not too long. -/
theorem asksFor_lookup (h : Nameable name) (hfits : (lookup name).length ≤ maxRequestBytes) :
    AsksFor name (lookup name) := by
  have hlookup : lookup name = Text.encodeChars (lookupWords name) ++ blankLine := by
    rw [lookup, Text.utf8_append, utf8_lookupWords]
    rfl
  have hfound : head? (lookup name) = some (Text.encodeChars (lookupWords name)) := by
    rw [hlookup, h.head?_append, show head? blankLine = some [] by decide, Option.map_some, List.append_nil]
  obtain ⟨hblank, htake⟩ := head?_eq_some_iff.1 hfound
  have hlength : (Text.encodeChars (lookupWords name)).length + 4 = (lookup name).length := by
    rw [hlookup, List.length_append]
    rfl
  have hlines : headLines (lookup name) (Text.encodeChars (lookupWords name)).length = [lookupWords name] := by
    have hchars := Text.lenientChars_encodeChars (lookupWords name) []
    rw [List.append_nil] at hchars
    rw [headLines, ← htake, hchars]
    simp only [Text.lenientChars, Option.isSome_none, Bool.false_eq_true, if_false, List.append_nil]
    exact Text.lines_eq_singleton (h.notMem_lookupWords (by decide) (by decide) (by decide)) (by simp [lookupWords])
  have hwords : Text.words ((headLines (lookup name) (Text.encodeChars (lookupWords name)).length).headD []) =
      ["GET".toList, place name] := by
    rw [hlines, List.headD_cons, lookupWords, Text.words_append (by decide) (by decide) (by decide),
      Text.words_eq_singleton (by simp [place]) h.solid_place]
  have hbody : AnnouncedLength (headLines (lookup name) (Text.encodeChars (lookupWords name)).length).tail 0 := by
    rw [hlines]
    exact ⟨List.forall_mem_nil _, Or.inl ⟨List.forall_mem_nil _, rfl⟩⟩
  refine ⟨⟨_, .mk hblank hwords hbody (hlength ▸ hfits) (Nat.le_of_eq hlength)⟩, 13, by decide, [10, 13, 10], ?_⟩
  rw [hlookup, utf8_lookupWords]
  rfl

end Streams

/-! ## Responses to lookups -/

/-- Whoever asks for the source of a name gets this response. -/
def Answers (c : Combiner) (name : String) (response : Response) : Prop :=
  ∀ reads : List Bytes, AsksFor name reads.flatten → (serve c reads).value = response

section Serving

variable {c : Combiner} {name : String}

/-- Whatever asks for a name, in reads of any size, is understood as asking for it. -/
theorem understand_of_asksFor (hname : name ≠ "") (h : Nameable name) {reads : List Bytes} (hasks : AsksFor name reads.flatten) :
    understand reads = .ok (.source name) := by
  obtain ⟨body, hbrings⟩ := brings_of_asksFor h hasks
  exact understand_eq_ok_iff.2 ⟨_, read_eq_ok_iff.2 hbrings, ofRequest_place hname h body⟩

/-- Where a source of the name is shown, this is the answer. -/
theorem answers_of_source? (hname : name ≠ "") (h : Nameable name) {shown : SourceStats}
    (hshown : c.stats.source? name = some shown) : Answers c name ⟨.ok, shown.toJson⟩ := by
  intro reads hasks
  simp only [serve, understand_of_asksFor hname h hasks, Demand.meet, hshown]

/-- Where none is, the answer says so. -/
theorem answers_of_no_source? (hname : name ≠ "") (h : Nameable name) (hnone : c.stats.source? name = none) :
    Answers c name Refusal.notFound.response := by
  intro reads hasks
  simp only [serve, understand_of_asksFor hname h hasks, Demand.meet, hnone]

/-- The statistics of a source alone are a body only where the source is asked for by name. -/
theorem understand_of_body {reads : List Bytes} {shown : SourceStats} (hok : (serve c reads).value.status = .ok)
    (hbody : (serve c reads).value.body = shown.toJson.encode) : understand reads = .ok (.source shown.name) := by
  unfold serve at hok hbody
  cases hunderstood : understand reads with
  | error refusal =>
    rw [hunderstood] at hok
    exact absurd hok refusal.status_ne_ok
  | ok demand =>
    rw [hunderstood] at hok hbody
    cases demand with
    | health | stats | reset => exact absurd (Json.encode_object_inj hbody).1 (by decide)
    | sources => exact absurd hbody (Json.encode_array_ne_object _ _)
    | source name =>
      simp only [Demand.meet] at hok hbody
      cases hfound : c.stats.source? name with
      | none =>
        rw [hfound] at hok
        exact absurd hok (Refusal.status_ne_ok .notFound)
      | some other =>
        rw [hfound] at hbody
        have hname : other.name = name := by simpa using List.find?_some hfound
        rw [← hname, SourceStats.name_eq_of_encode_eq hbody]

end Serving

/-! ## Sources of a list -/

section Sources

variable {c : Combiner} {source : Source} {name : String}

/-- Among sources of distinct names, the name tells the source. -/
theorem eq_of_name_eq (hdistinct : (c.sources.map Source.name).Nodup) (hsource : source ∈ c.sources) {other : Source}
    (hother : other ∈ c.sources) (hname : other.name = source.name) : other = source :=
  List.inj_on_of_nodup_map hdistinct hother hsource hname

/-- Each of them is found by its name, and its statistics are shown. -/
theorem source?_eq_some (hdistinct : (c.sources.map Source.name).Nodup) (hsource : source ∈ c.sources) :
    c.stats.source? source.name = some source.stats := by
  have hfind : c.sources.find? (fun other => decide (other.name = source.name)) = some source := by
    cases hfound : c.sources.find? fun other => decide (other.name = source.name) with
    | none =>
      have hother := List.find?_eq_none.1 hfound source hsource
      simp at hother
    | some other =>
      have hname : other.name = source.name := by simpa using List.find?_some hfound
      rw [eq_of_name_eq hdistinct hsource (List.mem_of_find?_eq_some hfound) hname]
  rw [Stats.source?, Combiner.stats_sources, List.find?_map]
  exact congrArg (Option.map Source.stats) hfind

/-- Under any other name nothing is found. -/
theorem source?_eq_none (h : name ∉ c.sources.map Source.name) : c.stats.source? name = none := by
  refine List.find?_eq_none.2 ?_
  intro shown hshown hname
  obtain ⟨source, hsource, rfl⟩ := List.mem_map.1 hshown
  exact h (List.mem_map.2 ⟨source, hsource, of_decide_eq_true hname⟩)

end Sources

/-- Which sources a combiner of a source list shows by name, whatever it went through.
1. A source is shown by some request exactly if its name stands for itself there. Then the shortest request asks for it,
whoever asks for it is shown its statistics, and it is the only source of this name.
2. Whoever asks for any other name that stands for itself is told that there is no such source. -/
theorem sources_found_by_name {settings : CombinerSettings} {text : String} {c : Combiner}
    (hcreate : Combiner.create settings (SourceList.parse text).1 = .ok c) {P : Type} [Publisher P] (publisher : P)
    (ops : List Operation) :
    let reached := ((⟨c, publisher⟩ : Relay P).after ops).combiner
    (∀ source ∈ reached.sources, (lookup source.name).length ≤ 8192 →
      ((∃ reads, (serve reached reads).value.status.code = 200 ∧
          (serve reached reads).value.body = source.stats.toJson.encode) ↔ Nameable source.name) ∧
        (Nameable source.name → AsksFor source.name (lookup source.name) ∧
          Answers reached source.name ⟨.ok, source.stats.toJson⟩ ∧
          ∀ other ∈ reached.sources, other.name = source.name → other = source)) ∧
      ∀ name, name ≠ "" → Nameable name → name ∉ (SourceList.parse text).1.map SourceSpec.name →
        (lookup name).length ≤ 8192 →
        AsksFor name (lookup name) ∧ Answers reached name Refusal.notFound.response ∧
          Refusal.notFound.response.status.code = 404 := by
  intro reached
  have hrenewable : reached.Renewable settings (SourceList.parse text).1 :=
    Relay.renewable_after (r := ⟨c, publisher⟩) (Combiner.Renewable.of_create hcreate) ops
  have hlist := SourceList.named_parse text
  have hnames : reached.sources.map Source.name = (SourceList.parse text).1.map SourceSpec.name := hrenewable.names
  have hdistinct : (reached.sources.map Source.name).Nodup := hnames ▸ hlist.distinct
  refine ⟨?_, ?_⟩
  · intro source hsource hfits
    have hname : source.name ≠ "" := by
      obtain ⟨spec, hspec, hsame⟩ := List.mem_map.1 (hnames ▸ List.mem_map_of_mem hsource)
      exact hsame ▸ hlist.nonempty spec hspec
    have hanswers (hnameable : Nameable source.name) : Answers reached source.name ⟨.ok, source.stats.toJson⟩ :=
      answers_of_source? hname hnameable (source?_eq_some hdistinct hsource)
    refine ⟨⟨?_, ?_⟩, ?_⟩
    · rintro ⟨reads, hcode, hbody⟩
      have hok : (serve reached reads).value.status = .ok := by
        revert hcode
        cases (serve reached reads).value.status <;> decide
      exact nameable_of_understand (understand_of_body hok hbody)
    · intro hnameable
      have hasks : AsksFor source.name [lookup source.name].flatten := by simpa using asksFor_lookup hnameable hfits
      refine ⟨[lookup source.name], ?_⟩
      rw [hanswers hnameable _ hasks]
      exact ⟨rfl, rfl⟩
    · intro hnameable
      refine ⟨asksFor_lookup hnameable hfits, hanswers hnameable, ?_⟩
      intro other hother hsame
      exact eq_of_name_eq hdistinct hsource hother hsame
  · intro name hname hnameable hother hfits
    have hnone : reached.stats.source? name = none := source?_eq_none (hnames ▸ hother)
    exact ⟨asksFor_lookup hnameable hfits, answers_of_no_source? hname hnameable hnone, rfl⟩

end Control

namespace Sample

/-- A list of two sources, one of them with a blank in its name. -/
def list : String := "a=tcp://host:1, b c=tcp://host:2"

theorem listed_isSome : (Combiner.create settings (SourceList.parse list).1).toOption.isSome = true := by decide +kernel

/-- A combiner of the list, which has received a frame of its first source. -/
def listed : Relay Recorder :=
  (⟨(Combiner.create settings (SourceList.parse list).1).toOption.get listed_isSome, .empty⟩ : Relay Recorder).after
    [.ingest 0 (message 5) []]

theorem sources_listed :
    listed.combiner.sources.map (fun source => (source.name, source.received)) = [("a", 1), ("b c", 0)] := by
  decide +kernel

end Sample

/-- Of the sources "a" and "b c" the first is shown when it is asked for, and the second by no request at all. -/
theorem Control.sources_found_by_name_sample :
    (∃ c, Combiner.create Sample.settings (SourceList.parse Sample.list).1 = .ok c) ∧
      (∃ shown ∈ Sample.listed.combiner.sources, shown.name = "a" ∧ shown.received = 1 ∧
        Answers Sample.listed.combiner "a" ⟨.ok, shown.stats.toJson⟩ ∧ AsksFor "a" (lookup "a")) ∧
      (∃ hidden ∈ Sample.listed.combiner.sources, hidden.name = "b c" ∧
        ¬∃ reads, (serve Sample.listed.combiner reads).value.status.code = 200 ∧
          (serve Sample.listed.combiner reads).value.body = hidden.stats.toJson.encode) ∧
      Answers Sample.listed.combiner "b" Refusal.notFound.response := by
  have hcreate := eq_ok_get Sample.listed_isSome
  obtain ⟨hlisted, hother⟩ := sources_found_by_name hcreate Recorder.empty [.ingest 0 (Sample.message 5) []]
  obtain ⟨shown, hshown, ha⟩ := List.mem_map.1 (Sample.sources_listed ▸ List.mem_cons_self)
  obtain ⟨hidden, hhidden, hbc⟩ := List.mem_map.1 (Sample.sources_listed ▸ List.mem_cons_of_mem _ List.mem_cons_self)
  obtain ⟨hshownName, hreceived⟩ := Prod.mk.inj ha
  obtain ⟨hhiddenName, -⟩ := Prod.mk.inj hbc
  have hnameable : Nameable "a" := ⟨by decide, by decide, by decide⟩
  refine ⟨⟨_, hcreate⟩, ⟨shown, hshown, hshownName, hreceived, ?_⟩, ⟨hidden, hhidden, hhiddenName, ?_⟩, ?_⟩
  · obtain ⟨hasks, hanswers, -⟩ := (hlisted shown hshown (by rw [hshownName]; decide)).2 (hshownName ▸ hnameable)
    exact ⟨hshownName ▸ hanswers, hshownName ▸ hasks⟩
  · intro hsome
    have hblank := (hlisted hidden hhidden (by rw [hhiddenName]; decide)).1.1 hsome
    rw [hhiddenName] at hblank
    exact absurd (hblank.solid ' ' (by decide)) (by decide)
  · exact (hother "b" (by decide) ⟨by decide, by decide, by decide⟩ (by decide) (by decide)).2.1

end FrameMerge
