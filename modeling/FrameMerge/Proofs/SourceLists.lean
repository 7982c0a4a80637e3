import FrameMerge.Proofs.Cuts
import FrameMerge.Proofs.Startup

/-!
# Source lists piece by piece

What a piece of a source list amounts to is a matter of the piece alone: it names a source or nothing (`SourceList.IsEntry`).
A list is the sources of its pieces one after the other, less those whose names were there before
(`SourceList.sourcesOf_append`). So a piece that names nothing may as well be left out, wherever it stands.
-/

namespace FrameMerge.SourceList

/-! ## Pieces -/

/-- A piece names a source: an equals sign stands in it once, before it the name, with blanks around that do not count, and
behind it an endpoint. -/
inductive IsEntry : List Char → SourceSpec → Prop
  | mk {left right : List Char} {endpoint : Endpoint} (hleft : '=' ∉ left) (hright : '=' ∉ right)
    (hname : Text.trim left ≠ []) (hendpoint : Endpoint.parse (String.ofList right) = .ok endpoint) :
    IsEntry (left ++ '=' :: right) ⟨String.ofList (Text.trim left), endpoint⟩

/-- Blanks around an endpoint do not count either. -/
theorem parse_ok_of_trim_eq {a b : List Char} (h : Text.trim a = Text.trim b) {endpoint : Endpoint}
    (ha : Endpoint.parse (String.ofList a) = .ok endpoint) : Endpoint.parse (String.ofList b) = .ok endpoint := by
  unfold Endpoint.parse at ha ⊢
  rw [String.toList_ofList, h] at ha
  rw [String.toList_ofList]
  cases hstrip : Endpoint.stripScheme (Text.trim b) with
  | error cause =>
    rw [hstrip] at ha
    cases ha
  | ok address =>
    rw [hstrip] at ha
    cases hsplit : Endpoint.splitAddress address with
    | error cause =>
      simp only [Except.bind, hsplit] at ha
      cases ha
    | ok parts =>
      simp only [Except.bind, hsplit] at ha ⊢
      -- only the error of a missing host shows the text as a whole
      split at ha
      · cases ha
      · rename_i hsome
        rwa [if_neg hsome]

/-- Blanks around a piece make no difference to what it names. -/
theorem IsEntry.around {piece a b : List Char} {spec : SourceSpec} (h : IsEntry piece spec)
    (ha : ∀ c ∈ a, Text.isBlank c = true) (hb : ∀ c ∈ b, Text.isBlank c = true) : IsEntry (a ++ (piece ++ b)) spec := by
  obtain @⟨left, right, endpoint, hleft, hright, hname, hendpoint⟩ := h
  have hequals {blanks : List Char} (hblanks : ∀ c ∈ blanks, Text.isBlank c = true) : '=' ∉ blanks := by
    intro hmem
    exact absurd (hblanks '=' hmem) (by decide)
  have hsameName : Text.trim (a ++ left) = Text.trim left := by
    have hbetween := Text.trim_between ha left (List.forall_mem_nil _)
    rwa [List.append_nil] at hbetween
  have hsameEndpoint : Text.trim right = Text.trim (right ++ b) :=
    (Text.trim_between (List.forall_mem_nil _) right hb).symm
  have hpiece : a ++ ((left ++ '=' :: right) ++ b) = (a ++ left) ++ '=' :: (right ++ b) := by simp
  rw [hpiece, ← hsameName]
  refine .mk ?_ ?_ (hsameName ▸ hname) (parse_ok_of_trim_eq hsameEndpoint hendpoint)
  · intro hmem
    exact (List.mem_append.1 hmem).elim (hequals ha) hleft
  · intro hmem
    exact (List.mem_append.1 hmem).elim hright (hequals hb)

/-- A piece is read as an entry exactly if it names a source. -/
theorem read_eq_entry_iff {piece : List Char} {spec : SourceSpec} : Piece.read piece = .entry spec ↔ IsEntry piece spec := by
  constructor
  · intro h
    unfold Piece.read at h
    simp only at h
    split at h
    · cases h
    · split at h
      · rename_i left right hpieces
        split at h
        · cases h
        · rename_i hname
          split at h
          · cases h
          · rename_i endpoint hendpoint
            cases h
            obtain ⟨hentry, hleft, hright⟩ := Text.pieces_eq_pair_iff.1 hpieces
            obtain ⟨a, b, hpiece, ha, hb⟩ := Text.exists_trim piece
            have htrimmed : IsEntry (Text.trim piece) ⟨String.ofList (Text.trim left), endpoint⟩ := by
              rw [hentry]
              exact .mk hleft hright (fun hnone => hname (List.isEmpty_iff.2 hnone)) hendpoint
            rw [hpiece]
            exact htrimmed.around ha hb
      · cases h
  · rintro ⟨hleft, hright, hname, hendpoint⟩
    rename_i left right endpoint
    have hentry := Text.trim_around (by decide : Text.isBlank '=' = false) left right
    have hpieces : Text.pieces '=' (Text.trim (left ++ '=' :: right)) =
        [left.dropWhile Text.isBlank, right.rdropWhile Text.isBlank] := by
      refine Text.pieces_eq_pair_iff.2 ⟨hentry, fun hmem => hleft ?_, fun hmem => hright ?_⟩
      · exact (List.dropWhile_sublist _).subset hmem
      · exact (List.rdropWhile_prefix _ _).subset hmem
    have hread := parse_ok_of_trim_eq (Text.trim_rdropWhile right).symm hendpoint
    unfold Piece.read
    simp only
    rw [if_neg (by simp [hentry]), hpieces]
    simp only [Text.trim_dropWhile, List.isEmpty_iff, hname, if_false, hread]

/-- The source that a piece names. -/
def spec? (piece : List Char) : Option SourceSpec :=
  match Piece.read piece with
  | .entry spec => some spec
  | _ => none

/-- The source of a piece is the one it names. -/
theorem spec?_eq_some_iff {piece : List Char} {spec : SourceSpec} : spec? piece = some spec ↔ IsEntry piece spec := by
  rw [← read_eq_entry_iff, spec?]
  cases Piece.read piece <;> simp

theorem spec?_eq_none_iff {piece : List Char} : spec? piece = none ↔ ∀ spec, ¬IsEntry piece spec := by
  rw [Option.eq_none_iff_forall_ne_some]
  exact forall_congr' fun spec => not_congr spec?_eq_some_iff

/-! ## Lists -/

/-- Adds a source unless its name is there. -/
def addNew (found : List SourceSpec) (spec : SourceSpec) : List SourceSpec :=
  if found.any (·.name = spec.name) then found else found ++ [spec]

/-- The sources whose names are not known yet. -/
def newTo (known specs : List SourceSpec) : List SourceSpec :=
  specs.filter fun spec => spec.name ∉ known.map SourceSpec.name

/-- The sources of pieces one after the other. -/
def sourcesOf (pieces : List (List Char)) : List SourceSpec := (pieces.filterMap spec?).foldl addNew []

theorem add_fst (found : List SourceSpec × List Event) (piece : List Char) :
    (add found piece).1 = (spec? piece).toList.foldl addNew found.1 := by
  unfold add spec?
  cases Piece.read piece with
  | blank | malformed | unnamed | unreachable => rfl
  | entry spec =>
    simp only [Option.toList, List.foldl_cons, List.foldl_nil, addNew]
    split <;> rfl

/-- What pieces add, one after the other. -/
theorem foldl_add_fst (found : List SourceSpec × List Event) (pieces : List (List Char)) :
    (pieces.foldl add found).1 = (pieces.filterMap spec?).foldl addNew found.1 := by
  induction pieces generalizing found with
  | nil => rfl
  | cons piece pieces ih =>
    rw [List.foldl_cons, ih, add_fst, List.filterMap_cons]
    cases spec? piece <;> rfl

/-- A list is read piece by piece. -/
theorem parse_eq (text : String) : (parse text).1 = sourcesOf (Text.pieces ',' text.toList) :=
  foldl_add_fst ([], []) _

/-- A name that was there before adds nothing. -/
theorem addNew_of_mem {found : List SourceSpec} {spec : SourceSpec} (h : spec.name ∈ found.map SourceSpec.name) :
    addNew found spec = found := by
  obtain ⟨other, hother, hname⟩ := List.mem_map.1 h
  exact if_pos (List.any_eq_true.2 ⟨other, hother, decide_eq_true hname⟩)

/-- A new name is added behind the others. -/
theorem addNew_of_notMem {found : List SourceSpec} {spec : SourceSpec} (h : spec.name ∉ found.map SourceSpec.name) :
    addNew found spec = found ++ [spec] := by
  refine if_neg fun hany => h ?_
  obtain ⟨other, hother, hname⟩ := List.any_eq_true.1 hany
  exact List.mem_map.2 ⟨other, hother, of_decide_eq_true hname⟩

/-- Sources are new to others if none of those has their name. -/
theorem mem_newTo {known specs : List SourceSpec} {spec : SourceSpec} :
    spec ∈ newTo known specs ↔ spec ∈ specs ∧ spec.name ∉ known.map SourceSpec.name := by
  rw [newTo, List.mem_filter, decide_eq_true_iff]

/-- What is new in a list is what is new in its parts. -/
theorem newTo_append (known a b : List SourceSpec) : newTo known (a ++ b) = newTo known a ++ newTo known b :=
  List.filter_append a b

/-- With the new ones, all names are there. -/
theorem mem_names_append_newTo {known specs : List SourceSpec} {name : String} :
    name ∈ (known ++ newTo known specs).map SourceSpec.name ↔
      name ∈ known.map SourceSpec.name ∨ name ∈ specs.map SourceSpec.name := by
  simp only [List.map_append, List.mem_append, List.mem_map, mem_newTo]
  constructor
  · rintro (hknown | ⟨spec, ⟨hspec, -⟩, hname⟩)
    · exact Or.inl hknown
    · exact Or.inr ⟨spec, hspec, hname⟩
  · rintro (hknown | ⟨spec, hspec, rfl⟩)
    · exact Or.inl hknown
    · by_cases hknown : spec.name ∈ known.map SourceSpec.name
      · exact Or.inl (List.mem_map.1 hknown)
      · exact Or.inr ⟨spec, ⟨hspec, fun h => hknown (List.mem_map.2 h)⟩, rfl⟩

/-- What is added does not depend on what is there but for the names. -/
theorem foldl_addNew (found specs : List SourceSpec) :
    specs.foldl addNew found = found ++ newTo found (specs.foldl addNew []) := by
  induction specs using List.reverseRecOn with
  | nil => simp [newTo]
  | append_singleton specs spec ih =>
    rw [List.foldl_concat, List.foldl_concat, ih]
    generalize specs.foldl addNew [] = earlier
    by_cases hearlier : spec.name ∈ earlier.map SourceSpec.name
    · rw [addNew_of_mem hearlier, addNew_of_mem (mem_names_append_newTo.2 (Or.inr hearlier))]
    · rw [addNew_of_notMem hearlier, newTo_append]
      by_cases hfound : spec.name ∈ found.map SourceSpec.name
      · have hnone : newTo found [spec] = [] := List.filter_cons_of_neg (by simpa using hfound)
        rw [addNew_of_mem (mem_names_append_newTo.2 (Or.inl hfound)), hnone, List.append_nil]
      · have hnew : spec.name ∉ (found ++ newTo found earlier).map SourceSpec.name := by
          rw [mem_names_append_newTo]
          exact not_or.2 ⟨hfound, hearlier⟩
        have hone : newTo found [spec] = [spec] := List.filter_cons_of_pos (by simpa using hfound)
        rw [addNew_of_notMem hnew, hone, List.append_assoc]

/-- The sources of a list in two parts: those of the first, and those of the second with names not among them. -/
theorem sourcesOf_append (a b : List (List Char)) :
    sourcesOf (a ++ b) = sourcesOf a ++ newTo (sourcesOf a) (sourcesOf b) := by
  rw [sourcesOf, List.filterMap_append, List.foldl_append, foldl_addNew]
  rfl

/-- A piece alone gives its own source. -/
theorem sourcesOf_singleton (piece : List Char) : sourcesOf [piece] = (spec? piece).toList := by
  rw [sourcesOf, List.filterMap_cons]
  cases spec? piece <;> rfl

/-- A piece brings no source of a name exactly if it is no entry of that name. -/
theorem notMem_names_spec? {piece : List Char} {name : String} :
    name ∉ (spec? piece).toList.map SourceSpec.name ↔ ∀ other, IsEntry piece other → other.name ≠ name := by
  simp only [List.mem_map, Option.mem_toList, spec?_eq_some_iff, not_exists, not_and, ne_eq]

/-- A source is found in the first piece that names one of its name. -/
theorem mem_sourcesOf_iff {pieces : List (List Char)} {spec : SourceSpec} :
    spec ∈ sourcesOf pieces ↔ ∃ before piece later, pieces = before ++ piece :: later ∧ IsEntry piece spec ∧
      ∀ earlier ∈ before, ∀ other, IsEntry earlier other → other.name ≠ spec.name := by
  induction pieces with
  | nil => simp [sourcesOf]
  | cons first pieces ih =>
    rw [← List.singleton_append, sourcesOf_append, sourcesOf_singleton, List.mem_append, mem_newTo, ih, Option.mem_toList,
      notMem_names_spec?, spec?_eq_some_iff]
    constructor
    · rintro (hfirst | ⟨⟨before, piece, later, rfl, hpiece, hearlier⟩, hnew⟩)
      · exact ⟨[], first, pieces, rfl, hfirst, fun _ h => nomatch h⟩
      · exact ⟨first :: before, piece, later, rfl, hpiece, List.forall_mem_cons.2 ⟨hnew, hearlier⟩⟩
    · rintro ⟨before, piece, later, hpieces, hpiece, hearlier⟩
      cases before with
      | nil =>
        obtain ⟨rfl, rfl⟩ := List.cons.inj hpieces
        exact Or.inl hpiece
      | cons other before =>
        obtain ⟨rfl, rfl⟩ := List.cons.inj hpieces
        obtain ⟨hother, hlater⟩ := List.forall_mem_cons.1 hearlier
        exact Or.inr ⟨⟨before, piece, later, rfl, hpiece, hlater⟩, hother⟩

/-- A name is trimmed, and neither a comma nor an equals sign stands in it. -/
theorem IsEntry.name {piece : List Char} {spec : SourceSpec} (h : IsEntry piece spec) :
    Text.trim spec.name.toList = spec.name.toList ∧ (',' ∉ piece → ',' ∉ spec.name.toList) ∧ '=' ∉ spec.name.toList := by
  cases h with
  | @mk left right endpoint hleft hright hname hendpoint =>
    rw [String.toList_ofList]
    refine ⟨Text.trim_trim left, fun hcomma hmem => hcomma ?_, fun hmem => hleft (Text.mem_of_mem_trim hmem)⟩
    exact List.mem_append_left _ (Text.mem_of_mem_trim hmem)

/-! ## Composition -/

/-- What a source list yields, for all texts.
1. Of two lists with a comma between them, first the sources of the one, then those of the other whose names are not among
them, in their order.
2. No two sources have the same name; names are not empty, trimmed, and hold neither a comma nor an equals sign.
3. A source is found exactly if a piece of the list names it and no piece before names one of the same name.
4. A piece that names nothing changes nothing, whether it stands between two lists, at the start or at the end; so it hides
no later piece either.
-/
theorem lists_compose (a b : String) :
    let sources := fun text => (parse text).1
    sources (a ++ "," ++ b) =
      sources a ++ (sources b).filter (fun spec => spec.name ∉ (sources a).map SourceSpec.name) ∧
    ((sources a).map SourceSpec.name).Nodup ∧
    (∀ spec ∈ sources a, spec.name ≠ "" ∧ Text.trim spec.name.toList = spec.name.toList ∧
      ',' ∉ spec.name.toList ∧ '=' ∉ spec.name.toList) ∧
    (∀ spec, spec ∈ sources a ↔
      ∃ before piece later, Text.pieces ',' a.toList = before ++ piece :: later ∧ IsEntry piece spec ∧
        ∀ earlier ∈ before, ∀ other, IsEntry earlier other → other.name ≠ spec.name) ∧
    ∀ piece : String, ',' ∉ piece.toList → (∀ spec, ¬IsEntry piece.toList spec) →
      sources (a ++ "," ++ piece ++ "," ++ b) = sources (a ++ "," ++ b) ∧
        sources (piece ++ "," ++ b) = sources b ∧ sources (a ++ "," ++ piece) = sources a := by
  intro sources
  have hsources (text : String) : sources text = sourcesOf (Text.pieces ',' text.toList) := parse_eq text
  have hjoin (c d : String) : sources (c ++ "," ++ d) = sources c ++ newTo (sources c) (sources d) := by
    have htext : (c ++ "," ++ d).toList = c.toList ++ ',' :: d.toList := by simp
    simp only [hsources, htext, Text.pieces_join, sourcesOf_append]
  refine ⟨hjoin a b, (named_parse a).distinct, ?_, ?_, ?_⟩
  · intro spec hspec
    have hnonempty := (named_parse a).nonempty spec hspec
    rw [hsources, mem_sourcesOf_iff] at hspec
    obtain ⟨before, piece, later, hpieces, hentry, -⟩ := hspec
    have hcomma : ',' ∉ piece := Text.notMem_of_mem_pieces (hpieces ▸ List.mem_append_right _ List.mem_cons_self)
    obtain ⟨htrimmed, hname, hequals⟩ := hentry.name
    exact ⟨hnonempty, htrimmed, hname hcomma, hequals⟩
  · intro spec
    rw [hsources, mem_sourcesOf_iff]
  · intro piece hpiece hnothing
    have hnone : sources piece = [] := by
      rw [hsources, Text.pieces_eq_singleton hpiece, sourcesOf_singleton, spec?_eq_none_iff.2 hnothing]
      rfl
    have hleft : sources (a ++ "," ++ piece) = sources a := by
      rw [hjoin, hnone]
      exact List.append_nil _
    refine ⟨?_, ?_, hleft⟩
    · rw [hjoin, hleft, ← hjoin]
    · rw [hjoin, hnone]
      exact List.filter_eq_self.2 fun spec _ => by simp

/-- A piece without an endpoint does not hide a later one of the same name, and of two endpoints for one name the first
decides. -/
theorem lists_compose_sample :
    (',' ∉ "z=nowhere".toList ∧ ∀ spec, ¬IsEntry "z=nowhere".toList spec) ∧
      (parse ("x=h:1,y=h:2" ++ "," ++ "z=nowhere" ++ "," ++ "y=h:3,\t z = [::1]:4 ")).1 =
        [⟨"x", "h", 1⟩, ⟨"y", "h", 2⟩, ⟨"z", "::1", 4⟩] := by
  have hnothing : ∀ spec, ¬IsEntry "z=nowhere".toList spec := spec?_eq_none_iff.1 (by decide)
  have hcomma : ',' ∉ "z=nowhere".toList := by decide
  obtain ⟨hjoin, -, -, -, hdrop⟩ := lists_compose "x=h:1,y=h:2" "y=h:3,\t z = [::1]:4 "
  refine ⟨⟨hcomma, hnothing⟩, (hdrop "z=nowhere" hcomma hnothing).1.trans (hjoin.trans ?_)⟩
  decide

end FrameMerge.SourceList
