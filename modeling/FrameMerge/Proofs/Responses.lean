import FrameMerge.Control
import FrameMerge.Proofs.Cuts
import FrameMerge.Proofs.Grammar
import FrameMerge.Proofs.Leniency
import FrameMerge.Proofs.Run

/-!
# What a request does

Whatever a connection brings, one response goes back that a client can read (`Control.Response.isResponse_encode`): its
head ends at the first blank line, announces the length of what stands behind it, and its value is well formed. Only a
demand to reset changes the combiner, and which requests make that demand is said of the request as it is read
(`Control.ofRequest_eq_reset_iff`).
-/

namespace FrameMerge

/-! ## Plain text -/

namespace Text

/-- The octets of characters that take one octet each. -/
def octets (s : List Char) : Bytes := s.map fun c => c.toNat.toUInt8

/-- All characters take one octet each. -/
def IsAscii (s : List Char) : Prop := ∀ c ∈ s, c.toNat < 128

instance : DecidablePred IsAscii := fun s => List.decidableBAll _ s

/-- Plain text is written octet for character. -/
theorem utf8_of_isAscii {s : List Char} (h : IsAscii s) : utf8 (String.ofList s) = octets s := by
  rw [utf8_ofList, encodeChars_of_lt h, octets]

/-- Octets of plain text are decoded to it. -/
theorem lenientChars_octets {s : List Char} (h : IsAscii s) : lenientChars none (octets s) = s := by
  have hchars := lenientChars_encodeChars s []
  rw [List.append_nil, encodeChars_of_lt h] at hchars
  exact hchars.trans (List.append_nil s)

/-! ## Lines -/

/-- A line of plain text, without its ending: it is not empty and holds no controls. -/
def IsLine (line : List Char) : Prop := line ≠ [] ∧ ∀ c ∈ line, 32 ≤ c.toNat ∧ c.toNat < 128

instance : DecidablePred IsLine := fun line => @instDecidableAnd _ _ _ (List.decidableBAll _ line)

/-- A line is plain text. -/
theorem IsLine.isAscii {line : List Char} (h : IsLine line) : IsAscii line := fun c hc => (h.2 c hc).2

/-- No control stands in a line, so neither half of a line ending does. -/
theorem IsLine.notMem {line : List Char} (h : IsLine line) {control : Char} (hcontrol : control.toNat < 32) :
    control ∉ line := fun hmem => Nat.not_le.2 hcontrol (h.2 control hmem).1

/-- The octets of a line hold no carriage return. -/
theorem IsLine.notMem_octets {line : List Char} (h : IsLine line) : 13 ∉ octets line := by
  rw [octets, ← encodeChars_of_lt h.isAscii]
  exact return_notMem_encodeChars (h.notMem (by decide))

/-- Lines with endings between them. -/
def joinLines (lines : List (List Char)) : List Char := ['\r', '\n'].intercalate lines

/-- The first of several lines, with its ending, stands before the others. -/
theorem joinLines_cons_cons (line next : List Char) (rest : List (List Char)) :
    joinLines (line :: next :: rest) = line ++ '\r' :: '\n' :: joinLines (next :: rest) := by
  rw [joinLines, List.intercalate_cons_cons, List.append_assoc]
  rfl

variable {line : List Char} {rest : List (List Char)}

/-- Lines are plain text together with their endings. -/
theorem isAscii_joinLines (h : ∀ l ∈ line :: rest, IsLine l) : IsAscii (joinLines (line :: rest)) := by
  induction rest generalizing line with
  | nil =>
    rw [joinLines, List.intercalate_singleton]
    exact (h line List.mem_cons_self).isAscii
  | cons next rest ih =>
    obtain ⟨hline, hlater⟩ := List.forall_mem_cons.1 h
    intro c hc
    rw [joinLines_cons_cons, List.mem_append, List.mem_cons, List.mem_cons] at hc
    rcases hc with hc | rfl | rfl | hc
    · exact hline.isAscii c hc
    · decide
    · decide
    · exact ih hlater c hc

/-- Lines that were joined are found again. -/
theorem lines_joinLines (h : ∀ l ∈ line :: rest, IsLine l) : lines (joinLines (line :: rest)) = line :: rest := by
  induction rest generalizing line with
  | nil =>
    have hline := h line List.mem_cons_self
    rw [joinLines, List.intercalate_singleton]
    exact lines_eq_singleton (hline.notMem (by decide)) hline.1
  | cons next rest ih =>
    obtain ⟨hline, hlater⟩ := List.forall_mem_cons.1 h
    rw [joinLines_cons_cons, lines_append (hline.notMem (by decide)), ih hlater]

end Text

namespace Control

/-! ## Heads -/

/-- The octets that end a line. -/
def lineEnd : Bytes := [13, 10]

/-- Octets without a carriage return belong to the head, wherever it ends. -/
theorem head?_append {line : Bytes} (h : 13 ∉ line) (rest : Bytes) :
    head? (line ++ rest) = (head? rest).map (line ++ ·) := by
  induction line with
  | nil => simp
  | cons octet line ih =>
    rw [List.mem_cons, not_or] at h
    have hno : blankLine.isPrefixOf (octet :: (line ++ rest)) = false := by simp [blankLine, List.isPrefixOf, h.1]
    rw [List.cons_append, head?, hno, ih h.2, if_neg Bool.false_ne_true, Option.map_map]
    rfl

/-- The end of a line is not the end of a head if another line follows. -/
theorem head?_lineEnd {octet : UInt8} (h : octet ≠ 13) (rest : Bytes) :
    head? (lineEnd ++ octet :: rest) = (head? (octet :: rest)).map (lineEnd ++ ·) := by
  have hno : blankLine.isPrefixOf (13 :: 10 :: octet :: rest) = false := by simp [blankLine, List.isPrefixOf, h.symm]
  have hnext : blankLine.isPrefixOf (10 :: octet :: rest) = false := by simp [blankLine, List.isPrefixOf]
  show head? (13 :: 10 :: octet :: rest) = _
  rw [head?, hno, head?, hnext, if_neg Bool.false_ne_true, if_neg Bool.false_ne_true, Option.map_map]
  rfl

/-- Lines that hold no carriage return are a head, whatever stands behind the blank line after them. -/
theorem head?_lines {line : Bytes} {lines : List Bytes} (h : ∀ l ∈ line :: lines, l ≠ [] ∧ 13 ∉ l) (body : Bytes) :
    head? (lineEnd.intercalate (line :: lines) ++ (blankLine ++ body)) = some (lineEnd.intercalate (line :: lines)) := by
  induction lines generalizing line with
  | nil =>
    have hblank : head? (blankLine ++ body) = some [] := by simp [blankLine, head?, List.isPrefixOf]
    rw [List.intercalate_singleton, head?_append (h line List.mem_cons_self).2, hblank]
    simp
  | cons next lines ih =>
    obtain ⟨⟨-, hline⟩, hlater⟩ := List.forall_mem_cons.1 h
    obtain ⟨octet, more, hnext⟩ := List.exists_cons_of_ne_nil (hlater next List.mem_cons_self).1
    have hfirst : octet ≠ 13 := by
      rintro rfl
      exact (hlater next List.mem_cons_self).2 (hnext ▸ List.mem_cons_self)
    obtain ⟨rest, hrest⟩ : ∃ rest, lineEnd.intercalate (next :: lines) = octet :: rest := by
      rw [hnext]
      cases lines with
      | nil => exact ⟨more, List.intercalate_singleton⟩
      | cons => exact ⟨_, List.intercalate_cons_cons⟩
    have htail := ih hlater
    rw [hrest, List.cons_append] at htail
    rw [List.intercalate_cons_cons, List.append_assoc, List.append_assoc, head?_append hline, hrest, List.cons_append,
      head?_lineEnd hfirst, htail]
    simp

/-- Joining lines and writing them as octets can be done in either order. -/
theorem octets_joinLines (line : List Char) (rest : List (List Char)) :
    Text.octets (Text.joinLines (line :: rest)) = lineEnd.intercalate ((line :: rest).map Text.octets) := by
  induction rest generalizing line with
  | nil => rw [Text.joinLines, List.map_singleton, List.intercalate_singleton, List.intercalate_singleton]
  | cons next rest ih =>
    have hrest := ih next
    rw [List.map_cons] at hrest
    rw [Text.joinLines_cons_cons, List.map_cons, List.map_cons, List.intercalate_cons_cons, ← hrest]
    simp [Text.octets, lineEnd]

/-- Lines of plain text are a head. -/
theorem head?_joinLines {line : List Char} {rest : List (List Char)} (h : ∀ l ∈ line :: rest, Text.IsLine l)
    (body : Bytes) :
    head? (Text.octets (Text.joinLines (line :: rest)) ++ (blankLine ++ body)) =
      some (Text.octets (Text.joinLines (line :: rest))) := by
  rw [octets_joinLines, List.map_cons]
  refine head?_lines ?_ body
  rw [← List.map_cons]
  intro octets hmem
  obtain ⟨l, hl, rfl⟩ := List.mem_map.1 hmem
  exact ⟨fun hnone => (h l hl).1 (List.map_eq_nil_iff.1 hnone), (h l hl).notMem_octets⟩

/-! ## Responses -/

/-- Read as a client reads them, the octets are one response: the first line of the head tells the version and the code,
exactly one of the others announces a length, and a body of this length is all that stands behind the head. -/
def IsResponse (octets : Bytes) (code : Nat) (body : Bytes) : Prop :=
  ∃ head, head? octets = some head ∧ octets = head ++ (blankLine ++ body) ∧
    let lines := Text.lines (Text.lenientChars none head)
    (Text.words (lines.headD [])).take 2 = ["HTTP/1.1".toList, Nat.toDigits 10 code] ∧
      lines.tail.filterMap Head.lengthText? = [Nat.toDigits 10 body.length]

theorem Status.code_mem (s : Status) : s.code ∈ [200, 400, 404, 405] := by
  cases s <;> decide

namespace Response

/-- The lines of the head. -/
def lines (r : Response) : List (List Char) := (r.statusLine :: r.headers.map headerLine).map String.toList

/-- The head is its lines with endings between them, and a blank line. -/
theorem head_eq (r : Response) : r.head = String.ofList (Text.joinLines r.lines ++ ['\r', '\n', '\r', '\n']) := by
  rw [← String.toList_inj, String.toList_ofList, head, String.toList_append, String.toList_join]
  simp [lines, headers, Text.joinLines, List.intercalate_cons_cons]

/-- The four lines of every head. Only the first and the length differ from one response to another. -/
theorem lines_eq (r : Response) :
    r.lines = [r.statusLine.toList, "Content-Type: application/json".toList,
      "Content-Length: ".toList ++ Nat.toDigits 10 r.body.length, "Connection: close".toList] := by
  simp only [lines, headers, headerLine, List.map_cons, List.map_nil, String.toList_append,
    Nat.toString_eq_ofList_toDigits, String.toList_ofList]
  rfl

/-- Nothing in a head can be taken for the end of a line. -/
theorem isLine_lines (r : Response) : ∀ line ∈ r.lines, Text.IsLine line := by
  have hstatus : Text.IsLine r.statusLine.toList := by
    rw [statusLine]
    cases r.status <;> decide
  have hlength : Text.IsLine ("Content-Length: ".toList ++ Nat.toDigits 10 r.body.length) := by
    refine ⟨by simp, fun c hc => ?_⟩
    rcases List.mem_append.1 hc with hc | hc
    · exact (by decide : Text.IsLine "Content-Length: ".toList).2 c hc
    · have hbounds := Text.isDigit_bounds (Json.isDigit_of_mem_toDigits hc)
      omega
  rw [lines_eq]
  simp only [List.forall_mem_cons]
  exact ⟨hstatus, by decide, hlength, by decide, List.forall_mem_nil _⟩

/-- The first two words of a head are the version and the code. -/
theorem words_statusLine (r : Response) :
    (Text.words r.statusLine.toList).take 2 = ["HTTP/1.1".toList, Nat.toDigits 10 r.status.code] := by
  rw [statusLine]
  cases r.status <;> decide

/-- Digits are no blanks. -/
theorem trim_toDigits (n : Nat) : Text.trim (' ' :: Nat.toDigits 10 n) = Nat.toDigits 10 n := by
  have hblank : ∀ c ∈ Nat.toDigits 10 n, Text.isBlank c = false := by
    intro c hc
    have hbounds := Text.isDigit_bounds (Json.isDigit_of_mem_toDigits hc)
    simp [Text.isBlank]
    omega
  have hspace := Text.trim_between (a := [' ']) (b := []) (List.forall_mem_singleton.2 (by decide)) (Nat.toDigits 10 n)
    (List.forall_mem_nil _)
  rw [List.append_nil] at hspace
  exact hspace.trans (Text.trim_of_ends (fun c hc => hblank c (List.mem_of_mem_head? hc))
    fun c hc => hblank c (List.mem_of_getLast? hc))

/-- Exactly one line announces a length, which is that of the body. -/
theorem lengthText?_lines (r : Response) : r.lines.tail.filterMap Head.lengthText? = [Nat.toDigits 10 r.body.length] := by
  have hlength : Head.lengthText? ("Content-Length: ".toList ++ Nat.toDigits 10 r.body.length) =
      some (Nat.toDigits 10 r.body.length) := by
    have hcut := Text.cut?_eq_some_iff.2
      ⟨(rfl : "Content-Length".toList ++ ':' :: ' ' :: Nat.toDigits 10 r.body.length = _), by decide⟩
    have hname : Text.sameLetters (Text.trim "Content-Length".toList) Head.lengthName = true := by decide
    rw [Head.lengthText?, show "Content-Length: ".toList ++ Nat.toDigits 10 r.body.length =
      "Content-Length".toList ++ ':' :: ' ' :: Nat.toDigits 10 r.body.length from rfl, hcut]
    simp only [hname, if_true, trim_toDigits]
  have htype : Head.lengthText? "Content-Type: application/json".toList = none := by decide
  have hclose : Head.lengthText? "Connection: close".toList = none := by decide
  rw [lines_eq, List.tail_cons, List.filterMap_cons_none htype, List.filterMap_cons_some hlength,
    List.filterMap_cons_none hclose, List.filterMap_nil]

/-- Every response is one response to its reader, with its code and its body. -/
theorem isResponse_encode (r : Response) : IsResponse r.encode r.status.code r.body := by
  obtain ⟨first, rest, hlines⟩ : ∃ first rest, r.lines = first :: rest := ⟨_, _, rfl⟩
  have hfirst : first = r.statusLine.toList := (List.cons.inj hlines).1.symm
  have hline : ∀ line ∈ first :: rest, Text.IsLine line := hlines ▸ r.isLine_lines
  have hascii := Text.isAscii_joinLines hline
  have hoctets : r.encode = Text.octets (Text.joinLines (first :: rest)) ++ (blankLine ++ r.body) := by
    have hends : Text.IsAscii (Text.joinLines (first :: rest) ++ ['\r', '\n', '\r', '\n']) := by
      intro c hc
      rcases List.mem_append.1 hc with hc | hc
      · exact hascii c hc
      · exact (by decide : Text.IsAscii ['\r', '\n', '\r', '\n']) c hc
    rw [encode, head_eq, hlines, Text.utf8_of_isAscii hends, Text.octets, List.map_append, List.append_assoc]
    rfl
  have hlength := hlines ▸ r.lengthText?_lines
  refine ⟨Text.octets (Text.joinLines (first :: rest)), ?_, hoctets, ?_⟩
  · rw [hoctets, head?_joinLines hline]
  · rw [Text.lenientChars_octets hascii, Text.lines_joinLines hline]
    exact ⟨hfirst ▸ r.words_statusLine, hlength⟩

end Response

/-! ## Demands -/

/-- A path is another with any number of slashes behind it. -/
def IsSlashed (path bare : List Char) : Prop := ∃ n, path = bare ++ List.replicate n '/'

/-- Cutting the slashes off a path leaves another, which does not end in one, exactly if it is that other with slashes
behind it. -/
theorem trimSlashes_eq_iff {path bare : List Char} (h : bare.getLast? ≠ some '/') :
    trimSlashes path = bare ↔ IsSlashed path bare := by
  constructor
  · rintro rfl
    have hslashes : ∀ c ∈ path.rtakeWhile (· = '/'), c = '/' := fun c hc => by simpa using List.mem_rtakeWhile_imp hc
    refine ⟨(path.rtakeWhile (· = '/')).length, ?_⟩
    rw [← List.eq_replicate_of_mem hslashes]
    exact List.rdropWhile_append_rtakeWhile.symm
  · rintro ⟨n, rfl⟩
    have hstop : bare.reverse.dropWhile (· = '/') = bare.reverse := by
      rw [List.dropWhile_eq_self_iff]
      intro hpos hslash
      rw [← List.head?_reverse, List.head?_eq_getElem?, List.getElem?_eq_getElem hpos] at h
      exact h (congrArg some (of_decide_eq_true hslash))
    rw [trimSlashes, List.reverse_append, List.reverse_replicate,
      List.dropWhile_append_of_pos fun c hc => decide_eq_true (List.eq_of_mem_replicate hc), hstop, List.reverse_reverse]

/-- A request demands a reset: it comes to change something, and it comes to the place of the reset itself or to the root
with a field that names it. -/
structure DemandsReset (request : Request) : Prop where
  method : request.method = "PUT"
  place : IsSlashed request.path.toList "/reset".toList ∨
    (IsSlashed request.path.toList [] ∨ IsSlashed request.path.toList "/status".toList) ∧
      ∃ fields, Json.parse request.body = .ok (.object fields) ∧ "reset" ∈ fields.map (·.1)

theorem isRoot_iff {path : List Char} : isRoot path = true ↔ path = [] ∨ path = statusPath := by
  simp [isRoot]

/-- A field is found exactly if its name is there. -/
theorem find?_isSome {name : String} {fields : List (String × Json)} :
    (Json.find? name fields).isSome = true ↔ name ∈ fields.map (·.1) := by
  rw [Json.find?]
  induction fields with
  | nil => simp
  | cons field fields ih =>
    rw [List.lookup_cons, List.map_cons, List.mem_cons, ← ih]
    by_cases h : name = field.1
    · simp [h]
    · simp [h, beq_false_of_ne h]

/-- A body demands a reset exactly if it is an object with a field that names it, whatever the value of the field. -/
theorem readBody_eq_reset_iff {body : Bytes} :
    readBody body = .ok .reset ↔ ∃ fields, Json.parse body = .ok (.object fields) ∧ "reset" ∈ fields.map (·.1) := by
  unfold readBody
  split
  · rename_i hparse
    simp [hparse]
  · rename_i fields hparse
    rw [hparse]
    by_cases hfield : resetField ∈ fields.map (·.1)
    · rw [if_pos (find?_isSome.2 hfield)]
      exact iff_of_true rfl ⟨fields, rfl, hfield⟩
    · rw [if_neg fun hfound => hfield (find?_isSome.1 hfound)]
      refine iff_of_false (by simp) ?_
      rintro ⟨_, hobject, hmem⟩
      obtain rfl := Json.object.inj (Except.ok.inj hobject)
      exact hfield hmem
  · rename_i value hnot hparse
    rw [hparse]
    refine iff_of_false (by simp) ?_
    rintro ⟨fields, hobject, -⟩
    exact hnot fields (Except.ok.inj hobject)

/-- A change is a reset at its own place, or at the root if the body demands it. -/
theorem change_eq_reset_iff {path : List Char} {body : Bytes} :
    change path body = .ok .reset ↔ path = resetPath ∨ isRoot path ∧ readBody body = .ok .reset := by
  unfold change
  split
  · rename_i hreset
    simp [hreset]
  · rename_i hreset
    split
    · rename_i hroot
      simp [hreset, hroot]
    · rename_i hroot
      simp [hreset, hroot]

/-- To look at something demands no reset. -/
theorem lookAt_ne_reset (path : List Char) : lookAt path ≠ .ok .reset := by
  unfold lookAt
  repeat' split
  all_goals simp

/-- A request is understood as a demand to reset exactly if it makes that demand. -/
theorem ofRequest_eq_reset_iff {request : Request} : Demand.ofRequest request = .ok .reset ↔ DemandsReset request := by
  have hplace : change (trimSlashes request.path.toList) request.body = .ok .reset ↔ _ := change_eq_reset_iff
  have hreset : resetPath.getLast? ≠ some '/' := by decide
  have hroot : ([] : List Char).getLast? ≠ some '/' := by decide
  have hstatus : statusPath.getLast? ≠ some '/' := by decide
  rw [isRoot_iff, readBody_eq_reset_iff, trimSlashes_eq_iff hreset, trimSlashes_eq_iff hroot, trimSlashes_eq_iff hstatus]
    at hplace
  simp only [Demand.ofRequest]
  split
  · rename_i hmethod
    refine iff_of_false (lookAt_ne_reset _) fun hdemand => ?_
    rw [hdemand.method] at hmethod
    revert hmethod
    decide
  · split
    · rename_i hmethod
      exact ⟨fun hreset => ⟨hmethod, hplace.1 hreset⟩, fun hdemand => hplace.2 hdemand.place⟩
    · rename_i hmethod
      exact iff_of_false (by simp) fun hdemand => hmethod hdemand.method

/-- A body can demand nothing else. -/
theorem eq_reset_of_readBody {body : Bytes} {demand : Demand} (h : readBody body = .ok demand) : demand = .reset := by
  unfold readBody at h
  split at h
  · nomatch h
  · split at h
    · exact (Except.ok.inj h).symm
    · nomatch h
  · nomatch h

/-- To change something demands nothing but a reset. -/
theorem eq_reset_of_change {path : List Char} {body : Bytes} {demand : Demand} (h : change path body = .ok demand) :
    demand = .reset := by
  unfold change at h
  split at h
  · exact (Except.ok.inj h).symm
  · split at h
    · exact eq_reset_of_readBody h
    · nomatch h

/-- Any other demand is made by a request that comes to look at something. -/
theorem method_eq_get {request : Request} {demand : Demand} (h : Demand.ofRequest request = .ok demand)
    (hreset : demand ≠ .reset) : request.method = "GET" := by
  simp only [Demand.ofRequest] at h
  split at h
  · assumption
  · split at h
    · exact absurd (eq_reset_of_change h) hreset
    · nomatch h

/-! ## Serving -/

namespace Demand

/-- Any other demand leaves the combiner as it is and says nothing. -/
theorem meet_of_ne_reset (c : Combiner) {demand : Demand} (h : demand ≠ .reset) :
    (demand.meet c).state = c ∧ (demand.meet c).events = [] := by
  cases demand with
  | health | stats | sources => exact ⟨rfl, rfl⟩
  | source name =>
    simp only [meet]
    cases c.stats.source? name <;> exact ⟨rfl, rfl⟩
  | reset => exact absurd rfl h

end Demand

theorem Refusal.status_ne_ok (r : Refusal) : r.status ≠ .ok := by
  cases r <;> simp [status]

/-- A demand is understood exactly if a request is read that makes it. -/
theorem understand_eq_ok_iff {reads : List Bytes} {demand : Demand} :
    understand reads = .ok demand ↔
      ∃ request, Request.read reads = .ok request ∧ Demand.ofRequest request = .ok demand := by
  unfold understand
  split
  · rename_i hread
    simp [hread]
  · rename_i hread
    simp [hread]

/-- Whatever a connection brings, it is served as it demands.
1. One response goes back, as a client reads one. Its code is one of four, and its body is the text of one value.
2. If a request is read that demands a reset, the combiner is reset, and the response is a success that tells its
statistics after that.
3. Otherwise the combiner stays as it is, nothing is logged, and the response is a success only if a request is read that
comes to look at something. -/
theorem serve_resets_on_demand (c : Combiner) (reads : List Bytes) :
    let served := serve c reads
    let response := served.value
    let demandsReset := ∃ request, Request.read reads = .ok request ∧ DemandsReset request
    (IsResponse response.encode response.status.code response.body ∧ response.status.code ∈ [200, 400, 404, 405] ∧
        ∃ text, response.body = Text.utf8 text ∧ Json.IsValue text.toList) ∧
      (demandsReset → response = ⟨.ok, c.reset.state.stats.toJson⟩ ∧ served.state = c.reset.state ∧
        served.events = c.reset.events) ∧
      (¬demandsReset → served.state = c ∧ served.events = [] ∧
        (response.status = .ok → ∃ request, Request.read reads = .ok request ∧ request.method = "GET")) := by
  intro served response demandsReset
  refine ⟨⟨response.isResponse_encode, response.status.code_mem, response.value.text, rfl, ?_⟩, ?_, ?_⟩
  · rw [Json.text, String.toList_ofList]
    exact response.value.isValue_chars
  · intro hreset
    have hunderstood : understand reads = .ok .reset := by
      simpa only [understand_eq_ok_iff, ofRequest_eq_reset_iff] using hreset
    have hserved : served = Demand.meet c .reset := by
      show serve c reads = _
      rw [serve, hunderstood]
    rw [show response = served.value from rfl, hserved]
    exact ⟨rfl, rfl, rfl⟩
  · intro hreset
    cases hunderstood : understand reads with
    | error refusal =>
      have hserved : served = ⟨refusal.response, c, []⟩ := by
        show serve c reads = _
        rw [serve, hunderstood]
      rw [show response = served.value from rfl, hserved]
      exact ⟨rfl, rfl, fun hok => absurd hok refusal.status_ne_ok⟩
    | ok demand =>
      obtain ⟨request, hread, hdemand⟩ := understand_eq_ok_iff.1 hunderstood
      have hother : demand ≠ .reset := by
        rintro rfl
        exact hreset ⟨request, hread, ofRequest_eq_reset_iff.1 hdemand⟩
      have hserved : served = demand.meet c := by
        show serve c reads = _
        rw [serve, hunderstood]
      obtain ⟨hstate, hevents⟩ := demand.meet_of_ne_reset c hother
      rw [hserved]
      exact ⟨hstate, hevents, fun _ => ⟨request, hread, method_eq_get hdemand hother⟩⟩

namespace Sample

/-- A combiner that has taken a frame and holds another. -/
def holding : Combiner :=
  (Sample.relay.after [.ingest 0 (Sample.message 5) [], .ingest 1 (Sample.message 6) [], .drain]).combiner

/-- A demand to reset, in two reads. The slash behind the place does not matter. -/
def resetReads : List Bytes := [Text.utf8 "PUT /reset/ HTTP/1.1\r\nHost", Text.utf8 ": relay\r\n\r\n"]

/-- A body that demands a reset comes to a place where nothing can be changed. -/
def misplacedReads : List Bytes :=
  [Text.utf8 "PUT /nodes HTTP/1.1\r\nContent-Length: 11\r\n\r\n\x7b\"reset\":0\x7d"]

end Sample

/-- A combiner that holds a frame is told to reset: it forgets what was taken and keeps the frame, and the response says so.
Told the same at a place where nothing can be changed, it goes on as before. -/
theorem serve_resets_on_demand_sample :
    Sample.holding.mark = some ⟨0, 5⟩ ∧ Sample.holding.queue.count = 1 ∧
      (serve Sample.holding Sample.resetReads).state.mark = none ∧
      (serve Sample.holding Sample.resetReads).state.queue.count = 1 ∧
      (serve Sample.holding Sample.resetReads).events = [.reset 1] ∧
      (serve Sample.holding Sample.resetReads).value.status = .ok ∧
      (serve Sample.holding Sample.misplacedReads).state = Sample.holding := by
  have hmark : Sample.holding.mark = some ⟨0, 5⟩ := by decide +kernel
  have hcount : Sample.holding.queue.count = 1 := by decide +kernel
  have hdemand : ∃ request, Request.read Sample.resetReads = .ok request ∧ DemandsReset request :=
    ⟨⟨"PUT", "/reset/", []⟩, by decide +kernel, rfl, Or.inl ⟨1, rfl⟩⟩
  have hread : Request.read Sample.misplacedReads = .ok ⟨"PUT", "/nodes", Text.utf8 "\x7b\"reset\":0\x7d"⟩ := by
    decide +kernel
  have hmisplaced : ¬∃ request, Request.read Sample.misplacedReads = .ok request ∧ DemandsReset request := by
    rintro ⟨request, hread', hreset⟩
    rw [hread] at hread'
    cases hread'
    have hother := ofRequest_eq_reset_iff.2 hreset
    exact absurd hother (by decide +kernel)
  obtain ⟨-, hreset, -⟩ := serve_resets_on_demand Sample.holding Sample.resetReads
  obtain ⟨hresponse, hstate, hevents⟩ := hreset hdemand
  obtain ⟨-, -, hstill⟩ := serve_resets_on_demand Sample.holding Sample.misplacedReads
  refine ⟨hmark, hcount, ?_, ?_, ?_, ?_, (hstill hmisplaced).1⟩
  · rw [hstate, Combiner.mark_reset]
  · rw [hstate, Combiner.queue_reset, hcount]
  · exact hevents.trans (congrArg (fun count => [Event.reset count]) hcount)
  · exact congrArg Response.status hresponse

end Control

end FrameMerge
