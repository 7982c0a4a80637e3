import FrameMerge.Control.Request
import FrameMerge.Proofs.Cuts
import FrameMerge.Proofs.Numerals

/-!
# Which streams are requests

A stream of octets brings a request or none, and this is said of the stream as a whole (`Control.Brings`): where its first
blank line is, what the head before it says, and whether the body it announces is there and not too long. A reader sees the
stream in reads and decides as soon as it can; however the reads fall, it comes to the same request
(`Control.read_eq_ok_iff`), because a head that is found stays where it is when more octets come (`Control.HasHead.append`) and
a stream is given up only when nothing that may follow could make a request of it (`Control.Follows`). Since a reader waits
only while it holds no more than the bound, it never holds more than one read beyond it.
-/

namespace FrameMerge.Control

open Text (StandsFor)

/-! ## What a stream brings -/

/-- The first blank line of a stream starts at an offset. -/
def FirstBlankLine (stream : Bytes) (p : Nat) : Prop :=
  blankLine <+: stream.drop p ∧ ∀ q < p, ¬blankLine <+: stream.drop q

/-- A line announces the length of the body by a value: before the first colon the name of the length, in letters of any case,
behind it the value, and blanks around both that do not count. -/
inductive Announces : List Char → List Char → Prop
  | mk {name value : List Char} (hcolon : ':' ∉ name)
    (hname : Text.sameLetters (Text.trim name) "content-length".toList = true) :
    Announces (name ++ ':' :: value) (Text.trim value)

/-- The length that lines announce: every value announced is a number of 64 bits, and the last one decides. If there is none,
the length is zero. -/
structure AnnouncedLength (lines : List (List Char)) (n : Nat) : Prop where
  sound : ∀ line ∈ lines, ∀ value, Announces line value → ∃ m, StandsFor value m ∧ m < Text.bound64
  last : ((∀ line ∈ lines, ∀ value, ¬Announces line value) ∧ n = 0) ∨
    ∃ before line later value, lines = before ++ line :: later ∧ Announces line value ∧ StandsFor value n ∧
      ∀ other ∈ later, ∀ value, ¬Announces other value

/-- The lines of the head that ends at an offset. -/
def headLines (stream : Bytes) (p : Nat) : List (List Char) := Text.lines (Text.lenientChars none (stream.take p))

/-- A stream brings a request: there is a blank line, two words stand in the first line before it, the length that the other
lines announce is sound, and head, blank line and body are within the bound and within the stream. -/
inductive Brings (stream : Bytes) : Request → Prop
  | mk {p n : Nat} {method target : List Char} {others : List (List Char)} (hblank : FirstBlankLine stream p)
    (hwords : Text.words ((headLines stream p).headD []) = method :: target :: others)
    (hlength : AnnouncedLength (headLines stream p).tail n) (hbound : p + 4 + n ≤ 8192)
    (hbody : p + 4 + n ≤ stream.length) :
    Brings stream ⟨String.ofList method, String.ofList (target.takeWhile (· ≠ '?')), (stream.drop (p + 4)).take n⟩

/-! ## Blank lines -/

section BlankLines

variable {s t : Bytes} {p : Nat}

/-- A blank line has four octets, and the stream has room for them. -/
theorem FirstBlankLine.length_le (h : FirstBlankLine s p) : p + 4 ≤ s.length := by
  have hlength := h.1.length_le
  rw [List.length_drop] at hlength
  have hfour : blankLine.length = 4 := rfl
  omega

/-- More octets do not move the first blank line. -/
theorem firstBlankLine_append_iff (h : p + 4 ≤ s.length) : FirstBlankLine (s ++ t) p ↔ FirstBlankLine s p := by
  have hsame (q : Nat) (hq : q + 4 ≤ s.length) : blankLine <+: (s ++ t).drop q ↔ blankLine <+: s.drop q := by
    rw [List.drop_append_of_le_length (by omega)]
    constructor
    · intro hstarts
      refine List.prefix_of_prefix_length_le hstarts (List.prefix_append _ _) ?_
      rw [List.length_drop]
      have hfour : blankLine.length = 4 := rfl
      omega
    · intro hstarts
      exact hstarts.trans (List.prefix_append _ _)
  refine and_congr (hsame p h) (forall_congr' fun q => imp_congr_right fun hq => not_congr (hsame q ?_))
  omega

/-- A stream that starts with a blank line has its first one there. -/
theorem firstBlankLine_zero : FirstBlankLine s 0 ↔ blankLine <+: s := by
  simp [FirstBlankLine]

/-- Otherwise the first blank line is that of the stream without its first octet. -/
theorem firstBlankLine_succ {b : UInt8} : FirstBlankLine (b :: s) (p + 1) ↔ ¬blankLine <+: b :: s ∧ FirstBlankLine s p := by
  constructor
  · rintro ⟨hstarts, hearlier⟩
    exact ⟨hearlier 0 (Nat.succ_pos p), hstarts, fun q hq => hearlier (q + 1) (Nat.succ_lt_succ hq)⟩
  · rintro ⟨hfirst, hstarts, hearlier⟩
    refine ⟨hstarts, fun q hq => ?_⟩
    cases q with
    | zero => exact hfirst
    | succ q => exact hearlier q (Nat.lt_of_succ_lt_succ hq)

/-- The head that is found is all that stands before the first blank line. -/
theorem head?_eq_some_iff {head : Bytes} : head? s = some head ↔ FirstBlankLine s head.length ∧ head = s.take head.length := by
  induction s generalizing head with
  | nil =>
    refine iff_of_false (fun h => nomatch h) ?_
    rintro ⟨⟨hstarts, -⟩, -⟩
    rw [List.drop_nil] at hstarts
    exact absurd (List.prefix_nil.1 hstarts) (by decide)
  | cons b s ih =>
    rw [head?]
    by_cases hfirst : blankLine <+: b :: s
    · rw [if_pos (List.isPrefixOf_iff_prefix.2 hfirst)]
      cases head with
      | nil => simp [firstBlankLine_zero, hfirst]
      | cons c head => simp [firstBlankLine_succ, hfirst]
    · rw [if_neg fun h => hfirst (List.isPrefixOf_iff_prefix.1 h), Option.map_eq_some_iff]
      cases head with
      | nil => simp [firstBlankLine_zero, hfirst]
      | cons c head =>
        simp only [List.length_cons, firstBlankLine_succ, List.take_succ_cons, List.cons.injEq, hfirst, not_false_eq_true,
          true_and]
        constructor
        · rintro ⟨rest, hrest, rfl, rfl⟩
          exact ⟨(ih.1 hrest).1, rfl, (ih.1 hrest).2⟩
        · rintro ⟨hblank, rfl, hhead⟩
          exact ⟨head, ih.2 ⟨hblank, hhead⟩, rfl, rfl⟩

/-- A head that is found stays the head when more octets come. -/
theorem head?_append_of_some {head : Bytes} (h : head? s = some head) (t : Bytes) : head? (s ++ t) = some head := by
  obtain ⟨hblank, hhead⟩ := head?_eq_some_iff.1 h
  have hlength := hblank.length_le
  refine head?_eq_some_iff.2 ⟨(firstBlankLine_append_iff hlength).2 hblank, ?_⟩
  rw [List.take_append_of_le_length (by omega)]
  exact hhead

/-- A head that ends within the octets at hand is found in them. -/
theorem head?_of_append {head : Bytes} (h : head? (s ++ t) = some head) (hlength : head.length + 4 ≤ s.length) :
    head? s = some head := by
  obtain ⟨hblank, hhead⟩ := head?_eq_some_iff.1 h
  refine head?_eq_some_iff.2 ⟨(firstBlankLine_append_iff hlength).1 hblank, ?_⟩
  rwa [List.take_append_of_le_length (by omega)] at hhead

end BlankLines

/-! ## Heads -/

namespace Head

/-- A line is taken to announce a value exactly if it does. -/
theorem lengthText?_eq_some_iff {line value : List Char} : lengthText? line = some value ↔ Announces line value := by
  constructor
  · intro h
    unfold lengthText? at h
    split at h
    · cases h
    · rename_i name behind hcut
      obtain ⟨rfl, hcolon⟩ := Text.cut?_eq_some_iff.1 hcut
      split at h
      · rename_i hname
        cases h
        exact .mk hcolon hname
      · cases h
  · rintro ⟨hcolon, hname⟩
    rw [lengthText?, Text.cut?_eq_some_iff.2 ⟨rfl, hcolon⟩]
    exact if_pos hname

/-- A line is passed over exactly if it announces nothing. -/
theorem lengthText?_eq_none_iff {line : List Char} : lengthText? line = none ↔ ∀ value, ¬Announces line value := by
  rw [Option.eq_none_iff_forall_ne_some]
  exact forall_congr' fun value => not_congr lengthText?_eq_some_iff

/-- A value is read as a length exactly if it stands for a number of 64 bits. -/
theorem readLength_eq_ok_iff {value : List Char} {n : Nat} :
    readLength value = .ok n ↔ StandsFor value n ∧ n < Text.bound64 := by
  rw [readLength, ← Text.readNatural_eq_ok_iff]
  cases Text.readNatural Text.bound64 value <;> simp [Except.mapError]

variable {lines later : List (List Char)} {line value : List Char} {n : Nat}

/-- Lines that announce nothing make no difference at the end. -/
theorem announcedLength_append (lines : List (List Char)) (h : ∀ other ∈ later, ∀ value, ¬Announces other value) :
    announcedLength (lines ++ later) = announcedLength lines := by
  have hnone : later.filterMap lengthText? = [] :=
    List.filterMap_eq_nil_iff.2 fun other hother => lengthText?_eq_none_iff.2 (h other hother)
  rw [announcedLength, List.filterMap_append, hnone, List.append_nil, announcedLength]

/-- One more line that announces a length decides, if all was sound so far. -/
theorem announcedLength_snoc (lines : List (List Char)) (h : Announces line value) :
    announcedLength (lines ++ [line]) = (announcedLength lines).bind fun _ => readLength value := by
  have hsome : [line].filterMap lengthText? = [value] := by
    rw [List.filterMap_cons_some (lengthText?_eq_some_iff.2 h), List.filterMap_nil]
  rw [announcedLength, List.filterMap_append, hsome, List.mapM_append, announcedLength]
  cases (lines.filterMap lengthText?).mapM readLength with
  | error cause => rfl
  | ok lengths =>
    cases hread : readLength value with
    | error cause => simp [bind, Except.bind, Except.map, hread]
    | ok m => simp [bind, Except.bind, Except.map, hread, pure, Except.pure]

/-- A length that is read from lines is the one they announce. -/
theorem announcedLength_of_ok (h : announcedLength lines = .ok n) : AnnouncedLength lines n := by
  induction lines using List.reverseRecOn generalizing n with
  | nil =>
    cases h
    exact ⟨List.forall_mem_nil _, Or.inl ⟨List.forall_mem_nil _, rfl⟩⟩
  | append_singleton lines line ih =>
    cases htext : lengthText? line with
    | none =>
      have hother := lengthText?_eq_none_iff.1 htext
      have hlater : ∀ other ∈ [line], ∀ value, ¬Announces other value := by simpa using hother
      rw [announcedLength_append lines hlater] at h
      obtain ⟨hsound, hlast⟩ := ih h
      refine ⟨fun l hl value hvalue => ?_, ?_⟩
      · rcases List.mem_append.1 hl with hl | hl
        · exact hsound l hl value hvalue
        · exact absurd hvalue (hlater l hl value)
      · rcases hlast with ⟨hnone, rfl⟩ | ⟨before, last, after, value, rfl, hannounces, hvalue, hafter⟩
        · exact Or.inl ⟨List.forall_mem_append.2 ⟨hnone, hlater⟩, rfl⟩
        · exact Or.inr ⟨before, last, after ++ [line], value, by simp, hannounces, hvalue,
            List.forall_mem_append.2 ⟨hafter, hlater⟩⟩
    | some value =>
      have hannounces := lengthText?_eq_some_iff.1 htext
      rw [announcedLength_snoc lines hannounces] at h
      cases hearlier : announcedLength lines with
      | error cause =>
        rw [hearlier] at h
        cases h
      | ok m =>
        rw [hearlier] at h
        obtain ⟨hvalue, hbound⟩ := readLength_eq_ok_iff.1 h
        refine ⟨fun l hl other hother => ?_, Or.inr ⟨lines, line, [], value, rfl, hannounces, hvalue, List.forall_mem_nil _⟩⟩
        rcases List.mem_append.1 hl with hl | hl
        · exact (ih hearlier).sound l hl other hother
        · rw [List.mem_singleton.1 hl] at hother
          have hsame : other = value := by
            rw [← lengthText?_eq_some_iff, htext] at hother
            exact (Option.some.inj hother).symm
          exact ⟨n, hsame ▸ hvalue, hbound⟩

/-- If every line announces a sound value or none, a length is read. -/
theorem ok_of_sound
    (h : ∀ line ∈ lines, ∀ value, Announces line value → ∃ m, StandsFor value m ∧ m < Text.bound64) :
    ∃ m, announcedLength lines = .ok m := by
  induction lines using List.reverseRecOn with
  | nil => exact ⟨0, rfl⟩
  | append_singleton lines line ih =>
    obtain ⟨m, hearlier⟩ := ih fun l hl => h l (List.mem_append_left _ hl)
    cases htext : lengthText? line with
    | none =>
      have hlater : ∀ other ∈ [line], ∀ value, ¬Announces other value := by
        simpa using lengthText?_eq_none_iff.1 htext
      exact ⟨m, (announcedLength_append lines hlater).trans hearlier⟩
    | some value =>
      have hannounces := lengthText?_eq_some_iff.1 htext
      obtain ⟨n, hvalue⟩ := h line (List.mem_append_right _ List.mem_cons_self) value hannounces
      exact ⟨n, by rw [announcedLength_snoc lines hannounces, hearlier]; exact readLength_eq_ok_iff.2 hvalue⟩

/-- The length read from lines is the one they announce, and none is read if one of them is not sound. -/
theorem announcedLength_eq_ok_iff : announcedLength lines = .ok n ↔ AnnouncedLength lines n := by
  constructor
  · exact announcedLength_of_ok
  · rintro ⟨hsound, ⟨hnone, rfl⟩ | ⟨before, line, later, value, rfl, hannounces, hvalue, hlater⟩⟩
    · exact announcedLength_append [] hnone
    · obtain ⟨m, hbefore⟩ := ok_of_sound fun l hl => hsound l (List.mem_append_left _ hl)
      obtain ⟨n', hn', hbound⟩ := hsound line (List.mem_append_right _ List.mem_cons_self) value hannounces
      rw [← List.singleton_append, ← List.append_assoc, announcedLength_append _ hlater,
        announcedLength_snoc before hannounces, hbefore]
      exact readLength_eq_ok_iff.2 ⟨hvalue, hvalue.unique hn' ▸ hbound⟩

/-- What is read from a head: its first two words, and the length that its other lines announce. -/
theorem read_eq_ok_iff {octets : Bytes} {h : Head} :
    Head.read octets = .ok h ↔
      ∃ method target others,
        Text.words ((Text.lines (Text.lenientChars none octets)).headD []) = method :: target :: others ∧
        AnnouncedLength (Text.lines (Text.lenientChars none octets)).tail h.bodyLength ∧
        h.method = String.ofList method ∧ h.path = String.ofList (target.takeWhile (· ≠ '?')) ∧
        h.bodyStart = octets.length + 4 := by
  unfold Head.read
  simp only [← List.headD_eq_head?_getD]
  split
  · rename_i method target others hwords
    rw [hwords]
    constructor
    · intro hread
      cases hlength : announcedLength (Text.lines (Text.lenientChars none octets)).tail with
      | error cause =>
        rw [hlength] at hread
        cases hread
      | ok n =>
        rw [hlength] at hread
        cases hread
        exact ⟨method, target, others, rfl, announcedLength_of_ok hlength, rfl, rfl, rfl⟩
    · rintro ⟨method, target, others, hsame, hlength, hmethod, hpath, hstart⟩
      cases hsame
      rw [announcedLength_eq_ok_iff.2 hlength, ← hmethod, ← hpath]
      cases h
      cases hstart
      rfl
  · rename_i hfew
    refine iff_of_false (fun h => nomatch h) ?_
    rintro ⟨method, target, others, hwords, -⟩
    exact hfew method target others hwords

end Head

/-! ## Requests -/

/-- What a head and the octets it stands in amount to. -/
def Head.request (h : Head) (octets : Bytes) : Request :=
  ⟨h.method, h.path, (octets.drop h.bodyStart).take h.bodyLength⟩

/-- What comes after the body does not matter. -/
theorem Head.request_append {h : Head} {octets : Bytes} (hall : h.total ≤ octets.length) (later : Bytes) :
    h.request (octets ++ later) = h.request octets := by
  have hstart : h.bodyStart + h.bodyLength ≤ octets.length := hall
  rw [Head.request, List.drop_append_of_le_length (by omega),
    List.take_append_of_le_length (by rw [List.length_drop]; omega), Head.request]

/-- The octets hold a whole head, and what it announces is within the bound. -/
def HasHead (octets : Bytes) (h : Head) : Prop :=
  ∃ head, head? octets = some head ∧ Head.read head = .ok h ∧ h.total ≤ maxRequestBytes

namespace HasHead

variable {octets : Bytes} {h h' : Head}

/-- A head that is there stays there when more octets come. -/
theorem append (hhead : HasHead octets h) (more : Bytes) : HasHead (octets ++ more) h := by
  obtain ⟨head, hfound, hread, hfits⟩ := hhead
  exact ⟨head, head?_append_of_some hfound more, hread, hfits⟩

/-- A stream has one head. -/
theorem unique (hhead : HasHead octets h) (hhead' : HasHead octets h') : h = h' := by
  obtain ⟨head, hfound, hread, -⟩ := hhead
  obtain ⟨head', hfound', hread', -⟩ := hhead'
  obtain rfl := Option.some.inj (hfound.symm.trans hfound')
  exact Except.ok.inj (hread.symm.trans hread')

end HasHead

/-- A stream brings the request of its head, once its body is there and if it is not too long. -/
theorem brings_iff {stream : Bytes} {request : Request} :
    Brings stream request ↔ ∃ h, HasHead stream h ∧ h.total ≤ stream.length ∧ request = h.request stream := by
  constructor
  · rintro ⟨hblank, hwords, hlength, hbound, hbody⟩
    rename_i p n method target others
    have hhead : (stream.take p).length = p := List.length_take_of_le (by omega)
    refine ⟨⟨String.ofList method, String.ofList (target.takeWhile (· ≠ '?')), p + 4, n⟩, ⟨stream.take p, ?_, ?_, hbound⟩,
      hbody, rfl⟩
    · rw [head?_eq_some_iff, hhead]
      exact ⟨hblank, rfl⟩
    · refine Head.read_eq_ok_iff.2 ⟨method, target, others, hwords, hlength, rfl, rfl, ?_⟩
      rw [hhead]
  · rintro ⟨h, ⟨head, hfound, hread, hfits⟩, hall, rfl⟩
    obtain ⟨hblank, hhead⟩ := head?_eq_some_iff.1 hfound
    obtain ⟨method, target, others, hwords, hlength, hmethod, hpath, hstart⟩ := Head.read_eq_ok_iff.1 hread
    rw [Head.total, hstart] at hfits hall
    rw [hhead] at hwords hlength
    rw [Head.request, hmethod, hpath, hstart]
    exact .mk hblank hwords hlength hfits hall

/-! ## Reading -/

/-- How far a reader is that was given the octets of a stream so far. While it waits, it holds all of them. A request it made
is the one they bring, and it gives up only if no octets that follow can make them bring one. -/
inductive Follows : Bytes → RequestReader → Prop
  | inHead {octets : Bytes} (hnone : head? octets = none) (hfits : octets.length ≤ maxRequestBytes) :
    Follows octets ⟨octets, .inHead⟩
  | inBody {octets : Bytes} {h : Head} (hhead : HasHead octets h) (hmissing : octets.length < h.total) :
    Follows octets ⟨octets, .inBody h⟩
  | done {octets : Bytes} {h : Head} (hhead : HasHead octets h) (hall : h.total ≤ octets.length) (later : Bytes) :
    Follows (octets ++ later) ⟨octets, .done (.ok (h.request octets))⟩
  | refused {octets : Bytes} (hnothing : ∀ more request, ¬Brings (octets ++ more) request) (error : RequestError)
    (later : Bytes) : Follows (octets ++ later) ⟨octets, .done (.error error)⟩

namespace Follows

variable {stream : Bytes} {r : RequestReader}

/-- A reader that has read nothing follows the empty stream. -/
theorem start : Follows [] RequestReader.start := .inHead rfl (Nat.zero_le _)

/-- A reader may give up once no head within the bound can come. -/
theorem refusing {octets : Bytes} (h : ∀ more h, ¬HasHead (octets ++ more) h) (error : RequestError) :
    Follows octets ⟨octets, .done (.error error)⟩ := by
  have hnothing : ∀ more request, ¬Brings (octets ++ more) request := by
    intro more request hbrings
    obtain ⟨head, hhead, -⟩ := brings_iff.1 hbrings
    exact h more head hhead
  have hrefused := Follows.refused hnothing error []
  rwa [List.append_nil] at hrefused

/-- Once the head is known, the octets at hand tell whether the body is there. -/
theorem bodyStage {octets : Bytes} {h : Head} (hhead : HasHead octets h) :
    Follows octets ⟨octets, RequestReader.bodyStage octets h⟩ := by
  unfold RequestReader.bodyStage
  split
  · rename_i hmissing
    exact .inBody hhead hmissing
  · rename_i hall
    have hdone := Follows.done hhead (Nat.not_lt.1 hall) []
    rwa [List.append_nil] at hdone

/-- While it is not, the octets at hand tell whether it may still come. -/
theorem headStage (octets : Bytes) : Follows octets ⟨octets, RequestReader.headStage octets⟩ := by
  unfold RequestReader.headStage
  split
  · rename_i head hfound
    unfold RequestReader.afterHead
    split
    · rename_i error hread
      refine refusing (fun more h hhead => ?_) error
      obtain ⟨head', hfound', hread', -⟩ := hhead
      obtain rfl := Option.some.inj ((head?_append_of_some hfound more).symm.trans hfound')
      rw [hread] at hread'
      cases hread'
    · rename_i h hread
      split
      · rename_i hlong
        refine refusing (fun more h' hhead => ?_) .tooLarge
        obtain ⟨head', hfound', hread', hfits⟩ := hhead
        obtain rfl := Option.some.inj ((head?_append_of_some hfound more).symm.trans hfound')
        obtain rfl := Except.ok.inj (hread.symm.trans hread')
        exact Nat.not_lt.2 hfits hlong
      · rename_i hfits
        exact bodyStage ⟨head, hfound, hread, Nat.not_lt.1 hfits⟩
  · rename_i hnone
    split
    · rename_i hlong
      refine refusing (fun more h hhead => ?_) .tooLarge
      obtain ⟨head, hfound, hread, hfits⟩ := hhead
      obtain ⟨-, -, -, -, -, -, -, hstart⟩ := Head.read_eq_ok_iff.1 hread
      rw [Head.total, hstart] at hfits
      rw [head?_of_append hfound (by omega)] at hnone
      cases hnone
    · rename_i hfits
      exact .inHead hnone (Nat.not_lt.1 hfits)

/-- A reader goes on to follow the stream with every read. -/
theorem feed (h : Follows stream r) (octets : Bytes) : Follows (stream ++ octets) (r.feed octets) := by
  cases h with
  | inHead => exact headStage _
  | inBody hhead => exact bodyStage (hhead.append octets)
  | done hhead hall later =>
    rw [List.append_assoc]
    exact .done hhead hall (later ++ octets)
  | refused hnothing error later =>
    rw [List.append_assoc]
    exact .refused hnothing error (later ++ octets)

theorem foldl (h : Follows stream r) (reads : List Bytes) :
    Follows (stream ++ reads.flatten) (reads.foldl RequestReader.feed r) := by
  induction reads generalizing stream r with
  | nil =>
    rw [List.flatten_nil, List.append_nil]
    exact h
  | cons octets reads ih =>
    rw [List.flatten_cons, ← List.append_assoc]
    exact ih (h.feed octets)

/-- At its end, a reader has made the request that the stream brings, or none if it brings none. -/
theorem finish_eq_ok_iff (h : Follows stream r) {request : Request} : r.finish = .ok request ↔ Brings stream request := by
  rw [brings_iff]
  cases h with
  | inHead hnone =>
    refine iff_of_false (fun h => nomatch h) ?_
    rintro ⟨h, ⟨head, hfound, -⟩, -⟩
    rw [hnone] at hfound
    cases hfound
  | inBody hhead hmissing =>
    refine iff_of_false (fun h => nomatch h) ?_
    rintro ⟨h', hhead', hall, -⟩
    obtain rfl := hhead.unique hhead'
    exact Nat.not_lt.2 hall hmissing
  | @done octets h hhead hall later =>
    have hsame := Head.request_append hall later
    constructor
    · intro hdone
      obtain rfl := Except.ok.inj hdone
      exact ⟨h, hhead.append later, by rw [List.length_append]; omega, hsame.symm⟩
    · rintro ⟨h', hhead', -, rfl⟩
      obtain rfl := (hhead.append later).unique hhead'
      rw [hsame]
      rfl
  | refused hnothing error later =>
    refine iff_of_false (fun h => nomatch h) fun hbrings => ?_
    exact hnothing later request (brings_iff.2 hbrings)

/-- A reader holds what it was given up to where it was done. -/
theorem octets_isPrefix (h : Follows stream r) : r.octets <+: stream := by
  cases h with
  | inHead | inBody => exact List.prefix_refl _
  | done hhead hall later => exact List.prefix_append _ _
  | refused hnothing error later => exact List.prefix_append _ _

/-- A reader that takes in more holds no more than the bound. -/
theorem length_feed_le (h : Follows stream r) {octets : Bytes} {size : Nat} (hsize : octets.length ≤ size)
    (hheld : r.octets.length ≤ maxRequestBytes + size) :
    (r.feed octets).octets.length ≤ maxRequestBytes + size := by
  cases h with
  | inHead hnone hfits =>
    simp only [RequestReader.feed, List.length_append]
    omega
  | inBody hhead hmissing =>
    obtain ⟨-, -, -, hfits⟩ := hhead
    simp only [RequestReader.feed, List.length_append]
    omega
  | done | refused => exact hheld

/-- What is held stays within the bound and one read. -/
theorem length_foldl_le (h : Follows stream r) {reads : List Bytes} {size : Nat}
    (hsize : ∀ octets ∈ reads, octets.length ≤ size) (hheld : r.octets.length ≤ maxRequestBytes + size) :
    (reads.foldl RequestReader.feed r).octets.length ≤ maxRequestBytes + size := by
  induction reads generalizing stream r with
  | nil => exact hheld
  | cons octets reads ih =>
    obtain ⟨hfirst, hlater⟩ := List.forall_mem_cons.1 hsize
    exact ih (h.feed octets) hlater (h.length_feed_le hfirst hheld)

/-- A request is cut out of the octets that are held. -/
theorem request_eq (h : Follows stream r) {request : Request} (hdone : r.stage = .done (.ok request)) :
    ∃ head, HasHead r.octets head ∧ head.total ≤ r.octets.length ∧ request = head.request r.octets := by
  cases h with
  | inHead | inBody | refused => cases hdone
  | done hhead hall later =>
    cases hdone
    exact ⟨_, hhead, hall, rfl⟩

end Follows

theorem read_eq_ok_iff {reads : List Bytes} {request : Request} :
    Request.read reads = .ok request ↔ Brings reads.flatten request :=
  (Follows.start.foldl reads).finish_eq_ok_iff

/-! ## Sizes -/

/-- The most octets that one read brings. -/
def readSize : Nat := 1024

/-- The sum of two numbers of 64 bits, if it is one itself. -/
def checkedSum? (a b : UInt64) : Option UInt64 := if a.toNat + b.toNat < Text.bound64 then some (a + b) else none

/-- Two numbers that are too large for the bound are so when they are added in 64 bits, with a check. -/
theorem checkedSum?_filter {a b bound : Nat} (ha : a < Text.bound64) (hb : b < Text.bound64) (hbound : bound < Text.bound64) :
    ((checkedSum? a.toUInt64 b.toUInt64).filter fun sum => sum.toNat ≤ bound) =
      if a + b ≤ bound then some (a + b).toUInt64 else none := by
  have hsum : a.toUInt64 + b.toUInt64 = (a + b).toUInt64 := (UInt64.ofNat_add a b).symm
  have hvalue {n : Nat} (h : n < Text.bound64) : n.toUInt64.toNat = n := Nat.mod_eq_of_lt h
  rw [checkedSum?, hvalue ha, hvalue hb, hsum]
  by_cases hfits : a + b < Text.bound64
  · rw [if_pos hfits, Option.filter_some, hvalue hfits]
    simp only [decide_eq_true_eq]
  · have hlong : ¬a + b ≤ bound := by omega
    rw [if_neg hfits, if_neg hlong]
    rfl

theorem Head.bodyLength_lt {octets : Bytes} {h : Head} (hread : Head.read octets = .ok h) : h.bodyLength < Text.bound64 := by
  obtain ⟨-, -, -, -, hlength, -⟩ := Head.read_eq_ok_iff.1 hread
  rcases hlength.last with ⟨-, hzero⟩ | ⟨before, line, later, value, hlines, hannounces, hvalue, -⟩
  · rw [hzero]
    decide
  · obtain ⟨m, hm, hbound⟩ := hlength.sound line (by rw [hlines]; simp) value hannounces
    exact hvalue.unique hm ▸ hbound

/-- What a connection's octets make of a request, however they arrive.
1. A request is read exactly if the stream as a whole brings it.
2. Where the reads end makes no difference.
3. No more is held than the bound and one read beyond it, and what is held is the beginning of the stream.
4. Wherever a head is found, it and the blank line behind it are within what is held. Its sizes are numbers of 64 bits, and
adding them in 64 bits, with a check, tells what is too large and gives the true sum of all else. A request is cut out of
what is held, up to this sum. -/
theorem read_iff_brings (reads : List Bytes) (hreads : ∀ octets ∈ reads, octets.length ≤ readSize) :
    let held := reads.foldl RequestReader.feed .start
    (∀ request, Request.read reads = .ok request ↔ Brings reads.flatten request) ∧
    (∀ others : List Bytes, others.flatten = reads.flatten →
      (Request.read others).toOption = (Request.read reads).toOption) ∧
    (held.octets.length ≤ 8192 + 1024 ∧ held.octets <+: reads.flatten) ∧
    ∀ octets head, head? held.octets = some octets → Head.read octets = .ok head →
      head.bodyStart = octets.length + 4 ∧ head.bodyStart ≤ held.octets.length ∧ head.bodyLength < Text.bound64 ∧
      ((checkedSum? head.bodyStart.toUInt64 head.bodyLength.toUInt64).filter fun sum => sum.toNat ≤ maxRequestBytes) =
        (if head.total ≤ maxRequestBytes then some head.total.toUInt64 else none) ∧
      ∀ request, held.stage = .done (.ok request) →
        head.total ≤ held.octets.length ∧ request = head.request held.octets := by
  intro held
  have hfollows : Follows reads.flatten held := Follows.start.foldl reads
  have hlength : held.octets.length ≤ 8192 + 1024 := Follows.start.length_foldl_le hreads (Nat.zero_le _)
  refine ⟨fun request => read_eq_ok_iff, ?_, ⟨hlength, hfollows.octets_isPrefix⟩, ?_⟩
  · intro others hothers
    have hsome (reads : List Bytes) (request : Request) :
        (Request.read reads).toOption = some request ↔ Brings reads.flatten request := by
      rw [← read_eq_ok_iff]
      cases Request.read reads <;> simp [Except.toOption]
    refine Option.ext fun request => ?_
    rw [hsome, hsome, hothers]
  · intro octets head hfound hread
    obtain ⟨-, -, -, -, -, -, -, hstart⟩ := Head.read_eq_ok_iff.1 hread
    have hblank := (head?_eq_some_iff.1 hfound).1.length_le
    have hbody := Head.bodyLength_lt hread
    refine ⟨hstart, hstart ▸ hblank, hbody, checkedSum?_filter ?_ hbody (by decide), ?_⟩
    · rw [Text.bound64]
      omega
    · intro request hdone
      obtain ⟨head', ⟨octets', hfound', hread', -⟩, hall, hrequest⟩ := hfollows.request_eq hdone
      obtain rfl := Option.some.inj (hfound.symm.trans hfound')
      obtain rfl := Except.ok.inj (hread.symm.trans hread')
      exact ⟨hall, hrequest⟩

/-- A request in four reads: two end within the blank line, and the last brings more than the body. The first announcement is
made void by the second. -/
def Sample.requestReads : List Bytes :=
  ["PUT  /status?a?b\r\ncontent-length: 9\r\nCONTENT-Length:\t+3 \r".toList, "\n\r".toList, "\nab".toList, "cd".toList].map
    fun chars => chars.map fun c => c.toNat.toUInt8

theorem read_iff_brings_sample :
    (∀ octets ∈ Sample.requestReads, octets.length ≤ readSize) ∧
      Request.read Sample.requestReads = .ok ⟨"PUT", "/status", [97, 98, 99]⟩ ∧
      Brings Sample.requestReads.flatten ⟨"PUT", "/status", [97, 98, 99]⟩ ∧
      (Request.read [Sample.requestReads.flatten]).toOption = some ⟨"PUT", "/status", [97, 98, 99]⟩ := by
  have hreads : ∀ octets ∈ Sample.requestReads, octets.length ≤ readSize := by decide
  have hread : Request.read Sample.requestReads = .ok ⟨"PUT", "/status", [97, 98, 99]⟩ := by decide
  obtain ⟨hbrings, hsame, -, -⟩ := read_iff_brings Sample.requestReads hreads
  refine ⟨hreads, hread, (hbrings _).1 hread, ?_⟩
  rw [hsame [Sample.requestReads.flatten] (by simp), hread]
  rfl

end FrameMerge.Control
