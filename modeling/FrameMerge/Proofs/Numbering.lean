import FrameMerge.Proofs.Sources
import Mathlib.Data.List.GetD

/-!
# How the frames of a source are numbered

The key of a frame read from a message, and all that its source counts but dropped frames, is a function of the frame
numbers that the source has sent since the last reset: the acquisition of a frame is the number of descents among them
up to its own. Nothing else in a run has a say in it. The invariant is `Numbering`; a step of a run adds at most one
number to it (`Numbering.step`), and a reset starts it afresh.
-/

namespace FrameMerge

/-! ## Descents -/

/-- How many numbers are below the one before them. -/
def descents (numbers : List Nat) : Nat := (numbers.zip numbers.tail).countP fun pair => pair.2 < pair.1

/-- The keys of frames with these numbers, in their order: the descents up to the number, and the number itself. -/
def keysOf (numbers : List Nat) : List Key :=
  (List.range numbers.length).map fun j => ⟨descents (numbers.take (j + 1)), numbers.getD j 0⟩

theorem descents_cons_cons (a b : Nat) (numbers : List Nat) :
    descents (a :: b :: numbers) = descents (b :: numbers) + if b < a then 1 else 0 := by
  simp only [descents, List.tail_cons, List.zip_cons_cons, List.countP_cons, decide_eq_true_eq]

/-- One more number is one more descent if it is below the last. -/
theorem descents_snoc (numbers : List Nat) (n : Nat) :
    descents (numbers ++ [n]) = descents numbers + if n < numbers.getLastD 0 then 1 else 0 := by
  induction numbers with
  | nil => rfl
  | cons a numbers ih =>
    cases numbers with
    | nil => exact descents_cons_cons a n []
    | cons b numbers =>
      have hrest : descents (b :: (numbers ++ [n])) = descents (b :: numbers) + if n < (b :: numbers).getLastD 0 then 1 else 0 :=
        ih
      rw [List.cons_append, List.cons_append, descents_cons_cons, descents_cons_cons, hrest]
      simp only [List.getLastD_cons]
      omega

theorem keysOf_snoc (numbers : List Nat) (n : Nat) :
    keysOf (numbers ++ [n]) = keysOf numbers ++ [⟨descents (numbers ++ [n]), n⟩] := by
  have hearlier : ∀ j ∈ List.range numbers.length,
      (⟨descents ((numbers ++ [n]).take (j + 1)), (numbers ++ [n]).getD j 0⟩ : Key) =
        ⟨descents (numbers.take (j + 1)), numbers.getD j 0⟩ := by
    intro j hj
    have hj : j < numbers.length := List.mem_range.1 hj
    rw [List.take_append_of_le_length hj, List.getD_append _ _ _ _ hj]
  have hlast : (⟨descents ((numbers ++ [n]).take (numbers.length + 1)), (numbers ++ [n]).getD numbers.length 0⟩ : Key) =
      ⟨descents (numbers ++ [n]), n⟩ := by
    rw [List.take_of_length_le (by simp)]
    simp
  rw [keysOf, List.length_append, List.length_singleton, List.range_succ, List.map_append, List.map_congr_left hearlier,
    List.map_singleton, hlast]
  rfl

/-- The key of one more number is not below that of the last. -/
theorem key_le_snoc (numbers : List Nat) (n : Nat) :
    (⟨descents numbers, numbers.getLastD 0⟩ : Key) ≤ ⟨descents (numbers ++ [n]), n⟩ := by
  rw [descents_snoc, Key.le_iff]
  split <;> simp only <;> omega

/-- Keys never decrease. -/
theorem keysOf_pairwise (numbers : List Nat) : (keysOf numbers).Pairwise (· ≤ ·) := by
  suffices h : (keysOf numbers).Pairwise (· ≤ ·) ∧
      ∀ key ∈ keysOf numbers, key ≤ ⟨descents numbers, numbers.getLastD 0⟩ from h.1
  induction numbers using List.reverseRecOn with
  | nil => simp [keysOf]
  | append_singleton numbers n ih =>
    obtain ⟨hsorted, hlast⟩ := ih
    have hle : ∀ key ∈ keysOf numbers, key ≤ ⟨descents (numbers ++ [n]), n⟩ := by
      intro key hkey
      exact (hlast key hkey).trans (key_le_snoc numbers n)
    rw [keysOf_snoc]
    constructor
    · rw [List.pairwise_append]
      refine ⟨hsorted, List.pairwise_singleton _ _, fun key hkey key' hkey' => ?_⟩
      rw [List.mem_singleton.1 hkey']
      exact hle key hkey
    · intro key hkey
      rw [List.getLastD_concat]
      rcases List.mem_append.1 hkey with hkey | hkey
      · exact hle key hkey
      · rw [List.mem_singleton.1 hkey]

theorem keysOf_getElem? (numbers : List Nat) {j n : Nat} (h : numbers[j]? = some n) :
    (keysOf numbers)[j]? = some ⟨descents (numbers.take (j + 1)), n⟩ := by
  obtain ⟨hj, -⟩ := List.getElem?_eq_some_iff.1 h
  rw [keysOf, List.getElem?_map, List.getElem?_range hj, Option.map_some, List.getD_eq_getElem?_getD, h]
  rfl

/-- Neighbouring keys are equal exactly if the numbers are. -/
theorem keysOf_eq_next_iff (numbers : List Nat) {j : Nat} (hj : j + 1 < numbers.length) :
    (keysOf numbers)[j]? = (keysOf numbers)[j + 1]? ↔ numbers[j]? = numbers[j + 1]? := by
  have hthis : numbers[j]? = some numbers[j] := List.getElem?_eq_getElem (by omega)
  have hnext : numbers[j + 1]? = some numbers[j + 1] := List.getElem?_eq_getElem hj
  have htake : numbers.take (j + 2) = numbers.take (j + 1) ++ [numbers[j + 1]] := List.take_succ_eq_append_getElem hj
  have hlast : (numbers.take (j + 1)).getLastD 0 = numbers[j] := by
    rw [List.take_succ_eq_append_getElem (by omega), List.getLastD_concat]
  rw [keysOf_getElem? numbers hthis, keysOf_getElem? numbers hnext, htake, descents_snoc, hlast, hthis, hnext]
  simp only [Option.some.injEq, Key.mk.injEq]
  constructor
  · intro hkeys
    exact hkeys.2
  · intro hnumbers
    rw [hnumbers, if_neg (Nat.lt_irrefl _)]
    exact ⟨rfl, rfl⟩

/-- Where no two neighbouring numbers are the same, keys increase. -/
theorem keysOf_strict {numbers : List Nat} (h : numbers.IsChain (· ≠ ·)) : (keysOf numbers).Pairwise (· < ·) := by
  have hlength : (keysOf numbers).length = numbers.length := by simp [keysOf]
  rw [← List.isChain_iff_pairwise, List.isChain_iff_getElem]
  intro j hj
  have hnext : j + 1 < numbers.length := hlength ▸ hj
  have hdiffer : numbers[j]? ≠ numbers[j + 1]? := by
    rw [List.getElem?_eq_getElem hnext, List.getElem?_eq_getElem (by omega), ne_eq, Option.some.injEq]
    exact List.isChain_iff_getElem.1 h j hnext
  have hle := List.pairwise_iff_getElem.1 (keysOf_pairwise numbers) j (j + 1) (by omega) hj (Nat.lt_succ_self j)
  refine lt_of_le_of_ne hle fun hkeys => hdiffer ((keysOf_eq_next_iff numbers hnext).1 ?_)
  rw [List.getElem?_eq_getElem hj, List.getElem?_eq_getElem (by omega), hkeys]

/-! ## What a source has sent -/

/-- The operations since the last reset, or all of them if there was none. -/
def sinceReset (ops : List Operation) : List Operation := ops.rtakeWhile fun op => !op.isReset

/-- The frame numbers in the messages of a source, in their order. -/
def numbersSent (id : Nat) (ops : List Operation) : List Nat := ops.filterMap (Operation.number? id)

theorem sinceReset_snoc (ops : List Operation) (op : Operation) :
    sinceReset (ops ++ [op]) = if op.isReset then [] else sinceReset ops ++ [op] := by
  rw [sinceReset, List.rtakeWhile_concat]
  cases op.isReset <;> rfl

theorem numbersSent_snoc (id : Nat) (ops : List Operation) (op : Operation) :
    numbersSent id (ops ++ [op]) = numbersSent id ops ++ (op.number? id).toList := by
  rw [numbersSent, List.filterMap_append]
  cases hnumber : op.number? id <;> simp [hnumber, numbersSent]

variable {P : Type} [Publisher P]

/-- The frames that steps read from the messages of a source without failing, in their order. -/
def framesRead (id : Nat) (steps : List (Step P)) : List Frame :=
  ((offers steps).filter fun o => o.source = id && o.ingested).map Offer.frame

@[simp] theorem framesRead_append (id : Nat) (a b : List (Step P)) :
    framesRead id (a ++ b) = framesRead id a ++ framesRead id b := by
  rw [framesRead, offers_append, List.filter_append, List.map_append]
  rfl

/-- A step reads at most the frame that it offers. -/
theorem framesRead_singleton (id : Nat) (s : Step P) :
    framesRead id [s] = (s.offer?.toList.filter fun o => o.source = id && o.ingested).map Offer.frame := by
  rw [framesRead, offers_cons, offers_nil, List.append_nil]

/-! ## The invariant -/

/-- A source that has sent these numbers since the last reset has counted them, and gave these keys to its frames. -/
structure Numbering (numbers : List Nat) (frames : List Frame) (source : Source) : Prop where
  received : source.received = numbers.length
  last : source.lastFrame = numbers.getLastD 0
  acquisition : source.acquisition = descents numbers
  keys : frames.map Frame.key = keysOf numbers

namespace Numbering

variable {numbers : List Nat} {frames : List Frame} {source : Source}

/-- Dropped frames do not count. -/
theorem charge (h : Numbering numbers frames source) (admission : Admission) :
    Numbering numbers frames (source.charge admission) := by
  rw [Source.charge]
  split
  · exact ⟨h.received, h.last, h.acquisition, h.keys⟩
  · exact h

/-- One more message is one more number. -/
theorem accept (h : Numbering numbers frames source) (header : Header) (payload : Bytes) :
    Numbering (numbers ++ [header.frameNumber]) (frames ++ [(source.accept header payload).value])
      (source.accept header payload).state := by
  have hacquisition : (source.accept header payload).state.acquisition = descents (numbers ++ [header.frameNumber]) := by
    rw [descents_snoc, ← h.last, ← h.acquisition]
    simp only [Source.accept]
    split <;> rfl
  constructor
  · rw [List.length_append, ← h.received]
    rfl
  · rw [List.getLastD_concat]
    rfl
  · exact hacquisition
  · rw [List.map_append, h.keys, keysOf_snoc, ← hacquisition]
    rfl

/-- The cutoff has no say in it. -/
theorem setCutoff (h : Numbering numbers frames source) {new : Source} {cutoff : Binary64}
    (hset : source.setCutoff cutoff = .ok new) : Numbering numbers frames new := by
  obtain ⟨monitor, rfl⟩ := Source.setCutoff_ok hset
  exact ⟨h.received, h.last, h.acquisition, h.keys⟩

/-- The keys of a source's frames never decrease. -/
theorem sorted (h : Numbering numbers frames source) : frames.Pairwise fun f g => f.key ≤ g.key := by
  rw [← List.pairwise_map (f := Frame.key), h.keys]
  exact keysOf_pairwise numbers

/-- A frame that is numbered unlike the one before it has a key above those of all frames before it. -/
theorem key_lt_last {frame : Frame} (h : Numbering numbers (frames ++ [frame]) source)
    (hchain : numbers.IsChain (· ≠ ·)) : ∀ f ∈ frames, f.key < frame.key := by
  intro f hf
  have hstrict := keysOf_strict hchain
  rw [← h.keys, List.pairwise_map, List.pairwise_append] at hstrict
  exact hstrict.2.2 f hf frame (List.mem_singleton_self frame)

/-- A step that does not reset adds the number that it brings, if it brings one. -/
theorem step {s : Step P} {id : Nat} {old new : Source} (h : Numbering numbers frames old)
    (hmove : s.SourceMove id old new) (hreset : s.operation.isReset = false) :
    Numbering (numbers ++ (s.operation.number? id).toList) (frames ++ framesRead id [s]) new := by
  rw [framesRead_singleton]
  cases hmove with
  | still hnumber hoffer _ hnew =>
    have hnone : s.offer?.toList.filter (fun o => o.source = id && o.ingested) = [] := by
      rw [List.filter_eq_nil_iff]
      intro o ho
      simp [hoffer o (by simpa using ho)]
    rw [hnumber, hnone, hnew]
    simpa using h
  | read header payload admission hnumber hoffer _ hnew =>
    rw [hnumber, hoffer, hnew]
    simpa using (h.accept header payload).charge admission
  | offered frame admission hnumber hoffer _ hnew =>
    rw [hnumber, hoffer, hnew]
    simpa using h.charge admission
  | cutoff cutoff hnumber hoffer _ hnew =>
    rw [hnumber, hoffer]
    simpa using h.setCutoff hnew
  | reset hreset' =>
    rw [hreset] at hreset'
    cases hreset'

/-- After every run from a new relay, a source has counted what it has sent since the last reset. -/
theorem recent {r : Relay P} (hr : r.IsNew) {ops : List Operation} {id : Nat}
    (h : (r.after ops).combiner.sources[id]? = some source) :
    Numbering (numbersSent id (sinceReset ops)) (framesRead id (r.recent ops)) source := by
  induction ops using List.reverseRecOn generalizing source with
  | nil =>
    obtain ⟨name, endpoint, monitor, rfl⟩ := hr.spec.2.2.2 source (List.mem_of_getElem? h)
    exact ⟨rfl, rfl, rfl, rfl⟩
  | append_singleton ops op ih =>
    rw [r.after_snoc] at h
    obtain ⟨old, hold, hmove⟩ := Step.source_of_next h
    rw [sinceReset_snoc, r.recent_snoc]
    cases hreset : op.isReset with
    | true =>
      cases hmove with
      | reset _ hnew =>
        rw [hnew]
        exact ⟨rfl, rfl, rfl, rfl⟩
      | still _ _ hreset' | read _ _ _ _ _ hreset' | offered _ _ _ _ hreset' | cutoff _ _ _ hreset' =>
        exact absurd (hreset.symm.trans hreset') (by decide)
    | false =>
      have hstep := (ih hold).step hmove hreset
      simpa only [Bool.false_eq_true, if_false, numbersSent_snoc, framesRead_append] using hstep

end Numbering

/-- A source is numbered by its own messages alone. After every run from a new relay, whatever other sources send and
whatever is dropped, given up, lost, refused or reset in it, let the numbers be the frame numbers in the messages that
the source has sent since the last reset.
1. The frames read from these messages have as keys the number of descents up to their number, and their number.
2. These keys never decrease.
3. Two neighbouring ones are equal exactly if the numbers are.
4. The source has received as many frames as there are numbers, its last frame is the last number, zero if there is none,
and its acquisition is the number of descents. -/
theorem source_numbering (r : Relay P) (hr : r.IsNew) (ops : List Operation) (id : Nat) (source : Source)
    (h : (r.after ops).combiner.sources[id]? = some source) :
    (framesRead id (r.recent ops)).map Frame.key = keysOf (numbersSent id (sinceReset ops)) ∧
    (framesRead id (r.recent ops)).Pairwise (fun f g => f.key ≤ g.key) ∧
    (∀ j, j + 1 < (numbersSent id (sinceReset ops)).length →
      ((framesRead id (r.recent ops))[j]?.map Frame.key = (framesRead id (r.recent ops))[j + 1]?.map Frame.key ↔
        (numbersSent id (sinceReset ops))[j]? = (numbersSent id (sinceReset ops))[j + 1]?)) ∧
    source.received = (numbersSent id (sinceReset ops)).length ∧
    source.lastFrame = (numbersSent id (sinceReset ops)).getLastD 0 ∧
    source.acquisition = descents (numbersSent id (sinceReset ops)) := by
  have hnumbering := Numbering.recent hr h
  refine ⟨hnumbering.keys, hnumbering.sorted, fun j hj => ?_, hnumbering.received, hnumbering.last,
    hnumbering.acquisition⟩
  rw [← List.getElem?_map, ← List.getElem?_map, hnumbering.keys]
  exact keysOf_eq_next_iff _ hj

namespace Sample

/-- After a reset, one source sends 3, 1 and 1 again, with a frame of another source, a message without a number and a
drain in between. -/
def restarts : List Operation :=
  [.ingest 0 (message 5) [], .reset, .ingest 0 (message 3) [], .ingest 1 (message 9) [], .drain,
    .ingest 0 (message 1) [], .ingest 0 [] [], .ingest 0 (message 1) []]

end Sample

/-- The number 1 starts an acquisition when it follows 3, and stays in it when it follows itself. -/
theorem source_numbering_sample :
    Sample.relay.IsNew ∧ ∃ source, (Sample.relay.after Sample.restarts).combiner.sources[0]? = some source ∧
      (framesRead 0 (Sample.relay.recent Sample.restarts)).map Frame.key = [⟨0, 3⟩, ⟨1, 1⟩, ⟨1, 1⟩] ∧
      source.received = 3 ∧ source.lastFrame = 1 ∧ source.acquisition = 1 := by
  have hsome : (Sample.relay.after Sample.restarts).combiner.sources[0]?.isSome = true := by decide +kernel
  have hnumbers : numbersSent 0 (sinceReset Sample.restarts) = [3, 1, 1] := by decide +kernel
  obtain ⟨source, hsource⟩ := Option.isSome_iff_exists.1 hsome
  have h := source_numbering Sample.relay Sample.isNew Sample.restarts 0 source hsource
  rw [hnumbers] at h
  obtain ⟨hkeys, -, -, hreceived, hlast, hacquisition⟩ := h
  exact ⟨Sample.isNew, source, hsource, hkeys, hreceived, hlast, hacquisition⟩

end FrameMerge
