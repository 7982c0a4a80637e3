import FrameMerge.Text.Blank
import FrameMerge.Text.Natural
import FrameMerge.Text.Utf8

/-!
# Requests

A request is a head, a blank line and a body whose length the head announces. Octets arrive in reads of any size; a
request is made as soon as all of its octets are there, and what arrives after them is never looked at. Head and
body together are bounded, so a reader holds at most one read more than the bound.
-/

namespace FrameMerge.Control

structure Request where
  method : String
  /-- The target without the query after it. -/
  path : String
  body : Bytes
  deriving DecidableEq

/-- Why a stream of octets is no request. -/
inductive RequestError
  | tooLarge
  | endInHead
  | endInBody
  | malformedLine
  | invalidLength
  deriving DecidableEq

def RequestError.message : RequestError → String
  | .tooLarge => "request too large"
  | .endInHead => "connection closed before end of headers"
  | .endInBody => "connection closed before end of body"
  | .malformedLine => "malformed request line"
  | .invalidLength => "invalid content-length"

/-- The most octets of a request. -/
def maxRequestBytes : Nat := 8192

/-! ## Heads -/

/-- The line ending of the head's last line and the blank line after it. -/
def blankLine : Bytes := [13, 10, 13, 10]

/-- What stands before the first blank line. -/
def head? : Bytes → Option Bytes
  | [] => none
  | octet :: rest => if blankLine.isPrefixOf (octet :: rest) then some [] else (head? rest).map (octet :: ·)

/-- What a head says. -/
structure Head where
  method : String
  path : String
  /-- Where the body starts: after the head and the blank line. -/
  bodyStart : Nat
  bodyLength : Nat
  deriving DecidableEq

namespace Head

/-- Head, blank line and body together. -/
def total (h : Head) : Nat := h.bodyStart + h.bodyLength

/-- The name of the line that announces the length of the body, in letters of any case. -/
def lengthName : List Char := "content-length".toList

/-- The length that a line announces, if it is a line of that name. -/
def lengthText? (line : List Char) : Option (List Char) :=
  match Text.cut? [':'] line with
  | none => none
  | some (name, value) => if Text.sameLetters (Text.trim name) lengthName then some (Text.trim value) else none

def readLength (text : List Char) : Except RequestError Nat :=
  (Text.readNatural Text.bound64 text).mapError fun _ => .invalidLength

/-- The length of the body: every line that announces one must be sound, and the last one decides. -/
def announcedLength (lines : List (List Char)) : Except RequestError Nat :=
  ((lines.filterMap lengthText?).mapM readLength).map fun lengths => (lengths.getLast?).getD 0

/-- Reads a head. The words of its first line are the method, the target, and others that do not matter. -/
def read (octets : Bytes) : Except RequestError Head :=
  let lines := Text.lines (Text.lenientChars none octets)
  match Text.words (lines.head?.getD []) with
  | method :: target :: _ =>
    (announcedLength lines.tail).map fun bodyLength =>
      { method := String.ofList method
        path := String.ofList (target.takeWhile (· ≠ '?'))
        bodyStart := octets.length + blankLine.length
        bodyLength }
  | _ => .error .malformedLine

end Head

/-! ## Reading -/

/-- How far a request has come. -/
inductive Stage
  | inHead
  | inBody (head : Head)
  | done (result : Except RequestError Request)

/-- The octets read of a request, and how far they go. -/
structure RequestReader where
  octets : Bytes
  stage : Stage

namespace RequestReader

/-- Nothing read. -/
def start : RequestReader := ⟨[], .inHead⟩

/-- The body, once all of it is there. -/
def bodyStage (octets : Bytes) (head : Head) : Stage :=
  if octets.length < head.total then .inBody head
  else .done (.ok ⟨head.method, head.path, (octets.drop head.bodyStart).take head.bodyLength⟩)

/-- What follows from a head. A request that announces too much is refused before its body is read. -/
def afterHead (octets : Bytes) : Except RequestError Head → Stage
  | .error e => .done (.error e)
  | .ok head => if maxRequestBytes < head.total then .done (.error .tooLarge) else bodyStage octets head

/-- The head, once all of it is there. -/
def headStage (octets : Bytes) : Stage :=
  match head? octets with
  | some head => afterHead octets (Head.read head)
  | none => if maxRequestBytes < octets.length then .done (.error .tooLarge) else .inHead

/-- Takes in the octets of one read. A request that is done takes in no more. -/
def feed (r : RequestReader) (octets : Bytes) : RequestReader :=
  match r.stage with
  | .inHead => ⟨r.octets ++ octets, headStage (r.octets ++ octets)⟩
  | .inBody head => ⟨r.octets ++ octets, bodyStage (r.octets ++ octets) head⟩
  | .done _ => r

/-- What the octets read amount to when no more come. -/
def finish (r : RequestReader) : Except RequestError Request :=
  match r.stage with
  | .inHead => .error .endInHead
  | .inBody _ => .error .endInBody
  | .done result => result

end RequestReader

/-- Reads a request from the reads that bring its octets. -/
def Request.read (reads : List Bytes) : Except RequestError Request :=
  (reads.foldl RequestReader.feed RequestReader.start).finish

end FrameMerge.Control
