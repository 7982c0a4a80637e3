import FrameMerge.Text.Utf8

/-!
# Messages on the wire

A message is a sequence of parts: their number as four octets, and before each part its length as four octets, the
most significant octet first. Numbers of parts and lengths are bounded, so a stream that is no sequence of messages
is found out early.
-/

namespace FrameMerge.Wire

/-- The most parts of a message. -/
def maxParts : Nat := 16

/-- The most octets of a part: sixty-four mebibytes. -/
def maxPartBytes : Nat := 64 * 1024 * 1024

/-- Why parts are no message, or octets no stream of messages. -/
inductive Error
  | partsToSend (count : Nat)
  | partTooLong (length : Nat)
  | partCount (count : Nat)
  | partLength (length : Nat)
  deriving DecidableEq

def Error.message : Error → String
  | .partsToSend count =>
    "message must have between 1 and " ++ toString maxParts ++ " parts (got " ++ toString count ++ ")"
  | .partTooLong length =>
    "message part of " ++ toString length ++ " bytes exceeds limit of " ++ toString maxPartBytes
  | .partCount count => "invalid part count " ++ toString count
  | .partLength length => "part length " ++ toString length ++ " exceeds limit"

/-- A number below 2^32 as four octets. -/
def word (n : Nat) : Bytes :=
  [(n >>> 24).toUInt8, (n >>> 16).toUInt8, (n >>> 8).toUInt8, n.toUInt8]

/-- Takes four octets off as a number. -/
def takeWord? : Bytes → Option (Nat × Bytes)
  | a :: b :: c :: d :: rest => some (((a.toNat * 256 + b.toNat) * 256 + c.toNat) * 256 + d.toNat, rest)
  | _ => none

/-- The octets of some parts. -/
def encodeParts : List Bytes → Except Error Bytes
  | [] => .ok []
  | part :: rest =>
    if maxPartBytes < part.length then .error (.partTooLong part.length)
    else (encodeParts rest).map fun encoded => word part.length ++ (part ++ encoded)

/-- The octets of a message. -/
def encode (parts : List Bytes) : Except Error Bytes :=
  if parts.length = 0 || maxParts < parts.length then .error (.partsToSend parts.length)
  else (encodeParts parts).map (word parts.length ++ ·)

/-- Takes a number of parts off; none if octets are missing. -/
def takeParts? : Nat → Bytes → Except Error (Option (List Bytes × Bytes))
  | 0, s => .ok (some ([], s))
  | count + 1, s =>
    match takeWord? s with
    | none => .ok none
    | some (length, rest) =>
      if maxPartBytes < length then .error (.partLength length)
      else if rest.length < length then .ok none
      else (takeParts? count (rest.drop length)).map fun taken =>
        taken.map fun (parts, after) => (rest.take length :: parts, after)

/-- Takes a message off; none if octets are missing. -/
def takeMessage? (s : Bytes) : Except Error (Option (List Bytes × Bytes)) :=
  match takeWord? s with
  | none => .ok none
  | some (count, rest) =>
    if count = 0 || maxParts < count then .error (.partCount count) else takeParts? count rest

/-- The octets of a stream that are not yet messages. -/
structure Decoder where
  buffer : Bytes
  deriving DecidableEq

namespace Decoder

/-- A decoder at the start of a stream. -/
def fresh : Decoder := ⟨[]⟩

/-- Adds octets of the stream. -/
def feed (d : Decoder) (octets : Bytes) : Decoder := ⟨d.buffer ++ octets⟩

/-- Octets waiting. -/
def buffered (d : Decoder) : Nat := d.buffer.length

/-- Takes the next message, if it is complete. Octets leave the buffer only with a complete message. -/
def next (d : Decoder) : Except Error (Option (List Bytes)) × Decoder :=
  match takeMessage? d.buffer with
  | .error e => (.error e, d)
  | .ok none => (.ok none, d)
  | .ok (some (parts, rest)) => (.ok (some parts), ⟨rest⟩)

/-- Takes messages until none is complete; says whether that is because of a fault. A message takes more than one
octet, so the buffered octets bound their number. -/
def drain (d : Decoder) : Nat → List (List Bytes) × Option Error × Decoder
  | 0 => ([], none, d)
  | fuel + 1 =>
    match d.next with
    | (.error e, d) => ([], some e, d)
    | (.ok none, d) => ([], none, d)
    | (.ok (some parts), d) =>
      let (more, fault, d) := d.drain fuel
      (parts :: more, fault, d)

/-- All complete messages, the fault that ends them if there is one, and what waits. -/
def takeAll (d : Decoder) : List (List Bytes) × Option Error × Decoder := d.drain (d.buffered + 1)

end Decoder

end FrameMerge.Wire
