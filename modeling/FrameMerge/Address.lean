import FrameMerge.Endpoint

/-!
# Internet addresses

Addresses written in digits: four decimal numbers, or eight groups of hexadecimal digits of which one run of zeros
may be left out. Reading gives the address and what follows it; printing gives the one compressed form of every
address.
-/

namespace FrameMerge

inductive IpAddress
  | v4 (octets : List Nat)
  | v6 (groups : List Nat)
  deriving DecidableEq

/-- An internet address with a port; the scope tells apart the links of an address that exists on several. -/
structure SocketAddress where
  ip : IpAddress
  scope : Nat
  port : Nat
  deriving DecidableEq

namespace IpAddress

/-! ## Reading -/

/-- The value of a digit in any base up to sixteen. -/
def digitValue (c : Char) : Nat :=
  if c.isDigit then c.toNat - '0'.toNat else c.toLower.toNat - 'a'.toNat + 10

def isHexDigit (c : Char) : Bool :=
  c.isDigit || ('a' ≤ c && c ≤ 'f') || ('A' ≤ c && c ≤ 'F')

/-- Reads all digits that stand here as one number below a bound; at most `width` digits if there is a width. -/
def readNumber? (isDigit : Char → Bool) (base : Nat) (width : Option Nat) (bound : Nat) (leadingZero : Bool)
    (s : List Char) : Option (Nat × List Char) :=
  let digits := s.takeWhile isDigit
  let value := digits.foldl (fun value c => min (value * base + digitValue c) bound) 0
  if digits.isEmpty || width.any (· < digits.length) then none
  else if !leadingZero && 1 < digits.length && digits.head? = some '0' then none
  else if value < bound then some (value, s.dropWhile isDigit)
  else none

/-- Reads a given character. -/
def readChar? (c : Char) : List Char → Option (List Char)
  | [] => none
  | d :: rest => if d = c then some rest else none

/-- Reads one of the four numbers: up to three digits and no leading zero. -/
def readOctet? (s : List Char) : Option (Nat × List Char) := readNumber? Char.isDigit 10 (some 3) 256 false s

/-- Reads four decimal numbers with points between them. -/
def readV4? (s : List Char) : Option (List Nat × List Char) := do
  let (a, s) ← readOctet? s
  let (b, s) ← readOctet? (← readChar? '.' s)
  let (c, s) ← readOctet? (← readChar? '.' s)
  let (d, s) ← readOctet? (← readChar? '.' s)
  return ([a, b, c, d], s)

/-- Reads one group: up to four hexadecimal digits. -/
def readGroup? (s : List Char) : Option (Nat × List Char) := readNumber? isHexDigit 16 (some 4) Text.bound16 true s

/-- Reads at most `limit` groups with colons between them. Where two more groups have room, four decimal numbers may
stand for them; they end the groups, and the flag says so. -/
def readGroups : Nat → Bool → List Char → List Nat × Bool × List Char
  | 0, _, s => ([], false, s)
  | limit + 1, first, s =>
    match if first then some s else readChar? ':' s with
    | none => ([], false, s)
    | some inner =>
      match if 0 < limit then readV4? inner else none with
      | some ([a, b, c, d], rest) => ([a * 256 + b, c * 256 + d], true, rest)
      | _ =>
        match readGroup? inner with
        | none => ([], false, s)
        | some (group, rest) =>
          let (groups, decimal, rest) := readGroups limit false rest
          (group :: groups, decimal, rest)

/-- Reads eight groups, or fewer around a double colon that stands for at least one group of zero. -/
def readV6? (s : List Char) : Option (List Nat × List Char) :=
  let (head, decimal, rest) := readGroups 8 true s
  if head.length = 8 then some (head, rest)
  else if decimal then none
  else do
    let rest ← readChar? ':' rest
    let rest ← readChar? ':' rest
    let (tail, _, rest) := readGroups (7 - head.length) true rest
    return (head ++ List.replicate (8 - head.length - tail.length) 0 ++ tail, rest)

/-- Reads an address up to the end of the text. -/
def read? (s : List Char) : Option IpAddress :=
  match readV4? s with
  | some (octets, []) => some (.v4 octets)
  | _ =>
    match readV6? s with
    | some (groups, []) => some (.v6 groups)
    | _ => none

/-! ## Printing -/

/-- Texts with a separator between them. -/
def joined (separator : String) (texts : List String) : String := String.intercalate separator texts

/-- Four decimal numbers. -/
def v4Text (octets : List Nat) : String := joined "." (octets.map toString)

/-- A group without leading zeros. -/
def groupText (group : Nat) : String := String.ofList (Nat.toDigits 16 group)

/-- Where the first of the longest runs of zero groups starts, and its length. -/
def longestZeros (groups : List Nat) : Nat × Nat :=
  let step (state : (Nat × Nat) × (Nat × Nat)) (entry : Nat × Nat) : (Nat × Nat) × (Nat × Nat) :=
    let (longest, current) := state
    let (group, index) := entry
    if group = 0 then
      let current := if current.2 = 0 then (index, 1) else (current.1, current.2 + 1)
      (if longest.2 < current.2 then current else longest, current)
    else (longest, (0, 0))
  (groups.zipIdx.foldl step ((0, 0), (0, 0))).1

/-- Eight groups, the first of the longest runs of at least two zero groups left out. An address that stands for one
of four octets shows it in decimal. -/
def v6Text (groups : List Nat) : String :=
  match groups with
  | [0, 0, 0, 0, 0, 0xFFFF, high, low] => "::ffff:" ++ v4Text [high / 256, high % 256, low / 256, low % 256]
  | _ =>
    let (start, length) := longestZeros groups
    let shown (part : List Nat) : String := joined ":" (part.map groupText)
    if 1 < length then shown (groups.take start) ++ "::" ++ shown (groups.drop (start + length)) else shown groups

/-- Addresses that never leave the machine. -/
def isLoopback : IpAddress → Bool
  | v4 octets => octets.head? = some 127
  | v6 groups => groups = [0, 0, 0, 0, 0, 0, 0, 1]

end IpAddress

namespace SocketAddress

open IpAddress

/-- Reads a colon and a port up to the end of the text. -/
def readPort? (s : List Char) : Option Nat := do
  let (port, rest) ← readNumber? Char.isDigit 10 none Text.bound16 true (← readChar? ':' s)
  if rest.isEmpty then some port else none

/-- Reads an optional scope number behind a percent sign. What is no scope is left to what follows. -/
def readScope (s : List Char) : Nat × List Char :=
  match (readChar? '%' s).bind (readNumber? Char.isDigit 10 none Text.bound32 true) with
  | some (scope, rest) => (scope, rest)
  | none => (0, s)

/-- Reads an address with a port: four decimal numbers as they are, groups in brackets. -/
def read? (s : List Char) : Option SocketAddress :=
  match s with
  | '[' :: inner => do
    let (groups, rest) ← readV6? inner
    let (scope, rest) := readScope rest
    let port ← readPort? (← readChar? ']' rest)
    return ⟨.v6 groups, scope, port⟩
  | _ => do
    let (octets, rest) ← readV4? s
    let port ← readPort? rest
    return ⟨.v4 octets, 0, port⟩

/-- The text of an address with a port. -/
def text (a : SocketAddress) : String :=
  match a.ip with
  | .v4 octets => v4Text octets ++ ":" ++ toString a.port
  | .v6 groups =>
    let scope := if a.scope = 0 then "" else "%" ++ toString a.scope
    "[" ++ v6Text groups ++ scope ++ "]:" ++ toString a.port

end SocketAddress

/-- What is said of a text that is no address with a port. -/
def invalidSocketAddress : String := "invalid socket address syntax"

namespace Endpoint

/-- The address of an endpoint whose host is written in digits. -/
def literal? (e : Endpoint) : Option SocketAddress :=
  (IpAddress.read? e.host.toList).map fun ip => ⟨ip, 0, e.port.toNat⟩

/-- An endpoint on this machine, by name or by address. -/
def isLoopback (e : Endpoint) : Bool :=
  e.host = "localhost" || (IpAddress.read? e.host.toList).any IpAddress.isLoopback

end Endpoint

end FrameMerge
