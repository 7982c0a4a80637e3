/-!
# Blanks, words and pieces

How text is cut up: at blanks (every character with the Unicode property White_Space), at a separator, or into
lines. All functions work on lists of characters, where what is left over is again a list.
-/

namespace FrameMerge.Text

/-- The Unicode property White_Space. -/
def isBlank (c : Char) : Bool :=
  let n := c.toNat
  (9 ≤ n && n ≤ 13) || n = 0x20 || n = 0x85 || n = 0xA0 || n = 0x1680 || (0x2000 ≤ n && n ≤ 0x200A)
    || n = 0x2028 || n = 0x2029 || n = 0x202F || n = 0x205F || n = 0x3000

/-- Drops blanks at both ends. -/
def trim (s : List Char) : List Char :=
  ((s.dropWhile isBlank).reverse.dropWhile isBlank).reverse

/-- The pieces between separators; one more than there are separators. -/
def pieces (separator : Char) : List Char → List (List Char)
  | [] => [[]]
  | c :: rest =>
    if c = separator then [] :: pieces separator rest
    else match pieces separator rest with
      | [] => [[c]]
      | piece :: others => (c :: piece) :: others

/-- What stands before and after the first occurrence of a separator. -/
def cut? (separator : List Char) : List Char → Option (List Char × List Char)
  | [] => if separator.isEmpty then some ([], []) else none
  | c :: rest =>
    if separator.isPrefixOf (c :: rest) then some ([], (c :: rest).drop separator.length)
    else (cut? separator rest).map fun (before, after) => (c :: before, after)

/-- What stands before and after the last occurrence of a character. -/
def cutLast? (separator : Char) (s : List Char) : Option (List Char × List Char) :=
  (cut? [separator] s.reverse).map fun (after, before) => (before.reverse, after.reverse)

/-- The words: maximal runs of characters that are no blanks. -/
def words (s : List Char) : List (List Char) :=
  let step (c : Char) (state : List Char × List (List Char)) : List Char × List (List Char) :=
    if isBlank c then ([], if state.1.isEmpty then state.2 else state.1 :: state.2)
    else (c :: state.1, state.2)
  let (current, finished) := s.foldr step ([], [])
  if current.isEmpty then finished else current :: finished

/-- A line without the carriage return that ends it. -/
def dropReturn (line : List Char) : List Char :=
  if line.getLast? = some '\r' then line.dropLast else line

/-- The lines. A line ends at a line feed, a carriage return before it belongs to the ending, and a last line without an
ending counts only if it is not empty. -/
def lines (s : List Char) : List (List Char) :=
  let raw := pieces '\n' s
  raw.dropLast.map dropReturn ++ match raw.getLast? with
    | none => []
    | some last => if last.isEmpty then [] else [last]

/-- Letters of the same name, capital or small, count as equal; only the letters of ASCII have a counterpart. -/
def sameLetters (a b : List Char) : Bool := a.map Char.toLower == b.map Char.toLower

end FrameMerge.Text
