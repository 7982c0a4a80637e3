import FrameMerge.Text.Unseen

/-!
# Text inside messages

A text that a message shows in double quotes, so that a reader can tell where it starts and ends and what stands in it:
quotes, backslashes and characters that leave no mark are escaped.
-/

namespace FrameMerge.Text

/-- A character by its code point. -/
def codePointEscape (c : Char) : List Char :=
  ['\\', 'u', '\x7b'] ++ Nat.toDigits 16 c.toNat ++ ['\x7d']

/-- A character inside a quoted text. -/
def showChar (c : Char) : List Char :=
  match c with
  | '\x00' => ['\\', '0']
  | '\t' => ['\\', 't']
  | '\r' => ['\\', 'r']
  | '\n' => ['\\', 'n']
  | '"' => ['\\', '"']
  | '\\' => ['\\', '\\']
  | c => if isUnseen c then codePointEscape c else [c]

/-- A text in double quotes. -/
def quoted (s : String) : String := String.ofList ('"' :: s.toList.flatMap showChar ++ ['"'])

end FrameMerge.Text
