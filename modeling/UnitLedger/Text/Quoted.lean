import UnitLedger.Text.Extender
import UnitLedger.Text.Hidden

/-!
  UnitLedger.Text.Quoted — a text in quotes, with every character visible.

  Quotes and backslashes are escaped by a backslash; NUL, tab, line feed and carriage return have
  letters of their own; other hidden characters, and characters that would join their neighbour,
  are written as their code point in hexadecimal between `\\u{` and `}`. All else stands as it is.
-/

namespace UnitLedger.Text

/-- A code point as `\\u{…}`: lower-case hexadecimal digits without leading zeros. -/
def codePoint (c : Char) : List Char :=
  ['\\', 'u', '\x7b'] ++ Nat.toDigits 16 c.toNat ++ ['\x7d']

def quoteChar (c : Char) : List Char :=
  match c with
  | '\x00' => ['\\', '0']
  | '\t' => ['\\', 't']
  | '\n' => ['\\', 'n']
  | '\r' => ['\\', 'r']
  | '"' => ['\\', '"']
  | '\\' => ['\\', '\\']
  | c => if isExtender c || isHidden c then codePoint c else [c]

def quote (s : String) : String :=
  String.ofList ('"' :: s.toList.flatMap quoteChar ++ ['"'])

end UnitLedger.Text
