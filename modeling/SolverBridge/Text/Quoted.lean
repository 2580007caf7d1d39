import SolverBridge.Text.Blank
import SolverBridge.Text.EscapeTable

/-! Text in double quotes, with escapes. The quote and the backslash are preceded by a
backslash; tabulator, carriage return, line feed and the null character have letters of
their own; other characters that would not be seen are shown by their code point in
hexadecimal digits. -/

namespace SolverBridge.Text

def hexDigits (n : Nat) : List Char := Nat.toDigits 16 n

def escapeChar (c : Char) : List Char :=
  match c with
  | '\t' => ['\\', 't']
  | '\r' => ['\\', 'r']
  | '\n' => ['\\', 'n']
  | '\x00' => ['\\', '0']
  | '"' => ['\\', '"']
  | '\\' => ['\\', '\\']
  | c =>
    if inRanges escapedRanges c then '\\' :: 'u' :: '\x7b' :: hexDigits c.toNat ++ ['\x7d']
    else [c]

def quoted (s : String) : String := String.ofList ('"' :: s.toList.flatMap escapeChar ++ ['"'])

end SolverBridge.Text
