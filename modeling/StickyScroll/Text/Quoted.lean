import StickyScroll.Text.Escaped

/-!
# Quoted text for developers

A text between double quotes in which every character can be seen: quotes and backslashes are
escaped, line ends, tabs and NUL have short escapes, and any other character that cannot be seen is
written by its code point.
-/

namespace StickyScroll.Text

-- hexadecimal digits of a number, lower case, without leading zeros
def hexDigits (n : Nat) : List Char := Nat.toDigits 16 n

def quotedChar (c : Char) : List Char :=
  if c == '"' then ['\\', '"']
  else if c == '\\' then ['\\', '\\']
  else if c == '\n' then ['\\', 'n']
  else if c == '\r' then ['\\', 'r']
  else if c == '\t' then ['\\', 't']
  else if c == '\x00' then ['\\', '0']
  else if isEscaped c then ['\\', 'u', '\x7b'] ++ hexDigits c.toNat ++ ['\x7d']
  else [c]

def quoted (s : String) : String :=
  String.ofList ('"' :: s.toList.flatMap quotedChar ++ ['"'])

end StickyScroll.Text
