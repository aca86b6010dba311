/-!
# Writing JSON

Values are written without blanks. A string escapes a quote, a backslash and the control characters,
which have a letter or, failing that, four hexadecimal digits; every other character stands for
itself.
-/

namespace StickyScroll.Json

-- the last two of the four hexadecimal digits of a control character
def controlDigits (c : Char) : List Char :=
  [Nat.digitChar (c.toNat / 16), Nat.digitChar (c.toNat % 16)]

def writeChar (c : Char) : List Char :=
  if c == '"' then ['\\', '"']
  else if c == '\\' then ['\\', '\\']
  else if c == '\x08' then ['\\', 'b']
  else if c == '\x0c' then ['\\', 'f']
  else if c == '\n' then ['\\', 'n']
  else if c == '\r' then ['\\', 'r']
  else if c == '\t' then ['\\', 't']
  else if c < ' ' then ['\\', 'u', '0', '0'] ++ controlDigits c
  else [c]

def writeString (s : String) : List Char := '"' :: (s.toList.flatMap writeChar ++ ['"'])

def writeNatural (n : Nat) : List Char := Nat.toDigits 10 n

def writeOptionalString : Option String → List Char
  | none => "null".toList
  | some s => writeString s

def writeMembers : List (String × List Char) → List Char
  | [] => []
  | [(name, value)] => writeString name ++ ':' :: value
  | (name, value) :: rest => writeString name ++ ':' :: value ++ ',' :: writeMembers rest

def writeObject (members : List (String × List Char)) : List Char :=
  '\x7b' :: (writeMembers members ++ ['\x7d'])

end StickyScroll.Json
