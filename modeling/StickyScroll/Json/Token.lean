import StickyScroll.Text.Offset

/-!
# Reading JSON: words, strings and blanks

A reader takes a value off the front of a text and hands back the rest, or says what is wrong with
the text. The first fault met counts, reading from left to right. There are three kinds: the text
is not JSON, it is JSON of another shape than asked for, or it stops too early.
-/

namespace StickyScroll.Json

/-- What is wrong with a text. -/
inductive Defect where
  -- the text is not JSON
  | malformed
  -- the text is JSON of another shape
  | mismatched
  -- the text stops too early
  | unfinished
  deriving DecidableEq, Repr

-- what a reader gives: a value and the rest of the text, or a defect
abbrev Reading (α : Type) := Except Defect (α × List Char)

def isBlank (c : Char) : Bool := c == ' ' || c == '\n' || c == '\t' || c == '\r'

def skipBlanks (cs : List Char) : List Char := cs.dropWhile isBlank

def readWord : List Char → List Char → Except Defect (List Char)
  | [], cs => .ok cs
  | _ :: _, [] => .error .unfinished
  | w :: word, c :: cs => if w == c then readWord word cs else .error .malformed

/-! ## Strings

A string stands between double quotes. Control characters must be escaped; an escape is a backslash
and a letter, or a backslash, `u` and four hexadecimal digits for a unit of UTF-16. Two such units
that make a pair stand for one character, and a unit of a pair never stands alone. -/

def hexValue? (c : Char) : Option Nat :=
  if '0' ≤ c ∧ c ≤ '9' then some (c.toNat - 48)
  else if 'a' ≤ c ∧ c ≤ 'f' then some (c.toNat - 87)
  else if 'A' ≤ c ∧ c ≤ 'F' then some (c.toNat - 55)
  else none

/-- Reads four hexadecimal digits. They are looked at all together: the text stops too early when it
has fewer than four bytes left, whatever they are. -/
def readUnit (cs : List Char) : Except Defect Nat :=
  if Text.size (cs.take 4) < 4 then .error .unfinished
  else
    match (cs.take 4).mapM hexValue? with
    | some [a, b, c, d] => .ok (((a * 16 + b) * 16 + c) * 16 + d)
    | _ => .error .malformed

-- the first unit of a pair
def isLeading (unit : Nat) : Bool := decide (0xd800 ≤ unit) && decide (unit ≤ 0xdbff)

-- the second unit of a pair
def isTrailing (unit : Nat) : Bool := decide (0xdc00 ≤ unit) && decide (unit ≤ 0xdfff)

-- the character that a pair of units stands for
def pairChar (leading trailing : Nat) : Char :=
  Char.ofNat (0x10000 + (leading - 0xd800) * 0x400 + (trailing - 0xdc00))

def escapedChar? (c : Char) : Option Char :=
  match c with
  | '"' => some '"'
  | '\\' => some '\\'
  | '/' => some '/'
  | 'b' => some '\x08'
  | 'f' => some '\x0c'
  | 'n' => some '\n'
  | 'r' => some '\r'
  | 't' => some '\t'
  | _ => none

-- reads the second unit of a pair, with its backslash and `u`
def readTrailing : List Char → Except Defect Nat
  | [] => .error .unfinished
  | '\\' :: [] => .error .unfinished
  | '\\' :: 'u' :: cs =>
      match readUnit cs with
      | .error defect => .error defect
      | .ok unit => if isTrailing unit then .ok unit else .error .malformed
  | _ => .error .malformed

/-- Reads what follows a backslash: the character meant, and how many characters were read. -/
def readEscape : List Char → Except Defect (Char × Nat)
  | [] => .error .unfinished
  | 'u' :: cs =>
      match readUnit cs with
      | .error defect => .error defect
      | .ok unit =>
          if isTrailing unit then .error .malformed
          else if isLeading unit then
            match readTrailing (cs.drop 4) with
            | .error defect => .error defect
            | .ok second => .ok (pairChar unit second, 11)
          else .ok (Char.ofNat unit, 5)
  | c :: _ =>
      match escapedChar? c with
      | some meant => .ok (meant, 1)
      | none => .error .malformed

-- reads the characters of a string, up to and with the closing quote
def readChars : List Char → Reading (List Char)
  | [] => .error .unfinished
  | c :: cs =>
      if c == '"' then .ok ([], cs)
      else if c == '\\' then
        match readEscape cs with
        | .error defect => .error defect
        | .ok (meant, count) =>
            match readChars (cs.drop count) with
            | .error defect => .error defect
            | .ok (more, rest) => .ok (meant :: more, rest)
      else if c < ' ' then .error .malformed
      else
        match readChars cs with
        | .error defect => .error defect
        | .ok (more, rest) => .ok (c :: more, rest)
termination_by cs => cs.length
decreasing_by
  · simp only [List.length_drop, List.length_cons]; omega
  · simp only [List.length_cons]; omega

end StickyScroll.Json
