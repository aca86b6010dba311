import StickyScroll.Json.Token

/-!
# Reading JSON: numbers

A number is an optional minus sign, digits without a leading zero, and an optional fraction and
exponent. The numbers that a field may hold are the naturals below `2 ^ 64`, written as digits
alone; every other number is well formed but of no use. A number too great for a double is not
accepted even as a number: to tell which those are, its digits are read as a significand of 64 bits
and a power of ten.
-/

namespace StickyScroll.Json

def maxSignificand : Nat := 0xffffffffffffffff

def digitValue (c : Char) : Nat := c.toNat - 48

/-! ## Range of doubles -/

/-- The natural number of 53 significant bits that is nearest to `n`, of two equally near ones the
even one. -/
def nearest53 (n : Nat) : Nat :=
  let unit := Nat.pow 2 (n.log2 + 1 - 53)
  let low := n % unit
  let high := n / unit
  let up := decide (unit < 2 * low) || (decide (unit = 2 * low) && high % 2 == 1)
  (if up then high + 1 else high) * unit

/-- Whether a significand times a power of ten is too great for a double. Significand, power and
product are each rounded. -/
def exceedsDouble (significand : Nat) (exponent : Int) : Bool :=
  decide (significand ≠ 0) && decide (0 ≤ exponent) &&
    (decide (308 < exponent) ||
      decide (Nat.pow 2 1024 ≤
        nearest53 (nearest53 significand * nearest53 (Nat.pow 10 exponent.toNat))))

/-! ## Digits -/

/-- Appends digits to a significand as long as it stays within 64 bits; counts the digits left. -/
def gather : Nat → List Char → Nat × Nat
  | significand, [] => (significand, 0)
  | significand, d :: ds =>
      let next := significand * 10 + digitValue d
      if next ≤ maxSignificand then gather next ds else (significand, ds.length + 1)

/-- What a number is. -/
inductive Numeral where
  -- a natural number, written as digits, that fits in 64 bits
  | natural (n : Nat)
  -- any other number
  | other
  deriving DecidableEq, Repr

-- the number `significand * 10 ^ exponent`, if it is not too great
def finishNumeral (significand : Nat) (exponent : Int) (rest : List Char) : Reading Numeral :=
  if exceedsDouble significand exponent then .error .malformed else .ok (.other, rest)

-- reads an exponent, without its letter
def readExponent (significand : Nat) (exponent : Int) (cs : List Char) : Reading Numeral :=
  let (sign, cs) : Int × List Char :=
    match cs with
    | '+' :: cs => (1, cs)
    | '-' :: cs => (-1, cs)
    | cs => (1, cs)
  match cs with
  | [] => .error .unfinished
  | c :: _ =>
      if c.isDigit then
        let power := (cs.takeWhile Char.isDigit).foldl (fun n d => n * 10 + digitValue d) 0
        finishNumeral significand (exponent + sign * power) (cs.dropWhile Char.isDigit)
      else .error .malformed

-- reads an exponent, if there is one
def readScale (significand : Nat) (exponent : Int) (cs : List Char) : Reading Numeral :=
  match cs with
  | 'e' :: cs => readExponent significand exponent cs
  | 'E' :: cs => readExponent significand exponent cs
  | cs => finishNumeral significand exponent cs

-- reads a fraction, without its point, and an exponent if there is one
def readFraction (significand : Nat) (exponent : Int) (cs : List Char) : Reading Numeral :=
  match cs with
  | [] => .error .unfinished
  | c :: _ =>
      if c.isDigit then
        let digits := cs.takeWhile Char.isDigit
        let (gathered, left) := gather significand digits
        readScale gathered (exponent - (digits.length - left : Nat)) (cs.dropWhile Char.isDigit)
      else .error .malformed

def readNumeral (negative : Bool) (cs : List Char) : Reading Numeral :=
  let digits := cs.takeWhile Char.isDigit
  let rest := cs.dropWhile Char.isDigit
  match digits with
  | [] => if cs.isEmpty then .error .unfinished else .error .malformed
  | d :: more =>
      if d == '0' && !more.isEmpty then .error .malformed
      else
        let (significand, left) := gather 0 digits
        match rest with
        | '.' :: rest => readFraction significand left rest
        | 'e' :: rest => readExponent significand left rest
        | 'E' :: rest => readExponent significand left rest
        | rest =>
            if left = 0 then .ok (if negative then .other else .natural significand, rest)
            else finishNumeral significand left rest

end StickyScroll.Json
