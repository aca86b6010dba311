import StickyScroll.Text.Offset

/-!
# Line numbers

A line ends after a line feed, a vertical tab, a form feed, a carriage return, NEL, a line separator
or a paragraph separator. A carriage return and a line feed side by side are one break, which is
complete only after the line feed. Lines are counted from zero: the line of an offset is the number
of breaks that end at or before it.
-/

namespace StickyScroll.Text

-- the characters that end a line by themselves
def isLineBreak (c : Char) : Bool :=
  c == '\n' || c == '\x0b' || c == '\x0c' || c == '\r' ||
    c == '\u0085' || c == '\u2028' || c == '\u2029'

/-- The line on which an offset lies. An offset inside a character, or between the two halves of a
break, lies on the line of what comes before; one past the end lies on the last line. -/
def lineAt : List Char → Nat → Nat
  | [], _ => 0
  | '\r' :: '\n' :: cs, n => if n < 2 then 0 else lineAt cs (n - 2) + 1
  | c :: cs, n =>
      if n < c.utf8Size then 0
      else lineAt cs (n - c.utf8Size) + (if isLineBreak c then 1 else 0)

@[simp] theorem lineAt_zero (cs : List Char) : lineAt cs 0 = 0 := by
  unfold lineAt
  split
  next => rfl
  next => rfl
  next c _ _ => exact if_pos c.utf8Size_pos

end StickyScroll.Text
