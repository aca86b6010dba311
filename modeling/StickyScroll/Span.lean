/-!
# Spans of a text

A span is a pair of offsets, counted in bytes of UTF-8. Nothing is assumed of the pair: a span that
was read from outside may start after it stops. `Span.grow` and `Span.shrink` say how an edit of
the text moves the spans laid over it.
-/

namespace StickyScroll

/-- The text from `start` up to, and without, `stop`. -/
structure Span where
  start : Nat
  stop : Nat
  deriving DecidableEq, Repr

namespace Span

-- a span without text: both offsets are the same
def isEmpty (s : Span) : Bool := s.start == s.stop

-- number of bytes; a span that starts after it stops has none
def length (s : Span) : Nat := s.stop - s.start

-- `s.covers t`: both ends of `t` lie between the ends of `s`, ends included
def covers (s t : Span) : Bool := decide (s.start ≤ t.start) && decide (t.stop ≤ s.stop)

-- `s.meets t`: the spans share an offset, ends included
def meets (s t : Span) : Bool := decide (s.start ≤ t.stop) && decide (t.start ≤ s.stop)

def display (s : Span) : String := s!"[{s.start}, {s.stop})"

theorem isEmpty_iff {s : Span} : s.isEmpty = true ↔ s.start = s.stop := by
  simp [isEmpty]

theorem covers_iff {s t : Span} : s.covers t = true ↔ s.start ≤ t.start ∧ t.stop ≤ s.stop := by
  simp [covers]

/-! ## Order

A span comes before another when it starts earlier, or starts with it and stops later: of two nested
spans the outer one comes first. -/

-- the order in which spans are listed: start ascending, then stop descending
def compare (s t : Span) : Ordering :=
  (Ord.compare s.start t.start).then (Ord.compare t.stop s.stop)

/-! ## Edits of the text underneath -/

/-- A start moves with text inserted at it or before it, a stop only with text inserted before it.
The stop of an empty span at the place of insertion is carried along with its start. -/
def grow (s : Span) (offset size : Nat) : Span :=
  let start := if offset ≤ s.start then s.start + size else s.start
  let stop := if offset < s.stop then s.stop + size else s.stop
  ⟨start, max stop start⟩

/-- Where an offset comes to lie when the text of `cut` is taken out: an offset inside the cut moves
to its start. -/
def pull (cut : Span) (offset : Nat) : Nat :=
  if offset ≤ cut.start then offset
  else if cut.stop ≤ offset then offset - cut.length
  else cut.start

def shrink (s cut : Span) : Span := ⟨pull cut s.start, pull cut s.stop⟩

theorem start_le_stop_grow (s : Span) (offset size : Nat) :
    (s.grow offset size).start ≤ (s.grow offset size).stop :=
  Nat.le_max_right _ _

theorem pull_le_pull {cut : Span} (hcut : cut.start ≤ cut.stop) {m n : Nat} (hmn : m ≤ n) :
    pull cut m ≤ pull cut n := by
  unfold pull length
  split <;> split
  all_goals try split
  all_goals try split
  all_goals omega

theorem start_le_stop_shrink {s cut : Span} (hcut : cut.start ≤ cut.stop)
    (hs : s.start ≤ s.stop) : (s.shrink cut).start ≤ (s.shrink cut).stop :=
  pull_le_pull hcut hs

end Span
end StickyScroll
