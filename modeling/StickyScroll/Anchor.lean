import StickyScroll.Span

/-!
# Anchors

An anchor is a span with a name of its own, the handle, and a marker that says what the span is used
for. Anchors are listed by their spans, outer before inner; the handle decides between equal spans.
-/

namespace StickyScroll

/-- The name under which a store knows one of its anchors. -/
structure Handle where
  id : Nat
  deriving DecidableEq, Repr

-- a number sign and the number
def Handle.display (h : Handle) : String := s!"#{h.id}"

def Handle.le (a b : Handle) : Bool := decide (a.id ≤ b.id)

def Handle.sort (handles : List Handle) : List Handle := handles.mergeSort Handle.le

/-- What an anchor is used for; two markers of one name are the same. -/
structure Marker where
  name : String
  deriving DecidableEq, Repr

-- the marker of the anchors that stand for sticky lines
def Marker.sticky : Marker := ⟨"STICKY_LINE_MARKER"⟩

/-- A span held in place by a store. -/
structure Anchor where
  handle : Handle
  span : Span
  marker : Marker
  deriving DecidableEq, Repr

namespace Anchor

/-- `a` is listed strictly before `b`: by span, and by handle where the spans are equal. -/
def before (a b : Anchor) : Bool :=
  decide (a.span.start < b.span.start) ||
    (a.span.start == b.span.start &&
      (decide (b.span.stop < a.span.stop) ||
        (a.span.stop == b.span.stop && decide (a.handle.id < b.handle.id))))

-- `a` may be listed before `b`: `b` is not strictly before it
def le (a b : Anchor) : Bool := !b.before a

theorem before_iff {a b : Anchor} :
    a.before b = true ↔
      a.span.start < b.span.start ∨
        (a.span.start = b.span.start ∧
          (b.span.stop < a.span.stop ∨
            (a.span.stop = b.span.stop ∧ a.handle.id < b.handle.id))) := by
  simp [before]

theorem le_iff {a b : Anchor} :
    a.le b = true ↔
      a.span.start < b.span.start ∨
        (a.span.start = b.span.start ∧
          (b.span.stop < a.span.stop ∨
            (a.span.stop = b.span.stop ∧ a.handle.id ≤ b.handle.id))) := by
  rw [le, Bool.not_eq_true', ← Bool.not_eq_true, before_iff]
  omega

theorem le_total (a b : Anchor) : (a.le b || b.le a) = true := by
  rw [Bool.or_eq_true, le_iff, le_iff]
  omega

theorem le_trans (a b c : Anchor) (hab : a.le b = true) (hbc : b.le c = true) :
    a.le c = true := by
  rw [le_iff] at *
  omega

def moved (f : Span → Span) (a : Anchor) : Anchor := { a with span := f a.span }

end Anchor
end StickyScroll
