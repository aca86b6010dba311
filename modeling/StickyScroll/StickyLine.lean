import StickyScroll.RangeStore

/-!
# Sticky lines

A sticky line is a snapshot of one anchor: where its span was, the line the span starts on, which is
the line to pin, and the line it stops on, which ends the scope that the pinned line introduces. A
snapshot does not follow later edits. Two sticky lines are the same when their spans are, whatever
their documents, handles and labels.
-/

namespace StickyScroll

/-- A snapshot of an anchored scope. -/
structure StickyLine where
  documentId : String
  handle : Handle
  span : Span
  -- the line that the span starts on
  primaryLine : Nat
  -- the line that the span stops on
  scopeLine : Nat
  -- the text that developers know the line by
  label : Option String
  deriving DecidableEq, Repr

namespace StickyLine

def ofAnchor {σ : Type} [RangeStore σ] (store : σ) (anchor : Anchor) (label : Option String) :
    StickyLine where
  documentId := RangeStore.documentId store
  handle := anchor.handle
  span := anchor.span
  primaryLine := RangeStore.lineOf store anchor.span.start
  scopeLine := RangeStore.lineOf store anchor.span.stop
  label := label

-- the label of a sticky anchor that nobody has a record of
def zombieLabel : String := "StickyZombie"

-- the snapshot of a sticky anchor that nobody has a record of
def zombie {σ : Type} [RangeStore σ] (store : σ) (anchor : Anchor) : StickyLine :=
  ofAnchor store anchor (some zombieLabel)

-- where a reader is taken who follows the line
def target (line : StickyLine) : Nat := line.span.start

def display (line : StickyLine) : String :=
  line.label.getD "" ++ s!"({line.primaryLine}, {line.scopeLine})"

/-! ## Order and sameness -/

-- the lines have the same span
def same (a b : StickyLine) : Bool := a.span == b.span

/-- Lines are ordered by their spans: outer scopes come before the scopes inside them. -/
def compare (a b : StickyLine) : Ordering := a.span.compare b.span

def lt (a b : StickyLine) : Bool := a.compare b == .lt

def le (a b : StickyLine) : Bool := a.compare b != .gt

theorem le_iff {a b : StickyLine} :
    a.le b = true ↔
      a.span.start < b.span.start ∨ (a.span.start = b.span.start ∧ b.span.stop ≤ a.span.stop) := by
  unfold le compare Span.compare
  rcases Nat.lt_trichotomy a.span.start b.span.start with h | h | h
  · simp [Nat.compare_eq_lt.2 h, h]
  · rcases Nat.lt_trichotomy b.span.stop a.span.stop with h' | h' | h'
    · simp [h, Nat.compare_eq_lt.2 h', Nat.le_of_lt h']
    · simp [h, h']
    · simp [h, Nat.compare_eq_gt.2 h', h']
  · simp [Nat.compare_eq_gt.2 h]
    omega

theorem lt_iff {a b : StickyLine} :
    a.lt b = true ↔
      a.span.start < b.span.start ∨ (a.span.start = b.span.start ∧ b.span.stop < a.span.stop) := by
  unfold lt compare Span.compare
  rcases Nat.lt_trichotomy a.span.start b.span.start with h | h | h
  · simp [Nat.compare_eq_lt.2 h, h]
  · rcases Nat.lt_trichotomy b.span.stop a.span.stop with h' | h' | h'
    · simp [h, Nat.compare_eq_lt.2 h', h']
    · simp [h, h']
    · simp [h, Nat.compare_eq_gt.2 h', Nat.le_of_lt h']
  · simp [Nat.compare_eq_gt.2 h]
    omega

theorem le_total (a b : StickyLine) : (a.le b || b.le a) = true := by
  rw [Bool.or_eq_true, le_iff, le_iff]
  omega

theorem le_trans (a b c : StickyLine) (hab : a.le b = true) (hbc : b.le c = true) :
    a.le c = true := by
  rw [le_iff] at *
  omega

-- the lines in order; lines with the same span keep the order they came in
def sort (lines : List StickyLine) : List StickyLine := lines.mergeSort le

-- the lines without those whose span an earlier line has
def distinct : List StickyLine → List StickyLine
  | [] => []
  | line :: rest => line :: (distinct rest).filter fun other => !other.same line

end StickyLine
end StickyScroll
