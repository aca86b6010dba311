import StickyScroll.Anchor

/-!
# Faults

Why an operation on a document, a registry or a manager is refused. Each fault carries what a reader
needs to see; its wording is fixed in `Fault.message`.
-/

namespace StickyScroll

/-- The cause of a refusal. -/
inductive Fault where
  -- the span starts too late for where it stops
  | invalidRange (start stop : Nat)
  -- the offset lies past the end of the text
  | outOfBounds (position length : Nat)
  -- the offset lies inside a character
  | notBoundary (position : Nat)
  -- there is no sticky line of this handle
  | lineNotFound (handle : Handle)
  -- a manager holds as many registries as it may
  | documentLimit (current limit : Nat)
  deriving DecidableEq, Repr

namespace Fault

def message : Fault → String
  | invalidRange start stop => s!"Invalid range: start {start} must be less than end {stop}"
  | outOfBounds position length =>
      s!"Position out of bounds: {position} (document length: {length})"
  | notBoundary position => s!"Position {position} is not on a character boundary"
  | lineNotFound handle => s!"Sticky line not found: {handle.display}"
  | documentLimit current limit => s!"Document limit exceeded: {current}/{limit} documents"

-- a caller may go on after any fault but a full manager
def isRecoverable : Fault → Bool
  | documentLimit .. => false
  | _ => true

-- the faults that blame an offset
def isPosition : Fault → Bool
  | invalidRange .. | outOfBounds .. | notBoundary .. => true
  | _ => false

end Fault

/-! ## Checked spans -/

/-- The span between two offsets, which is refused when the first is after the second. -/
def Span.make (start stop : Nat) : Except Fault Span :=
  if start ≤ stop then .ok ⟨start, stop⟩ else .error (.invalidRange start stop)

theorem Span.make_eq_ok_iff {start stop : Nat} {s : Span} :
    Span.make start stop = .ok s ↔ start ≤ stop ∧ s = ⟨start, stop⟩ := by
  unfold Span.make
  split
  next h => simp [h, eq_comm]
  next h => simp [h]

theorem Span.make_eq_error_iff {start stop : Nat} {fault : Fault} :
    Span.make start stop = .error fault ↔ stop < start ∧ fault = .invalidRange start stop := by
  unfold Span.make
  split
  next h => simp [Nat.not_lt.2 h]
  next h => simp [Nat.lt_of_not_le h, eq_comm]

end StickyScroll
