import StickyScroll.Event

/-!
# Listeners

A list of registrations, called in order whenever something changed, with counts of what was sent. A
listener may be registered more than once and is then called once for each registration. What a
listener does when called is not known here; `begin` and `finish` bracket the calls.
-/

namespace StickyScroll

/-- Registrations in order, and what was sent so far. -/
structure Listeners (ι : Type) where
  registrations : List ι
  -- notifications begun
  sent : Nat
  -- calls made by the notifications that are finished
  calls : Nat

namespace Listeners

variable {ι : Type}

def empty : Listeners ι := ⟨[], 0, 0⟩

def add (l : Listeners ι) (listener : ι) : Listeners ι :=
  { l with registrations := l.registrations ++ [listener] }

/-- Takes back the first registration of a listener; says whether there was one. -/
def remove [DecidableEq ι] (l : Listeners ι) (listener : ι) : Bool × Listeners ι :=
  (l.registrations.contains listener, { l with registrations := l.registrations.erase listener })

def count (l : Listeners ι) : Nat := l.registrations.length

-- a notification counts as sent before the first call
def begin (l : Listeners ι) : Listeners ι := { l with sent := l.sent + 1 }

-- the calls count when the last one has returned
def finish (l : Listeners ι) (calls : Nat) : Listeners ι := { l with calls := l.calls + calls }

-- a notification whose calls change nothing here
def notify (l : Listeners ι) : Listeners ι := l.begin.finish l.count

end Listeners
end StickyScroll
