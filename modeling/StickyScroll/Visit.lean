/-!
# Visits

Showing the elements of a list to a visitor, one after the other, until the visitor declines to see
more. The visitor may change a state that it hands from one element to the next; it cannot change
the list.
-/

namespace StickyScroll

/-- Shows elements until the visitor answers `false`. The answer says whether all were shown and
welcome, and the state is the one that the visitor left. -/
def visitWhile (visit : α → σ → Bool × σ) : List α → σ → Bool × σ
  | [], s => (true, s)
  | a :: rest, s =>
      match visit a s with
      | (true, s') => visitWhile visit rest s'
      | (false, s') => (false, s')

theorem visitWhile_cons_of_true {visit : α → σ → Bool × σ} {a : α} {s : σ} (rest : List α)
    (h : (visit a s).1 = true) :
    visitWhile visit (a :: rest) s = visitWhile visit rest (visit a s).2 := by
  rw [visitWhile]
  split
  next h' => rw [h']
  next h' => simp [h'] at h

theorem visitWhile_cons_of_false {visit : α → σ → Bool × σ} {a : α} {s : σ} (rest : List α)
    (h : (visit a s).1 = false) :
    visitWhile visit (a :: rest) s = (false, (visit a s).2) := by
  rw [visitWhile]
  split
  next h' => simp [h'] at h
  next h' => rw [h']

-- what every single visit keeps, a walk keeps
theorem visitWhile_invariant {visit : α → σ → Bool × σ} {p : σ → Prop} (as : List α)
    (hvisit : ∀ a ∈ as, ∀ s, p s → p (visit a s).2) {s : σ} (hs : p s) :
    p (visitWhile visit as s).2 := by
  induction as generalizing s with
  | nil => exact hs
  | cons a rest ih =>
    have ha := hvisit a List.mem_cons_self s hs
    cases h : (visit a s).1 with
    | true =>
      rw [visitWhile_cons_of_true rest h]
      exact ih (fun b hb => hvisit b (List.mem_cons_of_mem a hb)) ha
    | false =>
      rw [visitWhile_cons_of_false rest h]
      exact ha

/-- Whether a visitor that has seen `seen` elements wants more, given when it means to stop. -/
def wantsMore (stopAfter : Option Nat) (seen : Nat) : Bool :=
  match stopAfter with
  | none => true
  | some n => decide (seen < n)

end StickyScroll
