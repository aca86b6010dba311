import StickyScroll.Visit

/-!
# What a visitor is shown

A visitor is shown a list from its first element on, either all of it or up to the first element
after which it declines. `Showing` says so of what was written down during the visits; a visitor
that writes down what it sees sees the same as one that does not.
-/

namespace StickyScroll

variable {α σ τ : Type}

/-- What a visitor was shown of a list, with its answers: all of it, or all up to the first element
after which it declined. -/
inductive Showing (as : List α) : Bool → List (α × Bool) → Prop where
  | whole : Showing as true (as.map (·, true))
  | cut {before : List α} {a : α} {after : List α} (h : as = before ++ a :: after) :
      Showing as false (before.map (·, true) ++ [(a, false)])

namespace Showing

variable {as : List α} {completed : Bool} {shown : List (α × Bool)}

theorem cons (a : α) (h : Showing as completed shown) :
    Showing (a :: as) completed ((a, true) :: shown) := by
  cases h with
  | whole => exact .whole
  | cut h =>
    subst h
    exact cut (List.cons_append ..).symm

theorem map_fst_isPrefix (h : Showing as completed shown) : shown.map Prod.fst <+: as := by
  cases h with
  | whole => simp [Function.comp_def]
  | cut h => simp [h, Function.comp_def]

theorem map_fst_of_completed (h : Showing as true shown) : shown.map Prod.fst = as := by
  cases h
  simp [Function.comp_def]

theorem completed_eq_false_iff (h : Showing as completed shown) :
    completed = false ↔ ∃ a, (a, false) ∈ shown := by
  cases h with
  | whole => simp
  | cut h => simp

theorem eq_append_of_declined (h : Showing as completed shown) {a : α} (ha : (a, false) ∈ shown) :
    ∃ before : List α, shown = before.map (·, true) ++ [(a, false)] := by
  cases h with
  | whole => simp at ha
  | cut h =>
    rcases List.mem_append.1 ha with ha | ha
    · simp at ha
    · cases List.mem_singleton.1 ha
      exact ⟨_, rfl⟩

end Showing

-- a visitor that keeps a record of what it is shown and what it answers
theorem visitWhile_record (visit : α → σ → Bool × σ) (record : σ → List (α × Bool))
    (hrecord : ∀ a s, record (visit a s).2 = record s ++ [(a, (visit a s).1)]) (as : List α)
    (s : σ) :
    ∃ shown, record (visitWhile visit as s).2 = record s ++ shown ∧
      Showing as (visitWhile visit as s).1 shown := by
  induction as generalizing s with
  | nil => exact ⟨[], (List.append_nil _).symm, .whole⟩
  | cons a rest ih =>
    have ha := hrecord a s
    cases h : (visit a s).1 with
    | true =>
      obtain ⟨shown, heq, hshown⟩ := ih (visit a s).2
      rw [visitWhile_cons_of_true rest h]
      rw [ha, h, List.append_assoc] at heq
      exact ⟨_, heq, hshown.cons a⟩
    | false =>
      rw [visitWhile_cons_of_false rest h]
      rw [h] at ha
      exact ⟨_, ha, .cut (List.nil_append _).symm⟩

-- two visitors that answer alike, seen through a view of the state of one of them
theorem visitWhile_view (visit : α → σ → Bool × σ) (visit' : α → τ → Bool × τ) (view : σ → τ)
    (hvisit : ∀ a s, visit' a (view s) = ((visit a s).1, view (visit a s).2)) (as : List α)
    (s : σ) :
    visitWhile visit' as (view s) = ((visitWhile visit as s).1, view (visitWhile visit as s).2) := by
  induction as generalizing s with
  | nil => rfl
  | cons a rest ih =>
    have ha := hvisit a s
    cases h : (visit a s).1 with
    | true =>
      have h' : (visit' a (view s)).1 = true := by rw [ha, h]
      rw [visitWhile_cons_of_true rest h, visitWhile_cons_of_true rest h', ha, ih]
    | false =>
      have h' : (visit' a (view s)).1 = false := by rw [ha, h]
      rw [visitWhile_cons_of_false rest h, visitWhile_cons_of_false rest h', ha]

-- passing over the elements that fail a test is as good as not being shown them
theorem visitWhile_filter (p : α → Bool) (visit : α → σ → Bool × σ) (as : List α) (s : σ) :
    visitWhile visit (as.filter p) s =
      visitWhile (fun a s => if p a then visit a s else (true, s)) as s := by
  induction as generalizing s with
  | nil => rfl
  | cons a rest ih =>
    cases hp : p a with
    | true => simp only [List.filter_cons, hp, if_true, visitWhile, ih]
    | false => simp only [List.filter_cons, hp, Bool.false_eq_true, if_false, visitWhile, ih]

/-- A visitor that also writes down what it is shown and what it answers. -/
def recording (visit : α → σ → Bool × σ) (a : α) (s : List (α × Bool) × σ) :
    Bool × List (α × Bool) × σ :=
  ((visit a s.2).1, s.1 ++ [(a, (visit a s.2).1)], (visit a s.2).2)

theorem visitWhile_recording (visit : α → σ → Bool × σ) (as : List α) (s : σ) :
    ∃ completed shown t,
      visitWhile visit as s = (completed, t) ∧
      visitWhile (recording visit) as ([], s) = (completed, shown, t) ∧
      Showing as completed shown := by
  have hplain := visitWhile_view (recording visit) visit Prod.snd (fun _ _ => rfl) as ([], s)
  obtain ⟨shown, hrecorded, hshown⟩ := visitWhile_record (recording visit) Prod.fst
    (fun _ _ => rfl) as ([], s)
  rw [List.nil_append] at hrecorded
  exact ⟨_, shown, _, hplain, Prod.ext rfl (Prod.ext hrecorded rfl), hshown⟩

end StickyScroll
