/-!
# Bisection

Finding where a list stops satisfying a test by looking at its middle. The answer is right for a
list that the test splits in two, first the elements that pass and then those that fail
(`bisect_append`), as it does when the list is sorted and the test asks for an upper bound.
-/

namespace StickyScroll

-- the number of elements that pass `p`, when those that pass come first
def bisect (p : α → Bool) (xs : List α) : Nat :=
  match _h : xs.drop (xs.length / 2) with
  | [] => 0
  | x :: above =>
      if p x then xs.length / 2 + 1 + bisect p above else bisect p (xs.take (xs.length / 2))
termination_by xs.length
decreasing_by
  · have := congrArg List.length _h
    simp only [List.length_drop, List.length_cons] at this
    omega
  · have := congrArg List.length _h
    simp only [List.length_drop, List.length_cons] at this
    simp only [List.length_take]
    omega

-- bisection finds the seam between elements that pass and elements that fail
theorem bisect_append {p : α → Bool} {xs ys : List α}
    (hxs : ∀ x ∈ xs, p x = true) (hys : ∀ y ∈ ys, p y = false) :
    bisect p (xs ++ ys) = xs.length := by
  induction hn : (xs ++ ys).length using Nat.strongRecOn generalizing xs ys with
  | _ n ih =>
    unfold bisect
    have hlen : xs.length + ys.length = n := by simpa using hn
    split
    next h =>
      have := congrArg List.length h
      simp only [List.length_drop, List.length_nil, List.length_append] at this
      omega
    next x above h =>
      have habove := congrArg List.length h
      simp only [List.length_drop, List.length_cons, List.length_append] at habove
      rw [List.drop_append] at h
      split
      next hx =>
        -- the middle passes, so it lies in `xs` and the seam is above it
        have hlt : (xs ++ ys).length / 2 < xs.length := by
          refine Nat.lt_of_not_le fun hle => ?_
          rw [List.drop_eq_nil_of_le hle, List.nil_append] at h
          have : x ∈ ys := List.mem_of_mem_drop (h ▸ List.mem_cons_self)
          simp [hys x this] at hx
        have hdrop : xs.drop ((xs ++ ys).length / 2) =
            x :: xs.drop ((xs ++ ys).length / 2 + 1) := by
          rw [List.drop_eq_getElem_cons hlt] at h ⊢
          simp only [List.cons_append, List.cons.injEq] at h
          rw [h.1]
        have hsplit : above = xs.drop ((xs ++ ys).length / 2 + 1) ++ ys := by
          rw [hdrop, show (xs ++ ys).length / 2 - xs.length = 0 by omega, List.drop_zero] at h
          simpa using h.symm
        rw [hsplit, ih _ _ (fun y hy => hxs y (List.mem_of_mem_drop hy)) hys rfl]
        · simp only [List.length_drop]
          omega
        · simp only [List.length_append, List.length_drop] at *
          omega
      next hx =>
        -- the middle fails, so it lies in `ys` and the seam is below it
        have hle : xs.length ≤ (xs ++ ys).length / 2 := by
          refine Nat.le_of_not_lt fun hlt => hx ?_
          rw [List.drop_eq_getElem_cons hlt] at h
          simp only [List.cons_append, List.cons.injEq] at h
          exact h.1 ▸ hxs _ (List.getElem_mem hlt)
        rw [List.take_append, List.take_of_length_le hle,
          ih _ _ hxs (fun y hy => hys y (List.mem_of_mem_take hy)) rfl]
        simp only [List.length_append, List.length_take] at *
        omega

end StickyScroll
