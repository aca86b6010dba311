import StickyScroll.Buffer

/-!
# The order of anchors

Anchors are listed strictly by `Anchor.before`: no two of one list come together, because handles
differ. In such a list bisection finds the same anchors as a test of each of them.
-/

namespace StickyScroll

namespace Anchor

theorem before_trans {a b c : Anchor} (hab : a.before b = true) (hbc : b.before c = true) :
    a.before c = true := by
  rw [before_iff] at *
  omega

theorem id_ne_of_handle_ne {a b : Anchor} (h : a.handle ≠ b.handle) :
    a.handle.id ≠ b.handle.id :=
  fun hid => h (congrArg Handle.mk hid)

-- of two anchors with different handles one is listed strictly before the other
theorem before_of_not_before {a b : Anchor} (hne : a.handle ≠ b.handle)
    (h : a.before b = false) : b.before a = true := by
  have hid := id_ne_of_handle_ne hne
  rw [← Bool.not_eq_true, before_iff] at h
  rw [before_iff]
  omega

-- each anchor is listed strictly before all that follow it
def Ordered (anchors : List Anchor) : Prop := anchors.Pairwise fun a b => a.before b = true

theorem Ordered.filter {anchors : List Anchor} (h : Ordered anchors) (p : Anchor → Bool) :
    Ordered (anchors.filter p) :=
  List.Pairwise.filter p h

-- among anchors with different handles, a list in the order of `le` is strictly ordered
theorem ordered_of_pairwise_le {anchors : List Anchor}
    (hle : anchors.Pairwise fun a b => a.le b = true) (hnd : (anchors.map (·.handle)).Nodup) :
    Ordered anchors := by
  refine (hle.and (List.pairwise_map.1 hnd)).imp ?_
  rintro a b ⟨hab, hne⟩
  rw [le, Bool.not_eq_true'] at hab
  exact before_of_not_before (Ne.symm hne) hab

end Anchor

/-! ## Bisection -/

-- a list in which the elements that pass come first is the ones that pass and then the others
theorem filter_append_filter_not {α : Type} {p : α → Bool} {xs : List α}
    (h : xs.Pairwise fun x y => p y = true → p x = true) :
    xs.filter p ++ xs.filter (fun x => !p x) = xs := by
  induction xs with
  | nil => rfl
  | cons x xs ih =>
    obtain ⟨hx, hxs⟩ := List.pairwise_cons.1 h
    cases hp : p x with
    | true =>
      rw [List.filter_cons_of_pos hp, List.filter_cons_of_neg (by simp [hp]), List.cons_append,
        ih hxs]
    | false =>
      -- `x` fails, so nothing behind it passes
      have hnone : xs.filter p = [] := by
        rw [List.filter_eq_nil_iff]
        intro y hy hpy
        rw [hx y hy hpy] at hp
        cases hp
      have hall : xs.filter (fun x => !p x) = xs := by
        have := ih hxs
        rwa [hnone, List.nil_append] at this
      rw [List.filter_cons_of_neg (by simp [hp]), List.filter_cons_of_pos (by simp [hp]), hnone,
        hall, List.nil_append]

private theorem bisect_eq_length_filter {α : Type} {p : α → Bool} {xs : List α}
    (h : xs.Pairwise fun x y => p y = true → p x = true) :
    bisect p xs = (xs.filter p).length := by
  have hpass : ∀ x ∈ xs.filter p, p x = true := fun x hx => (List.mem_filter.1 hx).2
  have hfail : ∀ x ∈ xs.filter (fun x => !p x), p x = false := fun x hx => by
    simpa using (List.mem_filter.1 hx).2
  have hseam := bisect_append hpass hfail
  rwa [filter_append_filter_not h] at hseam

-- in front of the seam that bisection finds are the elements that pass
theorem take_bisect {α : Type} {p : α → Bool} {xs : List α}
    (h : xs.Pairwise fun x y => p y = true → p x = true) :
    xs.take (bisect p xs) = xs.filter p := by
  rw [bisect_eq_length_filter h]
  exact (congrArg (List.take _) (filter_append_filter_not h).symm).trans List.take_left

-- behind the seam that bisection finds are the elements that fail
theorem drop_bisect {α : Type} {p : α → Bool} {xs : List α}
    (h : xs.Pairwise fun x y => p y = true → p x = true) :
    xs.drop (bisect p xs) = xs.filter fun x => !p x := by
  rw [bisect_eq_length_filter h]
  exact (congrArg (List.drop _) (filter_append_filter_not h).symm).trans List.drop_left

namespace Buffer

/-! ## Arranging -/

theorem arrange_perm (anchors : List Anchor) : (arrange anchors).Perm anchors :=
  List.mergeSort_perm anchors Anchor.le

@[simp] theorem mem_arrange {a : Anchor} {anchors : List Anchor} :
    a ∈ arrange anchors ↔ a ∈ anchors :=
  (arrange_perm anchors).mem_iff

theorem nodup_handles_arrange {anchors : List Anchor} :
    ((arrange anchors).map (·.handle)).Nodup ↔ (anchors.map (·.handle)).Nodup :=
  ((arrange_perm anchors).map _).nodup_iff

-- anchors with different handles are strictly ordered once they are arranged
theorem ordered_arrange {anchors : List Anchor} (hnd : (anchors.map (·.handle)).Nodup) :
    Anchor.Ordered (arrange anchors) :=
  Anchor.ordered_of_pairwise_le
    (List.pairwise_mergeSort Anchor.le_trans Anchor.le_total anchors)
    (nodup_handles_arrange.2 hnd)

/-! ## Walks -/

-- in an ordered list the anchors that start early enough come first
theorem pairwise_start_le {anchors : List Anchor} (h : Anchor.Ordered anchors) (stop : Nat) :
    anchors.Pairwise fun a b =>
      decide (b.span.start ≤ stop) = true → decide (a.span.start ≤ stop) = true := by
  refine List.Pairwise.imp (fun {a b} hab hb => ?_) h
  rw [Anchor.before_iff] at hab
  rw [decide_eq_true_eq] at *
  omega

-- in an ordered list the anchors before a given one come first
theorem pairwise_before {anchors : List Anchor} (h : Anchor.Ordered anchors) (c : Anchor) :
    anchors.Pairwise fun a b => b.before c = true → a.before c = true :=
  List.Pairwise.imp (fun hab hbc => Anchor.before_trans hab hbc) h

-- a walk over an ordered list meets the anchors that a test of each of them would find
theorem overlapping_eq_filter {b : Buffer} (h : Anchor.Ordered b.anchors) (start stop : Nat) :
    b.overlapping start stop =
      b.anchors.filter fun a => decide (a.span.start ≤ stop) && decide (start ≤ a.span.stop) := by
  unfold overlapping
  rw [take_bisect (pairwise_start_le h stop), List.filter_filter]
  congr 1
  funext a
  exact Bool.and_comm _ _

end Buffer
end StickyScroll
