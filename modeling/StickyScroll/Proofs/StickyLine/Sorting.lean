import Mathlib
import StickyScroll.StickyLine

/-!
# Lines in order

Lines are sorted by their spans, and lines with one span keep the order they came in. So a list of
lines in order is determined by its lines of each span, and as far as the spans go by how often each
of them occurs.
-/

namespace StickyScroll

namespace StickyLine

/-- No line comes before one that it should follow. -/
def Ordered (lines : List StickyLine) : Prop := lines.Pairwise fun x y => x.le y = true

def hasSpan (span : Span) (line : StickyLine) : Bool := line.span == span

theorem hasSpan_iff {span : Span} {line : StickyLine} :
    hasSpan span line = true ↔ line.span = span := beq_iff_eq

theorem le_refl (x : StickyLine) : x.le x = true := by
  rw [le_iff]
  omega

theorem span_eq_of_le {x y : StickyLine} (hxy : x.le y = true) (hyx : y.le x = true) :
    x.span = y.span := by
  rw [le_iff] at hxy hyx
  have hstart : x.span.start = y.span.start := by omega
  have hstop : x.span.stop = y.span.stop := by omega
  show Span.mk x.span.start x.span.stop = Span.mk y.span.start y.span.stop
  rw [hstart, hstop]

theorem ordered_sort (lines : List StickyLine) : Ordered (sort lines) :=
  List.pairwise_mergeSort le_trans le_total lines

theorem sort_perm (lines : List StickyLine) : (sort lines).Perm lines :=
  List.mergeSort_perm lines le

-- lines with one span stay in the order they came in
theorem filter_hasSpan_sort (lines : List StickyLine) (span : Span) :
    (sort lines).filter (hasSpan span) = lines.filter (hasSpan span) := by
  have hordered : Ordered (lines.filter (hasSpan span)) := by
    refine List.pairwise_of_forall_mem_list ?_
    intro x hx y hy
    have hxspan := hasSpan_iff.1 (List.mem_filter.1 hx).2
    have hyspan := hasSpan_iff.1 (List.mem_filter.1 hy).2
    rw [le_iff, hxspan, hyspan]
    omega
  have hsub : (lines.filter (hasSpan span)).Sublist (sort lines) :=
    List.sublist_mergeSort le_trans le_total hordered List.filter_sublist
  have hsub' := hsub.filter (hasSpan span)
  simp only [List.filter_filter, Bool.and_self] at hsub'
  exact (hsub'.eq_of_length ((sort_perm lines).filter _).length_eq.symm).symm

theorem Ordered.head_le {x y : StickyLine} {xs : List StickyLine} (h : Ordered (x :: xs))
    (hy : y ∈ x :: xs) : x.le y = true := by
  rcases List.mem_cons.1 hy with rfl | hy
  · exact le_refl y
  · exact List.rel_of_pairwise_cons h hy

-- a line is in every list that has the same lines of its span
theorem mem_of_filter_hasSpan {x : StickyLine} {xs ys : List StickyLine}
    (h : ∀ span, xs.filter (hasSpan span) = ys.filter (hasSpan span)) (hx : x ∈ xs) : x ∈ ys := by
  have hmem : x ∈ xs.filter (hasSpan x.span) := List.mem_filter.2 ⟨hx, hasSpan_iff.2 rfl⟩
  rw [h x.span] at hmem
  exact List.mem_of_mem_filter hmem

-- an ordered list is determined by its lines of each span
theorem Ordered.eq_of_filter_hasSpan {xs ys : List StickyLine} (hxs : Ordered xs)
    (hys : Ordered ys) (h : ∀ span, xs.filter (hasSpan span) = ys.filter (hasSpan span)) :
    xs = ys := by
  induction xs generalizing ys with
  | nil =>
    cases ys with
    | nil => rfl
    | cons y ys =>
      have hy := mem_of_filter_hasSpan (fun span => (h span).symm) List.mem_cons_self
      exact absurd hy List.not_mem_nil
  | cons x xs ih =>
    have hx := mem_of_filter_hasSpan h List.mem_cons_self
    cases ys with
    | nil => exact absurd hx List.not_mem_nil
    | cons y ys =>
      -- the first lines are the least, so they have one span, and are the first of that span
      have hy := mem_of_filter_hasSpan (fun span => (h span).symm) List.mem_cons_self
      have hspan : x.span = y.span := span_eq_of_le (hxs.head_le hy) (hys.head_le hx)
      have hfirst := h x.span
      rw [List.filter_cons_of_pos (hasSpan_iff.2 rfl),
        List.filter_cons_of_pos (hasSpan_iff.2 hspan.symm)] at hfirst
      obtain ⟨rfl, -⟩ := List.cons.inj hfirst
      congr 1
      apply ih (List.Pairwise.of_cons hxs) (List.Pairwise.of_cons hys)
      intro span
      have hrest := h span
      cases hp : hasSpan span x with
      | true =>
        rw [List.filter_cons_of_pos hp, List.filter_cons_of_pos hp] at hrest
        exact (List.cons.inj hrest).2
      | false =>
        rwa [List.filter_cons_of_neg (by simp [hp]), List.filter_cons_of_neg (by simp [hp])]
          at hrest

-- spans in order are determined by how often each of them occurs
theorem Ordered.spans_eq {xs ys : List StickyLine} (hxs : Ordered xs) (hys : Ordered ys)
    (hperm : (xs.map (·.span)).Perm (ys.map (·.span))) : xs.map (·.span) = ys.map (·.span) := by
  have hspans (lines : List StickyLine) (h : Ordered lines) :
      (lines.map (·.span)).Pairwise fun s t =>
        s.start < t.start ∨ (s.start = t.start ∧ t.stop ≤ s.stop) :=
    List.pairwise_map.2 (h.imp le_iff.1)
  refine hperm.eq_of_pairwise ?_ (hspans xs hxs) (hspans ys hys)
  rintro ⟨start, stop⟩ ⟨start', stop'⟩ - - hle hge
  dsimp only at hle hge
  rw [Span.mk.injEq]
  omega

/-- It does not matter whether lines are picked out before they are sorted or afterwards. -/
theorem filter_sort (lines : List StickyLine) (p : StickyLine → Bool) :
    (sort lines).filter p = sort (lines.filter p) := by
  have hordered : Ordered ((sort lines).filter p) := List.Pairwise.filter p (ordered_sort lines)
  apply hordered.eq_of_filter_hasSpan (ordered_sort _)
  intro span
  rw [filter_hasSpan_sort, List.filter_comm, filter_hasSpan_sort, List.filter_comm]

end StickyLine

end StickyScroll
