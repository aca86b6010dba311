import Mathlib
import StickyScroll.Proofs.StickyLine.Sorting

/-!
# Comparing lines

Order, sameness and hashing of lines are three functions of their own. They go together because all
of them look at the span and at nothing else: lines are in no order exactly if they are the same, and
lines that are the same have one hash. This is so for all spans, also for those that start after they
stop. With it a sorted list shows outer scopes before the scopes inside them, and a set of lines has
one element for each span.
-/

namespace StickyScroll.StickyLine

/-! ## Order and sameness -/

theorem same_iff {a b : StickyLine} : a.same b = true ↔ a.span = b.span := beq_iff_eq

theorem compare_eq_swap (a b : StickyLine) : a.compare b = (b.compare a).swap := by
  unfold compare Span.compare
  rw [Ordering.swap_then, Nat.compare_swap, Nat.compare_swap]

theorem compare_eq_eq_iff {a b : StickyLine} : a.compare b = .eq ↔ a.same b = true := by
  obtain ⟨_, _, ⟨start, stop⟩, _, _, _⟩ := a
  obtain ⟨_, _, ⟨start', stop'⟩, _, _, _⟩ := b
  rw [same_iff, Span.mk.injEq, compare, Span.compare, Ordering.then_eq_eq, Nat.compare_eq_eq,
    Nat.compare_eq_eq]
  exact and_congr_right fun _ => eq_comm

theorem lt_iff_compare {a b : StickyLine} : a.lt b = true ↔ a.compare b = .lt := beq_iff_eq

theorem le_iff_lt_or_same {a b : StickyLine} :
    a.le b = true ↔ a.lt b = true ∨ a.same b = true := by
  rw [lt_iff_compare, ← compare_eq_eq_iff, le, bne_iff_ne]
  cases a.compare b <;> simp

theorem lt_trans {a b c : StickyLine} (hab : a.lt b = true) (hbc : b.lt c = true) :
    a.lt c = true := by
  rw [lt_iff] at *
  omega

theorem le_of_covers {a b : StickyLine} (h : a.span.covers b.span = true) : a.le b = true := by
  rw [Span.covers_iff] at h
  rw [le_iff]
  omega

/-- Of two scopes that are nested the outer one comes first. -/
theorem lt_of_covers {a b : StickyLine} (hcovers : a.span.covers b.span = true)
    (hne : a.same b = false) : a.lt b = true :=
  (le_iff_lt_or_same.1 (le_of_covers hcovers)).resolve_right (ne_true_of_eq_false hne)

-- in a list in order no line lies strictly around an earlier one
theorem Ordered.not_enclosed {lines : List StickyLine} (h : Ordered lines) :
    lines.Pairwise fun earlier later =>
      ¬ (later.span.covers earlier.span = true ∧ later.span ≠ earlier.span) := by
  refine List.Pairwise.imp (fun {earlier later} hle => ?_) h
  rintro ⟨hcovers, hne⟩
  exact hne (span_eq_of_le (le_of_covers hcovers) hle)

/-! ## Sets of lines -/

-- lines with one line for each span
theorem length_eq_card_spans {kept lines : List StickyLine} (hnodup : (kept.map (·.span)).Nodup)
    (hmem : ∀ line : StickyLine, line.span ∈ kept.map (·.span) ↔ line.span ∈ lines.map (·.span)) :
    kept.length = (lines.map (·.span)).toFinset.card := by
  have hspans : (kept.map (·.span)).toFinset = (lines.map (·.span)).toFinset := by
    ext span
    rw [List.mem_toFinset, List.mem_toFinset]
    constructor
    · intro hspan
      obtain ⟨line, hline, rfl⟩ := List.mem_map.1 hspan
      exact (hmem line).1 hspan
    · intro hspan
      obtain ⟨line, hline, rfl⟩ := List.mem_map.1 hspan
      exact (hmem line).2 hspan
  rw [← hspans, List.toFinset_card_of_nodup hnodup, List.length_map]

theorem map_span_distinct (line : StickyLine) (rest : List StickyLine) :
    (distinct (line :: rest)).map (·.span) =
      line.span :: ((distinct rest).map (·.span)).filter (· != line.span) := by
  rw [List.filter_map]
  rfl

theorem mem_spans_distinct {lines : List StickyLine} {span : Span} :
    span ∈ (distinct lines).map (·.span) ↔ span ∈ lines.map (·.span) := by
  induction lines with
  | nil => rfl
  | cons line rest ih =>
    rw [map_span_distinct, List.mem_cons, List.mem_filter, ih, bne_iff_ne, List.map_cons,
      List.mem_cons]
    by_cases hspan : span = line.span
    · simp [hspan]
    · simp [hspan]

theorem nodup_spans_distinct (lines : List StickyLine) :
    ((distinct lines).map (·.span)).Nodup := by
  induction lines with
  | nil => exact List.nodup_nil
  | cons line rest ih =>
    rw [map_span_distinct, List.nodup_cons]
    exact ⟨fun hmem => by simp at hmem, ih.filter _⟩

theorem length_distinct (lines : List StickyLine) :
    (distinct lines).length = (lines.map (·.span)).toFinset.card :=
  length_eq_card_spans (nodup_spans_distinct lines) fun _ => mem_spans_distinct

/-- The hash set of some lines. Lines that are the same are one element, and a line is found by the
hash of its span, whichever hash of spans is used. -/
def hashSet (hash : Span → UInt64) (lines : List StickyLine) :
    @Std.HashSet StickyLine ⟨same⟩ ⟨fun line => hash line.span⟩ :=
  @Std.HashSet.ofList StickyLine ⟨same⟩ ⟨fun line => hash line.span⟩ lines

theorem equivBEq_same : @EquivBEq StickyLine ⟨same⟩ :=
  letI : BEq StickyLine := ⟨same⟩
  { symm := fun h => same_iff.2 (same_iff.1 h).symm
    trans := fun h h' => same_iff.2 ((same_iff.1 h).trans (same_iff.1 h'))
    rfl := same_iff.2 rfl }

-- lines that are the same have one hash
theorem lawfulHashable_same (hash : Span → UInt64) :
    @LawfulHashable StickyLine ⟨same⟩ ⟨fun line => hash line.span⟩ :=
  letI : BEq StickyLine := ⟨same⟩
  letI : Hashable StickyLine := ⟨fun line => hash line.span⟩
  ⟨fun _ _ h => congrArg hash (same_iff.1 h)⟩

theorem contains_same_iff {lines : List StickyLine} {line : StickyLine} :
    @List.contains StickyLine ⟨same⟩ lines line = true ↔ line.span ∈ lines.map (·.span) := by
  let _ : BEq StickyLine := ⟨same⟩
  rw [List.contains_iff_exists_mem_beq, List.mem_map]
  constructor
  · rintro ⟨other, hother, hsame⟩
    exact ⟨other, hother, (same_iff.1 hsame).symm⟩
  · rintro ⟨other, hother, hspan⟩
    exact ⟨other, hother, same_iff.2 hspan.symm⟩

theorem size_hashSet (hash : Span → UInt64) (lines : List StickyLine) :
    (hashSet hash lines).size = (lines.map (·.span)).toFinset.card := by
  let _ : BEq StickyLine := ⟨same⟩
  let _ : Hashable StickyLine := ⟨fun line => hash line.span⟩
  have _ : EquivBEq StickyLine := equivBEq_same
  have _ : LawfulHashable StickyLine := lawfulHashable_same hash
  have hnodup : ((hashSet hash lines).toList.map (·.span)).Nodup := by
    refine List.pairwise_map.2 (Std.HashSet.distinct_toList.imp ?_)
    intro a b hdiffer hspan
    exact ne_true_of_eq_false hdiffer (same_iff.2 hspan)
  rw [← Std.HashSet.length_toList]
  apply length_eq_card_spans hnodup
  intro line
  rw [← contains_same_iff, ← contains_same_iff, Std.HashSet.contains_toList, hashSet,
    Std.HashSet.contains_ofList]

/-- The order of lines is total, goes by their spans, and finds two lines equal exactly if they are
the same; scopes come before the scopes inside them. Sorting gives the same lines, those of one span
in the order they came in, no scope before one around it, and its spans do not depend on the order
that the lines came in. A set of lines has as many elements as there are spans, both when it is made
by taking out lines that an earlier one is the same as, and as a hash set. -/
theorem order_and_sameness_agree :
    (∀ a b : StickyLine,
      a.compare a = .eq ∧
      a.compare b = (b.compare a).swap ∧
      (a.compare b = .eq ↔ a.same b = true) ∧
      (a.same b = true ↔ a.span = b.span) ∧
      (a.lt b = true ↔ a.compare b = .lt) ∧
      (a.le b = true ↔ a.lt b = true ∨ a.same b = true) ∧
      (a.le b = true ∨ b.le a = true) ∧
      (a.le b = true → b.le a = true → a.same b = true) ∧
      (a.span.covers b.span = true → a.same b = false → a.lt b = true)) ∧
    (∀ a b c : StickyLine,
      (a.le b = true → b.le c = true → a.le c = true) ∧
      (a.lt b = true → b.lt c = true → a.lt c = true)) ∧
    ∀ lines : List StickyLine,
      (sort lines).Perm lines ∧
      (∀ others : List StickyLine, others.Perm lines →
        (sort others).map (·.span) = (sort lines).map (·.span)) ∧
      ((sort lines).Pairwise fun earlier later =>
        ¬ (later.span.covers earlier.span = true ∧ later.span ≠ earlier.span)) ∧
      (∀ span, (sort lines).filter (·.span == span) = lines.filter (·.span == span)) ∧
      (distinct lines).length = (lines.map (·.span)).toFinset.card ∧
      ∀ hash : Span → UInt64,
        (hashSet hash lines).size = (lines.map (·.span)).toFinset.card := by
  refine ⟨?_, ?_, ?_⟩
  · intro a b
    exact ⟨compare_eq_eq_iff.2 (same_iff.2 rfl), compare_eq_swap a b, compare_eq_eq_iff, same_iff,
      lt_iff_compare, le_iff_lt_or_same, Bool.or_eq_true_iff.1 (le_total a b),
      fun hab hba => same_iff.2 (span_eq_of_le hab hba), lt_of_covers⟩
  · intro a b c
    exact ⟨le_trans a b c, lt_trans⟩
  · intro lines
    refine ⟨sort_perm lines, ?_, (ordered_sort lines).not_enclosed, filter_hasSpan_sort lines,
      length_distinct lines, fun hash => size_hashSet hash lines⟩
    intro others hperm
    have hsorted : (sort others).Perm (sort lines) :=
      (sort_perm others).trans (hperm.trans (sort_perm lines).symm)
    exact (ordered_sort others).spans_eq (ordered_sort lines) (hsorted.map _)

-- a span that starts after it stops has its place among the others
example :
    let line (start stop : Nat) (label : String) : StickyLine :=
      ⟨"a", ⟨0⟩, ⟨start, stop⟩, 0, 0, some label⟩
    let lines := [line 4 8 "first", line 4 9 "outer", line 5 2 "reversed", line 4 8 "second"]
    (sort lines).map (·.label) = [some "outer", some "first", some "second", some "reversed"] ∧
      (distinct lines).length = 3 := by cbv

end StickyScroll.StickyLine
