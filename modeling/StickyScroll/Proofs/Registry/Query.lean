import StickyScroll.Proofs.Registry.Change
import StickyScroll.Visit

/-!
# Queries

A query over a well-formed buffer finds each sticky anchor that its filter asks for once, in the
strict order of the anchors, and shows it as it is now under the label on record. Membership, order
and distinctness are stated apart, and hold for any records.
-/

namespace StickyScroll

theorem visitWhile_of_forall_true {α σ : Type} {visit : α → σ → Bool × σ}
    (hvisit : ∀ a s, (visit a s).1 = true) (as : List α) (s : σ) :
    visitWhile visit as s = (true, as.foldl (fun s a => (visit a s).2) s) := by
  induction as generalizing s with
  | nil => rfl
  | cons a rest ih =>
    rw [visitWhile_cons_of_true rest (hvisit a s), ih]
    rfl

/-- The order in which lines are visited: by start, then the outer one first, then by handle. -/
def StickyLine.Precedes (x y : StickyLine) : Prop :=
  x.span.start < y.span.start ∨
    (x.span.start = y.span.start ∧
      (y.span.stop < x.span.stop ∨
        (x.span.stop = y.span.stop ∧ x.handle.id < y.handle.id)))

namespace Registry

variable {ι : Type}

section Lines

variable {σ : Type} [RangeStore σ]

/-- The anchor passes a filter by source: it is on record with the source that is asked for. -/
def Wants (r : Registry ι) (filter : Option String) (a : Anchor) : Prop :=
  ∀ source, filter = some source →
    ∃ record, r.records.find? a.handle = some record ∧ record.source = source

/-- The line of an anchor, under the label on record or the label for anchors without a record. -/
def shown (r : Registry ι) (store : σ) (a : Anchor) : StickyLine :=
  .ofAnchor store a (((r.records.find? a.handle).map (·.label)).getD (some StickyLine.zombieLabel))

theorem lineFor?_eq_some_iff {r : Registry ι} {store : σ} {filter : Option String} {a : Anchor}
    {line : StickyLine} :
    r.lineFor? store filter a = some line ↔
      a.marker = .sticky ∧ r.Wants filter a ∧ line = r.shown store a := by
  unfold lineFor? Wants shown
  by_cases hmarker : a.marker = .sticky
  · rw [if_pos hmarker]
    cases hrecord : r.records.find? a.handle with
    | none =>
      cases filter with
      | none => simp [hmarker, StickyLine.zombie, eq_comm]
      | some source => simp
    | some record =>
      cases filter with
      | none => simp [hmarker, matchesSource, eq_comm]
      | some source =>
        by_cases hsource : source = record.source
        · simp [hmarker, matchesSource, hsource, eq_comm]
        · simp [matchesSource, hsource, Ne.symm hsource]
  · rw [if_neg hmarker]
    exact iff_of_false (fun h => nomatch h) fun h => hmarker h.1

end Lines

variable {b : Buffer}

-- over a well-formed buffer sorting changes nothing, and a query goes through the anchors that
-- start early enough
theorem query_eq_filterMap (r : Registry ι) (hb : b.WellFormed) (filter : Option String)
    (limit : Nat) :
    r.query b filter limit =
      (b.anchors.filter fun a => decide (a.span.start ≤ limit)).filterMap
        (r.lineFor? b filter) := by
  have hwalk : RangeStore.overlapping b 0 limit =
      b.anchors.filter fun a => decide (a.span.start ≤ limit) := by
    show b.overlapping 0 limit = _
    rw [Buffer.overlapping_eq_filter hb.ordered]
    congr 1
    funext a
    rw [decide_eq_true (Nat.zero_le a.span.stop), Bool.and_true]
  unfold query StickyLine.sort
  rw [hwalk]
  apply List.mergeSort_of_pairwise
  rw [List.pairwise_filterMap]
  refine List.Pairwise.imp (fun {a c} hac => ?_) (hb.ordered.filter _)
  intro x hx y hy
  obtain ⟨-, -, rfl⟩ := lineFor?_eq_some_iff.1 hx
  obtain ⟨-, -, rfl⟩ := lineFor?_eq_some_iff.1 hy
  rw [Anchor.before_iff] at hac
  rw [StickyLine.le_iff]
  show a.span.start < c.span.start ∨ a.span.start = c.span.start ∧ c.span.stop ≤ a.span.stop
  omega

theorem mem_query_iff {r : Registry ι} (hb : b.WellFormed) {filter : Option String} {limit : Nat}
    {line : StickyLine} :
    line ∈ r.query b filter limit ↔
      ∃ a ∈ b.anchors, a.marker = .sticky ∧ a.span.start ≤ limit ∧ r.Wants filter a ∧
        line = r.shown b a := by
  rw [query_eq_filterMap r hb, List.mem_filterMap]
  constructor
  · rintro ⟨a, ha, hline⟩
    obtain ⟨hmem, hlimit⟩ := List.mem_filter.1 ha
    obtain ⟨hmarker, hwants, rfl⟩ := lineFor?_eq_some_iff.1 hline
    exact ⟨a, hmem, hmarker, of_decide_eq_true hlimit, hwants, rfl⟩
  · rintro ⟨a, hmem, hmarker, hlimit, hwants, rfl⟩
    exact ⟨a, List.mem_filter.2 ⟨hmem, decide_eq_true hlimit⟩,
      lineFor?_eq_some_iff.2 ⟨hmarker, hwants, rfl⟩⟩

theorem pairwise_query (r : Registry ι) (hb : b.WellFormed) (filter : Option String)
    (limit : Nat) : (r.query b filter limit).Pairwise StickyLine.Precedes := by
  rw [query_eq_filterMap r hb, List.pairwise_filterMap]
  refine List.Pairwise.imp (fun {a c} hac => ?_) (hb.ordered.filter _)
  intro x hx y hy
  obtain ⟨-, -, rfl⟩ := lineFor?_eq_some_iff.1 hx
  obtain ⟨-, -, rfl⟩ := lineFor?_eq_some_iff.1 hy
  exact Anchor.before_iff.1 hac

theorem nodup_handles_query (r : Registry ι) (hb : b.WellFormed) (filter : Option String)
    (limit : Nat) : ((r.query b filter limit).map (·.handle)).Nodup := by
  rw [query_eq_filterMap r hb]
  refine List.pairwise_map.2 (List.pairwise_filterMap.2 ?_)
  have hsub : (b.anchors.filter fun a => decide (a.span.start ≤ limit)).Sublist b.anchors :=
    List.filter_sublist
  have hne := List.pairwise_map.1 (hb.distinct.sublist (hsub.map _))
  refine List.Pairwise.imp (fun {a c} hac => ?_) hne
  intro x hx y hy
  obtain ⟨-, -, rfl⟩ := lineFor?_eq_some_iff.1 hx
  obtain ⟨-, -, rfl⟩ := lineFor?_eq_some_iff.1 hy
  exact hac

end Registry
end StickyScroll
