import Mathlib
import StickyScroll.ScriptedStore
import StickyScroll.Proofs.Registry.Query
import StickyScroll.Proofs.StickyLine.Sorting

/-!
# Filtering by source

A query that filters by source shows a part of what the query that does not filter shows, and shows
it in the same order. Nothing is assumed of the store: it may list anchors in any order, list a
handle more than once, and list spans that start after they stop. The anchors are filtered before
the lines are sorted, so this rests on the sorting: lines with one span keep the order they came in,
and an ordered list is determined by its lines of each span.
-/

namespace StickyScroll

/-! ## What a query reports -/

namespace Registry

variable {ι σ : Type} [RangeStore σ]

/-- A query with this filter reports the anchor: it is a sticky one, and if a source is asked for
it is on record with that source. -/
def reports (r : Registry ι) (filter : Option String) (a : Anchor) : Bool :=
  a.marker == .sticky &&
    filter.all fun source => (r.records.find? a.handle).map (·.source) == some source

/-- The lines that a query reports, in the order in which the store lists their anchors. -/
def reported (r : Registry ι) (store : σ) (filter : Option String) (limit : Nat) :
    List StickyLine :=
  ((RangeStore.overlapping store 0 limit).filter (r.reports filter)).map (r.shown store)

theorem reports_iff {r : Registry ι} {filter : Option String} {a : Anchor} :
    r.reports filter a = true ↔ a.marker = .sticky ∧ r.Wants filter a := by
  rw [reports, Bool.and_eq_true, beq_iff_eq, Wants]
  cases filter with
  | none => simp
  | some source => simp

theorem lineFor?_eq (r : Registry ι) (store : σ) (filter : Option String) (a : Anchor) :
    r.lineFor? store filter a = if r.reports filter a then some (r.shown store a) else none := by
  by_cases h : r.reports filter a = true
  · obtain ⟨hmarker, hwants⟩ := reports_iff.1 h
    rw [if_pos h]
    exact lineFor?_eq_some_iff.2 ⟨hmarker, hwants, rfl⟩
  · rw [if_neg h, Option.eq_none_iff_forall_not_mem]
    intro line hline
    obtain ⟨hmarker, hwants, -⟩ := lineFor?_eq_some_iff.1 hline
    exact h (reports_iff.2 ⟨hmarker, hwants⟩)

theorem filterMap_lineFor? (r : Registry ι) (store : σ) (filter : Option String)
    (anchors : List Anchor) :
    anchors.filterMap (r.lineFor? store filter) =
      (anchors.filter (r.reports filter)).map (r.shown store) := by
  induction anchors with
  | nil => rfl
  | cons a rest ih =>
    rw [List.filterMap_cons, lineFor?_eq, ih]
    cases h : r.reports filter a with
    | true => rw [List.filter_cons_of_pos h]; rfl
    | false => rw [List.filter_cons_of_neg (by simp [h])]; rfl

theorem query_eq_sort_reported (r : Registry ι) (store : σ) (filter : Option String)
    (limit : Nat) :
    r.query store filter limit = StickyLine.sort (r.reported store filter limit) := by
  rw [query, filterMap_lineFor?, reported]

theorem ordered_query (r : Registry ι) (store : σ) (filter : Option String) (limit : Nat) :
    StickyLine.Ordered (r.query store filter limit) := by
  rw [query_eq_sort_reported]
  exact StickyLine.ordered_sort _

-- what is shown of an anchor depends on the record of its handle, if there is one
theorem reports_congr {r r' : Registry ι} {a : Anchor}
    (h : r.records.find? a.handle = r'.records.find? a.handle) (filter : Option String) :
    r.reports filter a = r'.reports filter a := by
  rw [reports, reports, h]

theorem shown_congr {r r' : Registry ι} {store : σ} {a : Anchor}
    (h : r.records.find? a.handle = r'.records.find? a.handle) :
    r.shown store a = r'.shown store a := by
  rw [shown, shown, h]

theorem sourceOf?_shown (r : Registry ι) (store : σ) (a : Anchor) :
    r.sourceOf? store (r.shown store a) = (r.records.find? a.handle).map (·.source) :=
  if_pos rfl

-- in the order of the store, the lines of a source are those of all lines that have it
theorem reported_some (r : Registry ι) (store : σ) (source : String) (limit : Nat) :
    r.reported store (some source) limit =
      (r.reported store none limit).filter fun line => r.sourceOf? store line == some source := by
  rw [reported, reported, List.filter_map, List.filter_filter]
  congr 1
  apply List.filter_congr
  intro a _
  simp only [Function.comp_apply, sourceOf?_shown, reports, Option.all_some, Option.all_none,
    Bool.and_true]
  exact Bool.and_comm _ _

/-- Over any store, whatever it lists and in whatever order, a query with a filter shows to a
visitor that always wants more the lines that the filter lets through, each as often as the store
lists its anchor, by start and then the outer first; among lines with one span the order is that of
the store. The query for a source shows exactly those lines of the query without a filter that are
on record with that source, unchanged and in the same order; so a line without a record shows only
where no source is asked for. -/
theorem source_filter_projects (r : Registry ι) (store : σ) (limit : Nat) :
    (∀ filter : Option String,
      let lines := r.query store filter limit
      (∀ (τ : Type) (visit : StickyLine → τ → Bool × τ) (s : τ),
        (∀ line s, (visit line s).1 = true) →
          visitWhile visit lines s = (true, lines.foldl (fun s line => (visit line s).2) s)) ∧
      lines.Perm (r.reported store filter limit) ∧
      lines.Pairwise (fun x y =>
        x.span.start < y.span.start ∨
          (x.span.start = y.span.start ∧ y.span.stop ≤ x.span.stop)) ∧
      ∀ span, lines.filter (StickyLine.hasSpan span) =
        (r.reported store filter limit).filter (StickyLine.hasSpan span)) ∧
    ∀ source : String,
      r.query store (some source) limit =
        (r.query store none limit).filter (fun line => r.sourceOf? store line == some source) ∧
      ∀ line ∈ r.query store (some source) limit,
        ∃ record, r.records.find? line.handle = some record ∧ record.source = source := by
  refine ⟨?_, ?_⟩
  · intro filter lines
    have hlines : lines = StickyLine.sort (r.reported store filter limit) :=
      r.query_eq_sort_reported store filter limit
    rw [hlines]
    refine ⟨?_, StickyLine.sort_perm _, ?_, StickyLine.filter_hasSpan_sort _⟩
    · intro τ visit s hvisit
      exact visitWhile_of_forall_true hvisit _ s
    · exact (StickyLine.ordered_sort _).imp StickyLine.le_iff.1
  · intro source
    have hpicked : r.query store (some source) limit =
        (r.query store none limit).filter fun line => r.sourceOf? store line == some source := by
      rw [query_eq_sort_reported, query_eq_sort_reported, StickyLine.filter_sort, reported_some]
    refine ⟨hpicked, ?_⟩
    intro line hline
    rw [hpicked] at hline
    have hsource : r.sourceOf? store line = some source := eq_of_beq (List.mem_filter.1 hline).2
    rw [sourceOf?] at hsource
    split at hsource
    · exact Option.map_eq_some_iff.1 hsource
    · cases hsource

/-- A store that lists its anchors in no order, two of them twice, one with another marker, one
backwards, and one that no registry has on record. -/
def jumbledStore : ScriptedStore where
  id := "jumble"
  length := 60
  lineWidth := 10
  anchors :=
    [⟨⟨2⟩, ⟨30, 40⟩, .sticky⟩, ⟨⟨1⟩, ⟨50, 20⟩, .sticky⟩, ⟨⟨9⟩, ⟨30, 40⟩, ⟨"bookmark"⟩⟩,
      ⟨⟨3⟩, ⟨30, 40⟩, .sticky⟩, ⟨⟨2⟩, ⟨30, 40⟩, .sticky⟩, ⟨⟨1⟩, ⟨5, 60⟩, .sticky⟩]
  nextHandle := 10
  step := 1
  loses := false
  refusal := none
  visitsAll := true

-- a visitor that always wants more and remembers the handles sees them in the order of the spans
theorem jumbledStore_projects :
    let r : Registry String := { (.empty : Registry String) with
      records := ⟨[(⟨1⟩, ⟨"outline", none⟩), (⟨2⟩, ⟨"folding", some "fold"⟩)]⟩ }
    let visit : StickyLine → List Nat → Bool × List Nat :=
      fun line seen => (true, seen ++ [line.handle.id])
    (∀ line seen, (visit line seen).1 = true) ∧
    visitWhile visit (r.query jumbledStore none 60) [] = (true, [1, 2, 3, 2, 1]) ∧
    visitWhile visit (r.query jumbledStore (some "folding") 60) [] = (true, [2, 2]) ∧
    visitWhile visit (r.query jumbledStore (some "outline") 60) [] = (true, [1, 1]) := by
  intro r visit
  have hvisit : ∀ line seen, (visit line seen).1 = true := fun _ _ => rfl
  have hseen (filter : Option String) :=
    ((r.source_filter_projects jumbledStore 60).1 filter).1 _ visit [] hvisit
  refine ⟨hvisit, ?_, ?_, ?_⟩
  · rw [hseen none]
    cbv
  · rw [hseen (some "folding")]
    cbv
  · rw [hseen (some "outline")]
    cbv

end Registry
end StickyScroll
