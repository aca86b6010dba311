import StickyScroll.Proofs.Registry.Filtering
import StickyScroll.Proofs.Registry.Frame

/-!
# What queries list

Over a well-formed buffer a query lists anchors, in the order in which the buffer keeps them, and
shows the line of each. So what becomes of the queries can be read off what becomes of the anchors:
where anchors go, their lines go, and where one is placed, its line comes in at the place that the
order of lines gives it, behind all lines that are not greater. The records decide what is listed
and how it is labelled, and only those of the anchors that are there matter.
-/

namespace StickyScroll.Registry

variable {ι : Type} {b : Buffer}

/-- A query with this filter and limit shows a line of the anchor. -/
def lists (r : Registry ι) (filter : Option String) (limit : Nat) (a : Anchor) : Bool :=
  r.reports filter a && decide (a.span.start ≤ limit)

theorem query_eq_map (r : Registry ι) (hb : b.WellFormed) (filter : Option String) (limit : Nat) :
    r.query b filter limit = (b.anchors.filter (r.lists filter limit)).map (r.shown b) := by
  rw [query_eq_filterMap r hb, filterMap_lineFor?, List.filter_filter]
  rfl

-- without a limit
theorem lines_eq_map (r : Registry ι) (hb : b.WellFormed) (filter : Option String) :
    r.lines b filter = (b.anchors.filter (r.reports filter)).map (r.shown b) := by
  have hall : b.anchors.filter (r.lists filter b.length) =
      b.anchors.filter (r.reports filter) := by
    apply List.filter_congr
    intro a ha
    have hinside : a.span.start ≤ b.length :=
      Nat.le_trans (hb.fits a ha).forward (hb.fits a ha).stop_le
    rw [lists, decide_eq_true hinside, Bool.and_true]
  exact (r.query_eq_map hb filter b.length).trans (congrArg (List.map _) hall)

theorem mem_lines_iff_reports (r : Registry ι) (hb : b.WellFormed) {filter : Option String}
    {line : StickyLine} :
    line ∈ r.lines b filter ↔ ∃ a ∈ b.anchors, r.reports filter a = true ∧ r.shown b a = line := by
  rw [r.lines_eq_map hb, List.mem_map]
  simp only [List.mem_filter, and_assoc]

theorem lists_congr {r r' : Registry ι} {a : Anchor}
    (h : r.records.find? a.handle = r'.records.find? a.handle) (filter : Option String)
    (limit : Nat) : r.lists filter limit a = r'.lists filter limit a := by
  rw [lists, lists, reports_congr h]

theorem lists_iff {r : Registry ι} {filter : Option String} {limit : Nat} {a : Anchor} :
    r.lists filter limit a = true ↔
      a.marker = .sticky ∧ r.Wants filter a ∧ a.span.start ≤ limit := by
  rw [lists, Bool.and_eq_true, reports_iff, decide_eq_true_eq, and_assoc]

theorem lists_of_find? {r : Registry ι} {a : Anchor} (hmarker : a.marker = .sticky)
    {record : LineRecord} (hrecord : r.records.find? a.handle = some record)
    (filter : Option String) (limit : Nat) :
    r.lists filter limit a = true ↔
      a.span.start ≤ limit ∧ (filter = none ∨ filter = some record.source) := by
  rw [lists_iff, Wants, hrecord, and_iff_right hmarker, and_comm]
  cases filter with
  | none => simp
  | some source => simp [eq_comm]

theorem shown_of_find? {r : Registry ι} {a : Anchor} {record : LineRecord}
    (hrecord : r.records.find? a.handle = some record) :
    r.shown b a = .ofAnchor b a record.label := by
  rw [shown, hrecord]
  rfl

-- two registries list and show alike what they have the same records of
theorem map_filter_congr {r r' : Registry ι} (anchors : List Anchor)
    (h : ∀ a ∈ anchors, r.records.find? a.handle = r'.records.find? a.handle)
    (filter : Option String) (limit : Nat) :
    (anchors.filter (r.lists filter limit)).map (r.shown b) =
      (anchors.filter (r'.lists filter limit)).map (r'.shown b) := by
  have hlisted : anchors.filter (r.lists filter limit) = anchors.filter (r'.lists filter limit) :=
    List.filter_congr fun a ha => lists_congr (h a ha) filter limit
  rw [hlisted]
  apply List.map_congr_left
  intro a ha
  exact shown_congr (h a (List.mem_of_mem_filter ha))

/-! ## Where anchors go -/

/-- Where only the anchors of some handles are kept, with their records, each query loses the lines
of the others and stays the same otherwise. -/
theorem query_of_kept {r r' : Registry ι} (hb : b.WellFormed) (keeps : Handle → Bool)
    (hrecords : ∀ a ∈ b.anchors, keeps a.handle = true →
      r'.records.find? a.handle = r.records.find? a.handle)
    (filter : Option String) (limit : Nat) :
    r'.query { b with anchors := b.anchors.filter fun a => keeps a.handle } filter limit =
      (r.query b filter limit).filter fun line => keeps line.handle := by
  have hkept := hb.of_sublist (List.filter_sublist (p := fun a : Anchor => keeps a.handle))
  have hcomm : (b.anchors.filter (r.lists filter limit)).filter
        ((fun line => keeps line.handle) ∘ r.shown b) =
      (b.anchors.filter fun a => keeps a.handle).filter (r.lists filter limit) :=
    List.filter_comm ..
  rw [query_eq_map r' hkept, query_eq_map r hb, List.filter_map, hcomm]
  refine map_filter_congr _ ?_ filter limit
  intro a ha
  obtain ⟨hmem, hkeeps⟩ := List.mem_filter.1 ha
  exact hrecords a hmem hkeeps

/-! ## Where an anchor comes -/

/-- Where a new anchor is placed, each query stays the same but for its line, which comes in behind
all lines that are not greater, if it is listed. -/
theorem query_placed {r r' : Registry ι} (hb : b.WellFormed) (marker : Marker) {start stop : Nat}
    (hacc : b.Accepts start stop)
    (hrecords : ∀ a ∈ b.anchors, r'.records.find? a.handle = r.records.find? a.handle)
    (filter : Option String) (limit : Nat) :
    let anchor := b.fresh marker start stop
    let line := r'.shown b anchor
    ∃ front back, r.query b filter limit = front ++ back ∧
      r'.query (b.placed anchor) filter limit =
        front ++ (if r'.lists filter limit anchor then [line] else []) ++ back ∧
      (∀ x ∈ front, x.le line = true) ∧ ∀ x ∈ back, line.lt x = true := by
  intro anchor line
  have hsplit : b.anchors.filter (·.before anchor) ++ b.anchors.filter (fun a => !a.before anchor) =
      b.anchors := filter_append_filter_not (Buffer.pairwise_before hb.ordered anchor)
  refine ⟨((b.anchors.filter (·.before anchor)).filter (r.lists filter limit)).map (r.shown b),
    ((b.anchors.filter fun a => !a.before anchor).filter (r.lists filter limit)).map (r.shown b),
    ?_, ?_, ?_, ?_⟩
  · rw [query_eq_map r hb, ← List.map_append, ← List.filter_append, hsplit]
  · have hfront := map_filter_congr (b := b) (b.anchors.filter (·.before anchor))
      (fun a ha => (hrecords a (List.mem_of_mem_filter ha)).symm) filter limit
    have hback := map_filter_congr (b := b) (b.anchors.filter fun a => !a.before anchor)
      (fun a ha => (hrecords a (List.mem_of_mem_filter ha)).symm) filter limit
    rw [hfront, hback, query_eq_map r' (hb.placed hacc), Buffer.anchors_placed hb.ordered,
      List.filter_append, List.map_append, List.append_assoc]
    congr 1
    cases hlisted : r'.lists filter limit anchor with
    | true => rw [List.filter_cons_of_pos hlisted]; rfl
    | false => rw [List.filter_cons_of_neg (ne_true_of_eq_false hlisted)]; rfl
  · intro x hx
    obtain ⟨a, ha, rfl⟩ := List.mem_map.1 hx
    have hbefore := (List.mem_filter.1 (List.mem_of_mem_filter ha)).2
    rw [Anchor.before_iff] at hbefore
    rw [StickyLine.le_iff]
    show a.span.start < anchor.span.start ∨
      a.span.start = anchor.span.start ∧ anchor.span.stop ≤ a.span.stop
    omega
  · intro x hx
    obtain ⟨a, ha, rfl⟩ := List.mem_map.1 hx
    obtain ⟨hmem, hnot⟩ := List.mem_filter.1 (List.mem_of_mem_filter ha)
    -- the new handle is above all others, so among equal spans the new anchor comes last
    have hhandle : a.handle.id < anchor.handle.id := hb.issued a hmem
    rw [Bool.not_eq_true', ← Bool.not_eq_true, Anchor.before_iff] at hnot
    rw [StickyLine.lt_iff]
    show anchor.span.start < a.span.start ∨
      anchor.span.start = a.span.start ∧ a.span.stop < anchor.span.stop
    omega

end StickyScroll.Registry
