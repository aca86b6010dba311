import StickyScroll.Proofs.Manager.Renewing

/-!
# Registering in any order

Lines that are added one after the other do not get into each other's way: whether a line can be
added is a matter of the text, which no addition changes. In which order they are added decides what
handles they have, and so the order among lines of one span, but a list of lines in order is
determined, as far as their spans go, by how often each span occurs. So the queries show the same
spans, and the lines of the text that these start and stop on.
-/

namespace StickyScroll

namespace StickyLine

/-- Where a line is: its span and the lines of the text that the span starts and stops on. -/
def place (line : StickyLine) : Span × Nat × Nat := (line.span, line.primaryLine, line.scopeLine)

theorem PutIn.perm {line : StickyLine} {old new : List StickyLine} (h : line.PutIn old new) :
    new.Perm (line :: old) := by
  obtain ⟨front, back, rfl, rfl, -, -⟩ := h
  exact List.perm_middle

end StickyLine

/-- What is asked for when a line is added. -/
structure Addition where
  source : String
  start : Nat
  stop : Nat
  label : Option String
  deriving DecidableEq, Repr

namespace Addition

def span (x : Addition) : Span := ⟨x.start, x.stop⟩

-- a query with this filter and limit shows the line that is added
def shows (filter : Option String) (limit : Nat) (x : Addition) : Bool :=
  decide (x.start ≤ limit) && filter.all (· == x.source)

theorem shows_iff {filter : Option String} {limit : Nat} {x : Addition} :
    x.shows filter limit = true ↔
      x.start ≤ limit ∧ (filter = none ∨ filter = some x.source) := by
  cases filter <;> simp [shows]

/-- There is text under the line, and both of its ends are seams of the text. -/
def Fits (b : Buffer) (x : Addition) : Prop := x.start < x.stop ∧ b.Accepts x.start x.stop

theorem Fits.of_text {b b' : Buffer} {x : Addition} (h : x.Fits b) (htext : b'.text = b.text) :
    x.Fits b' := by
  rwa [Fits, Buffer.Accepts, htext]

end Addition

namespace Registry

variable {ι : Type} {b : Buffer}

/-- Adds lines one after the other, and answers what each addition answers. -/
def addAll {σ : Type} [RangeStore σ] (r : Registry ι) (store : σ) :
    List Addition → List (Except Fault StickyLine) × Registry ι × σ
  | [] => ([], r, store)
  | x :: rest =>
      let o := r.add store x.source x.start x.stop x.label
      let (answers, left) := addAll o.registry o.store rest
      (o.value :: answers, left)

-- where a line is that a query shows can be read off its span and the text
theorem map_place_query (r : Registry ι) (hb : b.WellFormed) (filter : Option String)
    (limit : Nat) :
    (r.query b filter limit).map (·.place) = ((r.query b filter limit).map (·.span)).map
      fun span => (span, Text.lineAt b.text span.start, Text.lineAt b.text span.stop) := by
  rw [List.map_map]
  apply List.map_congr_left
  intro line hline
  obtain ⟨a, -, -, -, -, rfl⟩ := (mem_query_iff hb).1 hline
  rfl

-- the span of a line that is added comes to those that are shown
theorem spans_add (r : Registry ι) (hb : b.WellFormed) {x : Addition} (hfits : x.Fits b)
    (filter : Option String) (limit : Nat) :
    let o := r.add b x.source x.start x.stop x.label
    ((o.registry.query o.store filter limit).map (·.span)).Perm
      (([x].filter (·.shows filter limit)).map (·.span) ++
        (r.query b filter limit).map (·.span)) := by
  intro o
  have hquery := r.query_add hb hfits.1 hfits.2 x.source x.label filter limit
  cases hshows : x.shows filter limit with
  | true =>
    rw [if_pos (Addition.shows_iff.1 hshows)] at hquery
    rw [List.filter_cons_of_pos hshows]
    exact hquery.perm.map _
  | false =>
    rw [if_neg fun h => ne_true_of_eq_false hshows (Addition.shows_iff.2 h)] at hquery
    rw [List.filter_cons_of_neg (ne_true_of_eq_false hshows)]
    exact .of_eq (congrArg _ hquery)

/-- None of the additions is refused, and the spans that a query shows afterwards are the old ones
and those of the lines that it asks for. -/
theorem addAll_fits (r : Registry ι) (hb : b.WellFormed) {additions : List Addition}
    (hfits : ∀ x ∈ additions, x.Fits b) :
    ∃ (lines : List StickyLine) (r' : Registry ι) (b' : Buffer),
      r.addAll b additions = (lines.map .ok, r', b') ∧
      lines.map (fun line => (line.span, line.label)) = additions.map (fun x => (x.span, x.label)) ∧
      b'.WellFormed ∧ b'.text = b.text ∧
      ∀ filter limit, ((r'.query b' filter limit).map (·.span)).Perm
        ((additions.filter (·.shows filter limit)).map (·.span) ++
          (r.query b filter limit).map (·.span)) := by
  induction additions generalizing r b with
  | nil => exact ⟨[], r, b, rfl, rfl, hb, rfl, fun _ _ => .refl _⟩
  | cons x rest ih =>
    have hfirst := hfits x List.mem_cons_self
    have hspans := r.spans_add hb hfirst
    have hadd := r.add_of_fits hb hfirst.1 hfirst.2 x.source x.label
    rw [hadd] at hspans
    have hrest : ∀ y ∈ rest, y.Fits (b.placed (b.fresh .sticky x.start x.stop)) := fun y hy =>
      (hfits y (List.mem_cons_of_mem _ hy)).of_text rfl
    obtain ⟨lines, r', b', hall, hlines, hb', htext, hqueries⟩ :=
      ih { r with records := r.records.insert ⟨b.nextHandle⟩ ⟨x.source, x.label⟩ }
        (hb.placed hfirst.2) hrest
    refine ⟨lineToAdd b x.start x.stop x.label :: lines, r', b', ?_, ?_, hb', htext, ?_⟩
    · rw [addAll, hadd]
      dsimp only
      rw [hall]
      rfl
    · rw [List.map_cons, hlines]
      rfl
    · intro filter limit
      have hthis := (hqueries filter limit).trans ((hspans filter limit).append_left _)
      rw [← List.append_assoc, ← List.map_append] at hthis
      refine hthis.trans (.append_right _ (.map _ ?_))
      rw [← List.filter_append]
      exact .filter _ List.perm_append_comm

theorem fits_iff_added (r : Registry ι) (hb : b.WellFormed) {x : Addition} :
    x.Fits b ↔ ∃ line, (r.add b x.source x.start x.stop x.label).value = .ok line :=
  (r.answers_add hb x.source x.start x.stop x.label).1.symm

end Registry

namespace Cells

/-- Whatever came before, if each of some lines could be added at this moment, then all of them can
be added one after the other in whichever order, the same line more than once and lines of any
sources among them. None is refused, each answer is a line of the span and the label asked for, and
whatever the order was, every query shows the same spans in the same order, with the same lines of
the text. (The handles are given out in the order of the additions, so the labels of lines of one
span may come in another order.) -/
theorem registered_in_any_order (turns : List Turn) {r : RegistryRef}
    {registry : Registry ListenerRef} {d : DocumentRef} {b : Buffer}
    (hworks : ((empty : Cells Buffer).after turns).Works r registry d b)
    {additions reordered : List Addition}
    (hvalid : ∀ x ∈ additions,
      ∃ line, (registry.add b x.source x.start x.stop x.label).value = .ok line)
    (hperm : reordered.Perm additions) :
    ∃ (lines lines' : List StickyLine) (registry₁ registry₂ : Registry ListenerRef)
        (b₁ b₂ : Buffer),
      registry.addAll b additions = (lines.map .ok, registry₁, b₁) ∧
      registry.addAll b reordered = (lines'.map .ok, registry₂, b₂) ∧
      lines.map (fun line => (line.span, line.label)) =
        additions.map (fun x => (x.span, x.label)) ∧
      lines'.map (fun line => (line.span, line.label)) =
        reordered.map (fun x => (x.span, x.label)) ∧
      ∀ filter limit, (registry₁.query b₁ filter limit).map (·.place) =
        (registry₂.query b₂ filter limit).map (·.place) := by
  have hb : b.WellFormed := wellFormed_after turns hworks
  have hfits : ∀ x ∈ additions, x.Fits b := fun x hx =>
    (registry.fits_iff_added hb).2 (hvalid x hx)
  have hfits' : ∀ x ∈ reordered, x.Fits b := fun x hx => hfits x (hperm.mem_iff.1 hx)
  obtain ⟨lines, registry₁, b₁, hadd₁, hlines₁, hb₁, htext₁, hspans₁⟩ :=
    registry.addAll_fits hb hfits
  obtain ⟨lines', registry₂, b₂, hadd₂, hlines₂, hb₂, htext₂, hspans₂⟩ :=
    registry.addAll_fits hb hfits'
  refine ⟨lines, lines', registry₁, registry₂, b₁, b₂, hadd₁, hadd₂, hlines₁, hlines₂, ?_⟩
  intro filter limit
  have hsame : ((registry₁.query b₁ filter limit).map (·.span)).Perm
      ((registry₂.query b₂ filter limit).map (·.span)) := by
    refine (hspans₁ filter limit).trans (.trans ?_ (hspans₂ filter limit).symm)
    exact .append_right _ (.map _ (hperm.symm.filter _))
  have hspans := (registry₁.ordered_query b₁ filter limit).spans_eq
    (registry₂.ordered_query b₂ filter limit) hsame
  have hplaces := registry₁.map_place_query hb₁ filter limit
  rw [hspans, htext₁, ← htext₂, ← registry₂.map_place_query hb₂] at hplaces
  exact hplaces

-- five more lines, two of them the same and one of a new source, from the first to the last and
-- from the last to the first
theorem twinScopes_registered :
    let additions : List Addition :=
      [⟨"outline", 0, 2, some "first"⟩, ⟨"folding", 1, 3, none⟩, ⟨"outline", 0, 2, some "second"⟩,
        ⟨"search", 0, 3, none⟩, ⟨"folding", 1, 3, none⟩]
    ∃ registry d b, ((empty : Cells Buffer).after twinScopes).Works 0 registry d b ∧
      ∃ (lines lines' : List StickyLine) (registry₁ registry₂ : Registry ListenerRef)
          (b₁ b₂ : Buffer),
        registry.addAll b additions = (lines.map .ok, registry₁, b₁) ∧
        registry.addAll b additions.reverse = (lines'.map .ok, registry₂, b₂) ∧
        ∀ filter limit, (registry₁.query b₁ filter limit).map (·.place) =
          (registry₂.query b₂ filter limit).map (·.place) := by
  intro additions
  have hscene : (((empty : Cells Buffer).after twinScopes).at? 0).any (fun (registry, b) =>
      additions.all fun x =>
        (registry.add b x.source x.start x.stop x.label).value.isOk) = true := by
    decide +kernel
  rw [Option.any_eq_true] at hscene
  obtain ⟨⟨registry, b⟩, hat, hall⟩ := hscene
  obtain ⟨d, hworks⟩ := at?_eq_some_iff.1 hat
  have hvalid : ∀ x ∈ additions,
      ∃ line, (registry.add b x.source x.start x.stop x.label).value = .ok line := by
    intro x hx
    have hok := List.all_eq_true.1 hall x hx
    cases hvalue : (registry.add b x.source x.start x.stop x.label).value with
    | ok line => exact ⟨line, rfl⟩
    | error fault =>
      rw [hvalue] at hok
      cases hok
  obtain ⟨lines, lines', registry₁, registry₂, b₁, b₂, hadd₁, hadd₂, -, -, hqueries⟩ :=
    registered_in_any_order twinScopes hworks hvalid (List.reverse_perm additions)
  exact ⟨registry, d, b, hworks, lines, lines', registry₁, registry₂, b₁, b₂, hadd₁, hadd₂,
    hqueries⟩

end Cells
end StickyScroll
