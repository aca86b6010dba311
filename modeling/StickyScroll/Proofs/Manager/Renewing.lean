import StickyScroll.Proofs.Buffer.Nesting
import StickyScroll.Proofs.Manager.Adding
import StickyScroll.Proofs.Manager.Removing

/-!
# Renewing the lines of a source

A source renews its lines by taking all of them out and adding them one by one. None is refused:
whatever the edits since, a line on record keeps text under it, and both of its ends are seams. None
changes places: the lines are added in order, and each comes in behind those that are not greater,
so behind all that were added before it.
-/

namespace StickyScroll

/-- The second line is the first under another handle. -/
def StickyLine.Renews (old new : StickyLine) : Prop := new = { old with handle := new.handle }

-- a line behind which nothing is greater comes last
theorem StickyLine.PutIn.eq_append {line : StickyLine} {old new : List StickyLine}
    (h : line.PutIn old new) (hle : ∀ x ∈ old, x.le line = true) : new = old ++ [line] := by
  obtain ⟨front, back, rfl, rfl, -, hback⟩ := h
  cases back with
  | nil => rw [List.append_nil]
  | cons x rest =>
    have hxle := hle x (by simp)
    have hlt := hback x List.mem_cons_self
    rw [le_iff] at hxle
    rw [lt_iff] at hlt
    omega

namespace Registry

variable {ι : Type} {b : Buffer}

/-! ## Text under lines -/

/-- There is text under every anchor on record. -/
def Filled (r : Registry ι) (b : Buffer) : Prop :=
  ∀ a ∈ b.anchors, r.Records a.handle → a.span.isEmpty = false

theorem filled_empty (b : Buffer) : (empty : Registry ι).Filled b :=
  fun a _ hrecord => absurd hrecord (not_records_empty a.handle)

theorem Filled.evolves {r : Registry ι} {b b' : Buffer} (h : r.Filled b) (howns : r.Owns b)
    (hev : b.Evolves b') : r.Filled b' := by
  intro a' ha' hrecord
  have hissued := howns.issued a'.handle hrecord
  rcases hev.origin a' ha' with hnew | ⟨a, ha, hcont⟩
  · omega
  · rw [hcont.handle_eq] at hrecord
    exact hcont.isEmpty_eq.trans (h a ha hrecord)

theorem Filled.perform {r : Registry ι} (h : r.Filled b) (howns : r.Owns b) (hb : b.WellFormed)
    (change : Change ι) : (r.perform b change).1.Filled (r.perform b change).2 := by
  intro a ha hrecord
  rcases r.records_of_perform hb change hrecord with
    hold | ⟨source, start, stop, label, line, rfl, hvalue, -, hnew, -⟩
  · rcases r.origin_perform hb change ha with hmem | ⟨hnew, -⟩
    · exact h a hmem hold
    · have hissued := howns.issued a.handle hold
      rw [hnew] at hissued
      exact absurd hissued (Nat.lt_irrefl _)
  · -- the line that was just added
    have hadd : a ∈ (r.add b source start stop label).store.anchors := ha
    rcases r.add_cases hb source start stop label with ⟨_, -, heq⟩ | ⟨hlt, -, heq⟩
    · rw [heq] at hvalue
      cases hvalue
    · rw [heq] at hadd
      rcases Buffer.mem_anchors_placed.1 hadd with rfl | hmem
      · rw [← Bool.not_eq_true, Span.isEmpty_iff]
        exact Nat.ne_of_lt hlt
      · exact absurd hnew (hb.handle_ne_fresh .sticky start stop a hmem)

/-! ## Adding lines again -/

/-- Adds a line for each of some lines, with its offsets and its label, one after the other. -/
def addEach {σ : Type} [RangeStore σ] (r : Registry ι) (store : σ) (source : String) :
    List StickyLine → List (Except Fault StickyLine) × Registry ι × σ
  | [] => ([], r, store)
  | line :: rest =>
      let o := r.add store source line.span.start line.span.stop line.label
      let (answers, left) := addEach o.registry o.store source rest
      (o.value :: answers, left)

/-- The line is a line of the document as it is now, and can be added to it. -/
structure Renewable (b : Buffer) (line : StickyLine) : Prop where
  documentId_eq : line.documentId = b.id
  primaryLine_eq : line.primaryLine = Text.lineAt b.text line.span.start
  scopeLine_eq : line.scopeLine = Text.lineAt b.text line.span.stop
  lt : line.span.start < line.span.stop
  accepts : b.Accepts line.span.start line.span.stop

theorem Renewable.of_text {line : StickyLine} (h : Renewable b line) {b' : Buffer}
    (hid : b'.id = b.id) (htext : b'.text = b.text) : Renewable b' line := by
  obtain ⟨hdocument, hprimary, hscope, hlt, hacc⟩ := h
  rw [← hid] at hdocument
  rw [← htext] at hprimary hscope
  rw [Buffer.Accepts, ← htext] at hacc
  exact ⟨hdocument, hprimary, hscope, hlt, hacc⟩

theorem Renewable.renews {line : StickyLine} (h : Renewable b line) :
    line.Renews (lineToAdd b line.span.start line.span.stop line.label) := by
  rw [StickyLine.Renews, lineToAdd, ← h.documentId_eq, ← h.primaryLine_eq, ← h.scopeLine_eq]

theorem renewable_of_mem_lines {r : Registry ι} (hb : b.WellFormed) (hfilled : r.Filled b)
    {source : String} {line : StickyLine} (h : line ∈ r.lines b (some source)) :
    Renewable b line := by
  obtain ⟨a, ha, -, -, hwants, rfl⟩ := (mem_query_iff hb).1 h
  obtain ⟨record, hrecord, -⟩ := hwants source rfl
  have hfits := hb.fits a ha
  have hlt := Span.lt_of_isEmpty_eq_false hfits.forward (hfilled a ha ⟨record, hrecord⟩)
  exact ⟨rfl, rfl, rfl, hlt, hfits.forward, hfits.start_seam, hfits.stop_seam⟩

theorem ordered_lines (r : Registry ι) (b : Buffer) (filter : Option String) :
    StickyLine.Ordered (r.lines b filter) :=
  r.ordered_query b filter b.length

/-- A line that can be added and is not less than any of the source comes in behind them. -/
theorem add_behind (r : Registry ι) (hb : b.WellFormed) (source : String) {line : StickyLine}
    (h : Renewable b line) (hbehind : ∀ x ∈ r.lines b (some source), x.le line = true) :
    let o := r.add b source line.span.start line.span.stop line.label
    ∃ new, o.value = .ok new ∧ line.Renews new ∧
      o.store.WellFormed ∧ o.store.id = b.id ∧ o.store.text = b.text ∧
      o.registry.lines o.store (some source) = r.lines b (some source) ++ [new] ∧
      ∀ other, other ≠ source →
        o.registry.lines o.store (some other) = r.lines b (some other) := by
  intro o
  have ho : o = _ := r.add_of_fits hb h.lt h.accepts source line.label
  have hinside : line.span.start ≤ b.length := h.accepts.2.1.le_size
  have hlines (filter : Option String) :
      o.registry.lines o.store filter = o.registry.query o.store filter b.length := by
    rw [ho]
    rfl
  have hquery (filter : Option String) :=
    r.query_add hb h.lt h.accepts source line.label filter b.length
  refine ⟨lineToAdd b line.span.start line.span.stop line.label, ?_, h.renews, ?_, ?_, ?_, ?_, ?_⟩
  · rw [ho]
  · rw [ho]
    exact hb.placed h.accepts
  · rw [ho]
    rfl
  · rw [ho]
    rfl
  · have hput := hquery (some source)
    rw [if_pos ⟨hinside, Or.inr rfl⟩] at hput
    rw [hlines]
    exact hput.eq_append hbehind
  · intro other hother
    have hsame := hquery (some other)
    rw [if_neg (by simp [hother])] at hsame
    rw [hlines]
    exact hsame

/-- Lines that come in order, and behind all lines of the source, are added behind them. -/
theorem addEach_renews (r : Registry ι) (hb : b.WellFormed) (source : String)
    {old : List StickyLine} (hordered : StickyLine.Ordered old)
    (hrenewable : ∀ line ∈ old, Renewable b line)
    (hbehind : ∀ x ∈ r.lines b (some source), ∀ line ∈ old, x.le line = true) :
    ∃ new r' b', r.addEach b source old = (new.map .ok, r', b') ∧
      List.Forall₂ StickyLine.Renews old new ∧
      r'.lines b' (some source) = r.lines b (some source) ++ new ∧
      ∀ other, other ≠ source → r'.lines b' (some other) = r.lines b (some other) := by
  induction old generalizing r b with
  | nil => exact ⟨[], r, b, rfl, .nil, (List.append_nil _).symm, fun _ _ => rfl⟩
  | cons line rest ih =>
    obtain ⟨hfirst, hrest⟩ := List.pairwise_cons.1 hordered
    obtain ⟨renewed, hvalue, hrenews, hb', hid, htext, hown, hothers⟩ :=
      r.add_behind hb source (hrenewable line List.mem_cons_self)
        fun x hx => hbehind x hx line List.mem_cons_self
    have hrenewable' : ∀ other ∈ rest, Renewable
        (r.add b source line.span.start line.span.stop line.label).store other := fun other hother =>
      (hrenewable other (List.mem_cons_of_mem _ hother)).of_text hid htext
    have hbehind' : ∀ x ∈ r.lines b (some source) ++ [renewed], ∀ other ∈ rest,
        x.le other = true := by
      intro x hx other hother
      rcases List.mem_append.1 hx with hold | hnew
      · exact hbehind x hold other (List.mem_cons_of_mem _ hother)
      · -- the line just added has the span of the old one, which comes before the rest
        rw [List.mem_singleton.1 hnew, hrenews]
        exact hfirst other hother
    rw [← hown] at hbehind'
    obtain ⟨new, r', b', hadd, hall, hlines, hothers'⟩ := ih _ hb' hrest hrenewable' hbehind'
    refine ⟨renewed :: new, r', b', ?_, .cons hrenews hall, ?_, ?_⟩
    · rw [addEach, hadd, hvalue]
      rfl
    · rw [hlines, hown, List.append_assoc, List.singleton_append]
    · intro other hother
      rw [hothers' other hother, hothers other hother]

end Registry

namespace Cells

theorem stable_filled : Stable fun registry b => registry.Owns b ∧ registry.Filled b where
  evolves _ hev h := ⟨h.1.evolves hev, h.2.evolves h.1 hev⟩
  perform change hb h := ⟨h.1.perform hb change, h.2.perform h.1 hb change⟩

theorem filled_after (turns : List Turn) {r : RegistryRef} {registry : Registry ListenerRef}
    {d : DocumentRef} {b : Buffer} (h : ((empty : Cells Buffer).after turns).Works r registry d b) :
    registry.Filled b :=
  (stable_filled.of_run (fun b => ⟨Registry.owns_empty b, Registry.filled_empty b⟩) turns h).2

/-- Whatever came before, a source that takes out its lines and adds each of them again, in order
and with its offsets and its label, has the same lines in the same order afterwards, but for the
handles. None of them is refused, each answer is the line that is shown, and the lines of the other
sources are the same, handles included. -/
theorem source_renewed (turns : List Turn) {r : RegistryRef} {registry : Registry ListenerRef}
    {d : DocumentRef} {b : Buffer}
    (hworks : ((empty : Cells Buffer).after turns).Works r registry d b) (source : String) :
    let old := registry.lines b (some source)
    let cleared := registry.removeFrom b source
    ∃ new registry' b',
      cleared.registry.addEach cleared.store source old = (new.map .ok, registry', b') ∧
      registry'.lines b' (some source) = new ∧ List.Forall₂ StickyLine.Renews old new ∧
      ∀ other, other ≠ source →
        registry'.lines b' (some other) = registry.lines b (some other) := by
  intro old cleared
  have hb : b.WellFormed := wellFormed_after turns hworks
  have hnd : registry.records.keys.Nodup := nodup_keys_after turns hworks
  have hstore : cleared.store = _ := Registry.store_removeFrom hb hnd source
  have hlength : cleared.store.length = b.length := by
    rw [hstore]
    rfl
  have hb' : cleared.store.WellFormed := registry.wellFormed_perform hb (.removeFrom source)
  have hnone : cleared.registry.lines cleared.store (some source) = [] :=
    Registry.query_removeFrom_self hb hnd source _
  have hrenewable : ∀ line ∈ old, Registry.Renewable cleared.store line := by
    intro line hline
    apply (Registry.renewable_of_mem_lines hb (filled_after turns hworks) hline).of_text
    · rw [hstore]
    · rw [hstore]
  obtain ⟨new, registry', b', hadd, hall, hlines, hothers⟩ :=
    cleared.registry.addEach_renews hb' source (registry.ordered_lines b (some source)) hrenewable
      (by simp [hnone])
  rw [hnone, List.nil_append] at hlines
  refine ⟨new, registry', b', hadd, hlines, hall, ?_⟩
  intro other hother
  rw [hothers other hother, Registry.lines, Registry.lines]
  show cleared.registry.query cleared.store (some other) cleared.store.length = _
  rw [hlength]
  exact Registry.query_removeFrom_of_ne hb hnd hother _

/-- A source has two lines with the same span and another source has one around them, and then a
character of two bytes is put inside all of them. -/
def wideScopes : List Turn :=
  let desk : Manager := .ofLimit 1
  [⟨desk, .makeDocument "a" ['x', 'y', 'z']⟩, ⟨desk, .openDocument [] 0⟩,
    ⟨desk, .act 0 (.add "outline" 0 2 (some "first"))⟩, ⟨desk, .act 0 (.add "outline" 0 2 none)⟩,
    ⟨desk, .act 0 (.add "search" 0 3 none)⟩, ⟨desk, .edit 0 (.insert 1 ['é'])⟩]

-- the three lines are longer now; the two of the first source come back with new handles, the first
-- of them first
theorem wideScopes_renewed :
    ∃ registry d b, ((empty : Cells Buffer).after wideScopes).Works 0 registry d b ∧
      let cleared := registry.removeFrom b "outline"
      let old := registry.lines b (some "outline")
      old.map (·.span) = [⟨0, 4⟩, ⟨0, 4⟩] ∧ old.map (·.label) = [some "first", none] ∧
      ∃ new registry' b',
        cleared.registry.addEach cleared.store "outline" old = (new.map .ok, registry', b') ∧
        registry'.lines b' (some "outline") = new ∧ List.Forall₂ StickyLine.Renews old new ∧
        registry'.lines b' (some "search") = registry.lines b (some "search") := by
  have hscene : (((empty : Cells Buffer).after wideScopes).at? 0).any (fun (registry, b) =>
      (registry.lines b (some "outline")).map (·.span) == [⟨0, 4⟩, ⟨0, 4⟩] &&
        (registry.lines b (some "outline")).map (·.label) == [some "first", none]) = true := by
    cbv
  simp only [Option.any_eq_true, Bool.and_eq_true, beq_iff_eq] at hscene
  obtain ⟨⟨registry, b⟩, hat, hspans, hlabels⟩ := hscene
  obtain ⟨d, hworks⟩ := at?_eq_some_iff.1 hat
  obtain ⟨new, registry', b', hadd, hlines, hall, hothers⟩ :=
    source_renewed wideScopes hworks "outline"
  exact ⟨registry, d, b, hworks, hspans, hlabels, new, registry', b', hadd, hlines, hall,
    hothers "search" (by decide)⟩

end Cells
end StickyScroll
