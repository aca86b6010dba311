import StickyScroll.Proofs.Buffer.Refusal
import StickyScroll.Proofs.Manager.Shared
import StickyScroll.Proofs.Registry.Listing

/-!
# Adding a line

A registry adds a line in three steps: it checks that there is text under the line, makes an anchor
and puts the line on record. The first two may be refused, and have then changed nothing; the last
is never refused. So a line is added as a whole or not at all. What queries show of it follows from
where its anchor is placed: its handle is above all others, so it comes in behind every line of the
same span.
-/

namespace StickyScroll

/-- The second list is the first with one line put in, behind all lines that are not greater and
before all that are. -/
def StickyLine.PutIn (line : StickyLine) (old new : List StickyLine) : Prop :=
  ∃ front back, old = front ++ back ∧ new = front ++ line :: back ∧
    (∀ x ∈ front, x.le line = true) ∧ ∀ x ∈ back, line.lt x = true

namespace Registry

/-- Why there can be no line from one offset to another: there is no text between them, or something
is wrong with one of them. -/
inductive Unfit (b : Buffer) (start stop : Nat) : Fault → Prop where
  | empty (hle : stop ≤ start) : Unfit b start stop (.invalidRange start stop)
  | flawed {fault : Fault} (hlt : start < stop) (hflaw : b.Flawed start stop fault) :
      Unfit b start stop fault

variable {ι : Type} {b : Buffer} {start stop : Nat} {fault : Fault}

/-! ## Refusals -/

theorem exists_unfit (h : ¬ (start < stop ∧ b.Accepts start stop)) :
    ∃ fault, Unfit b start stop fault := by
  by_cases hlt : start < stop
  · obtain ⟨fault, hflaw⟩ := Buffer.exists_flawed fun hacc => h ⟨hlt, hacc⟩
    exact ⟨fault, .flawed hlt hflaw⟩
  · exact ⟨_, .empty (Nat.not_lt.1 hlt)⟩

theorem add_of_unfit (r : Registry ι) (h : Unfit b start stop fault) (source : String)
    (label : Option String) : r.add b source start stop label = ⟨.error fault, r, b, []⟩ := by
  unfold add
  cases h with
  | empty hle => rw [if_pos hle]
  | flawed hlt hflaw =>
    have hcreate : RangeStore.create b Marker.sticky start stop = (.error fault, b) :=
      Buffer.create_of_flawed hflaw .sticky
    rw [if_neg (Nat.not_le.2 hlt), hcreate]

/-! ## What is added -/

-- the line that an addition answers
def lineToAdd (b : Buffer) (start stop : Nat) (label : Option String) : StickyLine where
  documentId := b.id
  handle := ⟨b.nextHandle⟩
  span := ⟨start, stop⟩
  primaryLine := Text.lineAt b.text start
  scopeLine := Text.lineAt b.text stop
  label := label

/-- What an addition leaves that is not refused. -/
theorem add_of_fits (r : Registry ι) (hb : b.WellFormed) (hlt : start < stop)
    (hacc : b.Accepts start stop) (source : String) (label : Option String) :
    r.add b source start stop label =
      { value := .ok (lineToAdd b start stop label)
        registry := { r with records := r.records.insert ⟨b.nextHandle⟩ ⟨source, label⟩ }
        store := b.placed (b.fresh .sticky start stop)
        events := [.lineAdded source start stop ⟨b.nextHandle⟩] } := by
  rcases r.add_cases hb source start stop label with ⟨_, hnot, -⟩ | ⟨-, -, heq⟩
  · exact absurd ⟨hlt, hacc⟩ hnot
  · exact heq

theorem answers_add (r : Registry ι) (hb : b.WellFormed) (source : String) (start stop : Nat)
    (label : Option String) :
    Buffer.Answers (r.add b source start stop label).value (start < stop ∧ b.Accepts start stop)
      (Unfit b start stop) := by
  apply Buffer.answers_of_refused
  · intro fault hfault
    rw [r.add_of_unfit hfault]
  · exact exists_unfit
  · rintro ⟨hlt, hacc⟩
    exact ⟨_, congrArg Outcome.value (r.add_of_fits hb hlt hacc source label)⟩

/-- A line that is added comes into every query that asks for it, and into no other. -/
theorem query_add (r : Registry ι) (hb : b.WellFormed) (hlt : start < stop)
    (hacc : b.Accepts start stop) (source : String) (label filter : Option String) (limit : Nat) :
    let o := r.add b source start stop label
    let old := r.query b filter limit
    let new := o.registry.query o.store filter limit
    if start ≤ limit ∧ (filter = none ∨ filter = some source) then
      (lineToAdd b start stop label).PutIn old new
    else new = old := by
  rw [r.add_of_fits hb hlt hacc source label]
  intro o old new
  have hnew : o.registry.records.find? ⟨b.nextHandle⟩ = some ⟨source, label⟩ :=
    (Table.find?_insert ..).trans (if_pos rfl)
  have hrecords : ∀ a ∈ b.anchors,
      o.registry.records.find? a.handle = r.records.find? a.handle := fun a ha =>
    (Table.find?_insert ..).trans (if_neg (hb.handle_ne_fresh .sticky start stop a ha))
  have hlisted := lists_of_find? (a := b.fresh .sticky start stop) rfl hnew filter limit
  have hshown : o.registry.shown b (b.fresh .sticky start stop) = lineToAdd b start stop label :=
    shown_of_find? (a := b.fresh .sticky start stop) hnew
  obtain ⟨front, back, hold, hquery, hfront, hback⟩ :=
    query_placed hb .sticky hacc hrecords filter limit
  rw [hshown] at hquery hfront hback
  split
  next hthere =>
    rw [if_pos (hlisted.2 hthere), List.append_assoc] at hquery
    exact ⟨front, back, hold, hquery, hfront, hback⟩
  next hthere =>
    rw [if_neg fun h => hthere (hlisted.1 h), List.append_nil] at hquery
    exact hquery.trans hold.symm

end Registry

/-! ## As a whole or not at all -/

namespace Cells

/-- Whatever came before, a registry adds a line exactly if the line has text under it and both of
its ends are seams of the text. Else it blames the first thing that is wrong, what the document
itself would blame if there is text between the offsets, and nothing changes. A line that is added
is on record with its source; it comes into each query that asks for all lines or for those of the
source, and reaches as far as the line, behind all lines that are not greater, those of the same
span among them; and every other query is what it was. -/
theorem line_added_as_a_whole (turns : List Turn) {r : RegistryRef}
    {registry : Registry ListenerRef} {d : DocumentRef} {b : Buffer}
    (hworks : ((empty : Cells Buffer).after turns).Works r registry d b) (source : String)
    (start stop : Nat) (label : Option String) :
    let o := registry.add b source start stop label
    Buffer.Answers o.value
      (start < stop ∧ stop ≤ b.length ∧ Text.IsSeam b.text start ∧ Text.IsSeam b.text stop)
      (Registry.Unfit b start stop) ∧
    (∀ fault, o.value = .error fault →
      o = ⟨.error fault, registry, b, []⟩ ∧
      (start < stop → b.create .sticky start stop = (.error fault, b))) ∧
    ∀ line, o.value = .ok line →
      line = ⟨b.id, ⟨b.nextHandle⟩, ⟨start, stop⟩, Text.lineAt b.text start,
        Text.lineAt b.text stop, label⟩ ∧
      o.registry.sourceOf? o.store line = some source ∧
      ∀ filter limit,
        let old := registry.query b filter limit
        let new := o.registry.query o.store filter limit
        if start ≤ limit ∧ (filter = none ∨ filter = some source) then line.PutIn old new
        else new = old := by
  intro o
  have hb : b.WellFormed := wellFormed_after turns hworks
  have hanswers := registry.answers_add hb source start stop label
  have hvalid : (start < stop ∧ b.Accepts start stop) ↔
      start < stop ∧ stop ≤ b.length ∧ Text.IsSeam b.text start ∧ Text.IsSeam b.text stop := by
    rw [Buffer.accepts_iff]
    exact and_congr_right fun hlt => and_iff_right (Nat.le_of_lt hlt)
  refine ⟨⟨hanswers.1.trans hvalid, hanswers.2⟩, ?_, ?_⟩
  · intro fault herror
    have hunfit := (hanswers.2 fault).1 herror
    refine ⟨registry.add_of_unfit hunfit source label, ?_⟩
    intro hlt
    cases hunfit with
    | empty hle => exact absurd hlt (Nat.not_lt.2 hle)
    | flawed _ hflaw => exact Buffer.create_of_flawed hflaw .sticky
  · intro line hok
    obtain ⟨hlt, hacc⟩ := hanswers.1.1 ⟨line, hok⟩
    have ho : o = _ := registry.add_of_fits hb hlt hacc source label
    have hline : line = Registry.lineToAdd b start stop label := by
      rw [ho] at hok
      exact (Except.ok.inj hok).symm
    subst hline
    refine ⟨rfl, ?_, registry.query_add hb hlt hacc source label⟩
    have hrecord : o.registry.records.find? ⟨b.nextHandle⟩ = some ⟨source, label⟩ := by
      rw [ho]
      exact (Table.find?_insert ..).trans (if_pos rfl)
    have hid : b.id = o.store.id := by rw [ho]; rfl
    exact (if_pos hid).trans (congrArg (Option.map LineRecord.source) hrecord)

/-- Two sources have the same line, and one of them another inside it. -/
def twinScopes : List Turn :=
  [⟨.ofLimit 1, .makeDocument "a" ['x', 'y', 'z']⟩, ⟨.ofLimit 1, .openDocument [] 0⟩,
    ⟨.ofLimit 1, .act 0 (.add "outline" 0 2 none)⟩, ⟨.ofLimit 1, .act 0 (.add "search" 0 2 none)⟩,
    ⟨.ofLimit 1, .act 0 (.add "outline" 0 1 none)⟩]

-- a third line of the same span is put in, which the other source does not see
theorem twinScopes_joined :
    ∃ registry d b, ((empty : Cells Buffer).after twinScopes).Works 0 registry d b ∧
      (registry.add b "outline" 2 2 none).value = .error (.invalidRange 2 2) ∧
      let o := registry.add b "outline" 0 2 none
      ∃ line, o.value = .ok line ∧ line.handle = ⟨3⟩ ∧
        line.PutIn (registry.query b none 3) (o.registry.query o.store none 3) ∧
        o.registry.query o.store (some "search") 3 = registry.query b (some "search") 3 := by
  have hscene : (((empty : Cells Buffer).after twinScopes).at? 0).any (fun (_, b) =>
      b.text == ['x', 'y', 'z'] && b.nextHandle == 3) = true := by
    decide +kernel
  simp only [Option.any_eq_true, Bool.and_eq_true, beq_iff_eq] at hscene
  obtain ⟨⟨registry, b⟩, hat, htext, hnext⟩ := hscene
  obtain ⟨d, hworks⟩ := at?_eq_some_iff.1 hat
  have hempty := (line_added_as_a_whole twinScopes hworks "outline" 2 2 none).1
  obtain ⟨hanswers, -, hadded⟩ := line_added_as_a_whole twinScopes hworks "outline" 0 2 none
  have hseams : b.length = 3 ∧ Text.IsSeam b.text 0 ∧ Text.IsSeam b.text 2 := by
    rw [Buffer.length, htext]
    exact ⟨rfl, Text.isSeam_append [] _, Text.isSeam_append ['x', 'y'] ['z']⟩
  obtain ⟨hlength, hstart, hstop⟩ := hseams
  obtain ⟨line, hok⟩ := hanswers.1.2 ⟨by decide, by omega, hstart, hstop⟩
  obtain ⟨hline, -, hqueries⟩ := hadded line hok
  have hall := hqueries none 3
  have hsearch := hqueries (some "search") 3
  rw [if_pos (by decide)] at hall
  rw [if_neg (by decide)] at hsearch
  refine ⟨registry, d, b, hworks, (hempty.2 _).2 (.empty (Nat.le_refl 2)), line, hok, ?_, hall,
    hsearch⟩
  rw [hline, hnext]

end Cells
end StickyScroll
