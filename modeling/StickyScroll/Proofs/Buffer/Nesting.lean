import StickyScroll.Proofs.Buffer.History

/-!
# Nesting under edits

Edits never tear nested scopes apart and never push separate scopes into one another: of two anchors
with text under them, one that covers the other goes on covering it, and one that stops at or before
the start of the other goes on doing so. Both fail for empty anchors, so what carries the argument
through a list of edits is that an anchor is as empty or full as it was.
-/

namespace StickyScroll

namespace Span

/-- How two spans lie to each other is kept: the second stays inside the first if it was, and behind
it if it was. -/
structure Keeps (s t s' t' : Span) : Prop where
  covers : s.covers t = true → s'.covers t' = true
  behind : s.stop ≤ t.start → s'.stop ≤ t'.start

theorem Keeps.refl (s t : Span) : Keeps s t s t := ⟨id, id⟩

theorem Keeps.trans {s t s' t' s'' t'' : Span} (h : Keeps s t s' t') (h' : Keeps s' t' s'' t'') :
    Keeps s t s'' t'' :=
  ⟨h'.covers ∘ h.covers, h'.behind ∘ h.behind⟩

-- a start moves with text put at its place and a stop does not, so both spans must have text under
-- them: an empty one at the place would jump out of a scope that stops there
theorem keeps_grow {s t : Span} (hs : s.start < s.stop) (ht : t.start < t.stop)
    (offset size : Nat) : Keeps s t (s.grow offset size) (t.grow offset size) := by
  constructor
  · intro h
    have hst := covers_iff.1 h
    rw [covers_iff]
    simp only [grow]
    split_ifs <;> omega
  · intro h
    simp only [grow]
    split_ifs <;> omega

-- a cut keeps the order of all offsets
theorem keeps_shrink {cut : Span} (hcut : cut.start ≤ cut.stop) (s t : Span) :
    Keeps s t (s.shrink cut) (t.shrink cut) := by
  constructor
  · intro h
    have hst := covers_iff.1 h
    rw [covers_iff]
    exact ⟨pull_le_pull hcut hst.1, pull_le_pull hcut hst.2⟩
  · intro h
    exact pull_le_pull hcut h

/-- One of the spans covers the other, or they have no text in common. -/
def NestedOrApart (s t : Span) : Prop :=
  s.covers t = true ∨ t.covers s = true ∨ s.stop ≤ t.start ∨ t.stop ≤ s.start

instance (s t : Span) : Decidable (NestedOrApart s t) := inferInstanceAs (Decidable (_ ∨ _))

theorem NestedOrApart.keeps {s t s' t' : Span} (h : NestedOrApart s t) (hst : Keeps s t s' t')
    (hts : Keeps t s t' s') : NestedOrApart s' t' := by
  rcases h with h | h | h | h
  · exact Or.inl (hst.covers h)
  · exact Or.inr (Or.inl (hts.covers h))
  · exact Or.inr (Or.inr (Or.inl (hst.behind h)))
  · exact Or.inr (Or.inr (Or.inr (hts.behind h)))

theorem lt_of_isEmpty_eq_false {s : Span} (hs : s.start ≤ s.stop) (h : s.isEmpty = false) :
    s.start < s.stop := by
  have hne : s.start ≠ s.stop := fun heq => by
    rw [isEmpty_iff.2 heq] at h
    cases h
  omega

end Span

namespace Buffer

def Change.isEdit : Change → Bool
  | insert .. | delete .. | replace .. => true
  | create .. | drop .. => false

/-! ## Two anchors in an edit -/

/-- What an edit makes of the anchors: those that are left are old ones, and any two that have text
under them lie to each other as they did. -/
structure Reshapes (b b' : Buffer) : Prop where
  origin : ∀ a' ∈ b'.anchors, ∃ a ∈ b.anchors, a.Continues a'
  keeps : ∀ a ∈ b.anchors, ∀ c ∈ b.anchors, a.span.isEmpty = false → c.span.isEmpty = false →
    ∀ a' ∈ b'.anchors, ∀ c' ∈ b'.anchors, a'.handle = a.handle → c'.handle = c.handle →
      Span.Keeps a.span c.span a'.span c'.span

theorem Reshapes.refl {b : Buffer} (h : b.WellFormed) : Reshapes b b := by
  refine ⟨fun a ha => ⟨a, ha, .refl a⟩, ?_⟩
  intro a ha c hc _ _ a' ha' c' hc' haa' hcc'
  have ha_eq : a' = a := eq_of_handle_eq h.distinct ha' ha haa'
  have hc_eq : c' = c := eq_of_handle_eq h.distinct hc' hc hcc'
  rw [ha_eq, hc_eq]
  exact .refl _ _

theorem Reshapes.trans {b b' b'' : Buffer} (h : b.WellFormed) (hfirst : Reshapes b b')
    (hsecond : Reshapes b' b'') : Reshapes b b'' := by
  -- whatever is left in the end passed through the middle, and was not empty there
  have hmiddle : ∀ a ∈ b.anchors, a.span.isEmpty = false → ∀ a'' ∈ b''.anchors,
      a''.handle = a.handle →
      ∃ a' ∈ b'.anchors, a'.handle = a.handle ∧ a''.handle = a'.handle ∧
        a'.span.isEmpty = false := by
    intro a ha hfull a'' ha'' hhandle
    obtain ⟨a', ha', hcont'⟩ := hsecond.origin a'' ha''
    obtain ⟨o, ho, hcont⟩ := hfirst.origin a' ha'
    have ho_eq : o = a :=
      eq_of_handle_eq h.distinct ho ha
        (hcont.handle_eq.symm.trans (hcont'.handle_eq.symm.trans hhandle))
    rw [ho_eq] at hcont
    exact ⟨a', ha', hcont.handle_eq, hcont'.handle_eq, hcont.isEmpty_eq.trans hfull⟩
  constructor
  · intro a'' ha''
    obtain ⟨a', ha', hcont'⟩ := hsecond.origin a'' ha''
    obtain ⟨a, ha, hcont⟩ := hfirst.origin a' ha'
    exact ⟨a, ha, hcont.trans hcont'⟩
  · intro a ha c hc hfull hfull' a'' ha'' c'' hc'' haa'' hcc''
    obtain ⟨a', ha', haa', ha'a'', hmid⟩ := hmiddle a ha hfull a'' ha'' haa''
    obtain ⟨c', hc', hcc', hc'c'', hmid'⟩ := hmiddle c hc hfull' c'' hc'' hcc''
    exact (hfirst.keeps a ha c hc hfull hfull' a' ha' c' hc' haa' hcc').trans
      (hsecond.keeps a' ha' c' hc' hmid hmid' a'' ha'' c'' hc'' ha'a'' hc'c'')

theorem reshapes_edited {b : Buffer} (h : b.WellFormed) {text : List Char}
    {keeps : Anchor → Bool} {move : Span → Span}
    (hempty : ∀ a ∈ b.anchors, keeps a = true → (move a.span).isEmpty = a.span.isEmpty)
    (hmove : ∀ a ∈ b.anchors, ∀ c ∈ b.anchors, a.span.start < a.span.stop →
      c.span.start < c.span.stop → Span.Keeps a.span c.span (move a.span) (move c.span)) :
    Reshapes b (b.edited text keeps move) := by
  have hspan : ∀ a ∈ b.anchors, ∀ a' ∈ (b.edited text keeps move).anchors,
      a'.handle = a.handle → a'.span = move a.span := by
    intro a ha a' ha' hhandle
    obtain ⟨o, ho, -, rfl⟩ := mem_anchors_edited.1 ha'
    have ho_eq : o = a := eq_of_handle_eq h.distinct ho ha hhandle
    rw [ho_eq]
    rfl
  constructor
  · intro a' ha'
    obtain ⟨a, ha, hkept, rfl⟩ := mem_anchors_edited.1 ha'
    exact ⟨a, ha, rfl, rfl, hempty a ha hkept⟩
  · intro a ha c hc hfull hfull' a' ha' c' hc' haa' hcc'
    have hlt := Span.lt_of_isEmpty_eq_false (h.fits a ha).forward hfull
    have hlt' := Span.lt_of_isEmpty_eq_false (h.fits c hc).forward hfull'
    rw [hspan a ha a' ha' haa', hspan c hc c' hc' hcc']
    exact hmove a ha c hc hlt hlt'

theorem reshapes_insert {b : Buffer} (h : b.WellFormed) (offset : Nat) (piece : List Char) :
    Reshapes b (b.insert offset piece).buffer := by
  rcases buffer_insert_cases b offset piece with hb | ⟨before, after, -, -, hb⟩
  · rw [hb]
    exact .refl h
  · rw [hb]
    apply reshapes_edited h
    · intro a ha _
      exact Span.isEmpty_grow (h.fits a ha).forward _ _
    · intro a _ c _ hlt hlt'
      exact Span.keeps_grow hlt hlt' _ _

theorem reshapes_delete {b : Buffer} (h : b.WellFormed) (start stop : Nat) :
    Reshapes b (b.delete start stop).buffer := by
  rcases buffer_delete_cases b start stop with hb | ⟨before, mid, after, -, hstart, hstop, hb⟩
  · rw [hb]
    exact .refl h
  · have hcut : start ≤ stop := by omega
    rw [hb]
    apply reshapes_edited h
    · intro a ha hkept
      exact Span.isEmpty_shrink hcut (h.fits a ha).forward
        (survives_iff.1 hkept)
    · intro a _ c _ _ _
      exact Span.keeps_shrink hcut _ _

theorem reshapes_apply {b : Buffer} (h : b.WellFormed) {change : Change}
    (hedit : change.isEdit = true) : Reshapes b (b.apply change) := by
  cases change with
  | insert offset piece => exact reshapes_insert h offset piece
  | delete start stop => exact reshapes_delete h start stop
  | replace start stop piece =>
    show Reshapes b (b.replace start stop piece).buffer
    rcases replace_cases b start stop piece with ⟨_, -, hb⟩ | ⟨-, hb⟩
    · rw [hb]
      exact .refl h
    · rw [hb]
      have hput := reshapes_insert (h.delete start stop) start piece
      exact (reshapes_delete h start stop).trans h hput
  | create marker start stop => cases hedit
  | drop handle => cases hedit

theorem reshapes_after {b : Buffer} (h : b.WellFormed) {edits : List Change}
    (hedits : ∀ edit ∈ edits, edit.isEdit = true) : Reshapes b (b.after edits) := by
  induction edits generalizing b with
  | nil => exact .refl h
  | cons edit rest ih =>
    have hfirst := reshapes_apply h (hedits edit List.mem_cons_self)
    have hrest := ih (h.apply edit) fun e he => hedits e (List.mem_cons_of_mem edit he)
    exact hfirst.trans h hrest

/-! ## All sticky anchors -/

/-- Every sticky anchor has text under it, and any two are nested or apart. -/
def Nested (b : Buffer) : Prop :=
  ∀ a ∈ b.anchors, a.marker = .sticky →
    a.span.isEmpty = false ∧
      ∀ c ∈ b.anchors, c.marker = .sticky → Span.NestedOrApart a.span c.span

instance (b : Buffer) : Decidable b.Nested :=
  inferInstanceAs (Decidable (∀ a ∈ b.anchors, _ → _ ∧ ∀ c ∈ b.anchors, _ → _))

theorem Nested.reshapes {b b' : Buffer} (h : b.Nested) (hshape : Reshapes b b') : b'.Nested := by
  intro a' ha' hsticky
  obtain ⟨a, ha, hcont⟩ := hshape.origin a' ha'
  have hsticky_a : a.marker = .sticky := hcont.marker_eq.symm.trans hsticky
  have hfull := (h a ha hsticky_a).1
  refine ⟨hcont.isEmpty_eq.trans hfull, ?_⟩
  intro c' hc' hsticky'
  obtain ⟨c, hc, hcont'⟩ := hshape.origin c' hc'
  have hsticky_c : c.marker = .sticky := hcont'.marker_eq.symm.trans hsticky'
  have hfull' := (h c hc hsticky_c).1
  have hac := hshape.keeps a ha c hc hfull hfull' a' ha' c' hc' hcont.handle_eq hcont'.handle_eq
  have hca := hshape.keeps c hc a ha hfull' hfull c' hc' a' ha' hcont'.handle_eq hcont.handle_eq
  exact ((h a ha hsticky_a).2 c hc hsticky_c).keeps hac hca

end Buffer
end StickyScroll
