import StickyScroll.Proofs.Buffer.Refusal
import StickyScroll.Proofs.Manager.Numbering
import StickyScroll.Proofs.Registry.Insertion

/-!
# Numbers of lines after an edit

What an edit does to the offsets of a line and what it does to the breaks of the text go together:
the offsets behind a piece that comes or goes move by its size, and the numbers of their lines by its
breaks. Only breaks of two characters could spoil it, so no seam of the piece may go through one. An
offset at the place of an insertion is moved if it is the start of a line, and is left behind if it
is the stop, unless there is no text under the line: then the stop is carried along with the start.
-/

namespace StickyScroll

namespace StickyLine

/-- How the numbers of a line follow the insertion of a piece with so many breaks. -/
structure FollowsInsertion (old new : StickyLine) (offset breaks : Nat) : Prop where
  handle_eq : new.handle = old.handle
  primary_eq : new.primaryLine = old.primaryLine + if offset ≤ old.span.start then breaks else 0
  scope_eq : new.scopeLine = old.scopeLine +
    if offset < old.span.stop ∨ old.span = ⟨offset, offset⟩ then breaks else 0

/-- How the number of the line of an offset follows a cut of so many breaks. Behind the cut the
breaks are missing, in front of it nothing changes, and an offset inside comes to the line on which
the cut starts. -/
structure Recounted (cut : Span) (breaks startLine offset old new : Nat) : Prop where
  behind : cut.stop ≤ offset → new + breaks = old
  in_front : offset ≤ cut.start → new = old
  inside : cut.start < offset → offset < cut.stop → new = startLine

/-- How the numbers of a line follow a cut of so many breaks. -/
structure FollowsCut (old new : StickyLine) (cut : Span) (breaks startLine : Nat) : Prop where
  handle_eq : new.handle = old.handle
  primary : Recounted cut breaks startLine old.span.start old.primaryLine new.primaryLine
  scope : Recounted cut breaks startLine old.span.stop old.scopeLine new.scopeLine

end StickyLine

-- an insertion moves a stop that lies behind it, and that of an empty span at the place
theorem Span.start_le_or_lt_stop_iff {s : Span} (hs : s.start ≤ s.stop) {n : Nat} :
    n ≤ s.start ∨ n < s.stop ↔ n < s.stop ∨ s = ⟨n, n⟩ := by
  obtain ⟨start, stop⟩ := s
  rw [Span.mk.injEq]
  dsimp only at hs ⊢
  omega

section Pieces

variable {before piece after : List Char} (hout : ¬ Text.Halves before after)
  (hfront : ¬ Text.Halves before piece) (hback : ¬ Text.Halves piece after)

include hout hfront hback

/-! ## Offsets -/

-- an offset at the place of the piece may be moved or not
theorem Text.lineAt_moved {n : Nat} {moves : Prop} [Decidable moves]
    (hmoves : moves → size before ≤ n) (hstays : ¬ moves → n ≤ size before) :
    lineAt (before ++ piece ++ after) (if moves then n + size piece else n) =
      lineAt (before ++ after) n + if moves then lineAt piece (size piece) else 0 := by
  split
  next h => exact lineAt_piece_of_ge hout hfront hback (hmoves h)
  next h => exact lineAt_piece_of_le hout hfront (hstays h)

theorem Text.recounted_pull (n : Nat) :
    let cut : Span := ⟨size before, size before + size piece⟩
    StickyLine.Recounted cut (lineAt piece (size piece))
      (lineAt (before ++ piece ++ after) (size before)) n
      (lineAt (before ++ piece ++ after) n) (lineAt (before ++ after) (Span.pull cut n)) := by
  intro cut
  refine ⟨?_, ?_, ?_⟩
  · intro hbehind
    have hle : size before ≤ n - size piece := Nat.le_sub_of_add_le hbehind
    have hpull : Span.pull cut n = n - size piece := by
      rw [Span.pull_of_ge (Nat.le_add_right _ _) hbehind]
      show n - (size before + size piece - size before) = _
      rw [Nat.add_sub_cancel_left]
    rw [hpull, ← lineAt_piece_of_ge hout hfront hback hle,
      Nat.sub_add_cancel (Nat.le_trans (Nat.le_add_left ..) hbehind)]
  · intro hbefore
    rw [Span.pull_of_le hbefore, lineAt_piece_of_le hout hfront hbefore]
  · intro hstart hstop
    rw [Span.pull_of_mem (Nat.le_of_lt hstart) (Nat.le_of_lt hstop),
      lineAt_piece_of_le hout hfront (Nat.le_refl _)]

/-! ## Lines of one anchor -/

variable {b b' : Buffer} {a : Anchor}

theorem StickyLine.followsInsertion_ofAnchor (htext : b.text = before ++ after)
    (htext' : b'.text = before ++ piece ++ after) (ha : a.span.start ≤ a.span.stop)
    (label label' : Option String) :
    (ofAnchor b a label).FollowsInsertion
      (ofAnchor b' (a.moved (·.grow (Text.size before) (Text.size piece))) label')
      (Text.size before) (Text.lineAt piece (Text.size piece)) := by
  refine ⟨rfl, ?_, ?_⟩
  · show Text.lineAt b'.text (a.span.grow _ _).start = Text.lineAt b.text a.span.start + _
    rw [htext, htext', Span.start_grow]
    exact Text.lineAt_moved hout hfront hback id fun h => Nat.le_of_not_le h
  · show Text.lineAt b'.text (a.span.grow _ _).stop = Text.lineAt b.text a.span.stop + _
    rw [htext, htext', Span.stop_grow ha]
    simp only [Span.start_le_or_lt_stop_iff ha]
    apply Text.lineAt_moved hout hfront hback
    · rintro (hlt | hempty)
      · exact Nat.le_of_lt hlt
      · rw [hempty]
    · intro hstays
      exact Nat.le_of_not_lt fun hlt => hstays (Or.inl hlt)

theorem StickyLine.followsCut_ofAnchor (htext : b.text = before ++ piece ++ after)
    (htext' : b'.text = before ++ after) (a : Anchor) (label label' : Option String) :
    let cut : Span := ⟨Text.size before, Text.size before + Text.size piece⟩
    (ofAnchor b a label).FollowsCut (ofAnchor b' (a.moved (·.shrink cut)) label') cut
      (Text.lineAt piece (Text.size piece)) (RangeStore.lineOf b cut.start) := by
  intro cut
  refine ⟨rfl, ?_, ?_⟩
  · show Recounted _ _ (Text.lineAt b.text _) _ (Text.lineAt b.text _) (Text.lineAt b'.text _)
    rw [htext, htext']
    exact Text.recounted_pull hout hfront hback a.span.start
  · show Recounted _ _ (Text.lineAt b.text _) _ (Text.lineAt b.text _) (Text.lineAt b'.text _)
    rw [htext, htext']
    exact Text.recounted_pull hout hfront hback a.span.stop

end Pieces

/-! ## Lines of a buffer -/

section Cuts

variable {b : Buffer} (hb : b.WellFormed) {before piece after : List Char}
  (htext : b.text = before ++ piece ++ after)

include hb htext

theorem Buffer.mem_anchors_delete_iff {a' : Anchor} :
    let cut : Span := ⟨Text.size before, Text.size before + Text.size piece⟩
    a' ∈ (b.delete cut.start cut.stop).buffer.anchors ↔
      ∃ a ∈ b.anchors, (a.span.isEmpty = true ∨ cut.covers a.span = false) ∧
        a.moved (·.shrink cut) = a' := by
  intro cut
  rw [(leaves_delete hb htext rfl rfl).left, mem_anchors_edited]
  simp only [survives_iff, cut]

end Cuts

namespace Registry

variable {ι : Type} {b : Buffer} (hb : b.WellFormed) {before piece after : List Char}
  (hout : ¬ Text.Halves before after) (hfront : ¬ Text.Halves before piece)
  (hback : ¬ Text.Halves piece after)

include hb hout hfront hback

theorem lines_follow_insertion (htext : b.text = before ++ after) (r : Registry ι)
    (filter : Option String) :
    List.Forall₂ (·.FollowsInsertion · (Text.size before) (Text.lineAt piece (Text.size piece)))
      (r.lines b filter) (r.lines (b.insert (Text.size before) piece).buffer filter) := by
  have hput := hb.insert (Text.size before) piece
  have hanchors := Buffer.anchors_insert hb ⟨before, after, htext, rfl⟩ piece
  have hreports : r.reports filter ∘ (·.moved (·.grow (Text.size before) (Text.size piece))) =
      r.reports filter := rfl
  rw [r.lines_eq_map hb, r.lines_eq_map hput, hanchors, List.filter_map, hreports, List.map_map,
    List.forall₂_map_left_iff, List.forall₂_map_right_iff, List.forall₂_same]
  intro a ha
  exact StickyLine.followsInsertion_ofAnchor hout hfront hback htext
    (Buffer.text_insert htext piece) (hb.fits a (List.mem_of_mem_filter ha)).forward _ _

theorem resolve?_follows_insertion (htext : b.text = before ++ after) {line old : StickyLine}
    (hold : resolve? b line = some old) :
    ∃ new, resolve? (b.insert (Text.size before) piece).buffer line = some new ∧
      old.FollowsInsertion new (Text.size before) (Text.lineAt piece (Text.size piece)) := by
  have hput := hb.insert (Text.size before) piece
  have hid := (Buffer.evolves_insert hb (Text.size before) piece).id_eq
  obtain ⟨hdoc, a, ha, hhandle, hmarker, rfl⟩ := (resolve?_eq_some_iff hb).1 hold
  have hmoved : a.moved (·.grow (Text.size before) (Text.size piece)) ∈
      (b.insert (Text.size before) piece).buffer.anchors := by
    rw [Buffer.anchors_insert hb ⟨before, after, htext, rfl⟩ piece]
    exact List.mem_map_of_mem ha
  exact ⟨_, (resolve?_eq_some_iff hput).2 ⟨hdoc.trans hid.symm, _, hmoved, hhandle, hmarker, rfl⟩,
    StickyLine.followsInsertion_ofAnchor hout hfront hback htext (Buffer.text_insert htext piece)
      (hb.fits a ha).forward _ _⟩

theorem lines_follow_cut (htext : b.text = before ++ piece ++ after) (r : Registry ι)
    (filter : Option String) :
    let cut : Span := ⟨Text.size before, Text.size before + Text.size piece⟩
    let breaks := Text.lineAt piece (Text.size piece)
    let left := (b.delete cut.start cut.stop).buffer
    (∀ old ∈ r.lines b filter, old.span.isEmpty = true ∨ cut.covers old.span = false →
      ∃ new ∈ r.lines left filter, old.FollowsCut new cut breaks (RangeStore.lineOf b cut.start)) ∧
    ∀ new ∈ r.lines left filter,
      ∃ old ∈ r.lines b filter, old.FollowsCut new cut breaks (RangeStore.lineOf b cut.start) := by
  intro cut breaks left
  have hleft : left.WellFormed := hb.delete cut.start cut.stop
  have htext' : left.text = before ++ after := Buffer.text_delete htext
  have hfollows (a : Anchor) : (r.shown b a).FollowsCut (r.shown left (a.moved (·.shrink cut))) cut
      breaks (RangeStore.lineOf b cut.start) :=
    StickyLine.followsCut_ofAnchor hout hfront hback htext htext' a _ _
  constructor
  · intro old hold hkept
    obtain ⟨a, ha, hreports, rfl⟩ := (r.mem_lines_iff_reports hb).1 hold
    have hmoved := (Buffer.mem_anchors_delete_iff hb htext).2 ⟨a, ha, hkept, rfl⟩
    exact ⟨_, (r.mem_lines_iff_reports hleft).2 ⟨_, hmoved, hreports, rfl⟩, hfollows a⟩
  · intro new hnew
    obtain ⟨_, hmoved, hreports, rfl⟩ := (r.mem_lines_iff_reports hleft).1 hnew
    obtain ⟨a, ha, -, rfl⟩ := (Buffer.mem_anchors_delete_iff hb htext).1 hmoved
    exact ⟨_, (r.mem_lines_iff_reports hb).2 ⟨a, ha, hreports, rfl⟩, hfollows a⟩

theorem resolve?_follows_cut (htext : b.text = before ++ piece ++ after) (line : StickyLine) :
    let cut : Span := ⟨Text.size before, Text.size before + Text.size piece⟩
    let breaks := Text.lineAt piece (Text.size piece)
    let left := (b.delete cut.start cut.stop).buffer
    (∀ old, resolve? b line = some old → old.span.isEmpty = true ∨ cut.covers old.span = false →
      ∃ new, resolve? left line = some new ∧
        old.FollowsCut new cut breaks (RangeStore.lineOf b cut.start)) ∧
    ∀ new, resolve? left line = some new →
      ∃ old, resolve? b line = some old ∧
        old.FollowsCut new cut breaks (RangeStore.lineOf b cut.start) := by
  intro cut breaks left
  have hleft : left.WellFormed := hb.delete cut.start cut.stop
  have htext' : left.text = before ++ after := Buffer.text_delete htext
  have hid : left.id = b.id := (Buffer.evolves_delete hb _ _).id_eq
  have hfollows (a : Anchor) : (StickyLine.ofAnchor b a line.label).FollowsCut
      (.ofAnchor left (a.moved (·.shrink cut)) line.label) cut breaks
      (RangeStore.lineOf b cut.start) :=
    StickyLine.followsCut_ofAnchor hout hfront hback htext htext' a _ _
  simp only [resolve?_eq_some_iff hb, resolve?_eq_some_iff hleft]
  constructor
  · rintro _ ⟨hdoc, a, ha, hhandle, hmarker, rfl⟩ hkept
    have hmoved := (Buffer.mem_anchors_delete_iff hb htext).2 ⟨a, ha, hkept, rfl⟩
    exact ⟨_, ⟨hdoc.trans hid.symm, _, hmoved, hhandle, hmarker, rfl⟩, hfollows a⟩
  · rintro _ ⟨hdoc, _, hmoved, hhandle, hmarker, rfl⟩
    obtain ⟨a, ha, -, rfl⟩ := (Buffer.mem_anchors_delete_iff hb htext).1 hmoved
    exact ⟨_, ⟨hdoc.trans hid, a, ha, hhandle, hmarker, rfl⟩, hfollows a⟩

end Registry

namespace Buffer

/-- In every buffer that can be reached, line numbers follow an edit by the breaks of the text that
comes or goes, as long as no seam of that text goes through a pair, neither in the text nor outside
of it. An insertion raises the number that a line starts on by the breaks if its start was at or
behind the place, and the number that it stops on if its stop was behind the place, or if there was
no text under the line and it lay at the place; otherwise the numbers stay. A cut lowers the number
of an offset by the breaks if it was at or behind the stop of the cut, leaves it if it was at or in
front of the start, and makes it the number of the start if it was inside. This holds of the lines
that a registry lists, whatever its records and the source it is asked for, and of those that are
read again. An insertion leaves all of them, and a cut all but those that lose their text with it. -/
theorem line_numbers_follow_edits (id : String) (text : List Char) (changes : List Change) :
    let b := (ofText id text).after changes
    ∀ before piece after : List Char, ¬ Text.Halves before after → ¬ Text.Halves before piece →
      ¬ Text.Halves piece after →
      let breaks := RangeStore.lineOf (ofText id piece) (ofText id piece).length
      let offset := Text.size before
      (b.text = before ++ after →
        let put := b.insert offset piece
        put.result = .ok () ∧
        (∀ (ι : Type) (r : Registry ι) (filter : Option String),
          List.Forall₂ (·.FollowsInsertion · offset breaks)
            (r.lines b filter) (r.lines put.buffer filter)) ∧
        ∀ line old, Registry.resolve? b line = some old →
          ∃ new, Registry.resolve? put.buffer line = some new ∧
            old.FollowsInsertion new offset breaks) ∧
      (b.text = before ++ piece ++ after →
        let cut : Span := ⟨offset, offset + Text.size piece⟩
        let left := b.delete cut.start cut.stop
        let startLine := RangeStore.lineOf b cut.start
        left.result = .ok () ∧
        (∀ (ι : Type) (r : Registry ι) (filter : Option String),
          (∀ old ∈ r.lines b filter, old.span.isEmpty = true ∨ cut.covers old.span = false →
            ∃ new ∈ r.lines left.buffer filter, old.FollowsCut new cut breaks startLine) ∧
          ∀ new ∈ r.lines left.buffer filter,
            ∃ old ∈ r.lines b filter, old.FollowsCut new cut breaks startLine) ∧
        ∀ line,
          (∀ old, Registry.resolve? b line = some old →
            old.span.isEmpty = true ∨ cut.covers old.span = false →
            ∃ new, Registry.resolve? left.buffer line = some new ∧
              old.FollowsCut new cut breaks startLine) ∧
          ∀ new, Registry.resolve? left.buffer line = some new →
            ∃ old, Registry.resolve? b line = some old ∧
              old.FollowsCut new cut breaks startLine) := by
  intro b before piece after hout hfront hback breaks offset
  have hb : b.WellFormed := (wellFormed_ofText id text).after changes
  constructor
  · intro htext put
    refine ⟨(leaves_insert hb htext rfl piece).accepted, ?_, ?_⟩
    · intro ι r filter
      exact Registry.lines_follow_insertion hb hout hfront hback htext r filter
    · intro line old hold
      exact Registry.resolve?_follows_insertion hb hout hfront hback htext hold
  · intro htext cut left startLine
    refine ⟨(leaves_delete hb htext rfl rfl).accepted, ?_, ?_⟩
    · intro ι r filter
      exact Registry.lines_follow_cut hb hout hfront hback htext r filter
    · intro line
      exact Registry.resolve?_follows_cut hb hout hfront hback htext line

/-- Lines around, in front of, behind and, at last, empty at a place that has a break of three bytes
on its left and a pair further on. -/
def separators : Buffer :=
  (ofText "a" ['a', '\u2028', 'b', '\r', '\n', 'c']).after
    [.create .sticky 0 8, .create .sticky 1 4, .create .sticky 4 7, .create .sticky 4 4]

theorem separators_renumbered :
    let r : Registry Nat := .empty
    let numbers (b : Buffer) := (r.lines b none).map
      fun line => (line.handle.id, line.primaryLine, line.scopeLine)
    let put := separators.insert 4 ['\n', '\u0085', '\r']
    let left := separators.delete 1 7
    numbers separators = [(0, 0, 2), (1, 0, 1), (2, 1, 2), (3, 1, 1)] ∧
    numbers put.buffer = [(0, 0, 5), (1, 0, 1), (2, 4, 5), (3, 4, 4)] ∧
    numbers left.buffer = [(0, 0, 0), (3, 0, 0)] ∧
    List.Forall₂ (·.FollowsInsertion · 4 3) (r.lines separators none) (r.lines put.buffer none) ∧
    ∀ new ∈ r.lines left.buffer none,
      ∃ old ∈ r.lines separators none, old.FollowsCut new ⟨1, 7⟩ 2 0 := by
  have hfollow := line_numbers_follow_edits "a" ['a', '\u2028', 'b', '\r', '\n', 'c']
    [.create .sticky 0 8, .create .sticky 1 4, .create .sticky 4 7, .create .sticky 4 4]
  obtain ⟨-, hput, -⟩ := (hfollow ['a', '\u2028'] ['\n', '\u0085', '\r'] ['b', '\r', '\n', 'c']
    (by decide) (by decide) (by decide)).1 rfl
  obtain ⟨-, hleft, -⟩ := (hfollow ['a'] ['\u2028', 'b', '\r', '\n'] ['c']
    (by decide) (by decide) (by decide)).2 rfl
  exact ⟨by cbv, by cbv, by cbv, hput Nat .empty none, (hleft Nat .empty none).2⟩

-- a stop that is not behind the place moves all the same if there is no text under the line
theorem stop_at_place_carried :
    let b := (ofText "d" ['a', 'b']).after [.create .sticky 1 1]
    let r : Registry Nat := .empty
    let put := b.insert (Text.size ['a']) ['\n']
    let breaks := RangeStore.lineOf (ofText "d" ['\n']) (ofText "d" ['\n']).length
    b.text = ['a'] ++ ['b'] ∧
    ¬ Text.Halves ['a'] ['b'] ∧ ¬ Text.Halves ['a'] ['\n'] ∧ ¬ Text.Halves ['\n'] ['b'] ∧
    ¬ ∀ old ∈ r.lines b none, ∀ new ∈ r.lines put.buffer none, new.handle = old.handle →
      new.primaryLine = old.primaryLine + (if Text.size ['a'] ≤ old.span.start then breaks else 0) ∧
      new.scopeLine = old.scopeLine + (if Text.size ['a'] < old.span.stop then breaks else 0) := by
  decide +kernel

end Buffer

end StickyScroll
