import StickyScroll.Proofs.Text.Breaks
import StickyScroll.Proofs.Manager.Resolve

/-!
# Numbers of lines

The line of an offset is the number of breaks that end at or before it, for every text and for every
offset, also for one past the end, inside a character or between the halves of a break. So line
numbers start from zero, go up by at most one from an offset to the next, and stay what they are at
the end. The spans of anchors run forwards inside the text, whatever happened to it, so every line
that a registry returns starts on a line of the document that is not behind the one it stops on.
-/

namespace StickyScroll

/-- The line starts on a line of the document that is not behind the one it stops on, and stops on
one that is not behind the last. -/
def StickyLine.Numbered (line : StickyLine) (b : Buffer) : Prop :=
  line.primaryLine ≤ line.scopeLine ∧ line.scopeLine ≤ RangeStore.lineOf b b.length

theorem Buffer.WellFormed.numbered {b : Buffer} (hb : b.WellFormed) {a : Anchor}
    (ha : a ∈ b.anchors) (label : Option String) : (StickyLine.ofAnchor b a label).Numbered b :=
  ⟨Text.lineAt_le_lineAt b.text (hb.fits a ha).forward,
    Text.lineAt_le_lineAt b.text (hb.fits a ha).stop_le⟩

namespace Cells

/-- In every text the line of an offset is the number of breaks that end at or before it: it is zero
at the start, grows with the offset, by one at most from each to the next, and is at and behind the
end what it is at the end. And whatever came before, the lines that a registry returns when it adds
one, reads one again or answers a query have numbers that go up from start to stop, and up to that of
the end. -/
theorem line_numbers_ascend :
    (∀ b : Buffer,
      (∀ n, RangeStore.lineOf b n = Nat.count (Text.BreakEnds b.text) (n + 1)) ∧
      (∀ m n, m ≤ n → RangeStore.lineOf b m ≤ RangeStore.lineOf b n) ∧
      RangeStore.lineOf b 0 = 0 ∧
      (∀ n, RangeStore.lineOf b (n + 1) ≤ RangeStore.lineOf b n + 1) ∧
      ∀ n, b.length ≤ n → RangeStore.lineOf b n = RangeStore.lineOf b b.length) ∧
    ∀ (turns : List Turn) {r : RegistryRef} {registry : Registry ListenerRef} {d : DocumentRef}
      {b : Buffer}, ((empty : Cells Buffer).after turns).Works r registry d b →
      (∀ source start stop label line,
        let o := registry.add b source start stop label
        o.value = .ok line → line.Numbered o.store) ∧
      (∀ line fresh, Registry.resolve? b line = some fresh → fresh.Numbered b) ∧
      ∀ filter limit, ∀ line ∈ registry.query b filter limit, line.Numbered b := by
  constructor
  · intro b
    exact ⟨Text.lineAt_eq_count b.text, fun m n => Text.lineAt_le_lineAt b.text,
      Text.lineAt_zero b.text, Text.lineAt_succ_le b.text, fun n => Text.lineAt_of_size_le⟩
  intro turns r registry d b hworks
  have hb : b.WellFormed := wellFormed_after turns hworks
  refine ⟨?_, ?_, ?_⟩
  · intro source start stop label line o hok
    rcases registry.add_cases hb source start stop label with ⟨_, -, ho⟩ | ⟨-, hacc, ho⟩
    · rw [show o = _ from ho] at hok
      cases hok
    · rw [show o = _ from ho] at hok ⊢
      cases hok
      exact (hb.placed hacc).numbered (Buffer.mem_anchors_placed.2 (Or.inl rfl)) label
  · intro line fresh hfresh
    obtain ⟨-, a, ha, -, -, rfl⟩ := (Registry.resolve?_eq_some_iff hb).1 hfresh
    exact hb.numbered ha line.label
  · intro filter limit line hline
    obtain ⟨a, ha, -, -, -, rfl⟩ := (Registry.mem_query_iff hb).1 hline
    exact hb.numbered ha _

/-- A line from between the halves of a break to behind a break of three bytes, and a cut of the
character that follows it. -/
def brokenPages : List Turn :=
  [⟨.ofLimit 1, .makeDocument "a" ['x', '\r', '\n', 'y', '\u2028', 'z', '\n']⟩,
    ⟨.ofLimit 1, .openDocument [] 0⟩, ⟨.ofLimit 1, .act 0 (.add "outline" 2 7 (some "page"))⟩,
    ⟨.ofLimit 1, .edit 0 (.delete 7 8)⟩]

theorem brokenPages_numbered :
    ∃ registry d b line, ((empty : Cells Buffer).after brokenPages).Works 0 registry d b ∧
      registry.query b none 4 = [line] ∧
      line.primaryLine = 0 ∧ line.scopeLine = 2 ∧ line.Numbered b ∧
      Registry.resolve? b line = some line ∧
      (List.range 10).map (RangeStore.lineOf b) = [0, 0, 0, 1, 1, 1, 1, 2, 3, 3] := by
  have hscene : (((empty : Cells Buffer).after brokenPages).at? 0).any (fun (registry, b) =>
      (registry.query b none 4).any (fun line =>
        registry.query b none 4 == [line] && line.primaryLine == 0 && line.scopeLine == 2 &&
          Registry.resolve? b line == some line) &&
      (List.range 10).map (RangeStore.lineOf b) == [0, 0, 0, 1, 1, 1, 1, 2, 3, 3]) = true := by
    decide +kernel
  simp only [Option.any_eq_true, List.any_eq_true, Bool.and_eq_true, beq_iff_eq] at hscene
  obtain ⟨⟨registry, b⟩, hat, ⟨line, hline, ⟨⟨hquery, hprimary⟩, hscope⟩, hresolve⟩, hnumbers⟩ :=
    hscene
  obtain ⟨d, hworks⟩ := at?_eq_some_iff.1 hat
  obtain ⟨-, -, hqueries⟩ := line_numbers_ascend.2 brokenPages hworks
  exact ⟨registry, d, b, line, hworks, hquery, hprimary, hscope, hqueries none 4 line hline,
    hresolve, hnumbers⟩

end Cells
end StickyScroll
