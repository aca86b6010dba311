import Mathlib
import StickyScroll.Proofs.Buffer.Nesting
import StickyScroll.Proofs.Registry.Query

/-!
# Queries in preorder

Where the sticky anchors are nested or apart, a query walks the nesting in preorder: an outer scope
comes before what is inside it, and what comes between the two is inside it as well. Edits keep the
anchors nested or apart (`Buffer.Nested.reshapes`), so this lasts through any number of edits.
-/

namespace StickyScroll

/-- Of two lines that follow each other the later one never encloses the earlier one strictly, and
whatever comes between a line and one that it encloses is enclosed by it too. -/
def StickyLine.InPreorder (lines : List StickyLine) : Prop :=
  ∀ (i j : Nat) (x y : StickyLine), i < j → lines[i]? = some x → lines[j]? = some y →
    ¬ (y.span.covers x.span = true ∧ y.span ≠ x.span) ∧
      ∀ (k : Nat) (z : StickyLine), j < k → lines[k]? = some z →
        x.span.covers z.span = true → x.span.covers y.span = true

theorem rel_of_pairwise_of_lt {α : Type} {R : α → α → Prop} {xs : List α} (h : xs.Pairwise R)
    {i j : Nat} {x y : α} (hij : i < j) (hx : xs[i]? = some x) (hy : xs[j]? = some y) : R x y := by
  obtain ⟨hi, rfl⟩ := List.getElem?_eq_some_iff.1 hx
  obtain ⟨hj, rfl⟩ := List.getElem?_eq_some_iff.1 hy
  exact List.pairwise_iff_getElem.1 h i j hi hj hij

namespace StickyLine

-- the line that comes first starts earlier, or is at least as long
theorem Precedes.not_enclosed {x y : StickyLine} (h : x.Precedes y) :
    ¬ (y.span.covers x.span = true ∧ y.span ≠ x.span) := by
  rintro ⟨hcovers, hne⟩
  have hyx := Span.covers_iff.1 hcovers
  simp only [Precedes] at h
  have hstart : y.span.start = x.span.start := by omega
  have hstop : y.span.stop = x.span.stop := by omega
  have hsame : y.span = x.span := by
    rw [show y.span = ⟨y.span.start, y.span.stop⟩ from rfl, hstart, hstop]
  exact hne hsame

-- a line that starts inside a scope and is nested with it or apart from it lies inside it
theorem covers_of_between {x y z : StickyLine} (hxy : x.Precedes y) (hyz : y.Precedes z)
    (hnested : x.span.NestedOrApart y.span) (hy : y.span.start < y.span.stop)
    (hz : z.span.start < z.span.stop) (hcovers : x.span.covers z.span = true) :
    x.span.covers y.span = true := by
  have hxz := Span.covers_iff.1 hcovers
  simp only [Precedes] at hxy hyz
  rcases hnested with h | h | h | h
  · exact h
  · have hyx := Span.covers_iff.1 h
    rw [Span.covers_iff]
    omega
  · -- `z` would start behind `x`
    omega
  · -- `y` would start before `x`
    omega

end StickyLine

namespace Registry

variable {ι : Type} {b : Buffer}

theorem inPreorder_query (r : Registry ι) (hb : b.WellFormed) (hnested : b.Nested)
    (filter : Option String) (limit : Nat) :
    StickyLine.InPreorder (r.query b filter limit) := by
  have hlisted := r.pairwise_query hb filter limit
  have hanchor : ∀ (i : Nat) (x : StickyLine), (r.query b filter limit)[i]? = some x →
      ∃ a ∈ b.anchors, a.marker = .sticky ∧ x.span = a.span := by
    intro i x hx
    obtain ⟨a, ha, hsticky, -, -, rfl⟩ := (mem_query_iff hb).1 (List.mem_of_getElem? hx)
    exact ⟨a, ha, hsticky, rfl⟩
  have hfull : ∀ (i : Nat) (x : StickyLine), (r.query b filter limit)[i]? = some x →
      x.span.start < x.span.stop := by
    intro i x hx
    obtain ⟨a, ha, hsticky, hspan⟩ := hanchor i x hx
    rw [hspan]
    exact Span.lt_of_isEmpty_eq_false (hb.fits a ha).forward (hnested a ha hsticky).1
  intro i j x y hij hx hy
  have hxy : x.Precedes y := rel_of_pairwise_of_lt hlisted hij hx hy
  refine ⟨hxy.not_enclosed, ?_⟩
  intro k z hjk hz hcovers
  have hyz : y.Precedes z := rel_of_pairwise_of_lt hlisted hjk hy hz
  have hlie : x.span.NestedOrApart y.span := by
    obtain ⟨a, ha, hsticky, hspan⟩ := hanchor i x hx
    obtain ⟨c, hc, hsticky', hspan'⟩ := hanchor j y hy
    rw [hspan, hspan']
    exact (hnested a ha hsticky).2 c hc hsticky'
  exact StickyLine.covers_of_between hxy hyz hlie (hfull j y hy) (hfull k z hz) hcovers

end Registry

namespace Buffer

/-- After every history, an edit keeps how two anchors with text under them lie to each other, if
both outlive it: what was covered is covered, and what was behind is behind. So sticky anchors that
have text under them and are nested or apart stay so through any list of edits, and as long as they
are so the lines of the document come in preorder, whatever records a registry has. -/
theorem nesting_of_history {ι : Type} (id : String) (text : List Char) (changes : List Change) :
    let b := (ofText id text).after changes
    (∀ edit : Change, edit.isEdit = true →
      ∀ a ∈ b.anchors, ∀ c ∈ b.anchors, a.span.isEmpty = false → c.span.isEmpty = false →
        ∀ a' ∈ (b.apply edit).anchors, ∀ c' ∈ (b.apply edit).anchors,
          a'.handle = a.handle → c'.handle = c.handle →
            (a.span.covers c.span = true → a'.span.covers c'.span = true) ∧
            (a.span.stop ≤ c.span.start → a'.span.stop ≤ c'.span.start)) ∧
    (b.Nested → ∀ edits : List Change, (∀ edit ∈ edits, edit.isEdit = true) →
      (b.after edits).Nested) ∧
    (b.Nested → ∀ r : Registry ι, StickyLine.InPreorder (r.lines b none)) := by
  intro b
  have hb : b.WellFormed := (wellFormed_ofText id text).after changes
  refine ⟨?_, ?_, ?_⟩
  · intro edit hedit a ha c hc hfull hfull' a' ha' c' hc' haa' hcc'
    have hkeeps := (reshapes_apply hb hedit).keeps a ha c hc hfull hfull' a' ha' c' hc' haa' hcc'
    exact ⟨hkeeps.covers, hkeeps.behind⟩
  · intro hnested edits hedits
    exact hnested.reshapes (reshapes_after hb hedits)
  · intro hnested r
    exact r.inPreorder_query hb hnested none _

/-- Three sticky scopes, one inside the other and one behind it, with an anchor of another marker
across them. -/
def outline : List Change :=
  [.create .sticky 0 8, .create .sticky 1 4, .create .sticky 4 7, .create ⟨"MARK"⟩ 3 6]

-- edits at and over the ends of the scopes
def outlineEdits : List Change := [.insert 4 ['é'], .delete 3 6, .replace 1 2 ['x', 'y']]

theorem outline_stays_nested :
    ((ofText "a" "abcdefgh".toList).after outline).Nested ∧
    (((ofText "a" "abcdefgh".toList).after outline).after outlineEdits).Nested ∧
    (((ofText "a" "abcdefgh".toList).after outline).after outlineEdits).anchors.map (·.span) =
      [⟨0, 8⟩, ⟨3, 4⟩, ⟨4, 7⟩, ⟨4, 6⟩] ∧
    StickyLine.InPreorder
      ((.empty : Registry Unit).lines ((ofText "a" "abcdefgh".toList).after outline) none) := by
  have hnested : ((ofText "a" "abcdefgh".toList).after outline).Nested := by decide +kernel
  have hspans : (((ofText "a" "abcdefgh".toList).after outline).after outlineEdits).anchors.map
      (·.span) = [⟨0, 8⟩, ⟨3, 4⟩, ⟨4, 7⟩, ⟨4, 6⟩] := by cbv
  obtain ⟨-, hkept, hlisted⟩ := @nesting_of_history Unit "a" "abcdefgh".toList outline
  exact ⟨hnested, hkept hnested outlineEdits (by decide), hspans, hlisted hnested .empty⟩

end Buffer
end StickyScroll
