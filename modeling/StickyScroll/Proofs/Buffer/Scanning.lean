import StickyScroll.Proofs.Visits
import StickyScroll.Proofs.Buffer.History

/-!
# Walks as plain scans

A walk over a buffer finds by bisection where to end, and tests only the stops of the anchors in
front of that place. The place is right because the anchors are in order after every history, so a
walk shows what a scan of all anchors shows that tests both ends of each, be the two offsets
reversed, past the end of the text or as great as they can be.
-/

namespace StickyScroll.Buffer

/-- A walk between any two offsets, over any buffer that can be reached, meets the anchors that start
at or before the second offset and stop at or behind the first, each once, by start, the longer
first, then by handle. Whatever visitor is sent along, the walk does what a scan of all anchors does
that passes over the others. The visitor is shown the anchors met from the first on, all of them or
all up to the first after which it declines, and the walk answers `false` if there is such a one. -/
theorem walk_scans_anchors (id : String) (text : List Char) (changes : List Change)
    (start stop : Nat) :
    let b := (ofText id text).after changes
    let walk := RangeStore.overlapping b start stop
    let isHit (a : Anchor) := decide (a.span.start ≤ stop) && decide (start ≤ a.span.stop)
    let hits := b.anchors.filter isHit
    walk = hits ∧
    hits.Nodup ∧
    hits.Pairwise (fun x y =>
      x.span.start < y.span.start ∨
        (x.span.start = y.span.start ∧
          (y.span.stop < x.span.stop ∨
            (x.span.stop = y.span.stop ∧ x.handle.id < y.handle.id)))) ∧
    ∀ (σ : Type) (visit : Anchor → σ → Bool × σ) (s : σ),
      visitWhile visit walk s =
        visitWhile (fun a s => if isHit a then visit a s else (true, s)) b.anchors s ∧
      ∃ completed shown t,
        visitWhile visit walk s = (completed, t) ∧
        visitWhile (recording visit) walk ([], s) = (completed, shown, t) ∧
        shown.map Prod.fst <+: hits ∧
        (completed = true → shown.map Prod.fst = hits) ∧
        (completed = false ↔ ∃ a, (a, false) ∈ shown) ∧
        ∀ a, (a, false) ∈ shown →
          ∃ before : List Anchor, shown = before.map (·, true) ++ [(a, false)] := by
  intro b walk isHit hits
  have hb : b.WellFormed := (wellFormed_ofText id text).after changes
  have hwalk : walk = hits := overlapping_eq_filter hb.ordered start stop
  have hnodup : hits.Nodup := (hb.distinct.of_map _).filter _
  have hordered : Anchor.Ordered hits := hb.ordered.filter _
  refine ⟨hwalk, hnodup, hordered.imp Anchor.before_iff.1, ?_⟩
  intro σ visit s
  rw [hwalk]
  obtain ⟨completed, shown, t, hplain, hrecorded, hshown⟩ := visitWhile_recording visit hits s
  refine ⟨visitWhile_filter isHit visit b.anchors s, completed, shown, t, hplain, hrecorded,
    hshown.map_fst_isPrefix, ?_, hshown.completed_eq_false_iff,
    fun a => hshown.eq_append_of_declined⟩
  rintro rfl
  exact hshown.map_fst_of_completed

-- anchors made out of order, one of them dropped and the others moved, and a visitor that has enough
-- after two; between offsets that are reversed lie the anchors that reach over both
example :
    let b := (ofText "a" ['a', 'b', 'c', 'd', 'e', 'f']).after
      [.create .sticky 4 6, .create .sticky 1 2, .create .sticky 1 6, .drop ⟨1⟩,
        .create .sticky 3 3, .delete 0 1]
    let seen (start stop : Nat) := visitWhile
      (fun (a : Anchor) seen => (decide (seen.length + 1 < 2), seen ++ [a.handle.id]))
      (RangeStore.overlapping b start stop) []
    seen 0 maxOffset = (false, [2, 3]) ∧ seen 4 2 = (true, [2]) := by cbv

end StickyScroll.Buffer
