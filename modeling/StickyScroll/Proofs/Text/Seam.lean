import StickyScroll.Span
import StickyScroll.Text.Offset

/-!
# Seams of a text

A seam is an offset between two characters, the two ends of the text included. An edit of a text
moves its seams in the same way as it moves the ends of spans, so a span that fits a text, both of
its ends at seams, fits the text after the edit as well.
-/

namespace StickyScroll

namespace Text

/-- The offset lies between two characters of the text. -/
def IsSeam (cs : List Char) (n : Nat) : Prop :=
  ∃ before after, cs = before ++ after ∧ size before = n

theorem isSeam_append (before after : List Char) : IsSeam (before ++ after) (size before) :=
  ⟨before, after, rfl, rfl⟩

theorem IsSeam.le_size {cs : List Char} {n : Nat} (h : IsSeam cs n) : n ≤ size cs := by
  obtain ⟨before, after, rfl, rfl⟩ := h
  rw [size_append]
  exact Nat.le_add_right _ _

theorem size_eq_zero {cs : List Char} : size cs = 0 ↔ cs = [] := by
  constructor
  · intro h
    cases cs with
    | nil => rfl
    | cons c cs =>
      have hc := c.utf8Size_pos
      rw [size_cons] at h
      omega
  · rintro rfl
    rfl

-- of two ways to divide a text, the one that divides it earlier divides the front of the other
theorem eq_append_of_size_le {as bs cs ds : List Char} (h : as ++ bs = cs ++ ds)
    (hle : size as ≤ size cs) : ∃ mid, cs = as ++ mid ∧ bs = mid ++ ds := by
  rcases List.append_eq_append_iff.1 h with ⟨mid, hcs, hbs⟩ | ⟨mid, has, hds⟩
  · exact ⟨mid, hcs, hbs⟩
  · have hmid : mid = [] := by
      rw [has, size_append] at hle
      exact size_eq_zero.1 (by omega)
    rw [hmid, List.append_nil] at has
    rw [hmid, List.nil_append] at hds
    exact ⟨[], by rw [List.append_nil, has], by rw [List.nil_append, hds]⟩

/-! ## Seams of a text in parts -/

-- what follows a part of the text does not matter to the seams of that part
theorem IsSeam.append {before : List Char} {n : Nat} (h : IsSeam before n) (after : List Char) :
    IsSeam (before ++ after) n := by
  obtain ⟨l, r, rfl, hl⟩ := h
  exact ⟨l, r ++ after, List.append_assoc l r after, hl⟩

theorem IsSeam.shift {after : List Char} {n : Nat} (h : IsSeam after n) (before : List Char) :
    IsSeam (before ++ after) (size before + n) := by
  obtain ⟨l, r, rfl, rfl⟩ := h
  exact ⟨before ++ l, r, (List.append_assoc before l r).symm, size_append before l⟩

theorem IsSeam.of_le {before after : List Char} {n : Nat} (h : IsSeam (before ++ after) n)
    (hn : n ≤ size before) : IsSeam before n := by
  obtain ⟨l, r, heq, rfl⟩ := h
  obtain ⟨mid, hbefore, -⟩ := eq_append_of_size_le heq.symm hn
  exact ⟨l, mid, hbefore, rfl⟩

theorem IsSeam.of_ge {before after : List Char} {n : Nat} (h : IsSeam (before ++ after) n)
    (hn : size before ≤ n) : IsSeam after (n - size before) := by
  obtain ⟨l, r, heq, rfl⟩ := h
  obtain ⟨mid, rfl, hafter⟩ := eq_append_of_size_le heq hn
  refine ⟨mid, r, hafter, ?_⟩
  rw [size_append]
  omega

end Text

namespace Span

/-- The span lies in the text, forwards, with both ends at seams. -/
structure Fits (s : Span) (text : List Char) : Prop where
  forward : s.start ≤ s.stop
  start_seam : Text.IsSeam text s.start
  stop_seam : Text.IsSeam text s.stop

theorem Fits.stop_le {s : Span} {text : List Char} (h : s.Fits text) : s.stop ≤ Text.size text :=
  h.stop_seam.le_size

/-! ## Insertions -/

-- a seam in front of the place of an insertion stays where it is
theorem isSeam_insert_of_le {before piece after : List Char} {n : Nat}
    (h : Text.IsSeam (before ++ after) n) (hn : n ≤ Text.size before) :
    Text.IsSeam (before ++ piece ++ after) n := by
  rw [List.append_assoc]
  exact (h.of_le hn).append _

-- a seam behind the place of an insertion moves on by the size of the piece
theorem isSeam_insert_of_ge {before piece after : List Char} {n : Nat}
    (h : Text.IsSeam (before ++ after) n) (hn : Text.size before ≤ n) :
    Text.IsSeam (before ++ piece ++ after) (n + Text.size piece) := by
  have hshift := (h.of_ge hn).shift (before ++ piece)
  rw [Text.size_append] at hshift
  rwa [show n + Text.size piece =
    Text.size before + Text.size piece + (n - Text.size before) by omega]

theorem Fits.grow {s : Span} {before piece after : List Char} (h : s.Fits (before ++ after)) :
    (s.grow (Text.size before) (Text.size piece)).Fits (before ++ piece ++ after) := by
  have hstart : Text.IsSeam (before ++ piece ++ after)
      (s.grow (Text.size before) (Text.size piece)).start := by
    unfold Span.grow
    dsimp only
    split
    · exact isSeam_insert_of_ge h.start_seam ‹_›
    · exact isSeam_insert_of_le h.start_seam (by omega)
  refine ⟨start_le_stop_grow s _ _, hstart, ?_⟩
  -- the stop is that of a span behind the place, that of one in front of it, or the start
  rcases Nat.le_total (s.grow (Text.size before) (Text.size piece)).start
    (if Text.size before < s.stop then s.stop + Text.size piece else s.stop) with hle | hle
  · rw [show (s.grow (Text.size before) (Text.size piece)).stop = _ from Nat.max_eq_left hle]
    split
    · exact isSeam_insert_of_ge h.stop_seam (by omega)
    · exact isSeam_insert_of_le h.stop_seam (by omega)
  · rwa [show (s.grow (Text.size before) (Text.size piece)).stop = _ from Nat.max_eq_right hle]

theorem isEmpty_grow {s : Span} (hs : s.start ≤ s.stop) (offset size : Nat) :
    (s.grow offset size).isEmpty = s.isEmpty := by
  rw [Bool.eq_iff_iff, isEmpty_iff, isEmpty_iff]
  unfold Span.grow
  dsimp only
  split <;> split <;> omega

/-! ## Cuts -/

theorem isSeam_pull {before mid after : List Char} {n : Nat}
    (h : Text.IsSeam (before ++ mid ++ after) n) :
    Text.IsSeam (before ++ after)
      (pull ⟨Text.size before, Text.size before + Text.size mid⟩ n) := by
  unfold pull Span.length
  dsimp only
  split
  next hle =>
    rw [List.append_assoc] at h
    exact (h.of_le hle).append after
  next =>
    split
    next hge =>
      have hshift := (h.of_ge (by rwa [Text.size_append])).shift before
      rw [Text.size_append] at hshift
      rwa [show n - (Text.size before + Text.size mid - Text.size before) =
        Text.size before + (n - (Text.size before + Text.size mid)) by omega]
    next => exact Text.isSeam_append before after

theorem Fits.shrink {s : Span} {before mid after : List Char}
    (h : s.Fits (before ++ mid ++ after)) :
    (s.shrink ⟨Text.size before, Text.size before + Text.size mid⟩).Fits (before ++ after) where
  forward := start_le_stop_shrink (Nat.le_add_right _ _) h.forward
  start_seam := isSeam_pull h.start_seam
  stop_seam := isSeam_pull h.stop_seam

-- a cut brings two offsets together only when it takes all that is between them
theorem pull_lt_pull {cut : Span} (hcut : cut.start ≤ cut.stop) {m n : Nat} (hmn : m < n)
    (hout : ¬ (cut.start ≤ m ∧ n ≤ cut.stop)) : pull cut m < pull cut n := by
  unfold pull length
  by_cases hm : m ≤ cut.start
  · rw [if_pos hm]
    split
    · exact hmn
    · split <;> omega
  · rw [if_neg hm, if_neg (by omega : ¬ n ≤ cut.start)]
    have hn : cut.stop ≤ n := by omega
    rw [if_pos hn]
    split <;> omega

-- a cut that does not take all of a span does not empty it, and never fills an empty one
theorem isEmpty_shrink {s cut : Span} (hcut : cut.start ≤ cut.stop) (hs : s.start ≤ s.stop)
    (hkept : s.isEmpty = true ∨ cut.covers s = false) :
    (s.shrink cut).isEmpty = s.isEmpty := by
  rw [Bool.eq_iff_iff, isEmpty_iff, isEmpty_iff]
  rw [isEmpty_iff, ← Bool.not_eq_true, covers_iff] at hkept
  constructor
  · intro h
    rcases hkept with hempty | hout
    · exact hempty
    · rcases Nat.eq_or_lt_of_le hs with hempty | hlt
      · exact hempty
      · have hlt' : pull cut s.start < pull cut s.stop := pull_lt_pull hcut hlt hout
        exact absurd h (Nat.ne_of_lt hlt')
  · intro h
    show pull cut s.start = pull cut s.stop
    rw [h]

end Span
end StickyScroll
