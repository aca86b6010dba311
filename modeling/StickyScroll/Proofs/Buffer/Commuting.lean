import Mathlib.Data.List.Perm.Basic
import Mathlib.Data.List.Perm.Lattice
import Mathlib.Tactic.SplitIfs
import StickyScroll.Proofs.Buffer.History

/-!
# Edits that commute

Two edits that do not touch can be made in either order. The one that lies further on is made at
offsets that the other shifts when it comes first; the one in front is made where it is either way.
Both orders are accepted and leave the same buffer.

Spans carry the argument: an edit in front and an edit behind it move every span to the same place
in both orders. What a cut drops follows from that, for a span is dropped exactly if there was text
under it and there is none left once it has moved. So both orders leave the same anchors, and the
order of anchors leaves only one list for them.
-/

namespace StickyScroll

namespace Span

variable {s cut : Span} {start stop m n : Nat}

/-! ## One edit -/

-- a place is in front of a span or at its start, inside it, or behind its start and not before its
-- stop
theorem place_cases (start stop n : Nat) :
    n ≤ start ∨ (start < n ∧ n < stop) ∨ (start < n ∧ stop ≤ n) := by
  omega

-- a span behind the place of an insertion, or with its start there
theorem grow_of_le (hs : start ≤ stop) (hn : n ≤ start) (k : Nat) :
    grow ⟨start, stop⟩ n k = ⟨start + k, stop + k⟩ := by
  simp only [grow, if_pos hn, Span.mk.injEq, true_and]
  split <;> omega

-- a span around the place of an insertion
theorem grow_of_between (hstart : start < n) (hstop : n < stop) (k : Nat) :
    grow ⟨start, stop⟩ n k = ⟨start, stop + k⟩ := by
  simp only [grow, if_neg (Nat.not_le.2 hstart), if_pos hstop, Span.mk.injEq, true_and]
  omega

-- a span in front of the place of an insertion
theorem grow_of_ge (hs : start ≤ stop) (hstart : start < n) (hstop : stop ≤ n) (k : Nat) :
    grow ⟨start, stop⟩ n k = ⟨start, stop⟩ := by
  simp only [grow, if_neg (Nat.not_le.2 hstart), if_neg (Nat.not_lt.2 hstop), Span.mk.injEq,
    true_and]
  omega

theorem grow_zero (hs : s.start ≤ s.stop) (n : Nat) : s.grow n 0 = s := by
  simp only [grow, Nat.add_zero, ite_self, Nat.max_eq_left hs]

theorem pull_of_le (hn : n ≤ cut.start) : pull cut n = n := by
  rw [pull, if_pos hn]

theorem pull_of_ge (hcut : cut.start ≤ cut.stop) (hn : cut.stop ≤ n) :
    pull cut n = n - cut.length := by
  rw [pull, length]
  by_cases hle : n ≤ cut.start
  · rw [if_pos hle]
    omega
  · rw [if_neg hle, if_pos hn]

theorem pull_of_mem (hstart : cut.start ≤ n) (hstop : n ≤ cut.stop) : pull cut n = cut.start := by
  simp only [pull, length]
  split_ifs <;> omega

theorem pull_add (cut : Span) (n k : Nat) :
    pull ⟨cut.start + k, cut.stop + k⟩ (n + k) = pull cut n + k := by
  simp only [pull, length]
  split_ifs <;> omega

theorem le_pull (hcut : cut.start ≤ cut.stop) (hm : m ≤ cut.start) (hmn : m ≤ n) :
    m ≤ pull cut n := by
  have hle := pull_le_pull hcut hmn
  rwa [pull_of_le hm] at hle

-- a span in front of a cut
theorem shrink_of_le (hstart : start ≤ cut.start) (hstop : stop ≤ cut.start) :
    shrink ⟨start, stop⟩ cut = ⟨start, stop⟩ := by
  rw [shrink, pull_of_le hstart, pull_of_le hstop]

theorem shrink_of_isEmpty (hcut : cut.start = cut.stop) (s : Span) : s.shrink cut = s := by
  have hstill (n : Nat) : pull cut n = n := by
    simp only [pull, length]
    split_ifs <;> omega
  rw [shrink, hstill, hstill]

theorem isEmpty_shrink_of_isEmpty (hs : s.isEmpty = true) (cut : Span) :
    (s.shrink cut).isEmpty = true := by
  rw [isEmpty_iff] at hs ⊢
  rw [shrink, hs]

/-! ## Two edits, in either order -/

theorem grow_grow (hs : s.start ≤ s.stop) (hmn : m < n) (k l : Nat) :
    (s.grow m k).grow (n + k) l = (s.grow n l).grow m k := by
  obtain ⟨start, stop⟩ := s
  dsimp only at hs
  rcases place_cases start stop m with hm | ⟨hm, hm'⟩ | ⟨hm, hm'⟩ <;>
    rcases place_cases start stop n with hn | ⟨hn, hn'⟩ | ⟨hn, hn'⟩ <;>
    simp (disch := omega) only [grow_of_le, grow_of_between, grow_of_ge, Nat.add_right_comm]

-- an insertion in front of a cut
theorem shrink_grow (cut : Span) (hs : s.start ≤ s.stop) (hcut : cut.start ≤ cut.stop)
    (hn : n < cut.start) (k : Nat) :
    (s.grow n k).shrink ⟨cut.start + k, cut.stop + k⟩ = (s.shrink cut).grow n k := by
  obtain ⟨start, stop⟩ := s
  dsimp only at hs
  have hfront (m : Nat) (hm : m < n) : pull ⟨cut.start + k, cut.stop + k⟩ m = m :=
    pull_of_le (show m ≤ cut.start + k by omega)
  rcases place_cases start stop n with hle | ⟨hstart, hstop⟩ | ⟨hstart, hstop⟩
  · -- the span moves on with the cut, and the cut does not pull it in front of the insertion
    have hpulled := le_pull hcut (Nat.le_of_lt hn) hle
    rw [grow_of_le hs hle, shrink, pull_add, pull_add, shrink,
      grow_of_le (pull_le_pull hcut hs) hpulled]
  · -- only the stop moves on
    have hstill : pull cut start = start := pull_of_le (by omega)
    have hpulled : n < pull cut stop := le_pull hcut hn hstop
    rw [grow_of_between hstart hstop]
    simp only [shrink, pull_add, hfront start hstart, hstill, grow_of_between hstart hpulled]
  · rw [grow_of_ge hs hstart hstop, shrink_of_le (by dsimp only; omega) (by dsimp only; omega),
      shrink_of_le (by omega) (by omega), grow_of_ge hs hstart hstop]

-- an insertion behind a cut
theorem grow_shrink (cut : Span) (hs : s.start ≤ s.stop) (hcut : cut.start ≤ cut.stop)
    (hn : cut.stop < n) (k : Nat) :
    (s.shrink cut).grow (n - cut.length) k = (s.grow n k).shrink cut := by
  obtain ⟨start, stop⟩ := s
  dsimp only at hs
  have hfurther (m : Nat) (hm : n ≤ m) : pull cut (m + k) = pull cut m + k := by
    rw [pull_of_ge hcut (by omega), pull_of_ge hcut (by omega), length]
    omega
  -- the place of the insertion is pulled along, and nothing is pulled past it
  have hplace : pull cut n = n - cut.length := pull_of_ge hcut (Nat.le_of_lt hn)
  have hfront (m : Nat) (hm : m < n) : pull cut m < n - cut.length := by
    rw [← hplace]
    exact pull_lt_pull hcut hm (by omega)
  have hbehind (m : Nat) (hm : n ≤ m) : n - cut.length ≤ pull cut m := by
    rw [← hplace]
    exact pull_le_pull hcut hm
  rcases place_cases start stop n with hle | ⟨hstart, hstop⟩ | ⟨hstart, hstop⟩
  · rw [grow_of_le hs hle, shrink, shrink, hfurther start hle, hfurther stop (by omega),
      grow_of_le (pull_le_pull hcut hs) (hbehind start hle)]
  · have hpulled : n - cut.length < pull cut stop := by
      rw [← hplace]
      exact pull_lt_pull hcut hstop (by omega)
    rw [grow_of_between hstart hstop, shrink, shrink, hfurther stop (Nat.le_of_lt hstop),
      grow_of_between (hfront start hstart) hpulled]
  · have hpulled : pull cut stop ≤ n - cut.length := by
      rw [← hplace]
      exact pull_le_pull hcut hstop
    rw [grow_of_ge hs hstart hstop, shrink,
      grow_of_ge (pull_le_pull hcut hs) (hfront start hstart) hpulled]

-- two cuts, which may meet
theorem shrink_shrink (s cut later : Span) (hcut : cut.start ≤ cut.stop)
    (hlater : later.start ≤ later.stop) (hle : cut.stop ≤ later.start) :
    (s.shrink cut).shrink ⟨later.start - cut.length, later.stop - cut.length⟩ =
      (s.shrink later).shrink cut := by
  have hpull (n : Nat) : pull ⟨later.start - cut.length, later.stop - cut.length⟩ (pull cut n) =
      pull cut (pull later n) := by
    simp only [pull, length]
    split_ifs <;> omega
  simp only [shrink, hpull]

end Span

/-! ## Lists in order -/

-- the order of anchors leaves one list for the same anchors
theorem Anchor.Ordered.ext {xs ys : List Anchor} (hxs : Anchor.Ordered xs)
    (hys : Anchor.Ordered ys) (hmem : ∀ a, a ∈ xs ↔ a ∈ ys) : xs = ys := by
  have hirrefl (a b : Anchor) (hab : a.before b = true) : a ≠ b := by
    rintro rfl
    rw [Anchor.before_iff] at hab
    omega
  have hperm : xs.Perm ys :=
    (List.perm_ext_iff_of_nodup (hxs.imp (hirrefl _ _)) (hys.imp (hirrefl _ _))).2 hmem
  refine hperm.eq_of_pairwise ?_ hxs hys
  intro a b _ _ hab hba
  exact absurd rfl (hirrefl a a (Anchor.before_trans hab hba))

namespace Buffer

variable {b : Buffer}

/-! ## Edited buffers -/

theorem ordered_edited (hnd : (b.anchors.map (·.handle)).Nodup) (text : List Char)
    (keeps : Anchor → Bool) (move : Span → Span) :
    Anchor.Ordered (b.edited text keeps move).anchors :=
  ordered_arrange (nodup_handles_arrange.1 (nodup_handles_edited hnd text keeps move))

theorem edited_congr {text : List Char} {keeps keeps' : Anchor → Bool} {move move' : Span → Span}
    (hkeeps : ∀ a ∈ b.anchors, keeps a = keeps' a)
    (hmove : ∀ a ∈ b.anchors, move a.span = move' a.span) :
    b.edited text keeps move = b.edited text keeps' move' := by
  have hmap : (b.anchors.filter keeps').map (·.moved move) =
      (b.anchors.filter keeps').map (·.moved move') := by
    refine List.map_congr_left ?_
    intro a ha
    rw [Anchor.moved, Anchor.moved, hmove a (List.mem_of_mem_filter ha)]
  rw [edited, edited, List.filter_congr hkeeps, hmap]

-- two edits are one: an anchor is kept if both keep it, and moved twice
theorem edited_edited (hnd : (b.anchors.map (·.handle)).Nodup) (text text' : List Char)
    (keeps keeps' : Anchor → Bool) (move move' : Span → Span) :
    (b.edited text keeps move).edited text' keeps' move' =
      b.edited text' (fun a => keeps a && keeps' (a.moved move)) (move' ∘ move) := by
  have hanchors : ((b.edited text keeps move).edited text' keeps' move').anchors =
      (b.edited text' (fun a => keeps a && keeps' (a.moved move)) (move' ∘ move)).anchors := by
    refine Anchor.Ordered.ext (ordered_edited (nodup_handles_edited hnd _ _ _) _ _ _)
      (ordered_edited hnd _ _ _) ?_
    intro a
    simp only [mem_anchors_edited, Bool.and_eq_true]
    constructor
    · rintro ⟨_, ⟨o, ho, hkept, rfl⟩, hkept', rfl⟩
      exact ⟨o, ho, ⟨hkept, hkept'⟩, rfl⟩
    · rintro ⟨o, ho, ⟨hkept, hkept'⟩, rfl⟩
      exact ⟨o.moved move, ⟨o, ho, hkept, rfl⟩, hkept', rfl⟩
  exact congrArg (Buffer.mk b.id text' · b.nextHandle) hanchors

theorem edited_of_still (h : b.WellFormed) {keeps : Anchor → Bool} {move : Span → Span}
    (hkeeps : ∀ a ∈ b.anchors, keeps a = true) (hmove : ∀ a ∈ b.anchors, move a.span = a.span) :
    b.edited b.text keeps move = b := by
  have hanchors : (b.edited b.text keeps move).anchors = b.anchors := by
    refine Anchor.Ordered.ext (ordered_edited h.distinct _ _ _) h.ordered ?_
    intro a
    rw [mem_anchors_edited]
    constructor
    · rintro ⟨o, ho, -, rfl⟩
      rwa [Anchor.moved, hmove o ho]
    · intro ha
      refine ⟨a, ha, hkeeps a ha, ?_⟩
      rw [Anchor.moved, hmove a ha]
  exact congrArg (Buffer.mk b.id b.text · b.nextHandle) hanchors

/-! ## What one edit leaves -/

-- a cut drops an anchor if there was text under it and there is none left
theorem survives_eq {cut : Span} (hcut : cut.start ≤ cut.stop) {a : Anchor}
    (ha : a.span.start ≤ a.span.stop) :
    survives cut a = (a.span.isEmpty || !(a.span.shrink cut).isEmpty) := by
  rw [survives]
  cases hcov : cut.covers a.span with
  | true =>
    obtain ⟨hstart, hstop⟩ := Span.covers_iff.1 hcov
    have hempty : (a.span.shrink cut).isEmpty = true := by
      rw [Span.isEmpty_iff, Span.shrink, Span.pull_of_mem hstart (by omega),
        Span.pull_of_mem (by omega) hstop]
    rw [hempty]
  | false =>
    rw [Span.isEmpty_shrink hcut ha (Or.inr hcov)]
    cases a.span.isEmpty <;> rfl

/-- The edit is accepted and leaves the buffer `b`. -/
structure Leaves (edit : Edit) (b : Buffer) : Prop where
  accepted : edit.result = .ok ()
  left : edit.buffer = b

-- in a well-formed buffer an insertion of nothing is no exception
theorem leaves_insert (h : b.WellFormed) {before after : List Char} {offset : Nat}
    (htext : b.text = before ++ after) (hoffset : Text.size before = offset) (piece : List Char) :
    Leaves (b.insert offset piece)
      (b.edited (before ++ piece ++ after) (fun _ => true) (·.grow offset (Text.size piece))) := by
  subst hoffset
  rw [insert_of_text htext]
  split
  next hempty =>
    rw [List.isEmpty_iff.1 hempty, List.append_nil, ← htext]
    refine ⟨rfl, (edited_of_still h (fun _ _ => rfl) ?_).symm⟩
    intro a ha
    exact Span.grow_zero (h.fits a ha).forward _
  next => exact ⟨rfl, rfl⟩

-- and neither is a cut of nothing
theorem leaves_delete (h : b.WellFormed) {before mid after : List Char} {start stop : Nat}
    (htext : b.text = before ++ mid ++ after) (hstart : Text.size before = start)
    (hstop : Text.size before + Text.size mid = stop) :
    Leaves (b.delete start stop)
      (b.edited (before ++ after) (survives ⟨start, stop⟩) (·.shrink ⟨start, stop⟩)) := by
  subst hstart hstop
  rw [delete_of_text htext]
  split
  next hempty =>
    obtain rfl := List.isEmpty_iff.1 hempty
    rw [List.append_nil] at htext
    rw [← htext]
    refine ⟨rfl, (edited_of_still h ?_ fun a _ => Span.shrink_of_isEmpty rfl a.span).symm⟩
    intro a ha
    rw [survives_eq (Nat.le_refl _) (h.fits a ha).forward, Span.shrink_of_isEmpty rfl]
    exact Bool.or_not_self _
  next => exact ⟨rfl, rfl⟩

/-! ## Two edits -/

theorem survives_grow_of_lt (cut : Span) (hcut : cut.start ≤ cut.stop) {n : Nat}
    (hn : n < cut.start) {a : Anchor} (ha : a.span.start ≤ a.span.stop) (k : Nat) :
    survives ⟨cut.start + k, cut.stop + k⟩ (a.moved (·.grow n k)) = survives cut a := by
  rw [survives_eq (Nat.add_le_add_right hcut k) (Span.start_le_stop_grow a.span n k),
    survives_eq hcut ha, Anchor.moved, Span.shrink_grow cut ha hcut hn, Span.isEmpty_grow ha,
    Span.isEmpty_grow (Span.start_le_stop_shrink hcut ha)]

theorem survives_grow_of_gt (cut : Span) (hcut : cut.start ≤ cut.stop) {n : Nat}
    (hn : cut.stop < n) {a : Anchor} (ha : a.span.start ≤ a.span.stop) (k : Nat) :
    survives cut (a.moved (·.grow n k)) = survives cut a := by
  rw [survives_eq hcut (Span.start_le_stop_grow a.span n k), survives_eq hcut ha, Anchor.moved,
    ← Span.grow_shrink cut ha hcut hn, Span.isEmpty_grow ha,
    Span.isEmpty_grow (Span.start_le_stop_shrink hcut ha)]

-- an anchor outlives two cuts if it was empty or there is text left under it in the end
theorem survives_and_survives {cut cut' : Span} (hcut : cut.start ≤ cut.stop)
    (hcut' : cut'.start ≤ cut'.stop) {a : Anchor} (ha : a.span.start ≤ a.span.stop) :
    (survives cut a && survives cut' (a.moved (·.shrink cut))) =
      (a.span.isEmpty || !((a.span.shrink cut).shrink cut').isEmpty) := by
  rw [survives_eq hcut ha, survives_eq hcut' (Span.start_le_stop_shrink hcut ha), Anchor.moved]
  cases hempty : a.span.isEmpty with
  | true =>
    rw [Span.isEmpty_shrink_of_isEmpty hempty]
    rfl
  | false =>
    cases hcovered : (a.span.shrink cut).isEmpty with
    | true =>
      rw [Span.isEmpty_shrink_of_isEmpty hcovered]
      rfl
    | false => rfl

/-- The first edit is accepted, the second is accepted on what the first leaves, and that leaves
the buffer `b'`. -/
def Passes (b : Buffer) (first second : Buffer → Edit) (b' : Buffer) : Prop :=
  ∃ mid, Leaves (first b) mid ∧ Leaves (second mid) b'

-- two edits end in the same buffer in both orders if they leave the same text and move the same
-- anchors to the same places
theorem exists_passes (hnd : (b.anchors.map (·.handle)).Nodup)
    {first second first' second' : Buffer → Edit} {text text' done done' : List Char}
    {keeps keeps' later later' : Anchor → Bool} {move move' onward onward' : Span → Span}
    (hfirst : Leaves (first b) (b.edited text keeps move))
    (hsecond : Leaves (second (b.edited text keeps move))
      ((b.edited text keeps move).edited done later onward))
    (hfirst' : Leaves (first' b) (b.edited text' keeps' move'))
    (hsecond' : Leaves (second' (b.edited text' keeps' move'))
      ((b.edited text' keeps' move').edited done' later' onward'))
    (hdone : done = done')
    (hkeeps : ∀ a ∈ b.anchors,
      (keeps a && later (a.moved move)) = (keeps' a && later' (a.moved move')))
    (hmove : ∀ a ∈ b.anchors, onward (move a.span) = onward' (move' a.span)) :
    ∃ b', b.Passes first second b' ∧ b.Passes first' second' b' := by
  have hsame : (b.edited text keeps move).edited done later onward =
      (b.edited text' keeps' move').edited done' later' onward' := by
    rw [edited_edited hnd, edited_edited hnd, hdone]
    exact edited_congr hkeeps hmove
  rw [← hsame] at hsecond'
  exact ⟨_, ⟨_, hfirst, hsecond⟩, ⟨_, hfirst', hsecond'⟩⟩

theorem exists_parts {cs : List Char} {m n : Nat} (hm : Text.IsSeam cs m) (hn : Text.IsSeam cs n)
    (hmn : m ≤ n) : ∃ before mid after, cs = before ++ mid ++ after ∧ Text.size before = m ∧
      Text.size before + Text.size mid = n := by
  obtain ⟨before, rest, rfl, rfl⟩ := hm
  obtain ⟨mid, after, rfl, hmid⟩ := hn.of_ge hmn
  exact ⟨before, mid, after, (List.append_assoc ..).symm, rfl, by omega⟩

theorem insert_insert (h : b.WellFormed) {m n : Nat} (hm : Text.IsSeam b.text m)
    (hn : Text.IsSeam b.text n) (hmn : m < n) (s t : List Char) :
    ∃ b', b.Passes (insert · m s) (insert · (n + Text.size s) t) b' ∧
      b.Passes (insert · n t) (insert · m s) b' := by
  obtain ⟨x, y, z, htext, hx, hy⟩ := exists_parts hm hn (Nat.le_of_lt hmn)
  have hfirst := leaves_insert h (htext.trans (List.append_assoc x y z)) hx s
  have hwf := hfirst.left ▸ h.insert m s
  have hsecond := leaves_insert hwf
    (show x ++ s ++ (y ++ z) = (x ++ s ++ y) ++ z by simp)
    (show Text.size (x ++ s ++ y) = n + Text.size s by simp; omega) t
  have hfirst' := leaves_insert h htext ((Text.size_append x y).trans hy) t
  have hwf' := hfirst'.left ▸ h.insert n t
  have hsecond' := leaves_insert hwf' (show x ++ y ++ t ++ z = x ++ (y ++ t ++ z) by simp) hx s
  refine exists_passes h.distinct hfirst hsecond hfirst' hsecond' (by simp) ?_ ?_
  · intro a _
    rfl
  · intro a ha
    exact Span.grow_grow (h.fits a ha).forward hmn _ _

theorem insert_delete_of_lt (h : b.WellFormed) {n start stop : Nat} (hn : Text.IsSeam b.text n)
    (hacc : b.Accepts start stop) (hlt : n < start) (t : List Char) :
    ∃ b', b.Passes (insert · n t) (delete · (start + Text.size t) (stop + Text.size t)) b' ∧
      b.Passes (delete · start stop) (insert · n t) b' := by
  obtain ⟨hle, hstart, hstop⟩ := hacc
  obtain ⟨front, cut, z, htext, hfront, hcut⟩ := exists_parts hstart hstop hle
  rw [htext, List.append_assoc] at hn
  obtain ⟨x, y, hxy, hx⟩ := hn.of_le (by omega)
  subst hxy
  rw [Text.size_append] at hfront hcut
  have hfirst := leaves_insert h (show b.text = x ++ (y ++ cut ++ z) by simp [htext]) hx t
  have hwf := hfirst.left ▸ h.insert n t
  have hsecond := leaves_delete hwf
    (show x ++ t ++ (y ++ cut ++ z) = (x ++ t ++ y) ++ cut ++ z by simp)
    (show Text.size (x ++ t ++ y) = start + Text.size t by simp; omega)
    (show Text.size (x ++ t ++ y) + Text.size cut = stop + Text.size t by simp; omega)
  have hfirst' := leaves_delete h htext ((Text.size_append x y).trans hfront)
    (by rw [Text.size_append, hcut])
  have hwf' := hfirst'.left ▸ h.delete start stop
  have hsecond' := leaves_insert hwf' (show x ++ y ++ z = x ++ (y ++ z) by simp) hx t
  refine exists_passes h.distinct hfirst hsecond hfirst' hsecond' (by simp) ?_ ?_
  · intro a ha
    rw [Bool.true_and, Bool.and_true]
    exact survives_grow_of_lt ⟨start, stop⟩ hle hlt (h.fits a ha).forward _
  · intro a ha
    exact Span.shrink_grow ⟨start, stop⟩ (h.fits a ha).forward hle hlt _

theorem insert_delete_of_gt (h : b.WellFormed) {n start stop : Nat} (hn : Text.IsSeam b.text n)
    (hacc : b.Accepts start stop) (hlt : stop < n) (t : List Char) :
    ∃ b', b.Passes (insert · n t) (delete · start stop) b' ∧
      b.Passes (delete · start stop) (insert · (n - (stop - start)) t) b' := by
  obtain ⟨hle, hstart, hstop⟩ := hacc
  obtain ⟨x, cut, back, htext, hx, hcut⟩ := exists_parts hstart hstop hle
  rw [htext] at hn
  obtain ⟨y, z, rfl, hy⟩ := hn.of_ge (by rw [Text.size_append]; omega)
  rw [Text.size_append] at hy
  have hfirst := leaves_insert h (show b.text = (x ++ cut ++ y) ++ z by simp [htext])
    (show Text.size (x ++ cut ++ y) = n by simp; omega) t
  have hwf := hfirst.left ▸ h.insert n t
  have hsecond := leaves_delete hwf
    (show x ++ cut ++ y ++ t ++ z = x ++ cut ++ (y ++ t ++ z) by simp) hx hcut
  have hfirst' := leaves_delete h htext hx hcut
  have hwf' := hfirst'.left ▸ h.delete start stop
  have hsecond' := leaves_insert hwf' (show x ++ (y ++ z) = (x ++ y) ++ z by simp)
    (show Text.size (x ++ y) = n - (stop - start) by simp; omega) t
  refine exists_passes h.distinct hfirst hsecond hfirst' hsecond' (by simp) ?_ ?_
  · intro a ha
    rw [Bool.true_and, Bool.and_true]
    exact survives_grow_of_gt ⟨start, stop⟩ hle hlt (h.fits a ha).forward _
  · intro a ha
    exact (Span.grow_shrink ⟨start, stop⟩ (h.fits a ha).forward hle hlt _).symm

theorem delete_delete (h : b.WellFormed) {start stop start' stop' : Nat}
    (hacc : b.Accepts start stop) (hacc' : b.Accepts start' stop') (hmeet : stop ≤ start') :
    ∃ b', b.Passes (delete · start stop)
        (delete · (start' - (stop - start)) (stop' - (stop - start))) b' ∧
      b.Passes (delete · start' stop') (delete · start stop) b' := by
  obtain ⟨hle, hstart, hstop⟩ := hacc
  obtain ⟨hle', hstart', hstop'⟩ := hacc'
  obtain ⟨x, cut, back, htext, hx, hcut⟩ := exists_parts hstart hstop hle
  rw [htext] at hstart' hstop'
  obtain ⟨y, cut', z, rfl, hy, hcut'⟩ := exists_parts
    (hstart'.of_ge (by rw [Text.size_append]; omega))
    (hstop'.of_ge (by rw [Text.size_append]; omega)) (by omega)
  rw [Text.size_append] at hy hcut'
  have hfirst := leaves_delete h htext hx hcut
  have hwf := hfirst.left ▸ h.delete start stop
  have hsecond := leaves_delete hwf (show x ++ (y ++ cut' ++ z) = (x ++ y) ++ cut' ++ z by simp)
    (show Text.size (x ++ y) = start' - (stop - start) by simp; omega)
    (show Text.size (x ++ y) + Text.size cut' = stop' - (stop - start) by simp; omega)
  have hfirst' := leaves_delete h
    (show b.text = (x ++ cut ++ y) ++ cut' ++ z by simp [htext])
    (show Text.size (x ++ cut ++ y) = start' by simp; omega)
    (show Text.size (x ++ cut ++ y) + Text.size cut' = stop' by simp; omega)
  have hwf' := hfirst'.left ▸ h.delete start' stop'
  have hsecond' := leaves_delete hwf' (show x ++ cut ++ y ++ z = x ++ cut ++ (y ++ z) by simp)
    hx hcut
  have hspans (s : Span) :
      (s.shrink ⟨start, stop⟩).shrink ⟨start' - (stop - start), stop' - (stop - start)⟩ =
        (s.shrink ⟨start', stop'⟩).shrink ⟨start, stop⟩ :=
    Span.shrink_shrink s ⟨start, stop⟩ ⟨start', stop'⟩ hle hle' hmeet
  refine exists_passes h.distinct hfirst hsecond hfirst' hsecond' (by simp) ?_ ?_
  · intro a ha
    have hforward := (h.fits a ha).forward
    rw [survives_and_survives hle (Nat.sub_le_sub_right hle' _) hforward,
      survives_and_survives hle' hle hforward]
    exact congrArg (a.span.isEmpty || !Span.isEmpty ·) (hspans a.span)
  · intro a _
    exact hspans a.span

/-- Edits that do not touch commute, in every buffer that can be reached: two insertions at
different places; an insertion and a cut that lies behind or in front of it; two cuts that may meet
but not overlap. Each edit is given where it applies when it comes first and when it comes
second, all four are accepted, and both orders leave the same buffer: the same text, and the same
anchors under the same handles in the same order. -/
theorem independent_edits_commute (id : String) (text : List Char) (changes : List Change) :
    let b := (ofText id text).after changes
    (∀ m n s t, Text.IsSeam b.text m → Text.IsSeam b.text n → m < n →
      ∃ b', b.Passes (insert · m s) (insert · (n + Text.size s) t) b' ∧
        b.Passes (insert · n t) (insert · m s) b') ∧
    (∀ n t start stop, Text.IsSeam b.text n → b.Accepts start stop →
      (n < start →
        ∃ b', b.Passes (insert · n t) (delete · (start + Text.size t) (stop + Text.size t)) b' ∧
          b.Passes (delete · start stop) (insert · n t) b') ∧
      (stop < n →
        ∃ b', b.Passes (insert · n t) (delete · start stop) b' ∧
          b.Passes (delete · start stop) (insert · (n - (stop - start)) t) b')) ∧
    (∀ start stop start' stop', b.Accepts start stop → b.Accepts start' stop' → stop ≤ start' →
      ∃ b', b.Passes (delete · start stop)
          (delete · (start' - (stop - start)) (stop' - (stop - start))) b' ∧
        b.Passes (delete · start' stop') (delete · start stop) b') := by
  intro b
  have h : b.WellFormed := (wellFormed_ofText id text).after changes
  refine ⟨?_, ?_, ?_⟩
  · intro m n s t hm hn hmn
    exact insert_insert h hm hn hmn s t
  · intro n t start stop hn hacc
    refine ⟨?_, ?_⟩
    · intro hlt
      exact insert_delete_of_lt h hn hacc hlt t
    · intro hlt
      exact insert_delete_of_gt h hn hacc hlt t
  · intro start stop start' stop' hacc hacc' hmeet
    exact delete_delete h hacc hacc' hmeet

-- an anchor over an accent and one behind it, under each of the four pairs of edits
theorem accents_commute :
    let b := (ofText "a" ['h', 'é', 'l', 'l', 'o']).after
      [.create .sticky 0 4, .create .sticky 3 5]
    Text.IsSeam b.text 1 ∧ Text.IsSeam b.text 3 ∧ Text.IsSeam b.text 6 ∧ b.Accepts 1 3 ∧
    b.Accepts 3 5 ∧
    (∃ b', b.Passes (insert · 1 ['x']) (insert · 4 ['é']) b' ∧
      b.Passes (insert · 3 ['é']) (insert · 1 ['x']) b') ∧
    (∃ b', b.Passes (insert · 1 ['é']) (delete · 5 7) b' ∧
      b.Passes (delete · 3 5) (insert · 1 ['é']) b') ∧
    (∃ b', b.Passes (insert · 6 ['é']) (delete · 3 5) b' ∧
      b.Passes (delete · 3 5) (insert · 4 ['é']) b') ∧
    ∃ b', b.Passes (delete · 1 3) (delete · 1 3) b' ∧
      b.Passes (delete · 3 5) (delete · 1 3) b' := by
  intro b
  have hone : Text.IsSeam b.text 1 := ⟨['h'], ['é', 'l', 'l', 'o'], rfl, rfl⟩
  have hthree : Text.IsSeam b.text 3 := ⟨['h', 'é'], ['l', 'l', 'o'], rfl, rfl⟩
  have hfive : Text.IsSeam b.text 5 := ⟨['h', 'é', 'l', 'l'], ['o'], rfl, rfl⟩
  have hsix : Text.IsSeam b.text 6 := ⟨['h', 'é', 'l', 'l', 'o'], [], rfl, rfl⟩
  have haccent : b.Accepts 1 3 := ⟨by decide, hone, hthree⟩
  have hletters : b.Accepts 3 5 := ⟨by decide, hthree, hfive⟩
  obtain ⟨hinserts, hmixed, hcuts⟩ := independent_edits_commute "a" ['h', 'é', 'l', 'l', 'o']
    [.create .sticky 0 4, .create .sticky 3 5]
  refine ⟨hone, hthree, hsix, haccent, hletters, ?_, ?_, ?_, ?_⟩
  · exact hinserts 1 3 ['x'] ['é'] hone hthree (by decide)
  · exact (hmixed 1 ['é'] 3 5 hone hletters).1 (by decide)
  · exact (hmixed 6 ['é'] 3 5 hsix hletters).2 (by decide)
  · exact hcuts 1 3 3 5 haccent hletters (by decide)

-- an insertion at the start of a cut touches it, and an anchor around that place tells the orders
-- apart: it keeps what is put in before the cut, and not what is put in behind its new end
example :
    let b := (ofText "a" ['a', 'b', 'c', 'd']).after [.create .sticky 1 3]
    ((b.insert 2 ['x']).buffer.delete 3 5).buffer.anchors.map (·.span) = [⟨1, 3⟩] ∧
    ((b.delete 2 4).buffer.insert 2 ['x']).buffer.anchors.map (·.span) = [⟨1, 2⟩] := by cbv

end Buffer
end StickyScroll
