import Mathlib
import StickyScroll.Text.LineBreak
import StickyScroll.Proofs.Text.Seam

/-!
# Line breaks of a text

The line of an offset is the number of breaks that end at or before it, where a break ends at a seam
behind a character that ends a line, unless the seam goes through a carriage return and a line feed.
So line numbers grow with the offset, by one at a time. In a text that is put together of parts they
add up, as long as no seam between the parts goes through such a pair.
-/

namespace StickyScroll.Text

/-- The seam between the two parts goes through a carriage return and a line feed. -/
def Halves (before after : List Char) : Prop :=
  before.getLast? = some '\r' ∧ after.head? = some '\n'

instance (before after : List Char) : Decidable (Halves before after) :=
  inferInstanceAs (Decidable (_ ∧ _))

/-- A line break of the text ends at the offset: there is a seam, the character in front of it ends
a line, and it is not the first half of a pair. -/
def BreakEnds (cs : List Char) (n : Nat) : Prop :=
  ∃ before after, cs = before ++ after ∧ size before = n ∧
    before.getLast?.any isLineBreak = true ∧ ¬ Halves before after

/-! ## Pairs -/

@[simp] theorem not_halves_nil_left (after : List Char) : ¬ Halves [] after :=
  fun h => nomatch h.1

@[simp] theorem not_halves_nil_right (before : List Char) : ¬ Halves before [] :=
  fun h => nomatch h.2

theorem halves_append_left {before mid : List Char} (hmid : mid ≠ []) (after : List Char) :
    Halves (before ++ mid) after ↔ Halves mid after := by
  rw [Halves, Halves, List.getLast?_append_of_ne_nil _ hmid]

theorem halves_append_right {mid : List Char} (hmid : mid ≠ []) (before after : List Char) :
    Halves before (mid ++ after) ↔ Halves before mid := by
  rw [Halves, Halves, List.head?_append_of_ne_nil _ hmid]

-- a part that is put in between leaves pairs whole if its own seams do, or if it is empty
theorem not_halves_append_left {before mid after : List Char} (hout : ¬ Halves before after)
    (hin : ¬ Halves mid after) : ¬ Halves (before ++ mid) after := by
  by_cases hmid : mid = []
  · rwa [hmid, List.append_nil]
  · rwa [halves_append_left hmid]

theorem not_halves_append_right {before mid after : List Char} (hout : ¬ Halves before after)
    (hin : ¬ Halves before mid) : ¬ Halves before (mid ++ after) := by
  by_cases hmid : mid = []
  · rwa [hmid, List.nil_append]
  · rwa [halves_append_right hmid]

theorem not_halves_of_cons {c : Char} {front after : List Char}
    (hwhole : ¬ Halves (c :: front) after) : ¬ Halves front after := by
  by_cases hfront : front = []
  · rw [hfront]
    exact not_halves_nil_left after
  · have hfirst : Halves ([c] ++ front) after ↔ Halves front after := halves_append_left hfront after
    rwa [← hfirst]

-- whether the first seam of a part goes through a pair does not depend on what follows the part
theorem halves_first_iff {c : Char} {front after : List Char}
    (hwhole : ¬ Halves (c :: front) after) : Halves [c] (front ++ after) ↔ Halves [c] front := by
  by_cases hfront : front = []
  · subst hfront
    exact iff_of_false hwhole (not_halves_nil_right [c])
  · exact halves_append_right hfront [c] after

/-! ## Counting breaks -/

-- behind the first character the breaks are those of the rest
theorem breakEnds_cons_iff {c : Char} {cs : List Char} {n : Nat} :
    BreakEnds (c :: cs) n ↔
      (n = c.utf8Size ∧ isLineBreak c = true ∧ ¬ Halves [c] cs) ∨
        (c.utf8Size < n ∧ BreakEnds cs (n - c.utf8Size)) := by
  constructor
  · rintro ⟨before, after, htext, rfl, hbreak, hwhole⟩
    cases before with
    | nil => simp at hbreak
    | cons d front =>
      obtain ⟨rfl, rfl⟩ := List.cons.inj htext
      cases front with
      | nil => exact Or.inl ⟨rfl, by simpa using hbreak, hwhole⟩
      | cons e front =>
        have he := e.utf8Size_pos
        refine Or.inr ⟨?_, e :: front, after, rfl, ?_, hbreak, hwhole⟩
        · rw [size_cons, size_cons]
          omega
        · rw [size_cons c, Nat.add_sub_cancel_left]
  · rintro (⟨rfl, hbreak, hwhole⟩ | ⟨hlt, before, after, rfl, hsize, hbreak, hwhole⟩)
    · exact ⟨[c], cs, rfl, rfl, by simpa using hbreak, hwhole⟩
    · have hne : before ≠ [] := by
        rintro rfl
        simp at hbreak
      refine ⟨[c] ++ before, after, rfl, ?_, ?_, ?_⟩
      · rw [size_append, size_cons, size_nil]
        omega
      · rwa [List.getLast?_append_of_ne_nil _ hne]
      · rwa [halves_append_left hne]

instance decidableBreakEnds : (cs : List Char) → DecidablePred (BreakEnds cs)
  | [], _ => isFalse fun ⟨_, _, htext, _, hbreak, _⟩ => by
      rw [(List.append_eq_nil_iff.1 htext.symm).1] at hbreak
      exact nomatch hbreak
  | _ :: cs, _ =>
      have := decidableBreakEnds cs
      decidable_of_iff _ breakEnds_cons_iff.symm

theorem BreakEnds.pos {cs : List Char} {n : Nat} (h : BreakEnds cs n) : 0 < n := by
  obtain ⟨before, after, -, rfl, hbreak, -⟩ := h
  refine Nat.pos_of_ne_zero fun hzero => ?_
  rw [size_eq_zero.1 hzero] at hbreak
  exact nomatch hbreak

theorem BreakEnds.le_size {cs : List Char} {n : Nat} (h : BreakEnds cs n) : n ≤ size cs := by
  obtain ⟨before, after, htext, hsize, -, -⟩ := h
  exact IsSeam.le_size ⟨before, after, htext, hsize⟩

-- a line feed that completes a pair ends the break, not the carriage return in front of it
theorem lineAt_cons (c : Char) (cs : List Char) (n : Nat) :
    lineAt (c :: cs) n =
      if n < c.utf8Size then 0
      else lineAt cs (n - c.utf8Size) + if isLineBreak c = true ∧ ¬ Halves [c] cs then 1 else 0 := by
  by_cases hpair : Halves [c] cs
  · obtain ⟨rest, rfl⟩ := List.head?_eq_some_iff.1 hpair.2
    obtain rfl : c = '\r' := by simpa using hpair.1
    have hbehind (m : Nat) : lineAt ('\n' :: rest) m = if m < 1 then 0 else lineAt rest (m - 1) + 1 :=
      lineAt.eq_3 m '\n' rest fun _ h => nomatch h
    have hsize : '\r'.utf8Size = 1 := rfl
    rw [lineAt, hbehind, hsize]
    simp only [hpair, not_true_eq_false, and_false, if_false, Nat.add_zero, Nat.sub_sub,
      Nat.reduceAdd]
    split_ifs with h h' h' <;> omega
  · rw [lineAt.eq_3 n c cs fun rest hc hcs => hpair ⟨congrArg some hc, by rw [hcs]; rfl⟩]
    simp only [hpair, not_false_eq_true, and_true]

/-- The line of an offset is the number of breaks that end at or before it. -/
theorem lineAt_eq_count (cs : List Char) (n : Nat) :
    lineAt cs n = Nat.count (BreakEnds cs) (n + 1) := by
  induction cs generalizing n with
  | nil =>
    rw [lineAt, Nat.count_of_forall_not]
    intro k _ hk
    exact Nat.not_lt_of_le hk.le_size hk.pos
  | cons c cs ih =>
    -- no break ends inside the first character
    have hnone {k : Nat} (hk : k < c.utf8Size) : ¬ BreakEnds (c :: cs) k := by
      rw [breakEnds_cons_iff]
      omega
    rw [lineAt_cons]
    split
    next hlt =>
      rw [Nat.count_of_forall_not]
      intro k hk
      exact hnone (by omega)
    next hle =>
      obtain ⟨m, rfl⟩ := Nat.exists_eq_add_of_le (Nat.le_of_not_lt hle)
      have hfront : Nat.count (BreakEnds (c :: cs)) c.utf8Size = 0 :=
        Nat.count_of_forall_not fun k hk => hnone hk
      have hhere : BreakEnds (c :: cs) (c.utf8Size + 0) ↔
          isLineBreak c = true ∧ ¬ Halves [c] cs := by
        rw [breakEnds_cons_iff, Nat.add_zero, or_iff_left fun h => Nat.lt_irrefl _ h.1]
        exact and_iff_right rfl
      have hbehind (k : Nat) :
          BreakEnds (c :: cs) (c.utf8Size + (k + 1)) ↔ BreakEnds cs (k + 1) := by
        rw [breakEnds_cons_iff, Nat.add_sub_cancel_left, or_iff_right (by omega),
          and_iff_right (by omega)]
      have hzero : ¬ BreakEnds cs 0 := fun h => Nat.lt_irrefl 0 h.pos
      rw [Nat.add_sub_cancel_left]
      calc lineAt cs m + (if isLineBreak c = true ∧ ¬ Halves [c] cs then 1 else 0)
          = Nat.count (fun k => BreakEnds cs (k + 1)) m +
              (if isLineBreak c = true ∧ ¬ Halves [c] cs then 1 else 0) := by
            rw [ih, Nat.count_succ', if_neg hzero, Nat.add_zero]
        _ = Nat.count (fun k => BreakEnds (c :: cs) (c.utf8Size + (k + 1))) m +
              (if BreakEnds (c :: cs) (c.utf8Size + 0) then 1 else 0) := by
            simp only [hbehind, hhere]
        _ = Nat.count (fun k => BreakEnds (c :: cs) (c.utf8Size + k)) (m + 1) :=
            (Nat.count_succ' (fun k => BreakEnds (c :: cs) (c.utf8Size + k)) m).symm
        _ = Nat.count (BreakEnds (c :: cs)) (c.utf8Size + m + 1) := by
            rw [Nat.add_assoc, Nat.count_add _ c.utf8Size, hfront, Nat.zero_add]

/-! ## Line numbers along a text -/

theorem lineAt_le_lineAt (cs : List Char) {m n : Nat} (h : m ≤ n) : lineAt cs m ≤ lineAt cs n := by
  rw [lineAt_eq_count, lineAt_eq_count]
  exact Nat.count_monotone _ (Nat.succ_le_succ h)

theorem lineAt_succ_le (cs : List Char) (n : Nat) : lineAt cs (n + 1) ≤ lineAt cs n + 1 := by
  rw [lineAt_eq_count, lineAt_eq_count, Nat.count_succ _ (n + 1)]
  split <;> omega

-- past the end no more breaks end
theorem lineAt_of_size_le {cs : List Char} {n : Nat} (h : size cs ≤ n) :
    lineAt cs n = lineAt cs (size cs) := by
  induction n, h using Nat.le_induction with
  | base => rfl
  | succ n hle ih =>
    have hnone : ¬ BreakEnds cs (n + 1) := fun hbreak => Nat.not_lt_of_le hbreak.le_size (by omega)
    rw [lineAt_eq_count, Nat.count_succ, if_neg hnone, Nat.add_zero, ← lineAt_eq_count, ih]

/-! ## Texts in parts -/

section Parts

variable {before after : List Char} (hwhole : ¬ Halves before after)

include hwhole

-- what follows a part of the text matters to no break of the part but a pair that is halved
theorem lineAt_append_of_le {n : Nat} (hn : n ≤ size before) :
    lineAt (before ++ after) n = lineAt before n := by
  induction before generalizing n with
  | nil =>
    obtain rfl : n = 0 := Nat.le_zero.1 hn
    simp
  | cons c front ih =>
    rw [List.cons_append, lineAt_cons, lineAt_cons]
    simp only [halves_first_iff hwhole]
    split
    next => rfl
    next =>
      rw [size_cons] at hn
      rw [ih (not_halves_of_cons hwhole) (by omega)]

theorem lineAt_append (n : Nat) :
    lineAt (before ++ after) (size before + n) = lineAt before (size before) + lineAt after n := by
  induction before with
  | nil => simp
  | cons c front ih =>
    have hfront := ih (not_halves_of_cons hwhole)
    have hbehind (m : Nat) : ¬ c.utf8Size + m < c.utf8Size := by omega
    rw [List.cons_append, size_cons, Nat.add_assoc, lineAt_cons, lineAt_cons, if_neg (hbehind _),
      if_neg (hbehind _), Nat.add_sub_cancel_left, Nat.add_sub_cancel_left, hfront]
    simp only [halves_first_iff hwhole]
    omega

end Parts

section Pieces

variable {before piece after : List Char} (hout : ¬ Halves before after)
  (hfront : ¬ Halves before piece) (hback : ¬ Halves piece after)

include hout hfront

-- in front of a piece the lines are those of the text without the piece
theorem lineAt_piece_of_le {n : Nat} (hn : n ≤ size before) :
    lineAt (before ++ piece ++ after) n = lineAt (before ++ after) n := by
  rw [List.append_assoc, lineAt_append_of_le (not_halves_append_right hout hfront) hn,
    lineAt_append_of_le hout hn]

include hback

-- behind a piece the lines are higher by the breaks of the piece
theorem lineAt_piece_of_ge {n : Nat} (hn : size before ≤ n) :
    lineAt (before ++ piece ++ after) (n + size piece) =
      lineAt (before ++ after) n + lineAt piece (size piece) := by
  obtain ⟨m, rfl⟩ := Nat.exists_eq_add_of_le hn
  have hwhole : ¬ Halves (before ++ piece) after := not_halves_append_left hout hback
  rw [show size before + m + size piece = size (before ++ piece) + m by rw [size_append]; omega,
    lineAt_append hwhole, size_append, lineAt_append hfront, lineAt_append hout]
  omega

end Pieces

end StickyScroll.Text
