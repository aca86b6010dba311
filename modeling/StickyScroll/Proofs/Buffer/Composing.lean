import StickyScroll.Proofs.Buffer.Commuting
import StickyScroll.Registry

/-!
# Edits that make one edit

An edit may be made in pieces: a text that is put in piece by piece, from either end, and a text
that is cut out piece by piece, leave what the whole edit leaves. An insertion and the cut of what
was inserted leave everything as it was.

As for edits that commute, spans carry the argument: two moves of a span are one move, or none, and
what two cuts drop follows from where they leave the spans.
-/

namespace StickyScroll

namespace Span

variable {s : Span}

/-! ## Two moves of a span -/

-- a second insertion right behind the first one
theorem grow_grow_behind (hs : s.start ≤ s.stop) (n k l : Nat) :
    (s.grow n k).grow (n + k) l = s.grow n (k + l) := by
  obtain ⟨start, stop⟩ := s
  dsimp only at hs
  rcases place_cases start stop n with hn | ⟨hn, hn'⟩ | ⟨hn, hn'⟩ <;>
    simp (disch := omega) only [grow_of_le, grow_of_between, grow_of_ge, Nat.add_assoc]

-- a second insertion right in front of the first one
theorem grow_grow_in_front (hs : s.start ≤ s.stop) (n k l : Nat) :
    (s.grow n k).grow n l = s.grow n (k + l) := by
  obtain ⟨start, stop⟩ := s
  dsimp only at hs
  rcases place_cases start stop n with hn | ⟨hn, hn'⟩ | ⟨hn, hn'⟩ <;>
    simp (disch := omega) only [grow_of_le, grow_of_between, grow_of_ge, Nat.add_assoc]

-- a second cut right in front of the first one
theorem shrink_shrink_in_front (s : Span) {start mid stop : Nat} (hstart : start ≤ mid)
    (hstop : mid ≤ stop) :
    (s.shrink ⟨mid, stop⟩).shrink ⟨start, mid⟩ = s.shrink ⟨start, stop⟩ := by
  have hpull (n : Nat) : pull ⟨start, mid⟩ (pull ⟨mid, stop⟩ n) = pull ⟨start, stop⟩ n := by
    simp only [pull, length]
    split_ifs <;> omega
  simp only [shrink, hpull]

-- the cut of what was inserted
theorem shrink_grow_self (hs : s.start ≤ s.stop) (n k : Nat) :
    (s.grow n k).shrink ⟨n, n + k⟩ = s := by
  obtain ⟨start, stop⟩ := s
  dsimp only at hs
  have hfront (m : Nat) (hm : m ≤ n) : pull ⟨n, n + k⟩ m = m := pull_of_le hm
  have hbehind (m : Nat) (hm : n ≤ m) : pull ⟨n, n + k⟩ (m + k) = m := by
    rw [pull_of_ge (Nat.le_add_right n k) (Nat.add_le_add_right hm k)]
    simp only [length]
    omega
  rcases place_cases start stop n with hn | ⟨hn, hn'⟩ | ⟨hn, hn'⟩
  · rw [grow_of_le hs hn, shrink, hbehind start hn, hbehind stop (Nat.le_trans hn hs)]
  · rw [grow_of_between hn hn', shrink, hfront start (Nat.le_of_lt hn),
      hbehind stop (Nat.le_of_lt hn')]
  · rw [grow_of_ge hs hn hn', shrink, hfront start (Nat.le_of_lt hn), hfront stop hn']

end Span

namespace Buffer

variable {b : Buffer}

/-! ## Two edits as one -/

-- two edits leave one buffer
theorem Passes.unique {first second : Buffer → Edit} {b' b'' : Buffer}
    (h : b.Passes first second b') (h' : b.Passes first second b'') : b' = b'' := by
  obtain ⟨mid, hfirst, hsecond⟩ := h
  obtain ⟨mid', hfirst', hsecond'⟩ := h'
  have hmid : mid = mid' := hfirst.left.symm.trans hfirst'.left
  subst hmid
  exact hsecond.left.symm.trans hsecond'.left

-- what two edits leave is the buffer edited once, if that keeps what both keep and moves it as both
-- do
theorem passes_edited (hnd : (b.anchors.map (·.handle)).Nodup) {first second : Buffer → Edit}
    {text done : List Char} {keeps later kept : Anchor → Bool} {move onward moves : Span → Span}
    (hfirst : Leaves (first b) (b.edited text keeps move))
    (hsecond : Leaves (second (b.edited text keeps move))
      ((b.edited text keeps move).edited done later onward))
    (hkeeps : ∀ a ∈ b.anchors, (keeps a && later (a.moved move)) = kept a)
    (hmove : ∀ a ∈ b.anchors, onward (move a.span) = moves a.span) :
    b.Passes first second (b.edited done kept moves) := by
  have hsame : (b.edited text keeps move).edited done later onward = b.edited done kept moves := by
    rw [edited_edited hnd]
    exact edited_congr hkeeps hmove
  exact ⟨_, hfirst, hsame ▸ hsecond⟩

section Pieces

variable (h : b.WellFormed)

include h

theorem insert_append {offset : Nat} (hoffset : Text.IsSeam b.text offset) (s t : List Char) :
    ∃ b', Leaves (b.insert offset (s ++ t)) b' ∧
      b.Passes (insert · offset s) (insert · (offset + Text.size s) t) b' ∧
      b.Passes (insert · offset t) (insert · offset s) b' := by
  obtain ⟨x, z, htext, hx⟩ := hoffset
  have hwhole := leaves_insert h htext hx (s ++ t)
  have hfirst := leaves_insert h htext hx s
  have hsecond := leaves_insert (hfirst.left ▸ h.insert offset s)
    (show x ++ s ++ z = (x ++ s) ++ z from rfl)
    (show Text.size (x ++ s) = offset + Text.size s by rw [Text.size_append, hx]) t
  have hfirst' := leaves_insert h htext hx t
  have hsecond' := leaves_insert (hfirst'.left ▸ h.insert offset t)
    (show x ++ t ++ z = x ++ (t ++ z) from List.append_assoc ..) hx s
  rw [Text.size_append, show x ++ (s ++ t) ++ z = x ++ s ++ t ++ z by simp] at hwhole
  rw [show x ++ s ++ (t ++ z) = x ++ s ++ t ++ z by simp] at hsecond'
  refine ⟨_, hwhole, ?_, ?_⟩
  · refine passes_edited h.distinct hfirst hsecond (fun _ _ => rfl) ?_
    intro a ha
    exact Span.grow_grow_behind (h.fits a ha).forward _ _ _
  · refine passes_edited h.distinct hfirst' hsecond' (fun _ _ => rfl) ?_
    intro a ha
    rw [Nat.add_comm (Text.size s)]
    exact Span.grow_grow_in_front (h.fits a ha).forward _ _ _

theorem delete_append {start mid stop : Nat} (hstart : Text.IsSeam b.text start)
    (hmid : Text.IsSeam b.text mid) (hstop : Text.IsSeam b.text stop) (hle : start ≤ mid)
    (hle' : mid ≤ stop) :
    ∃ b', Leaves (b.delete start stop) b' ∧
      b.Passes (delete · mid stop) (delete · start mid) b' ∧
      b.Passes (delete · start mid) (delete · start (start + (stop - mid))) b' := by
  have hfront : b.Accepts start mid := ⟨hle, hstart, hmid⟩
  have hback : b.Accepts mid stop := ⟨hle', hmid, hstop⟩
  obtain ⟨x, y, back, htext, hx, hy⟩ := exists_parts hstart hmid hle
  rw [htext] at hstop
  obtain ⟨w, z, rfl, hw⟩ := hstop.of_ge (by rw [Text.size_append]; omega)
  rw [Text.size_append] at hw
  have hwhole := leaves_delete h (show b.text = x ++ (y ++ w) ++ z by simp [htext]) hx
    (show Text.size x + Text.size (y ++ w) = stop by rw [Text.size_append]; omega)
  have hfirst := leaves_delete h (show b.text = (x ++ y) ++ w ++ z by simp [htext])
    ((Text.size_append x y).trans hy)
    (show Text.size (x ++ y) + Text.size w = stop by rw [Text.size_append]; omega)
  have hsecond := leaves_delete (hfirst.left ▸ h.delete mid stop) rfl hx hy
  have hpasses : b.Passes (delete · mid stop) (delete · start mid)
      (b.edited (x ++ z) (survives ⟨start, stop⟩) (·.shrink ⟨start, stop⟩)) := by
    refine passes_edited h.distinct hfirst hsecond ?_ ?_
    · intro a ha
      have hforward := (h.fits a ha).forward
      rw [survives_and_survives hle' hle hforward, survives_eq (Nat.le_trans hle hle') hforward,
        Span.shrink_shrink_in_front a.span hle hle']
    · intro a _
      exact Span.shrink_shrink_in_front a.span hle hle'
  -- the cut in front may as well come first
  obtain ⟨b', hinturn, hinturn'⟩ := delete_delete h hfront hback (Nat.le_refl mid)
  obtain rfl := hinturn'.unique hpasses
  rw [show mid - (mid - start) = start by omega,
    show stop - (mid - start) = start + (stop - mid) by omega] at hinturn
  exact ⟨_, hwhole, hpasses, hinturn⟩

theorem delete_insert {offset : Nat} (hoffset : Text.IsSeam b.text offset) (t : List Char) :
    b.Passes (insert · offset t) (delete · offset (offset + Text.size t)) b := by
  obtain ⟨x, z, htext, hx⟩ := hoffset
  have hfirst := leaves_insert h htext hx t
  have hsecond := leaves_delete (hfirst.left ▸ h.insert offset t) rfl hx (by rw [hx])
  have hpasses : b.Passes (insert · offset t) (delete · offset (offset + Text.size t))
      (b.edited (x ++ z) (fun _ => true) fun s => s) := by
    refine passes_edited h.distinct hfirst hsecond ?_ ?_
    · -- what is left of a span is the span, so nothing is dropped
      intro a ha
      have hforward := (h.fits a ha).forward
      rw [Bool.true_and, survives_eq (Nat.le_add_right _ _) (Span.start_le_stop_grow ..),
        Anchor.moved, Span.shrink_grow_self hforward, Span.isEmpty_grow hforward]
      exact Bool.or_not_self _
    · intro a ha
      exact Span.shrink_grow_self (h.fits a ha).forward _ _
  rwa [← htext, edited_of_still h (fun _ _ => rfl) fun _ _ => rfl] at hpasses

end Pieces

/-! ## What holds of every buffer that can be reached -/

/-- An edit made in pieces is the edit made at once, in every buffer that can be reached. A text put
in at a place may be put in front part first, with the rest behind it, or back part first, with the
front part before it; a text cut out may be cut out back part first or front part first. All edits
are accepted, and all ways leave the same buffer: the same text, the same anchors under the same
handles in the same order, and the same next handle. -/
theorem edits_in_pieces (id : String) (text : List Char) (changes : List Change) :
    let b := (ofText id text).after changes
    (∀ offset s t, Text.IsSeam b.text offset →
      ∃ b', Leaves (b.insert offset (s ++ t)) b' ∧
        b.Passes (insert · offset s) (insert · (offset + Text.size s) t) b' ∧
        b.Passes (insert · offset t) (insert · offset s) b') ∧
    (∀ start mid stop, Text.IsSeam b.text start → Text.IsSeam b.text mid →
      Text.IsSeam b.text stop → start ≤ mid → mid ≤ stop →
      ∃ b', Leaves (b.delete start stop) b' ∧
        b.Passes (delete · mid stop) (delete · start mid) b' ∧
        b.Passes (delete · start mid) (delete · start (start + (stop - mid))) b') := by
  intro b
  have h : b.WellFormed := (wellFormed_ofText id text).after changes
  refine ⟨?_, ?_⟩
  · intro offset s t hoffset
    exact insert_append h hoffset s t
  · intro start mid stop hstart hmid hstop hle hle'
    exact delete_append h hstart hmid hstop hle hle'

-- an anchor that the first cut shortens and the second one drops, one that stops at the place where
-- the pieces meet, and an empty one there
theorem accents_in_pieces :
    let b := (ofText "a" ['h', 'é', 'l', 'l', 'o']).after
      [.create .sticky 1 4, .create .sticky 0 3, .create .sticky 3 3]
    Text.IsSeam b.text 1 ∧ Text.IsSeam b.text 3 ∧ Text.IsSeam b.text 4 ∧
    (∃ b', Leaves (b.insert 3 ['é', 'x']) b' ∧
      b.Passes (insert · 3 ['é']) (insert · 5 ['x']) b' ∧
      b.Passes (insert · 3 ['x']) (insert · 3 ['é']) b') ∧
    ∃ b', Leaves (b.delete 1 4) b' ∧
      b.Passes (delete · 3 4) (delete · 1 3) b' ∧
      b.Passes (delete · 1 3) (delete · 1 2) b' := by
  intro b
  have hone : Text.IsSeam b.text 1 := ⟨['h'], ['é', 'l', 'l', 'o'], rfl, rfl⟩
  have hthree : Text.IsSeam b.text 3 := ⟨['h', 'é'], ['l', 'l', 'o'], rfl, rfl⟩
  have hfour : Text.IsSeam b.text 4 := ⟨['h', 'é', 'l'], ['l', 'o'], rfl, rfl⟩
  obtain ⟨hinserts, hcuts⟩ := edits_in_pieces "a" ['h', 'é', 'l', 'l', 'o']
    [.create .sticky 1 4, .create .sticky 0 3, .create .sticky 3 3]
  refine ⟨hone, hthree, hfour, ?_, ?_⟩
  · exact hinserts 3 ['é'] ['x'] hthree
  · exact hcuts 1 3 4 hone hthree hfour (by decide) (by decide)

/-- An insertion and the cut of what was inserted leave every buffer that can be reached as it was:
both are accepted, and text, anchors and next handle are the old ones. So whatever a registry is
asked about the buffer, it answers as before. -/
theorem insertion_undone (id : String) (text : List Char) (changes : List Change) :
    let b := (ofText id text).after changes
    ∀ (offset : Nat) (t : List Char), Text.IsSeam b.text offset →
      let put := b.insert offset t
      let undone := put.buffer.delete offset (offset + Text.size t)
      put.result = .ok () ∧ undone.result = .ok () ∧ undone.buffer = b ∧
      ∀ (ι : Type) (r : Registry ι),
        (∀ filter limit,
          r.query undone.buffer filter limit = r.query b filter limit ∧
          r.queryEvents undone.buffer filter limit = r.queryEvents b filter limit) ∧
        (∀ filter, r.lines undone.buffer filter = r.lines b filter) ∧
        (∀ line,
          r.sourceOf? undone.buffer line = r.sourceOf? b line ∧
          Registry.resolve? undone.buffer line = Registry.resolve? b line) ∧
        r.size undone.buffer = r.size b := by
  intro b offset t hoffset put undone
  have h : b.WellFormed := (wellFormed_ofText id text).after changes
  obtain ⟨mid, hput, hundone⟩ := delete_insert h hoffset t
  have hmid : put.buffer = mid := hput.left
  rw [← hmid] at hundone
  have hsame : undone.buffer = b := hundone.left
  refine ⟨hput.accepted, hundone.accepted, hsame, ?_⟩
  intro ι r
  rw [hsame]
  exact ⟨fun _ _ => ⟨rfl, rfl⟩, fun _ => rfl, fun _ => ⟨rfl, rfl⟩, rfl⟩

-- anchors that stop at the place, start there, are empty there, and lie around it
theorem accents_undone :
    let b := (ofText "a" ['h', 'é', 'l', 'l', 'o']).after
      [.create .sticky 1 3, .create .sticky 3 5, .create .sticky 3 3, .create .sticky 0 6]
    b.anchors.map (·.span) = [⟨0, 6⟩, ⟨1, 3⟩, ⟨3, 5⟩, ⟨3, 3⟩] ∧ Text.IsSeam b.text 3 ∧
    ((b.insert 3 ['é', 'x']).buffer.delete 3 6).buffer = b := by
  intro b
  have hthree : Text.IsSeam b.text 3 := ⟨['h', 'é'], ['l', 'l', 'o'], rfl, rfl⟩
  have hundone := insertion_undone "a" ['h', 'é', 'l', 'l', 'o']
    [.create .sticky 1 3, .create .sticky 3 5, .create .sticky 3 3, .create .sticky 0 6] 3
    ['é', 'x'] hthree
  exact ⟨by decide +kernel, hthree, hundone.2.2.1⟩

-- a cut is not undone by putting the text back: what it dropped is gone, and what it shortened
-- grows by none of it
example :
    let b := (ofText "a" ['a', 'b', 'c', 'd']).after [.create .sticky 0 2, .create .sticky 1 2]
    ((b.delete 1 2).buffer.insert 1 ['b']).buffer.text = b.text ∧
    ((b.delete 1 2).buffer.insert 1 ['b']).buffer.anchors.map (·.span) = [⟨0, 1⟩] := by cbv

end Buffer
end StickyScroll
