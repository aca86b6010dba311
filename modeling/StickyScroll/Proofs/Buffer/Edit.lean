import Mathlib.Data.List.Nodup
import StickyScroll.Proofs.Buffer.Order
import StickyScroll.Proofs.Text.Seam

/-!
# What the operations of a buffer do

One statement for each operation says when it is refused, that a refusal changes nothing, and what
it leaves otherwise. Both edits of the text leave a buffer of one form, `Buffer.edited`: some
anchors are kept, the spans of those are moved, and the result is put in order.
-/

namespace StickyScroll.Buffer

/-! ## Places -/

-- a buffer is split exactly where its text falls into the two parts
theorem split_eq_ok_iff {b : Buffer} {offset : Nat} {before after : List Char} :
    b.split offset = .ok (before, after) ↔
      b.text = before ++ after ∧ Text.size before = offset := by
  unfold split length
  constructor
  · intro h
    split at h
    next => cases h
    next =>
      split at h
      next parts hcut =>
        cases h
        exact Text.eq_append_of_cut? hcut
      next => cases h
  · rintro ⟨htext, rfl⟩
    rw [htext, if_neg (by rw [Text.size_append]; omega), Text.cut?_append]

theorem split_cases (b : Buffer) (offset : Nat) :
    (∃ fault, b.split offset = .error fault ∧ ¬ Text.IsSeam b.text offset) ∨
      ∃ before after, b.split offset = .ok (before, after) ∧
        b.text = before ++ after ∧ Text.size before = offset := by
  cases h : b.split offset with
  | error fault =>
    refine Or.inl ⟨fault, rfl, ?_⟩
    rintro ⟨before, after, hparts⟩
    rw [split_eq_ok_iff.2 hparts] at h
    cases h
  | ok parts =>
    obtain ⟨before, after⟩ := parts
    exact Or.inr ⟨before, after, rfl, split_eq_ok_iff.1 h⟩

/-- The offsets that an operation on a span of the text accepts. -/
def Accepts (b : Buffer) (start stop : Nat) : Prop :=
  start ≤ stop ∧ Text.IsSeam b.text start ∧ Text.IsSeam b.text stop

/-! ## Edits -/

/-- The buffer with a new text, in which some anchors are kept and their spans moved. -/
def edited (b : Buffer) (text : List Char) (keeps : Anchor → Bool) (move : Span → Span) : Buffer :=
  { b with text := text, anchors := arrange ((b.anchors.filter keeps).map (·.moved move)) }

@[simp] theorem text_edited (b : Buffer) (text : List Char) (keeps : Anchor → Bool)
    (move : Span → Span) : (b.edited text keeps move).text = text := rfl

theorem mem_anchors_edited {b : Buffer} {text : List Char} {keeps : Anchor → Bool}
    {move : Span → Span} {a : Anchor} :
    a ∈ (b.edited text keeps move).anchors ↔
      ∃ o ∈ b.anchors, keeps o = true ∧ o.moved move = a := by
  simp only [edited, mem_arrange, List.mem_map, List.mem_filter, and_assoc]

theorem nodup_handles_edited {b : Buffer} (hnd : (b.anchors.map (·.handle)).Nodup)
    (text : List Char) (keeps : Anchor → Bool) (move : Span → Span) :
    ((b.edited text keeps move).anchors.map (·.handle)).Nodup := by
  rw [edited, nodup_handles_arrange, List.map_map]
  exact hnd.sublist (List.filter_sublist.map _)

-- an insertion where the text is divided
theorem insert_of_text {b : Buffer} {before after : List Char} (htext : b.text = before ++ after)
    (piece : List Char) :
    b.insert (Text.size before) piece =
      if piece.isEmpty then ⟨.ok (), b, []⟩
      else
        { result := .ok ()
          buffer := b.edited (before ++ piece ++ after) (fun _ => true)
            (·.grow (Text.size before) (Text.size piece))
          events := [.textInserted b.id (Text.size before) (Text.size piece)] } := by
  have hall : b.anchors.filter (fun _ => true) = b.anchors :=
    List.filter_eq_self.2 fun _ _ => rfl
  rw [insert, split_eq_ok_iff.2 ⟨htext, rfl⟩, edited, hall]

-- a cut of one of the parts into which the text is divided
theorem delete_of_text {b : Buffer} {before mid after : List Char}
    (htext : b.text = before ++ mid ++ after) :
    let cut : Span := ⟨Text.size before, Text.size before + Text.size mid⟩
    b.delete cut.start cut.stop =
      if mid.isEmpty then ⟨.ok (), b, []⟩
      else
        { result := .ok ()
          buffer := b.edited (before ++ after) (survives cut) (·.shrink cut)
          events := [.textDeleted b.id cut.start cut.stop
            (b.anchors.length - (b.anchors.filter (survives cut)).length)] } := by
  intro cut
  have hstart : b.split cut.start = .ok (before, mid ++ after) :=
    split_eq_ok_iff.2 ⟨by rw [htext, List.append_assoc], rfl⟩
  have hstop : b.split cut.stop = .ok (before ++ mid, after) :=
    split_eq_ok_iff.2 ⟨htext, Text.size_append before mid⟩
  have hmake : Span.make cut.start cut.stop = .ok cut :=
    Span.make_eq_ok_iff.2 ⟨Nat.le_add_right _ _, rfl⟩
  have hempty : cut.isEmpty = mid.isEmpty := by
    rw [Bool.eq_iff_iff, Span.isEmpty_iff, List.isEmpty_iff, ← Text.size_eq_zero]
    exact Nat.left_eq_add
  simp only [delete, hmake, hstart, hstop, hempty, edited]

-- an insertion is refused off the seams, leaves the buffer alone when nothing is inserted, and else
-- moves every anchor
theorem insert_cases (b : Buffer) (offset : Nat) (piece : List Char) :
    (∃ fault, ¬ Text.IsSeam b.text offset ∧
      b.insert offset piece = ⟨.error fault, b, []⟩) ∨
    (piece = [] ∧ Text.IsSeam b.text offset ∧ b.insert offset piece = ⟨.ok (), b, []⟩) ∨
    ∃ before after, b.text = before ++ after ∧ Text.size before = offset ∧ piece ≠ [] ∧
      b.insert offset piece =
        { result := .ok ()
          buffer := b.edited (before ++ piece ++ after) (fun _ => true)
            (·.grow offset (Text.size piece))
          events := [.textInserted b.id offset (Text.size piece)] } := by
  rcases split_cases b offset with ⟨fault, hsplit, hseam⟩ | ⟨before, after, -, htext, rfl⟩
  · refine Or.inl ⟨fault, hseam, ?_⟩
    rw [insert, hsplit]
  · rw [insert_of_text htext]
    cases piece with
    | nil => exact Or.inr (Or.inl ⟨rfl, ⟨before, after, htext, rfl⟩, rfl⟩)
    | cons c cs =>
      exact Or.inr (Or.inr ⟨before, after, htext, rfl, List.cons_ne_nil c cs, rfl⟩)

/-- A cut is refused off the seams and backwards, leaves the buffer alone when nothing is cut out,
and else drops the anchors that lose all their text and moves the others. -/
theorem delete_cases (b : Buffer) (start stop : Nat) :
    (∃ fault, ¬ b.Accepts start stop ∧ b.delete start stop = ⟨.error fault, b, []⟩) ∨
    (start = stop ∧ Text.IsSeam b.text start ∧ b.delete start stop = ⟨.ok (), b, []⟩) ∨
    ∃ before mid after, b.text = before ++ mid ++ after ∧ Text.size before = start ∧
      Text.size before + Text.size mid = stop ∧ mid ≠ [] ∧
      b.delete start stop =
        { result := .ok ()
          buffer := b.edited (before ++ after) (survives ⟨start, stop⟩) (·.shrink ⟨start, stop⟩)
          events := [.textDeleted b.id start stop
            (b.anchors.length - (b.anchors.filter (survives ⟨start, stop⟩)).length)] } := by
  cases hmake : Span.make start stop with
  | error fault =>
    have hlt := (Span.make_eq_error_iff.1 hmake).1
    refine Or.inl ⟨fault, fun hacc => absurd hacc.1 (Nat.not_le.2 hlt), ?_⟩
    rw [delete, hmake]
  | ok cut =>
    obtain ⟨hle, rfl⟩ := Span.make_eq_ok_iff.1 hmake
    rcases split_cases b start with ⟨fault, hsplit, hseam⟩ | ⟨before, rest, hsplit, htext, rfl⟩
    · refine Or.inl ⟨fault, fun hacc => hseam hacc.2.1, ?_⟩
      simp only [delete, hmake, hsplit]
    rcases split_cases b stop with ⟨fault, hsplit', hseam⟩ | ⟨front, after, -, htext', rfl⟩
    · refine Or.inl ⟨fault, fun hacc => hseam hacc.2.2, ?_⟩
      simp only [delete, hmake, hsplit, hsplit']
    -- what lies between the two places is the part that goes
    obtain ⟨mid, rfl, -⟩ := Text.eq_append_of_size_le (htext.symm.trans htext') hle
    rw [Text.size_append, delete_of_text htext']
    cases mid with
    | nil => exact Or.inr (Or.inl ⟨rfl, ⟨before, rest, htext, rfl⟩, rfl⟩)
    | cons c cs =>
      exact Or.inr (Or.inr
        ⟨before, c :: cs, after, htext', rfl, rfl, List.cons_ne_nil c cs, rfl⟩)

-- what an insertion leaves is the buffer as it was, or with every anchor moved
theorem buffer_insert_cases (b : Buffer) (offset : Nat) (piece : List Char) :
    (b.insert offset piece).buffer = b ∨
    ∃ before after, b.text = before ++ after ∧ Text.size before = offset ∧
      (b.insert offset piece).buffer =
        b.edited (before ++ piece ++ after) (fun _ => true) (·.grow offset (Text.size piece)) := by
  rcases insert_cases b offset piece with
    ⟨_, -, heq⟩ | ⟨-, -, heq⟩ | ⟨before, after, htext, hsize, -, heq⟩
  · exact Or.inl (congrArg Edit.buffer heq)
  · exact Or.inl (congrArg Edit.buffer heq)
  · exact Or.inr ⟨before, after, htext, hsize, congrArg Edit.buffer heq⟩

-- what a cut leaves is the buffer as it was, or without the anchors that lose all their text and
-- with the others moved
theorem buffer_delete_cases (b : Buffer) (start stop : Nat) :
    (b.delete start stop).buffer = b ∨
    ∃ before mid after, b.text = before ++ mid ++ after ∧ Text.size before = start ∧
      Text.size before + Text.size mid = stop ∧
      (b.delete start stop).buffer =
        b.edited (before ++ after) (survives ⟨start, stop⟩) (·.shrink ⟨start, stop⟩) := by
  rcases delete_cases b start stop with
    ⟨_, -, heq⟩ | ⟨-, -, heq⟩ | ⟨before, mid, after, htext, hstart, hstop, -, heq⟩
  · exact Or.inl (congrArg Edit.buffer heq)
  · exact Or.inl (congrArg Edit.buffer heq)
  · exact Or.inr ⟨before, mid, after, htext, hstart, hstop, congrArg Edit.buffer heq⟩

theorem result_insert_eq_ok_iff {b : Buffer} {offset : Nat} (piece : List Char) :
    (b.insert offset piece).result = .ok () ↔ Text.IsSeam b.text offset := by
  rcases insert_cases b offset piece with
    ⟨_, hseam, hb⟩ | ⟨-, hseam, hb⟩ | ⟨before, after, htext, hsize, -, hb⟩
  · rw [hb]
    exact iff_of_false (fun h => nomatch h) hseam
  · rw [hb]
    exact iff_of_true rfl hseam
  · rw [hb]
    exact iff_of_true rfl ⟨before, after, htext, hsize⟩

theorem result_delete_eq_ok_iff {b : Buffer} {start stop : Nat} :
    (b.delete start stop).result = .ok () ↔ b.Accepts start stop := by
  rcases delete_cases b start stop with
    ⟨_, hacc, hb⟩ | ⟨rfl, hseam, hb⟩ | ⟨before, mid, after, htext, rfl, rfl, -, hb⟩
  · rw [hb]
    exact iff_of_false (fun h => nomatch h) hacc
  · rw [hb]
    exact iff_of_true rfl ⟨Nat.le_refl _, hseam, hseam⟩
  · rw [hb]
    refine iff_of_true rfl ⟨Nat.le_add_right _ _, ?_, ?_⟩
    · rw [htext, List.append_assoc]
      exact Text.isSeam_append before _
    · rw [htext, ← Text.size_append]
      exact Text.isSeam_append (before ++ mid) after

-- the start of a cut is still a seam when the cut is made
theorem isSeam_delete {b : Buffer} {start stop : Nat} (h : b.Accepts start stop) :
    Text.IsSeam (b.delete start stop).buffer.text start := by
  rcases delete_cases b start stop with
    ⟨_, hacc, -⟩ | ⟨-, hseam, hb⟩ | ⟨before, mid, after, -, rfl, -, -, hb⟩
  · exact absurd h hacc
  · rw [hb]
    exact hseam
  · rw [hb]
    exact Text.isSeam_append before after

-- a replacement is refused as the cut is, and else is the cut and the insertion at its start, which
-- is never refused
theorem replace_cases (b : Buffer) (start stop : Nat) (piece : List Char) :
    (∃ fault, ¬ b.Accepts start stop ∧ b.replace start stop piece = ⟨.error fault, b, []⟩) ∨
    (b.Accepts start stop ∧
      b.replace start stop piece =
        { result := .ok ()
          buffer := ((b.delete start stop).buffer.insert start piece).buffer
          events := (b.delete start stop).events ++
            ((b.delete start stop).buffer.insert start piece).events }) := by
  by_cases hacc : b.Accepts start stop
  · have hcut := result_delete_eq_ok_iff.2 hacc
    have hput := (result_insert_eq_ok_iff piece).2 (isSeam_delete hacc)
    refine Or.inr ⟨hacc, ?_⟩
    simp only [replace, hcut, hput]
  · rcases delete_cases b start stop with
      ⟨fault, -, hb⟩ | ⟨rfl, hseam, -⟩ | ⟨_, _, _, -, -, -, -, hb⟩
    · refine Or.inl ⟨fault, hacc, ?_⟩
      simp only [replace, hb]
    · exact absurd ⟨Nat.le_refl _, hseam, hseam⟩ hacc
    · exact absurd (result_delete_eq_ok_iff.1 (congrArg Edit.result hb)) hacc

/-! ## Anchors -/

/-- The buffer with one more anchor, put in front of the first that does not come before it. -/
def placed (b : Buffer) (anchor : Anchor) : Buffer :=
  { b with
    anchors := b.anchors.take (bisect (·.before anchor) b.anchors) ++
      anchor :: b.anchors.drop (bisect (·.before anchor) b.anchors)
    nextHandle := b.nextHandle + 1 }

-- the anchor that is made over a span when the next one is asked for
def fresh (b : Buffer) (marker : Marker) (start stop : Nat) : Anchor :=
  ⟨⟨b.nextHandle⟩, ⟨start, stop⟩, marker⟩

-- creation is refused off the seams and backwards, and else places an anchor with the next handle
theorem create_cases (b : Buffer) (marker : Marker) (start stop : Nat) :
    (∃ fault, ¬ b.Accepts start stop ∧ b.create marker start stop = (.error fault, b)) ∨
    (b.Accepts start stop ∧
      b.create marker start stop = (.ok ⟨b.nextHandle⟩, b.placed (b.fresh marker start stop))) := by
  unfold create
  cases hmake : Span.make start stop with
  | error fault =>
    have hlt := (Span.make_eq_error_iff.1 hmake).1
    exact Or.inl ⟨fault, fun hacc => absurd hacc.1 (Nat.not_le.2 hlt), rfl⟩
  | ok span =>
    obtain ⟨hle, rfl⟩ := Span.make_eq_ok_iff.1 hmake
    dsimp only
    rcases split_cases b start with ⟨fault, hsplit, hseam⟩ | ⟨before, rest, hsplit, htext, hstart⟩
    · rw [hsplit]
      exact Or.inl ⟨fault, fun hacc => hseam hacc.2.1, rfl⟩
    rcases split_cases b stop with ⟨fault, hsplit', hseam⟩ | ⟨front, after, hsplit', htext', hstop⟩
    · rw [hsplit, hsplit']
      exact Or.inl ⟨fault, fun hacc => hseam hacc.2.2, rfl⟩
    rw [hsplit, hsplit']
    exact Or.inr ⟨⟨hle, ⟨before, rest, htext, hstart⟩, ⟨front, after, htext', hstop⟩⟩, rfl⟩

theorem mem_anchors_placed {b : Buffer} {anchor a : Anchor} :
    a ∈ (b.placed anchor).anchors ↔ a = anchor ∨ a ∈ b.anchors := by
  have hsplit : a ∈ b.anchors ↔ a ∈ b.anchors.take (bisect (·.before anchor) b.anchors) ∨
      a ∈ b.anchors.drop (bisect (·.before anchor) b.anchors) := by
    rw [← List.mem_append, List.take_append_drop]
  rw [hsplit, placed, List.mem_append, List.mem_cons, or_left_comm]

-- bisection finds the place behind the anchors that come before the new one
theorem anchors_placed {b : Buffer} (h : Anchor.Ordered b.anchors) (anchor : Anchor) :
    (b.placed anchor).anchors =
      b.anchors.filter (·.before anchor) ++
        anchor :: b.anchors.filter fun a => !a.before anchor := by
  have hp := pairwise_before h anchor
  rw [placed, take_bisect hp, drop_bisect hp]

-- an anchor that is placed by bisection leaves the list in order
theorem ordered_placed {b : Buffer} {anchor : Anchor} (h : Anchor.Ordered b.anchors)
    (hnew : ∀ a ∈ b.anchors, a.handle ≠ anchor.handle) :
    Anchor.Ordered (b.placed anchor).anchors := by
  rw [anchors_placed h]
  have hbehind : ∀ a ∈ b.anchors.filter (fun a => !a.before anchor),
      anchor.before a = true := by
    intro a ha
    obtain ⟨hmem, hnot⟩ := List.mem_filter.1 ha
    exact Anchor.before_of_not_before (hnew a hmem) (by simpa using hnot)
  refine List.pairwise_append.2 ⟨h.filter _, List.pairwise_cons.2 ⟨hbehind, h.filter _⟩, ?_⟩
  intro a ha c hc
  have ha' := (List.mem_filter.1 ha).2
  rcases List.mem_cons.1 hc with rfl | hc
  · exact ha'
  · exact Anchor.before_trans ha' (hbehind c hc)

theorem named_iff {handle : Handle} {a : Anchor} : named handle a = true ↔ a.handle = handle := by
  rw [named, beq_iff_eq]

-- where handles differ, dropping a handle takes out exactly the anchor that has it
theorem anchors_drop {b : Buffer} (hnd : (b.anchors.map (·.handle)).Nodup) (handle : Handle) :
    (b.drop handle).2.anchors = b.anchors.filter fun a => !named handle a := by
  unfold drop
  dsimp only
  generalize b.anchors = anchors at hnd
  induction anchors with
  | nil => rfl
  | cons a anchors ih =>
    rw [List.map_cons, List.nodup_cons] at hnd
    cases hn : named handle a with
    | true =>
      rw [List.eraseP_cons_of_pos hn, List.filter_cons_of_neg (by simp [hn]), eq_comm,
        List.filter_eq_self]
      intro c hc
      rw [Bool.not_eq_true', ← Bool.not_eq_true, named_iff]
      intro hceq
      rw [named_iff] at hn
      exact hnd.1 (List.mem_map.2 ⟨c, hc, hceq.trans hn.symm⟩)
    | false =>
      rw [List.eraseP_cons_of_neg (by simp [hn]), List.filter_cons_of_pos (by simp [hn]),
        ih hnd.2]

theorem mem_anchors_drop {b : Buffer} (hnd : (b.anchors.map (·.handle)).Nodup) {handle : Handle}
    {a : Anchor} : a ∈ (b.drop handle).2.anchors ↔ a ∈ b.anchors ∧ a.handle ≠ handle := by
  rw [anchors_drop hnd, List.mem_filter, Bool.not_eq_true', ← Bool.not_eq_true, named_iff]

theorem eq_of_handle_eq {b : Buffer} (hnd : (b.anchors.map (·.handle)).Nodup) {a c : Anchor}
    (ha : a ∈ b.anchors) (hc : c ∈ b.anchors) (h : a.handle = c.handle) : a = c :=
  List.inj_on_of_nodup_map hnd ha hc h

-- where handles differ, the anchor of a handle is the one that has it
theorem anchorOf?_eq_some_iff {b : Buffer} (hnd : (b.anchors.map (·.handle)).Nodup)
    {handle : Handle} {a : Anchor} :
    b.anchorOf? handle = some a ↔ a ∈ b.anchors ∧ a.handle = handle := by
  unfold anchorOf?
  constructor
  · intro h
    exact ⟨List.mem_of_find?_eq_some h, named_iff.1 (List.find?_some h)⟩
  · rintro ⟨hmem, rfl⟩
    cases hfind : b.anchors.find? (named a.handle) with
    | none =>
      have hnone := List.find?_eq_none.1 hfind a hmem
      exact absurd (named_iff.2 rfl) hnone
    | some c =>
      have hc := named_iff.1 (List.find?_some hfind)
      rw [eq_of_handle_eq hnd (List.mem_of_find?_eq_some hfind) hmem hc]

end StickyScroll.Buffer
