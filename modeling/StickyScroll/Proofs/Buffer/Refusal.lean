import StickyScroll.Proofs.Buffer.Edit

/-!
# Refusals

An operation that is given offsets does all that is asked of it, or nothing. It is refused exactly
if something is wrong with its offsets, and blames what is wrong first: that they come in the wrong
order, then the start, then the stop. A replacement asks for two edits, the second on a text that
the first has changed; it is refused before the first or not at all, because the place of a cut is
still a seam when the cut is made.
-/

namespace StickyScroll.Buffer

/-- What is wrong with an offset. -/
inductive Misplaced (b : Buffer) (offset : Nat) : Fault → Prop where
  -- it lies past the end of the text
  | past (hlt : b.length < offset) : Misplaced b offset (.outOfBounds offset b.length)
  -- it lies in the text, but inside a character
  | inside (hle : offset ≤ b.length) (hinside : ¬ Text.IsSeam b.text offset) :
      Misplaced b offset (.notBoundary offset)

/-- What is wrong first with the two ends of a span. -/
inductive Flawed (b : Buffer) (start stop : Nat) : Fault → Prop where
  | reversed (hlt : stop < start) : Flawed b start stop (.invalidRange start stop)
  | atStart {fault : Fault} (hle : start ≤ stop) (hstart : b.Misplaced start fault) :
      Flawed b start stop fault
  | atStop {fault : Fault} (hle : start ≤ stop) (hstart : Text.IsSeam b.text start)
      (hstop : b.Misplaced stop fault) : Flawed b start stop fault

variable {b : Buffer} {offset start stop : Nat} {fault : Fault}

/-! ## One offset -/

theorem exists_misplaced (h : ¬ Text.IsSeam b.text offset) : ∃ fault, b.Misplaced offset fault := by
  by_cases hlt : b.length < offset
  · exact ⟨_, .past hlt⟩
  · exact ⟨_, .inside (Nat.not_lt.1 hlt) h⟩

theorem split_of_misplaced (h : b.Misplaced offset fault) : b.split offset = .error fault := by
  unfold split
  cases h with
  | past hlt => rw [if_pos hlt]
  | inside hle hinside =>
    rw [if_neg (Nat.not_lt.2 hle)]
    cases hcut : Text.cut? b.text offset with
    | none => rfl
    | some parts => exact absurd ⟨_, _, Text.eq_append_of_cut? hcut⟩ hinside

theorem split_of_isSeam (h : Text.IsSeam b.text offset) : ∃ parts, b.split offset = .ok parts := by
  obtain ⟨before, after, hparts⟩ := h
  exact ⟨(before, after), split_eq_ok_iff.2 hparts⟩

theorem insert_of_misplaced (h : b.Misplaced offset fault) (piece : List Char) :
    b.insert offset piece = ⟨.error fault, b, []⟩ := by
  unfold insert
  rw [split_of_misplaced h]

/-! ## Two offsets -/

theorem exists_flawed (h : ¬ b.Accepts start stop) : ∃ fault, b.Flawed start stop fault := by
  by_cases hle : start ≤ stop
  · by_cases hstart : Text.IsSeam b.text start
    · have hstop : ¬ Text.IsSeam b.text stop := fun hstop => h ⟨hle, hstart, hstop⟩
      obtain ⟨fault, hfault⟩ := exists_misplaced hstop
      exact ⟨fault, .atStop hle hstart hfault⟩
    · obtain ⟨fault, hfault⟩ := exists_misplaced hstart
      exact ⟨fault, .atStart hle hfault⟩
  · exact ⟨_, .reversed (Nat.not_le.1 hle)⟩

-- a flaw shows in the first of three checks that does not pass
theorem Flawed.check (h : b.Flawed start stop fault) :
    Span.make start stop = .error fault ∨
    (Span.make start stop = .ok ⟨start, stop⟩ ∧ b.split start = .error fault) ∨
    (Span.make start stop = .ok ⟨start, stop⟩ ∧ (∃ parts, b.split start = .ok parts) ∧
      b.split stop = .error fault) := by
  cases h with
  | reversed hlt => exact Or.inl (Span.make_eq_error_iff.2 ⟨hlt, rfl⟩)
  | atStart hle hstart =>
    have hmake := Span.make_eq_ok_iff.2 ⟨hle, rfl⟩
    exact Or.inr (Or.inl ⟨hmake, split_of_misplaced hstart⟩)
  | atStop hle hstart hstop =>
    have hmake := Span.make_eq_ok_iff.2 ⟨hle, rfl⟩
    exact Or.inr (Or.inr ⟨hmake, split_of_isSeam hstart, split_of_misplaced hstop⟩)

theorem delete_of_flawed (h : b.Flawed start stop fault) :
    b.delete start stop = ⟨.error fault, b, []⟩ := by
  unfold delete
  rcases h.check with hmake | ⟨hmake, hstart⟩ | ⟨hmake, ⟨parts, hstart⟩, hstop⟩
  · rw [hmake]
  · simp only [hmake, hstart]
  · simp only [hmake, hstart, hstop]

theorem create_of_flawed (h : b.Flawed start stop fault) (marker : Marker) :
    b.create marker start stop = (.error fault, b) := by
  unfold create
  rcases h.check with hmake | ⟨hmake, hstart⟩ | ⟨hmake, ⟨parts, hstart⟩, hstop⟩
  · rw [hmake]
  · simp only [hmake, hstart]
  · simp only [hmake, hstart, hstop]

theorem replace_of_flawed (h : b.Flawed start stop fault) (piece : List Char) :
    b.replace start stop piece = ⟨.error fault, b, []⟩ := by
  unfold replace
  rw [delete_of_flawed h]

/-! ## What is left when an edit is accepted -/

theorem text_insert {before after : List Char} (htext : b.text = before ++ after)
    (piece : List Char) :
    (b.insert (Text.size before) piece).buffer.text = before ++ piece ++ after := by
  rw [insert_of_text htext]
  split
  next hempty =>
    rw [List.isEmpty_iff.1 hempty, List.append_nil]
    exact htext
  next => rfl

theorem text_delete {before mid after : List Char} (htext : b.text = before ++ mid ++ after) :
    (b.delete (Text.size before) (Text.size before + Text.size mid)).buffer.text =
      before ++ after := by
  rw [delete_of_text htext]
  split
  next hempty => rw [htext, List.isEmpty_iff.1 hempty, List.append_nil]
  next => rfl

-- where a text is divided there are seams
theorem accepts_of_text {before mid after : List Char} (htext : b.text = before ++ mid ++ after) :
    b.Accepts (Text.size before) (Text.size before + Text.size mid) := by
  refine ⟨Nat.le_add_right _ _, ?_, ?_⟩
  · rw [htext, List.append_assoc]
    exact Text.isSeam_append before _
  · rw [htext, ← Text.size_append]
    exact Text.isSeam_append _ after

theorem text_replace {before mid after : List Char} (htext : b.text = before ++ mid ++ after)
    (piece : List Char) :
    (b.replace (Text.size before) (Text.size before + Text.size mid) piece).buffer.text =
      before ++ piece ++ after := by
  rcases replace_cases b (Text.size before) (Text.size before + Text.size mid) piece with
    ⟨_, hnot, -⟩ | ⟨-, heq⟩
  · exact absurd (accepts_of_text htext) hnot
  · rw [heq]
    exact text_insert (text_delete htext) piece

/-! ## All or nothing -/

/-- The answer is given exactly if the input is `valid`, and a fault exactly if that is `wrong`. -/
def Answers {α : Type} (answer : Except Fault α) (valid : Prop) (wrong : Fault → Prop) : Prop :=
  ((∃ value, answer = .ok value) ↔ valid) ∧ ∀ fault, answer = .error fault ↔ wrong fault

theorem answers_of_refused {α : Type} {answer : Except Fault α} {valid : Prop}
    {wrong : Fault → Prop} (hwrong : ∀ fault, wrong fault → answer = .error fault)
    (hexists : ¬ valid → ∃ fault, wrong fault) (hvalid : valid → ∃ value, answer = .ok value) :
    Answers answer valid wrong := by
  by_cases h : valid
  · obtain ⟨value, rfl⟩ := hvalid h
    refine ⟨iff_of_true ⟨value, rfl⟩ h, ?_⟩
    intro fault
    refine iff_of_false (fun herror => nomatch herror) ?_
    intro hfault
    cases hwrong fault hfault
  · obtain ⟨found, hfound⟩ := hexists h
    have hanswer := hwrong found hfound
    refine ⟨iff_of_false ?_ h, ?_⟩
    · rintro ⟨value, hok⟩
      cases hanswer.symm.trans hok
    · intro fault
      constructor
      · intro herror
        cases hanswer.symm.trans herror
        exact hfound
      · exact hwrong fault

theorem answers_insert (b : Buffer) (offset : Nat) (piece : List Char) :
    Answers (b.insert offset piece).result (Text.IsSeam b.text offset) (b.Misplaced offset) := by
  apply answers_of_refused
  · intro fault hfault
    rw [insert_of_misplaced hfault]
  · exact exists_misplaced
  · intro hseam
    exact ⟨(), (result_insert_eq_ok_iff piece).2 hseam⟩

theorem answers_delete (b : Buffer) (start stop : Nat) :
    Answers (b.delete start stop).result (b.Accepts start stop) (b.Flawed start stop) := by
  apply answers_of_refused
  · intro fault hfault
    rw [delete_of_flawed hfault]
  · exact exists_flawed
  · intro hacc
    exact ⟨(), result_delete_eq_ok_iff.2 hacc⟩

theorem answers_replace (b : Buffer) (start stop : Nat) (piece : List Char) :
    Answers (b.replace start stop piece).result (b.Accepts start stop) (b.Flawed start stop) := by
  apply answers_of_refused
  · intro fault hfault
    rw [replace_of_flawed hfault]
  · exact exists_flawed
  · intro hacc
    rcases replace_cases b start stop piece with ⟨_, hnot, -⟩ | ⟨-, heq⟩
    · exact absurd hacc hnot
    · exact ⟨(), congrArg Edit.result heq⟩

theorem answers_create (b : Buffer) (marker : Marker) (start stop : Nat) :
    Answers (b.create marker start stop).1 (b.Accepts start stop) (b.Flawed start stop) := by
  apply answers_of_refused
  · intro fault hfault
    rw [create_of_flawed hfault]
  · exact exists_flawed
  · intro hacc
    rcases create_cases b marker start stop with ⟨_, hnot, -⟩ | ⟨-, heq⟩
    · exact absurd hacc hnot
    · exact ⟨_, congrArg Prod.fst heq⟩

-- a seam lies in the text
theorem isSeam_iff_le_and : Text.IsSeam b.text offset ↔
    offset ≤ b.length ∧ Text.IsSeam b.text offset :=
  ⟨fun h => ⟨h.le_size, h⟩, And.right⟩

theorem accepts_iff : b.Accepts start stop ↔
    start ≤ stop ∧ stop ≤ b.length ∧ Text.IsSeam b.text start ∧ Text.IsSeam b.text stop := by
  constructor
  · rintro ⟨hle, hstart, hstop⟩
    exact ⟨hle, hstop.le_size, hstart, hstop⟩
  · rintro ⟨hle, -, hstart, hstop⟩
    exact ⟨hle, hstart, hstop⟩

/-- An operation that is given offsets is accepted exactly if they lie in the text, in order and at
seams, and is else refused with the first thing that is wrong with them. A refusal changes nothing
and reports nothing. What is accepted is done: above all, a replacement between two seams always
puts the piece where the cut was, whatever the characters are. -/
theorem all_or_nothing (b : Buffer) :
    (∀ offset piece,
      Answers (b.insert offset piece).result (offset ≤ b.length ∧ Text.IsSeam b.text offset)
        (b.Misplaced offset)) ∧
    (∀ start stop,
      let valid :=
        start ≤ stop ∧ stop ≤ b.length ∧ Text.IsSeam b.text start ∧ Text.IsSeam b.text stop
      Answers (b.delete start stop).result valid (b.Flawed start stop) ∧
      (∀ piece, Answers (b.replace start stop piece).result valid (b.Flawed start stop)) ∧
      ∀ marker, Answers (b.create marker start stop).1 valid (b.Flawed start stop)) ∧
    (∀ fault offset start stop piece marker,
      ((b.insert offset piece).result = .error fault →
        b.insert offset piece = ⟨.error fault, b, []⟩) ∧
      ((b.delete start stop).result = .error fault →
        b.delete start stop = ⟨.error fault, b, []⟩) ∧
      ((b.replace start stop piece).result = .error fault →
        b.replace start stop piece = ⟨.error fault, b, []⟩) ∧
      ((b.create marker start stop).1 = .error fault → (b.create marker start stop).2 = b)) ∧
    (∀ before mid after piece, b.text = before ++ mid ++ after →
      let start := Text.size before
      let stop := Text.size before + Text.size mid
      (b.insert start piece).buffer.text = before ++ piece ++ (mid ++ after) ∧
      (b.delete start stop).buffer.text = before ++ after ∧
      (b.replace start stop piece).result = .ok () ∧
      (b.replace start stop piece).buffer.text = before ++ piece ++ after) := by
  refine ⟨?_, ?_, ?_, ?_⟩
  · intro offset piece
    rw [← isSeam_iff_le_and]
    exact answers_insert b offset piece
  · intro start stop valid
    have hvalid : valid = b.Accepts start stop := propext accepts_iff.symm
    rw [hvalid]
    exact ⟨answers_delete b start stop, answers_replace b start stop,
      fun marker => answers_create b marker start stop⟩
  · intro fault offset start stop piece marker
    refine ⟨?_, ?_, ?_, ?_⟩
    · intro herror
      exact insert_of_misplaced (((answers_insert b offset piece).2 fault).1 herror) piece
    · intro herror
      exact delete_of_flawed (((answers_delete b start stop).2 fault).1 herror)
    · intro herror
      exact replace_of_flawed (((answers_replace b start stop piece).2 fault).1 herror) piece
    · intro herror
      rw [create_of_flawed (((answers_create b marker start stop).2 fault).1 herror)]
  · intro before mid after piece htext start stop
    refine ⟨?_, text_delete htext, ?_, text_replace htext piece⟩
    · exact text_insert (htext.trans (List.append_assoc ..)) piece
    · obtain ⟨value, hok⟩ := (answers_replace b start stop piece).1.2 (accepts_of_text htext)
      exact hok

-- an accent takes two bytes, so the second offset lies inside it; both of its ends are seams
theorem accent_all_or_nothing :
    let b := ofText "a" ['h', 'é', '!']
    b.insert 2 ['x'] = ⟨.error (.notBoundary 2), b, []⟩ ∧
    b.replace 2 9 ['x'] = ⟨.error (.notBoundary 2), b, []⟩ ∧
    b.replace 3 1 ['x'] = ⟨.error (.invalidRange 3 1), b, []⟩ ∧
    b.text = ['h'] ++ ['é'] ++ ['!'] ∧
    (b.replace 1 3 ['x', 'y']).result = .ok () ∧
    (b.replace 1 3 ['x', 'y']).buffer.text = ['h', 'x', 'y', '!'] := by
  intro b
  have hinsert : (b.insert 2 ['x']).result = .error (.notBoundary 2) := by rfl
  have hreplace : (b.replace 2 9 ['x']).result = .error (.notBoundary 2) := by rfl
  have hreversed : (b.replace 3 1 ['x']).result = .error (.invalidRange 3 1) := by rfl
  obtain ⟨-, -, hrefused, hdone⟩ := all_or_nothing b
  obtain ⟨-, -, hok, htext⟩ := hdone ['h'] ['é'] ['!'] ['x', 'y'] rfl
  refine ⟨?_, ?_, ?_, rfl, hok, htext⟩
  · exact (hrefused _ 2 0 0 ['x'] .sticky).1 hinsert
  · exact (hrefused _ 0 2 9 ['x'] .sticky).2.2.1 hreplace
  · exact (hrefused _ 0 3 1 ['x'] .sticky).2.2.1 hreversed

end StickyScroll.Buffer
