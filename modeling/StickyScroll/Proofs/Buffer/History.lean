import StickyScroll.Proofs.Buffer.WellFormed

/-!
# Histories of a buffer

A history is a list of changes, made one after the other, whether they are accepted or refused.
`Buffer.Evolves` relates a buffer to what becomes of it later: an anchor found later was there
before, with the same handle and marker and as empty or full as it was, or has a handle that was
still to come. With it `anchors_of_history` says what holds of the anchors after every history.
-/

namespace StickyScroll

/-- Two states of one anchor: the handle and the marker stay, and so does whether there is text
under it. -/
structure Anchor.Continues (a a' : Anchor) : Prop where
  handle_eq : a'.handle = a.handle
  marker_eq : a'.marker = a.marker
  isEmpty_eq : a'.span.isEmpty = a.span.isEmpty

theorem Anchor.Continues.refl (a : Anchor) : a.Continues a := ⟨rfl, rfl, rfl⟩

theorem Anchor.Continues.trans {a a' a'' : Anchor} (h : a.Continues a') (h' : a'.Continues a'') :
    a.Continues a'' :=
  ⟨h'.handle_eq.trans h.handle_eq, h'.marker_eq.trans h.marker_eq, h'.isEmpty_eq.trans h.isEmpty_eq⟩

namespace Buffer

/-- What can be done to a buffer. -/
inductive Change where
  | insert (offset : Nat) (piece : List Char)
  | delete (start stop : Nat)
  | replace (start stop : Nat) (piece : List Char)
  | create (marker : Marker) (start stop : Nat)
  | drop (handle : Handle)
  deriving DecidableEq, Repr

def Change.creates : Change → Bool
  | create .. => true
  | _ => false

def apply (b : Buffer) : Change → Buffer
  | .insert offset piece => (b.insert offset piece).buffer
  | .delete start stop => (b.delete start stop).buffer
  | .replace start stop piece => (b.replace start stop piece).buffer
  | .create marker start stop => (b.create marker start stop).2
  | .drop handle => (b.drop handle).2

def after (b : Buffer) (changes : List Change) : Buffer := changes.foldl apply b

-- the anchor that a change makes, under the handle that it answers
def made? (b : Buffer) : Change → Option Anchor
  | .create marker start stop =>
      match (b.create marker start stop).1 with
      | .ok handle => some ⟨handle, ⟨start, stop⟩, marker⟩
      | .error _ => none
  | _ => none

/-- The anchors that a list of changes makes, in the order in which they are made and as they are
when they are made. -/
def births : Buffer → List Change → List Anchor
  | _, [] => []
  | b, change :: rest => (b.made? change).toList ++ births (b.apply change) rest

@[simp] theorem after_cons (b : Buffer) (change : Change) (rest : List Change) :
    b.after (change :: rest) = (b.apply change).after rest := rfl

theorem after_append (b : Buffer) (first second : List Change) :
    b.after (first ++ second) = (b.after first).after second :=
  List.foldl_append

theorem WellFormed.apply {b : Buffer} (h : b.WellFormed) (change : Change) :
    (b.apply change).WellFormed := by
  cases change with
  | insert offset piece => exact h.insert offset piece
  | delete start stop => exact h.delete start stop
  | replace start stop piece => exact h.replace start stop piece
  | create marker start stop => exact h.create marker start stop
  | drop handle => exact h.drop handle

theorem WellFormed.after {b : Buffer} (h : b.WellFormed) (changes : List Change) :
    (b.after changes).WellFormed := by
  induction changes generalizing b with
  | nil => exact h
  | cons change rest ih => exact ih (h.apply change)

/-! ## Issued handles -/

-- a change either makes no anchor and issues no handle, or places an anchor with the next one
theorem made?_cases (b : Buffer) (change : Change) :
    (b.made? change = none ∧ (b.apply change).nextHandle = b.nextHandle) ∨
      ∃ marker start stop, change = .create marker start stop ∧ b.Accepts start stop ∧
        b.made? change = some (b.fresh marker start stop) ∧
        b.apply change = b.placed (b.fresh marker start stop) := by
  have hinsert (b : Buffer) (offset : Nat) (piece : List Char) :
      (b.insert offset piece).buffer.nextHandle = b.nextHandle := by
    rcases buffer_insert_cases b offset piece with hb | ⟨_, _, -, -, hb⟩
    · rw [hb]
    · rw [hb]
      rfl
  have hdelete (start stop : Nat) : (b.delete start stop).buffer.nextHandle = b.nextHandle := by
    rcases buffer_delete_cases b start stop with hb | ⟨_, _, _, -, -, -, hb⟩
    · rw [hb]
    · rw [hb]
      rfl
  cases change with
  | insert offset piece => exact Or.inl ⟨rfl, hinsert b offset piece⟩
  | delete start stop => exact Or.inl ⟨rfl, hdelete start stop⟩
  | replace start stop piece =>
    refine Or.inl ⟨rfl, ?_⟩
    show (b.replace start stop piece).buffer.nextHandle = b.nextHandle
    rcases replace_cases b start stop piece with ⟨_, -, hb⟩ | ⟨-, hb⟩
    · rw [hb]
    · rw [hb, hinsert, hdelete]
  | create marker start stop =>
    rcases create_cases b marker start stop with ⟨_, -, hb⟩ | ⟨hacc, hb⟩
    · refine Or.inl ⟨?_, ?_⟩
      · simp only [made?, hb]
      · simp only [Buffer.apply, hb]
    · refine Or.inr ⟨marker, start, stop, rfl, hacc, ?_, ?_⟩
      · simp only [made?, hb, fresh]
      · simp only [Buffer.apply, hb]
  | drop handle => exact Or.inl ⟨rfl, rfl⟩

-- the handles of the anchors that are made are counted up from the next handle
theorem births_ids (b : Buffer) (changes : List Change) :
    (b.births changes).map (·.handle.id) = List.range' b.nextHandle (b.births changes).length := by
  induction changes generalizing b with
  | nil => rfl
  | cons change rest ih =>
    have hrest := ih (b.apply change)
    rw [births]
    rcases made?_cases b change with ⟨hmade, hnext⟩ | ⟨marker, start, stop, -, -, hmade, happly⟩
    · rw [hnext] at hrest
      rw [hmade]
      exact hrest
    · rw [happly] at hrest
      rw [hmade, happly]
      show b.nextHandle :: _ = List.range' b.nextHandle (_ + 1)
      rw [List.range'_succ]
      exact congrArg (b.nextHandle :: ·) hrest

theorem nextHandle_after (b : Buffer) (changes : List Change) :
    (b.after changes).nextHandle = b.nextHandle + (b.births changes).length := by
  induction changes generalizing b with
  | nil => rfl
  | cons change rest ih =>
    rw [after_cons, ih, births, List.length_append]
    rcases made?_cases b change with ⟨hmade, hnext⟩ | ⟨marker, start, stop, -, -, hmade, happly⟩
    · rw [hmade, hnext]
      simp
    · rw [hmade, happly]
      show b.nextHandle + 1 + _ = b.nextHandle + (1 + _)
      omega

theorem length_births_le (b : Buffer) (changes : List Change) :
    (b.births changes).length ≤ changes.countP Change.creates := by
  induction changes generalizing b with
  | nil => exact Nat.le_refl 0
  | cons change rest ih =>
    have hrest := ih (b.apply change)
    rw [births, List.length_append, List.countP_cons]
    rcases made?_cases b change with ⟨hmade, -⟩ | ⟨marker, start, stop, rfl, -, hmade, -⟩
    · rw [hmade]
      simp only [Option.toList_none, List.length_nil]
      omega
    · rw [hmade]
      simp only [Option.toList_some, List.length_singleton, Change.creates, if_true]
      omega

theorem nodup_handles_births (b : Buffer) (changes : List Change) :
    ((b.births changes).map (·.handle)).Nodup := by
  have hids : ((b.births changes).map (·.handle.id)).Nodup := by
    rw [births_ids]
    exact List.nodup_range'
  rw [show (b.births changes).map (·.handle.id) =
    ((b.births changes).map (·.handle)).map Handle.id from (List.map_map ..).symm] at hids
  exact hids.of_map _

/-! ## What becomes of anchors -/

/-- What becomes of a buffer: the anchors found later continue earlier ones or have handles that
were still to come. -/
structure Evolves (b b' : Buffer) : Prop where
  id_eq : b'.id = b.id
  next_le : b.nextHandle ≤ b'.nextHandle
  origin : ∀ a' ∈ b'.anchors, b.nextHandle ≤ a'.handle.id ∨ ∃ a ∈ b.anchors, a.Continues a'

theorem Evolves.refl (b : Buffer) : Evolves b b :=
  ⟨rfl, Nat.le_refl _, fun a ha => Or.inr ⟨a, ha, .refl a⟩⟩

theorem Evolves.trans {b b' b'' : Buffer} (h : Evolves b b') (h' : Evolves b' b'') :
    Evolves b b'' := by
  refine ⟨h'.id_eq.trans h.id_eq, Nat.le_trans h.next_le h'.next_le, ?_⟩
  intro a'' ha''
  rcases h'.origin a'' ha'' with hnew | ⟨a', ha', hcont'⟩
  · exact Or.inl (Nat.le_trans h.next_le hnew)
  · rcases h.origin a' ha' with hnew | ⟨a, ha, hcont⟩
    · rw [← hcont'.handle_eq] at hnew
      exact Or.inl hnew
    · exact Or.inr ⟨a, ha, hcont.trans hcont'⟩

theorem evolves_edited {b : Buffer} {text : List Char} {keeps : Anchor → Bool} {move : Span → Span}
    (hempty : ∀ a ∈ b.anchors, keeps a = true → (move a.span).isEmpty = a.span.isEmpty) :
    Evolves b (b.edited text keeps move) := by
  refine ⟨rfl, Nat.le_refl _, ?_⟩
  intro a' ha'
  obtain ⟨a, ha, hkept, rfl⟩ := mem_anchors_edited.1 ha'
  exact Or.inr ⟨a, ha, rfl, rfl, hempty a ha hkept⟩

theorem evolves_insert {b : Buffer} (h : b.WellFormed) (offset : Nat) (piece : List Char) :
    Evolves b (b.insert offset piece).buffer := by
  rcases buffer_insert_cases b offset piece with hb | ⟨before, after, -, -, hb⟩
  · rw [hb]
    exact .refl b
  · rw [hb]
    apply evolves_edited
    intro a ha _
    exact Span.isEmpty_grow (h.fits a ha).forward _ _

-- an anchor outlives a cut when it was empty or the cut does not take all of it
theorem survives_iff {cut : Span} {a : Anchor} :
    survives cut a = true ↔ a.span.isEmpty = true ∨ cut.covers a.span = false := by
  rw [survives, Bool.or_eq_true, Bool.not_eq_true']

theorem evolves_delete {b : Buffer} (h : b.WellFormed) (start stop : Nat) :
    Evolves b (b.delete start stop).buffer := by
  rcases buffer_delete_cases b start stop with hb | ⟨before, mid, after, -, hstart, hstop, hb⟩
  · rw [hb]
    exact .refl b
  · rw [hb]
    apply evolves_edited
    intro a ha hkept
    apply Span.isEmpty_shrink
    · show start ≤ stop
      omega
    · exact (h.fits a ha).forward
    · exact survives_iff.1 hkept

theorem evolves_apply {b : Buffer} (h : b.WellFormed) (change : Change) :
    Evolves b (b.apply change) := by
  cases change with
  | insert offset piece => exact evolves_insert h offset piece
  | delete start stop => exact evolves_delete h start stop
  | replace start stop piece =>
    show Evolves b (b.replace start stop piece).buffer
    rcases replace_cases b start stop piece with ⟨_, -, hb⟩ | ⟨-, hb⟩
    · rw [hb]
      exact .refl b
    · rw [hb]
      exact (evolves_delete h start stop).trans (evolves_insert (h.delete start stop) start piece)
  | create marker start stop =>
    show Evolves b (b.create marker start stop).2
    rcases create_cases b marker start stop with ⟨_, -, hb⟩ | ⟨hacc, hb⟩
    · rw [hb]
      exact .refl b
    · rw [hb]
      refine ⟨rfl, Nat.le_succ _, ?_⟩
      intro a' ha'
      rcases mem_anchors_placed.1 ha' with rfl | ha'
      · exact Or.inl (Nat.le_refl _)
      · exact Or.inr ⟨a', ha', .refl a'⟩
  | drop handle =>
    refine ⟨rfl, Nat.le_refl _, ?_⟩
    intro a' ha'
    exact Or.inr ⟨a', List.mem_of_mem_eraseP ha', .refl a'⟩

theorem evolves_after {b : Buffer} (h : b.WellFormed) (changes : List Change) :
    Evolves b (b.after changes) := by
  induction changes generalizing b with
  | nil => exact .refl b
  | cons change rest ih => exact (evolves_apply h change).trans (ih (h.apply change))

/-! ## Where anchors come from, and which stay -/

theorem origin_apply {b : Buffer} (h : b.WellFormed) (change : Change) {a' : Anchor}
    (ha' : a' ∈ (b.apply change).anchors) :
    a' ∈ (b.made? change).toList ∨ ∃ a ∈ b.anchors, a.Continues a' := by
  rcases made?_cases b change with ⟨-, hnext⟩ | ⟨marker, start, stop, -, -, hmade, happly⟩
  · -- no handle was issued, so none of those found can be new
    rcases (evolves_apply h change).origin a' ha' with hnew | hold
    · have hissued := (h.apply change).issued a' ha'
      omega
    · exact Or.inr hold
  · rw [happly] at ha'
    rw [hmade]
    rcases mem_anchors_placed.1 ha' with rfl | hold
    · exact Or.inl List.mem_cons_self
    · exact Or.inr ⟨a', hold, .refl a'⟩

-- every anchor found after a history was there before or was made by it
theorem origin_after {b : Buffer} (h : b.WellFormed) (changes : List Change) {a' : Anchor}
    (ha' : a' ∈ (b.after changes).anchors) :
    (∃ a ∈ b.births changes, a.Continues a') ∨ ∃ a ∈ b.anchors, a.Continues a' := by
  induction changes generalizing b with
  | nil => exact Or.inr ⟨a', ha', .refl a'⟩
  | cons change rest ih =>
    rcases ih (h.apply change) ha' with ⟨a, ha, hcont⟩ | ⟨a, ha, hcont⟩
    · exact Or.inl ⟨a, List.mem_append_right _ ha, hcont⟩
    · rcases origin_apply h change ha with hmade | ⟨o, ho, hcont'⟩
      · exact Or.inl ⟨a, List.mem_append_left _ hmade, hcont⟩
      · exact Or.inr ⟨o, ho, hcont'.trans hcont⟩

theorem outlives_insert {b : Buffer} (h : b.WellFormed) {a : Anchor} (ha : a ∈ b.anchors)
    (offset : Nat) (piece : List Char) :
    ∃ a' ∈ (b.insert offset piece).buffer.anchors, a.Continues a' := by
  rcases buffer_insert_cases b offset piece with hb | ⟨before, after, -, -, hb⟩
  · rw [hb]
    exact ⟨a, ha, .refl a⟩
  · rw [hb]
    refine ⟨_, mem_anchors_edited.2 ⟨a, ha, rfl, rfl⟩, rfl, rfl, ?_⟩
    exact Span.isEmpty_grow (h.fits a ha).forward _ _

theorem outlives_delete {b : Buffer} (h : b.WellFormed) {a : Anchor} (ha : a ∈ b.anchors)
    (hempty : a.span.isEmpty = true) (start stop : Nat) :
    ∃ a' ∈ (b.delete start stop).buffer.anchors, a.Continues a' := by
  rcases buffer_delete_cases b start stop with hb | ⟨before, mid, after, -, hstart, hstop, hb⟩
  · rw [hb]
    exact ⟨a, ha, .refl a⟩
  · rw [hb]
    have hkept : survives ⟨start, stop⟩ a = true := by
      rw [survives, hempty, Bool.true_or]
    have hle : start ≤ stop := by omega
    refine ⟨_, mem_anchors_edited.2 ⟨a, ha, hkept, rfl⟩, rfl, rfl, ?_⟩
    exact Span.isEmpty_shrink hle (h.fits a ha).forward (Or.inl hempty)

theorem outlives_apply {b : Buffer} (h : b.WellFormed) {a : Anchor} (ha : a ∈ b.anchors)
    (hempty : a.span.isEmpty = true) {change : Change} (hdrop : change ≠ .drop a.handle) :
    ∃ a' ∈ (b.apply change).anchors, a.Continues a' := by
  cases change with
  | insert offset piece => exact outlives_insert h ha offset piece
  | delete start stop => exact outlives_delete h ha hempty start stop
  | replace start stop piece =>
    show ∃ a' ∈ (b.replace start stop piece).buffer.anchors, a.Continues a'
    rcases replace_cases b start stop piece with ⟨_, -, hb⟩ | ⟨-, hb⟩
    · rw [hb]
      exact ⟨a, ha, .refl a⟩
    · rw [hb]
      obtain ⟨a', ha', hcont⟩ := outlives_delete h ha hempty start stop
      obtain ⟨a'', ha'', hcont'⟩ := outlives_insert (h.delete start stop) ha' start piece
      exact ⟨a'', ha'', hcont.trans hcont'⟩
  | create marker start stop =>
    show ∃ a' ∈ (b.create marker start stop).2.anchors, a.Continues a'
    rcases create_cases b marker start stop with ⟨_, -, hb⟩ | ⟨-, hb⟩
    · rw [hb]
      exact ⟨a, ha, .refl a⟩
    · rw [hb]
      exact ⟨a, mem_anchors_placed.2 (Or.inr ha), .refl a⟩
  | drop handle =>
    refine ⟨a, (mem_anchors_drop h.distinct).2 ⟨ha, ?_⟩, .refl a⟩
    rintro rfl
    exact hdrop rfl

-- an anchor without text under it stays until its handle is dropped
theorem outlives_after {b : Buffer} (h : b.WellFormed) {a : Anchor} (ha : a ∈ b.anchors)
    (hempty : a.span.isEmpty = true) {changes : List Change}
    (hdrop : Change.drop a.handle ∉ changes) :
    ∃ a' ∈ (b.after changes).anchors, a.Continues a' := by
  induction changes generalizing b a with
  | nil => exact ⟨a, ha, .refl a⟩
  | cons change rest ih =>
    rw [List.mem_cons, not_or] at hdrop
    obtain ⟨a', ha', hcont⟩ := outlives_apply h ha hempty (Ne.symm hdrop.1)
    have hdrop' : Change.drop a'.handle ∉ rest := by
      rw [hcont.handle_eq]
      exact hdrop.2
    obtain ⟨a'', ha'', hcont'⟩ := ih (h.apply change) ha' (hcont.isEmpty_eq.trans hempty) hdrop'
    exact ⟨a'', ha'', hcont.trans hcont'⟩

/-! ## Arithmetic of edits -/

theorem length_insert {b : Buffer} {offset : Nat} {piece : List Char}
    (hok : (b.insert offset piece).result = .ok ()) :
    (b.insert offset piece).buffer.length = b.length + Text.size piece := by
  rcases insert_cases b offset piece with ⟨_, -, hb⟩ | ⟨rfl, -, hb⟩ | ⟨_, _, htext, -, -, hb⟩
  · rw [hb] at hok
    cases hok
  · rw [hb]
    rfl
  · rw [hb]
    simp only [length, text_edited, htext, Text.size_append]
    omega

theorem length_anchors_delete_le (b : Buffer) (start stop : Nat) :
    (b.delete start stop).buffer.anchors.length ≤ b.anchors.length := by
  rcases buffer_delete_cases b start stop with hb | ⟨_, _, _, -, -, -, hb⟩
  · exact Nat.le_of_eq (by rw [hb])
  · rw [hb]
    show (arrange _).length ≤ _
    rw [(arrange_perm _).length_eq, List.length_map]
    exact List.length_filter_le _ _

/-- What holds after every history that starts without anchors. The spans lie in the text between
characters, the anchors are strictly ordered, handles are issued once only and not more of them than
creations were asked for. Every anchor has the marker that it was made with, and is empty if and
only if it was made empty; an empty one stays until its handle is dropped. As long as the text is
not longer than the greatest offset, no sum of an insertion passes that offset, and no difference of
a cut falls below zero. -/
theorem anchors_of_history (id : String) (text : List Char) (changes : List Change) :
    let b := (ofText id text).after changes
    let born := (ofText id text).births changes
    (∀ a ∈ b.anchors, a.span.start ≤ a.span.stop ∧ a.span.stop ≤ b.length ∧
      Text.IsSeam b.text a.span.start ∧ Text.IsSeam b.text a.span.stop) ∧
    b.anchors.Pairwise (fun a c =>
      a.span.start < c.span.start ∨
        (a.span.start = c.span.start ∧
          (c.span.stop < a.span.stop ∨
            (a.span.stop = c.span.stop ∧ a.handle.id < c.handle.id)))) ∧
    (b.anchors.map (·.handle)).Nodup ∧
    (∀ a ∈ b.anchors, a.handle.id < b.nextHandle) ∧
    (born.map (·.handle)).Nodup ∧
    (∀ a ∈ born, a.handle.id < b.nextHandle) ∧
    b.nextHandle ≤ changes.countP Change.creates ∧
    (∀ a ∈ b.anchors, ∃ o ∈ born, a.handle = o.handle ∧ a.marker = o.marker ∧
      (a.span.start = a.span.stop ↔ o.span.start = o.span.stop)) ∧
    (∀ a ∈ b.anchors, a.span.start = a.span.stop →
      ∀ later : List Change, Change.drop a.handle ∉ later →
        ∃ a' ∈ (b.after later).anchors, a'.handle = a.handle ∧ a'.span.start = a'.span.stop) ∧
    (∀ offset piece, (b.insert offset piece).result = .ok () →
      (b.insert offset piece).buffer.length ≤ maxOffset →
      ∀ a ∈ b.anchors,
        (offset ≤ a.span.start → a.span.start + Text.size piece ≤ maxOffset) ∧
        (offset < a.span.stop → a.span.stop + Text.size piece ≤ maxOffset)) ∧
    (∀ start stop, (b.delete start stop).result = .ok () →
      start ≤ stop ∧
      (∀ offset, stop ≤ offset → Span.length ⟨start, stop⟩ ≤ offset) ∧
      (b.delete start stop).buffer.anchors.length ≤ b.anchors.length) := by
  intro b born
  have h : b.WellFormed := (wellFormed_ofText id text).after changes
  have hnext : b.nextHandle = born.length := by
    rw [nextHandle_after]
    exact Nat.zero_add _
  refine ⟨?_, ?_, h.distinct, h.issued, nodup_handles_births _ _, ?_, ?_, ?_, ?_, ?_, ?_⟩
  · intro a ha
    have hfits := h.fits a ha
    exact ⟨hfits.forward, hfits.stop_le, hfits.start_seam, hfits.stop_seam⟩
  · exact h.ordered.imp Anchor.before_iff.1
  · intro a ha
    have hmem : a.handle.id ∈ born.map (·.handle.id) := List.mem_map_of_mem ha
    rw [births_ids, List.mem_range'_1] at hmem
    rw [hnext]
    exact Nat.lt_of_lt_of_eq hmem.2 (Nat.zero_add _)
  · rw [hnext]
    exact length_births_le _ changes
  · intro a ha
    rcases origin_after (wellFormed_ofText id text) changes ha with ⟨o, ho, hcont⟩ | ⟨o, ho, -⟩
    · refine ⟨o, ho, hcont.handle_eq, hcont.marker_eq, ?_⟩
      rw [← Span.isEmpty_iff, ← Span.isEmpty_iff, hcont.isEmpty_eq]
    · exact absurd ho List.not_mem_nil
  · intro a ha hempty later hdrop
    rw [← Span.isEmpty_iff] at hempty
    obtain ⟨a', ha', hcont⟩ := outlives_after h ha hempty hdrop
    exact ⟨a', ha', hcont.handle_eq, Span.isEmpty_iff.1 (hcont.isEmpty_eq.trans hempty)⟩
  · intro offset piece hok hmax a ha
    have hstop : a.span.stop ≤ b.length := (h.fits a ha).stop_le
    have hforward := (h.fits a ha).forward
    rw [length_insert hok] at hmax
    exact ⟨fun _ => by omega, fun _ => by omega⟩
  · intro start stop hok
    have hforward : start ≤ stop := (result_delete_eq_ok_iff.1 hok).1
    refine ⟨hforward, ?_, length_anchors_delete_le b start stop⟩
    intro offset hle
    exact Nat.le_trans (Nat.sub_le stop start) hle

end Buffer
end StickyScroll
