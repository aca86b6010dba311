import StickyScroll.Proofs.Buffer.Tagged

/-!
# Anchoring

A buffer keeps two offsets for an anchor and moves them by rules for starts and stops. A tagged text
follows the same history byte by byte. `anchoring_of_history` says that the two agree after every
history: the text is the bytes, an anchor is there as long as some byte carries its tag, and it
spans exactly the bytes that do.
-/

namespace StickyScroll

namespace Span

/-- The byte at a place is under the span. -/
def Holds (s : Span) (i : Nat) : Prop := s.start ≤ i ∧ i < s.stop

-- new text comes under a span when the bytes on both sides of it were there
theorem holds_grow {s : Span} (hs : s.start ≤ s.stop) (offset size i : Nat) :
    (s.grow offset size).Holds i ↔
      if i < offset then s.Holds i
      else if i < offset + size then offset ≠ 0 ∧ s.Holds (offset - 1) ∧ s.Holds offset
      else s.Holds (i - size) := by
  unfold Holds grow
  dsimp only
  by_cases hfront : i < offset
  · rw [if_pos hfront]
    split <;> split <;> omega
  · rw [if_neg hfront]
    by_cases hinside : i < offset + size
    · rw [if_pos hinside]
      split <;> split <;> omega
    · rw [if_neg hinside]
      split <;> split <;> omega

theorem pull_le_iff {cut : Span} (hcut : cut.start ≤ cut.stop) (n i : Nat) :
    pull cut n ≤ i ↔
      if i < cut.start then n ≤ i else n ≤ i + (cut.stop - cut.start) := by
  unfold pull length
  split
  · split <;> omega
  · split <;> split <;> omega

theorem holds_shrink {cut : Span} (hcut : cut.start ≤ cut.stop) (s : Span) (i : Nat) :
    (s.shrink cut).Holds i ↔
      if i < cut.start then s.Holds i else s.Holds (i + (cut.stop - cut.start)) := by
  unfold Holds shrink
  dsimp only
  rw [show i < pull cut s.stop ↔ ¬ pull cut s.stop ≤ i from Nat.not_le.symm, pull_le_iff hcut,
    pull_le_iff hcut]
  split <;> omega

-- all bytes of a span that a cut covers go
theorem not_holds_of_covers {s cut : Span} (hcov : cut.covers s = true) (i : Nat) :
    ¬ if i < cut.start then s.Holds i else s.Holds (i + (cut.stop - cut.start)) := by
  rw [covers_iff] at hcov
  unfold Holds
  split <;> omega

end Span

namespace Buffer

/-- An anchor of the handle holds the byte at a place. -/
def Holds (b : Buffer) (handle : Handle) (i : Nat) : Prop :=
  ∃ a ∈ b.anchors, a.handle = handle ∧ a.span.Holds i

theorem holds_edited {b : Buffer} {text : List Char} {keeps : Anchor → Bool} {move : Span → Span}
    {handle : Handle} {i : Nat} :
    (b.edited text keeps move).Holds handle i ↔
      ∃ a ∈ b.anchors, a.handle = handle ∧ keeps a = true ∧ (move a.span).Holds i := by
  constructor
  · rintro ⟨_, ha, hhandle, hold⟩
    obtain ⟨o, ho, hkept, rfl⟩ := mem_anchors_edited.1 ha
    exact ⟨o, ho, hhandle, hkept, hold⟩
  · rintro ⟨a, ha, hhandle, hkept, hold⟩
    exact ⟨_, mem_anchors_edited.2 ⟨a, ha, hkept, rfl⟩, hhandle, hold⟩

theorem exists_anchor_congr {b : Buffer} {handle : Handle} {p q : Anchor → Prop}
    (h : ∀ a ∈ b.anchors, (p a ↔ q a)) :
    (∃ a ∈ b.anchors, a.handle = handle ∧ p a) ↔ ∃ a ∈ b.anchors, a.handle = handle ∧ q a := by
  constructor
  · rintro ⟨a, ha, hhandle, hp⟩
    exact ⟨a, ha, hhandle, (h a ha).1 hp⟩
  · rintro ⟨a, ha, hhandle, hq⟩
    exact ⟨a, ha, hhandle, (h a ha).2 hq⟩

/-- The tagged text has the bytes of the buffer, and each carries the handles that hold it. -/
structure Tracks (b : Buffer) (t : TaggedText) : Prop where
  bytes : t.map (·.byte) = Text.encode b.text
  tags : ∀ handle i, handle ∈ t.tagsAt i ↔ b.Holds handle i

theorem Tracks.length_eq {b : Buffer} {t : TaggedText} (h : Tracks b t) :
    t.length = Text.size b.text := by
  rw [← Text.length_encode, ← h.bytes, List.length_map]

theorem tracks_ofText (id : String) (text : List Char) :
    Tracks (ofText id text) (.ofBytes (Text.encode text)) := by
  refine ⟨?_, ?_⟩
  · rw [TaggedText.ofBytes, List.map_map]
    exact List.map_id _
  · intro handle i
    have hnone : (TaggedText.ofBytes (Text.encode text)).tagsAt i = ∅ := by
      rw [TaggedText.tagsAt, TaggedText.ofBytes, List.getElem?_map]
      cases (Text.encode text)[i]? <;> rfl
    rw [hnone]
    constructor
    · intro h
      exact absurd h (Finset.notMem_empty handle)
    · rintro ⟨a, ha, -⟩
      exact absurd ha List.not_mem_nil

/-! ## Edits -/

-- the anchor that shares its tag with the bytes on both sides of an offset is one and the same
theorem Tracks.mem_around {b : Buffer} {t : TaggedText} (h : Tracks b t)
    (hnd : (b.anchors.map (·.handle)).Nodup) {handle : Handle} {offset : Nat} :
    handle ∈ t.around offset ↔
      ∃ a ∈ b.anchors, a.handle = handle ∧
        (offset ≠ 0 ∧ a.span.Holds (offset - 1) ∧ a.span.Holds offset) := by
  unfold TaggedText.around
  by_cases hzero : offset = 0
  · rw [if_pos hzero]
    constructor
    · intro hmem
      exact absurd hmem (Finset.notMem_empty handle)
    · rintro ⟨_, _, _, hnz, _⟩
      exact absurd hzero hnz
  · rw [if_neg hzero, Finset.mem_inter, h.tags, h.tags]
    constructor
    · rintro ⟨⟨a, ha, hha, hleft⟩, ⟨c, hc, hhc, hright⟩⟩
      obtain rfl := eq_of_handle_eq hnd ha hc (hha.trans hhc.symm)
      exact ⟨a, ha, hha, hzero, hleft, hright⟩
    · rintro ⟨a, ha, hha, -, hleft, hright⟩
      exact ⟨⟨a, ha, hha, hleft⟩, ⟨a, ha, hha, hright⟩⟩

theorem tracks_insert {b : Buffer} {t : TaggedText} (hb : b.WellFormed) (h : Tracks b t)
    {offset : Nat} {piece : List Char} (hok : (b.insert offset piece).result = .ok ()) :
    Tracks (b.insert offset piece).buffer (t.splice offset (Text.encode piece)) := by
  rcases insert_cases b offset piece with
    ⟨_, -, heq⟩ | ⟨rfl, -, heq⟩ | ⟨before, after, htext, rfl, -, heq⟩
  · rw [heq] at hok
    cases hok
  · have hsplice : t.splice offset (Text.encode []) = t := by
      show t.take offset ++ [] ++ t.drop offset = t
      rw [List.append_nil, List.take_append_drop]
    rw [heq, hsplice]
    exact h
  · rw [heq]
    refine ⟨?_, ?_⟩
    · have hbytes := h.bytes
      rw [htext, Text.encode_append] at hbytes
      have hmap := TaggedText.map_byte_splice hbytes (Text.encode piece)
      rw [Text.length_encode] at hmap
      rw [hmap, text_edited, Text.encode_append, Text.encode_append]
    · intro handle i
      have hle : Text.size before ≤ t.length := by
        rw [h.length_eq, htext, Text.size_append]
        exact Nat.le_add_right _ _
      have hgrow : ∀ a ∈ b.anchors,
          (true = true ∧ (a.span.grow (Text.size before) (Text.size piece)).Holds i ↔ _) :=
        fun a ha => (and_iff_right rfl).trans
          (Span.holds_grow (hb.fits a ha).forward (Text.size before) (Text.size piece) i)
      rw [TaggedText.tagsAt_splice hle, Text.length_encode, holds_edited,
        exists_anchor_congr hgrow]
      split
      · exact h.tags handle i
      · split
        · exact h.mem_around hb.distinct
        · exact h.tags handle _

theorem tracks_delete {b : Buffer} {t : TaggedText} (h : Tracks b t) {start stop : Nat}
    (hok : (b.delete start stop).result = .ok ()) :
    Tracks (b.delete start stop).buffer (t.cut start stop) := by
  rcases delete_cases b start stop with
    ⟨_, -, heq⟩ | ⟨rfl, -, heq⟩ | ⟨before, mid, after, htext, hstart, hstop, -, heq⟩
  · rw [heq] at hok
    cases hok
  · rw [heq, TaggedText.cut, List.take_append_drop]
    exact h
  · rw [heq]
    refine ⟨?_, ?_⟩
    · have hbytes := h.bytes
      rw [htext, Text.encode_append, Text.encode_append] at hbytes
      have hmap := TaggedText.map_byte_cut hbytes
      rw [Text.length_encode, Text.length_encode, hstop, hstart] at hmap
      rw [hmap, text_edited, Text.encode_append]
    · intro handle i
      have hle : start ≤ stop := by omega
      have hlen : stop ≤ t.length := by
        rw [h.length_eq, htext, Text.size_append, Text.size_append]
        omega
      -- an anchor that does not survive holds none of the bytes that are left
      have hshrink : ∀ a ∈ b.anchors,
          (survives ⟨start, stop⟩ a = true ∧ (a.span.shrink ⟨start, stop⟩).Holds i ↔
            if i < start then a.span.Holds i else a.span.Holds (i + (stop - start))) := by
        intro a _
        rw [Span.holds_shrink hle]
        constructor
        · exact And.right
        · intro hold
          refine ⟨?_, hold⟩
          rw [survives, Bool.or_eq_true, Bool.not_eq_true', ← Bool.not_eq_true]
          exact Or.inr fun hcov => Span.not_holds_of_covers hcov i hold
      rw [TaggedText.tagsAt_cut hle hlen, holds_edited, exists_anchor_congr hshrink]
      split
      · exact h.tags handle i
      · exact h.tags handle _

theorem tracks_replace {b : Buffer} {t : TaggedText} (hb : b.WellFormed) (h : Tracks b t)
    {start stop : Nat} {piece : List Char} (hok : (b.replace start stop piece).result = .ok ()) :
    Tracks (b.replace start stop piece).buffer
      ((t.cut start stop).splice start (Text.encode piece)) := by
  rcases replace_cases b start stop piece with ⟨_, -, heq⟩ | ⟨hacc, heq⟩
  · rw [heq] at hok
    cases hok
  · rw [heq]
    have hcut := result_delete_eq_ok_iff.2 hacc
    have hput := (result_insert_eq_ok_iff piece).2 (isSeam_delete hacc)
    exact tracks_insert (hb.delete start stop) (tracks_delete h hcut) hput

/-! ## Anchors -/

theorem tracks_placed {b : Buffer} {t : TaggedText} (h : Tracks b t) {marker : Marker}
    {start stop : Nat} (hacc : b.Accepts start stop) :
    Tracks (b.placed (b.fresh marker start stop)) (t.tag ⟨start, stop⟩ ⟨b.nextHandle⟩) := by
  refine ⟨?_, ?_⟩
  · rw [TaggedText.map_byte_tag]
    exact h.bytes
  · intro handle i
    have hlen : stop ≤ t.length := by
      rw [h.length_eq]
      exact hacc.2.2.le_size
    rw [TaggedText.tagsAt_tag hlen, h.tags]
    constructor
    · rintro (⟨a, ha, hhandle, hold⟩ | ⟨rfl, hold⟩)
      · exact ⟨a, mem_anchors_placed.2 (Or.inr ha), hhandle, hold⟩
      · exact ⟨_, mem_anchors_placed.2 (Or.inl rfl), rfl, hold⟩
    · rintro ⟨a, ha, hhandle, hold⟩
      rcases mem_anchors_placed.1 ha with rfl | ha
      · exact Or.inr ⟨hhandle.symm, hold⟩
      · exact Or.inl ⟨a, ha, hhandle, hold⟩

theorem tracks_drop {b : Buffer} {t : TaggedText} (hb : b.WellFormed) (h : Tracks b t)
    (dropped : Handle) : Tracks (b.drop dropped).2 (t.untag dropped) := by
  refine ⟨?_, ?_⟩
  · rw [TaggedText.map_byte_untag]
    exact h.bytes
  · intro handle i
    rw [TaggedText.tagsAt_untag, Finset.mem_erase, h.tags]
    constructor
    · rintro ⟨hne, a, ha, rfl, hold⟩
      exact ⟨a, (mem_anchors_drop hb.distinct).2 ⟨ha, hne⟩, rfl, hold⟩
    · rintro ⟨a, ha, rfl, hold⟩
      obtain ⟨ha, hne⟩ := (mem_anchors_drop hb.distinct).1 ha
      exact ⟨hne, a, ha, rfl, hold⟩

/-! ## Histories -/

def accepts (b : Buffer) : Change → Bool
  | .insert offset piece => (b.insert offset piece).result.isOk
  | .delete start stop => (b.delete start stop).result.isOk
  | .replace start stop piece => (b.replace start stop piece).result.isOk
  | .create marker start stop => (b.create marker start stop).1.isOk
  | .drop _ => true

/-- The tagged text that goes through the changes that the buffer accepts. -/
def tagged : Buffer → TaggedText → List Change → TaggedText
  | _, t, [] => t
  | b, t, change :: rest =>
      tagged (b.apply change)
        (if b.accepts change then t.step ((b.made? change).map (·.handle)) change else t) rest

theorem isOk_eq_true_iff {ε : Type} {result : Except ε Unit} :
    result.isOk = true ↔ result = .ok () := by
  cases result with
  | error _ => exact iff_of_false (fun h => nomatch h) (fun h => nomatch h)
  | ok _ => exact iff_of_true rfl rfl

-- a refusal changes nothing
theorem apply_of_not_accepts {b : Buffer} {change : Change} (h : b.accepts change = false) :
    b.apply change = b := by
  cases change with
  | insert offset piece =>
    show (b.insert offset piece).buffer = b
    rcases insert_cases b offset piece with ⟨_, -, heq⟩ | ⟨-, -, heq⟩ | ⟨_, _, -, -, -, heq⟩
    · rw [heq]
    · rw [heq]
    · rw [accepts, heq] at h
      cases h
  | delete start stop =>
    show (b.delete start stop).buffer = b
    rcases delete_cases b start stop with ⟨_, -, heq⟩ | ⟨-, -, heq⟩ | ⟨_, _, _, -, -, -, -, heq⟩
    · rw [heq]
    · rw [heq]
    · rw [accepts, heq] at h
      cases h
  | replace start stop piece =>
    show (b.replace start stop piece).buffer = b
    rcases replace_cases b start stop piece with ⟨_, -, heq⟩ | ⟨-, heq⟩
    · rw [heq]
    · rw [accepts, heq] at h
      cases h
  | create marker start stop =>
    show (b.create marker start stop).2 = b
    rcases create_cases b marker start stop with ⟨_, -, heq⟩ | ⟨-, heq⟩
    · rw [heq]
    · rw [accepts, heq] at h
      cases h
  | drop handle => cases h

theorem tracks_step {b : Buffer} {t : TaggedText} (hb : b.WellFormed) (h : Tracks b t)
    {change : Change} (hacc : b.accepts change = true) :
    Tracks (b.apply change) (t.step ((b.made? change).map (·.handle)) change) := by
  cases change with
  | insert offset piece => exact tracks_insert hb h (isOk_eq_true_iff.1 hacc)
  | delete start stop => exact tracks_delete h (isOk_eq_true_iff.1 hacc)
  | replace start stop piece => exact tracks_replace hb h (isOk_eq_true_iff.1 hacc)
  | create marker start stop =>
    rcases create_cases b marker start stop with ⟨_, -, heq⟩ | ⟨hoffsets, heq⟩
    · rw [accepts, heq] at hacc
      cases hacc
    · simp only [apply, made?, heq, Option.map_some, TaggedText.step, Option.elim_some]
      exact tracks_placed h hoffsets
  | drop handle => exact tracks_drop hb h handle

theorem tracks_tagged {b : Buffer} {t : TaggedText} (hb : b.WellFormed) (h : Tracks b t)
    (changes : List Change) : Tracks (b.after changes) (tagged b t changes) := by
  induction changes generalizing b t with
  | nil => exact h
  | cons change rest ih =>
    apply ih (hb.apply change)
    by_cases hacc : b.accepts change = true
    · rw [if_pos hacc]
      exact tracks_step hb h hacc
    · rw [if_neg hacc, apply_of_not_accepts (Bool.eq_false_iff.2 hacc)]
      exact h

/-- The buffer and the tagged text agree after every history, changes that are refused left out. The
text is the bytes. An anchor that was made over some text is there if and only if some byte carries
its tag, and its span is the places of the bytes that do. -/
theorem anchoring_of_history (id : String) (text : List Char) (changes : List Change) :
    let b := (ofText id text).after changes
    let t := tagged (ofText id text) (.ofBytes (Text.encode text)) changes
    t.map (·.byte) = Text.encode b.text ∧
      ∀ o ∈ (ofText id text).births changes, o.span.start ≠ o.span.stop →
        ((∃ a, b.anchorOf? o.handle = some a) ↔ ∃ i, o.handle ∈ t.tagsAt i) ∧
        ∀ a, b.anchorOf? o.handle = some a →
          ∀ i, o.handle ∈ t.tagsAt i ↔ a.span.start ≤ i ∧ i < a.span.stop := by
  intro b t
  have hstart := wellFormed_ofText id text
  have hb : b.WellFormed := hstart.after changes
  have h : Tracks b t := tracks_tagged hstart (tracks_ofText id text) changes
  refine ⟨h.bytes, ?_⟩
  intro o ho hne
  have hspan : ∀ a, b.anchorOf? o.handle = some a →
      ∀ i, o.handle ∈ t.tagsAt i ↔ a.span.Holds i := by
    intro a ha i
    obtain ⟨hmem, hhandle⟩ := (anchorOf?_eq_some_iff hb.distinct).1 ha
    rw [h.tags]
    constructor
    · rintro ⟨c, hc, hch, hold⟩
      obtain rfl := eq_of_handle_eq hb.distinct hmem hc (hhandle.trans hch.symm)
      exact hold
    · intro hold
      exact ⟨a, hmem, hhandle, hold⟩
  refine ⟨⟨?_, ?_⟩, hspan⟩
  · rintro ⟨a, ha⟩
    -- the anchor was made over some text and so has some, the first byte at its start
    obtain ⟨hmem, hhandle⟩ := (anchorOf?_eq_some_iff hb.distinct).1 ha
    refine ⟨a.span.start, (hspan a ha _).2 ⟨Nat.le_refl _, ?_⟩⟩
    rcases origin_after hstart changes hmem with ⟨c, hc, hcont⟩ | ⟨c, hc, -⟩
    · obtain rfl := List.inj_on_of_nodup_map (nodup_handles_births _ changes) ho hc
        (hhandle.symm.trans hcont.handle_eq)
      have hforward := (hb.fits a hmem).forward
      have hfull : a.span.start ≠ a.span.stop := by
        rw [Ne, ← Span.isEmpty_iff, hcont.isEmpty_eq, Span.isEmpty_iff]
        exact hne
      omega
    · exact absurd hc List.not_mem_nil
  · rintro ⟨i, hi⟩
    obtain ⟨a, ha, hhandle, -⟩ := (h.tags o.handle i).1 hi
    exact ⟨a, (anchorOf?_eq_some_iff hb.distinct).2 ⟨ha, hhandle⟩⟩

end Buffer
end StickyScroll
