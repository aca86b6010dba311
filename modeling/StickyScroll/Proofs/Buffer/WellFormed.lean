import StickyScroll.Proofs.Buffer.Edit

/-!
# Well-formed buffers

What every operation of a buffer keeps: the anchors are strictly ordered, have different handles
that were all issued, and fit the text. An operation that is refused keeps it because it changes
nothing; an edit keeps it because spans and seams move together; a new anchor has a handle that no
other has.
-/

namespace StickyScroll.Buffer

/-- The anchors are in order, with different handles below the next one, and lie in the text with
both ends between two characters. -/
structure WellFormed (b : Buffer) : Prop where
  ordered : Anchor.Ordered b.anchors
  distinct : (b.anchors.map (·.handle)).Nodup
  issued : ∀ a ∈ b.anchors, a.handle.id < b.nextHandle
  fits : ∀ a ∈ b.anchors, a.span.Fits b.text

theorem wellFormed_ofText (id : String) (text : List Char) : (ofText id text).WellFormed where
  ordered := List.Pairwise.nil
  distinct := List.nodup_nil
  issued := fun _ h => absurd h List.not_mem_nil
  fits := fun _ h => absurd h List.not_mem_nil

namespace WellFormed

variable {b : Buffer}

theorem edited (h : b.WellFormed) {text : List Char} {keeps : Anchor → Bool} {move : Span → Span}
    (hfits : ∀ a ∈ b.anchors, keeps a = true → (move a.span).Fits text) :
    (b.edited text keeps move).WellFormed := by
  have hnd := nodup_handles_edited h.distinct text keeps move
  refine ⟨?_, hnd, ?_, ?_⟩
  · exact ordered_arrange (nodup_handles_arrange.1 hnd)
  · intro a ha
    obtain ⟨o, ho, -, rfl⟩ := mem_anchors_edited.1 ha
    exact h.issued o ho
  · intro a ha
    obtain ⟨o, ho, hkept, rfl⟩ := mem_anchors_edited.1 ha
    exact hfits o ho hkept

theorem insert (h : b.WellFormed) (offset : Nat) (piece : List Char) :
    (b.insert offset piece).buffer.WellFormed := by
  rcases buffer_insert_cases b offset piece with hb | ⟨before, after, htext, hsize, hb⟩
  · rw [hb]
    exact h
  · rw [hb]
    apply h.edited
    intro a ha _
    have hfits := h.fits a ha
    rw [htext] at hfits
    rw [← hsize]
    exact hfits.grow

theorem delete (h : b.WellFormed) (start stop : Nat) :
    (b.delete start stop).buffer.WellFormed := by
  rcases buffer_delete_cases b start stop with hb | ⟨before, mid, after, htext, hstart, hstop, hb⟩
  · rw [hb]
    exact h
  · rw [hb]
    apply h.edited
    intro a ha _
    have hfits := h.fits a ha
    rw [htext] at hfits
    rw [← hstop, ← hstart]
    exact hfits.shrink

theorem replace (h : b.WellFormed) (start stop : Nat) (piece : List Char) :
    (b.replace start stop piece).buffer.WellFormed := by
  rcases replace_cases b start stop piece with ⟨_, -, hb⟩ | ⟨-, hb⟩
  · rw [hb]
    exact h
  · rw [hb]
    exact (h.delete start stop).insert start piece

-- the next handle is above all handles in use, so a fresh anchor has one of its own
theorem handle_ne_fresh (h : b.WellFormed) (marker : Marker) (start stop : Nat) :
    ∀ a ∈ b.anchors, a.handle ≠ (b.fresh marker start stop).handle := by
  intro a ha heq
  have hlt := h.issued a ha
  rw [heq] at hlt
  exact Nat.lt_irrefl _ hlt

theorem placed (h : b.WellFormed) {marker : Marker} {start stop : Nat}
    (hacc : b.Accepts start stop) : (b.placed (b.fresh marker start stop)).WellFormed := by
  have hne := h.handle_ne_fresh marker start stop
  refine ⟨ordered_placed h.ordered hne, ?_, ?_, ?_⟩
  · show ((b.anchors.take _ ++ b.fresh marker start stop :: b.anchors.drop _).map (·.handle)).Nodup
    rw [(List.perm_middle.map _).nodup_iff, List.take_append_drop, List.map_cons, List.nodup_cons]
    refine ⟨?_, h.distinct⟩
    intro hmem
    obtain ⟨a, ha, heq⟩ := List.mem_map.1 hmem
    exact hne a ha heq
  · intro a ha
    rcases mem_anchors_placed.1 ha with rfl | ha
    · exact Nat.lt_succ_self _
    · exact Nat.lt_succ_of_lt (h.issued a ha)
  · intro a ha
    rcases mem_anchors_placed.1 ha with rfl | ha
    · exact ⟨hacc.1, hacc.2.1, hacc.2.2⟩
    · exact h.fits a ha

theorem create (h : b.WellFormed) (marker : Marker) (start stop : Nat) :
    (b.create marker start stop).2.WellFormed := by
  rcases create_cases b marker start stop with ⟨_, -, hb⟩ | ⟨hacc, hb⟩
  · rw [hb]
    exact h
  · rw [hb]
    exact h.placed hacc

-- a buffer with fewer anchors
theorem of_sublist (h : b.WellFormed) {anchors : List Anchor}
    (hsub : anchors.Sublist b.anchors) : ({ b with anchors := anchors } : Buffer).WellFormed := by
  refine ⟨List.Pairwise.sublist hsub h.ordered, h.distinct.sublist (hsub.map _), ?_, ?_⟩
  · intro a ha
    exact h.issued a (hsub.subset ha)
  · intro a ha
    exact h.fits a (hsub.subset ha)

theorem drop (h : b.WellFormed) (handle : Handle) : (b.drop handle).2.WellFormed :=
  h.of_sublist List.eraseP_sublist

end WellFormed
end StickyScroll.Buffer
