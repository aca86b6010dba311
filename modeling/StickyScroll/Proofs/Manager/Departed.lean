import StickyScroll.Proofs.Manager.Ownership

/-!
# What is gone stays gone

A handle is issued once, so an anchor that is gone never comes back, however it went: no query shows
it, no line of it resolves, and no registry counts it. A registry may still have a record of it, and
then takes the line out once more when it is asked to; after that it never has a record of it again,
so it answers that there is no such line for ever.
-/

namespace StickyScroll

namespace Buffer

/-- The handle was issued, and its anchor is gone. -/
structure Gone (b : Buffer) (handle : Handle) : Prop where
  issued : handle.id < b.nextHandle
  absent : ∀ a ∈ b.anchors, a.handle ≠ handle

theorem Gone.evolves {b b' : Buffer} {handle : Handle} (h : b.Gone handle) (hev : b.Evolves b') :
    b'.Gone handle := by
  refine ⟨Nat.lt_of_lt_of_le h.issued hev.next_le, ?_⟩
  rintro a' ha' rfl
  have hissued := h.issued
  rcases hev.origin a' ha' with hnew | ⟨a, ha, hcont⟩
  · omega
  · exact h.absent a ha hcont.handle_eq.symm

end Buffer

namespace Registry

variable {ι : Type} {b : Buffer} {handle : Handle}

theorem handle_ne_of_mem_query (r : Registry ι) (hb : b.WellFormed) (hgone : b.Gone handle)
    {filter : Option String} {limit : Nat} {line : StickyLine}
    (hline : line ∈ r.query b filter limit) : line.handle ≠ handle := by
  obtain ⟨a, ha, -, -, -, rfl⟩ := (mem_query_iff hb).1 hline
  exact hgone.absent a ha

theorem anchorOf?_eq_none_of_gone (hgone : b.Gone handle) : b.anchorOf? handle = none := by
  rw [Buffer.anchorOf?, List.find?_eq_none]
  intro a ha hnamed
  exact hgone.absent a ha (Buffer.named_iff.1 hnamed)

theorem resolve?_eq_none_of_gone {line : StickyLine} (hgone : b.Gone line.handle) :
    resolve? b line = none := by
  have hnone : RangeStore.anchorOf? b line.handle = none := anchorOf?_eq_none_of_gone hgone
  simp only [resolve?, anchorOf?, hnone, Option.filter_none, ite_self, Option.map_none]

-- a record of an anchor that is gone might as well not be there
theorem size_erase_of_gone (r : Registry ι) (hgone : b.Gone handle) :
    ({ r with records := r.records.erase handle } : Registry ι).size b = r.size b := by
  have hdead : isLive b handle = false := by
    show (b.anchorOf? handle).isSome = false
    rw [anchorOf?_eq_none_of_gone hgone]
    rfl
  simp only [size, Table.keys, Table.erase, List.filter_map, List.length_map, List.filter_filter]
  congr 2
  funext e
  by_cases he : e.1 = handle
  · simp [he, hdead]
  · simp [he]

/-! ## Lines that were taken out -/

/-- The handle was issued, but the registry has no record of it, and there is no sticky anchor of it
in the document. -/
structure Retired (handle : Handle) (r : Registry ι) (b : Buffer) : Prop where
  issued : handle.id < b.nextHandle
  unrecorded : ¬ r.Records handle
  absent : ¬ b.IsSticky handle

theorem Retired.evolves {r : Registry ι} {b' : Buffer} (h : r.Retired handle b)
    (hev : b.Evolves b') : r.Retired handle b' := by
  have hissued := h.issued
  refine ⟨Nat.lt_of_lt_of_le hissued hev.next_le, h.unrecorded, ?_⟩
  rintro ⟨a', ha', rfl, hmarker⟩
  rcases hev.origin a' ha' with hnew | ⟨a, ha, hcont⟩
  · omega
  · exact h.absent ⟨a, ha, hcont.handle_eq.symm, hcont.marker_eq.symm.trans hmarker⟩

theorem Retired.perform {r : Registry ι} (h : r.Retired handle b) (hb : b.WellFormed)
    (change : Change ι) : (r.perform b change).1.Retired handle (r.perform b change).2 := by
  have hfresh : handle ≠ ⟨b.nextHandle⟩ := by
    rintro rfl
    exact Nat.lt_irrefl _ h.issued
  refine ⟨Nat.lt_of_lt_of_le h.issued (r.evolves_perform hb change).next_le, ?_, ?_⟩
  · intro hrecord
    rcases r.records_of_perform hb change hrecord with hold | ⟨_, _, _, _, _, -, -, -, hnew, -⟩
    · exact h.unrecorded hold
    · exact hfresh hnew
  · rintro ⟨a, ha, hhandle, hmarker⟩
    rcases r.origin_perform hb change ha with hold | ⟨hnew, -⟩
    · exact h.absent ⟨a, hold, hhandle, hmarker⟩
    · exact hfresh (hhandle.symm.trans hnew)

theorem value_remove_of_retired {r : Registry ι} (hb : b.WellFormed) {line : StickyLine}
    (h : r.Retired line.handle b) :
    (r.remove b line).value = .error (.lineNotFound line.handle) := by
  rcases r.remove_cases hb line with ⟨-, heq⟩ | ⟨-, hsticky, -⟩ | ⟨-, -, hrecord, -⟩
  · rw [heq]
  · exact absurd hsticky h.absent
  · exact absurd (records_iff_isSome.2 hrecord) h.unrecorded

/-- A line that a registry takes out is retired with it. -/
theorem retired_of_remove {r : Registry ι} (hb : b.WellFormed) (howns : r.Owns b)
    {line : StickyLine} (hok : (r.remove b line).value = .ok ()) :
    (r.perform b (.remove line)).1.Retired line.handle (r.perform b (.remove line)).2 := by
  have herased : ¬ ({ r with records := r.records.erase line.handle } : Registry ι).Records
      line.handle := by
    rintro ⟨record, hrecord⟩
    exact nomatch ((Table.find?_erase ..).trans (if_pos rfl)).symm.trans hrecord
  show (r.remove b line).registry.Retired line.handle (r.remove b line).store
  rcases r.remove_cases hb line with ⟨-, heq⟩ | ⟨-, hsticky, heq⟩ | ⟨-, hnot, hrecord, heq⟩
  · rw [heq] at hok
    cases hok
  · obtain ⟨a, ha, hhandle, -⟩ := hsticky
    have hissued : line.handle.id < b.nextHandle := hhandle ▸ hb.issued a ha
    rw [heq]
    refine ⟨hissued, herased, ?_⟩
    rintro ⟨c, hc, hhandle', -⟩
    exact ((Buffer.mem_anchors_drop hb.distinct).1 hc).2 hhandle'
  · have hissued := howns.issued line.handle (records_iff_isSome.2 hrecord)
    rw [heq]
    exact ⟨hissued, herased, hnot⟩

end Registry

namespace Cells

theorem stable_retired (handle : Handle) : Stable (Registry.Retired handle) where
  evolves _ hev h := h.evolves hev
  perform change hb h := h.perform hb change

/-- The registry that takes out a line in a turn, and the line's handle. -/
def removed? (c : Cells Buffer) (t : Turn) : Option (RegistryRef × Handle) :=
  match c.acting? t with
  | some (r, .remove line) =>
      match c.at? r with
      | none => none
      | some (registry, b) =>
          match (registry.remove b line).value with
          | .ok () => some (r, line.handle)
          | .error _ => none
  | _ => none

theorem removed?_eq_some_iff {c : Cells Buffer} {t : Turn} {r : RegistryRef} {handle : Handle} :
    c.removed? t = some (r, handle) ↔
      ∃ line registry d b, c.acting? t = some (r, .remove line) ∧ c.Works r registry d b ∧
        (registry.remove b line).value = .ok () ∧ line.handle = handle := by
  unfold removed?
  constructor
  · intro h
    split at h
    next r' line hacting =>
      split at h
      next => cases h
      next registry b hat =>
        obtain ⟨d, hworks⟩ := at?_eq_some_iff.1 hat
        split at h
        next hvalue =>
          cases h
          exact ⟨line, registry, d, b, hacting, hworks, hvalue, rfl⟩
        next => cases h
    next => cases h
  · rintro ⟨line, registry, d, b, hacting, hworks, hvalue, rfl⟩
    have hat := at?_eq_some_iff.2 ⟨d, hworks⟩
    simp only [hacting, hat, hvalue]

/-- From the turn on in which a registry takes out a line, the line is retired with it. -/
theorem retired_after_removed {c : Cells Buffer} (hc : c.Sound)
    (howns : ∀ r registry d b, c.Works r registry d b → registry.Owns b) {t : Turn}
    {r : RegistryRef} {handle : Handle} (hremoved : c.removed? t = some (r, handle))
    (later : List Turn) {registry : Registry ListenerRef} {d : DocumentRef} {b : Buffer}
    (h : ((c.apply t).after later).Works r registry d b) : registry.Retired handle b := by
  obtain ⟨line, registry₀, e, b₀, hacting, hworks, hok, rfl⟩ := removed?_eq_some_iff.1 hremoved
  have hb₀ := hc.wellFormed e b₀ hworks.document_eq
  obtain ⟨registry₁, b₁, hworks₁, hfares⟩ := works_apply hc hworks t
  have hretired : registry₁.Retired line.handle b₁ := by
    cases hfares with
    | aside changes haside => exact absurd hacting (haside _)
    | acts change hacting' =>
      cases hacting.symm.trans hacting'
      exact Registry.retired_of_remove hb₀ (howns r registry₀ e b₀ hworks) hok
  obtain ⟨registry₂, b₂, hworks₂, hlast⟩ :=
    (stable_retired line.handle).after (hc.apply t) hworks₁ hretired later
  obtain ⟨rfl, -, rfl⟩ := h.unique hworks₂
  exact hlast

-- a registry takes out a line of a handle once
theorem nodup_removed {c : Cells Buffer} (hc : c.Sound)
    (howns : ∀ r registry d b, c.Works r registry d b → registry.Owns b) (turns : List Turn) :
    (c.log removed? turns).Nodup := by
  induction turns generalizing c with
  | nil => exact List.nodup_nil
  | cons t rest ih =>
    have howns' := stable_owns.always Registry.owns_empty hc howns [t]
    have hrest := ih (hc.apply t) howns'
    rw [log]
    cases hremoved : c.removed? t with
    | none => exact hrest
    | some pair =>
      obtain ⟨r, handle⟩ := pair
      refine List.nodup_cons.2 ⟨?_, hrest⟩
      intro hagain
      obtain ⟨before, t', later, -, hremoved'⟩ := mem_log_iff.1 hagain
      obtain ⟨line, registry, d, b, -, hworks, hok, rfl⟩ := removed?_eq_some_iff.1 hremoved'
      have hb := ((hc.apply t).after before).wellFormed d b hworks.document_eq
      have hretired := retired_after_removed hc howns hremoved before hworks
      rw [Registry.value_remove_of_retired hb hretired] at hok
      cases hok

/-- An anchor that is found at one moment of a run and missing at a later one stays away for ever:
no query of any registry shows a line of it, no line of it resolves, and it counts for no registry.
And in the whole run each registry takes out a line of a handle once at most; after that it answers
every request for one that there is no such line. -/
theorem gone_for_good (turns : List Turn) :
    (∀ (between later : List Turn) (d : DocumentRef) (b b' : Buffer) (handle : Handle),
      ((empty : Cells Buffer).after turns).documents[d]? = some b →
      (∃ a ∈ b.anchors, a.handle = handle) →
      ((empty : Cells Buffer).after (turns ++ between)).documents[d]? = some b' →
      (∀ a ∈ b'.anchors, a.handle ≠ handle) →
      ∃ b'', ((empty : Cells Buffer).after (turns ++ between ++ later)).documents[d]? = some b'' ∧
        (∀ a ∈ b''.anchors, a.handle ≠ handle) ∧
        (∀ (registry : Registry ListenerRef) (filter : Option String) (limit : Nat),
          ∀ line ∈ registry.query b'' filter limit, line.handle ≠ handle) ∧
        (∀ line : StickyLine, line.handle = handle → Registry.resolve? b'' line = none) ∧
        (∀ registry : Registry ListenerRef,
          ({ registry with records := registry.records.erase handle } :
            Registry ListenerRef).size b'' = registry.size b'')) ∧
    ((empty : Cells Buffer).log removed? turns).Nodup ∧
    (∀ (later : List Turn) (r : RegistryRef) (handle : Handle),
      (r, handle) ∈ (empty : Cells Buffer).log removed? turns →
      ∀ registry d b, ((empty : Cells Buffer).after (turns ++ later)).Works r registry d b →
        ∀ line : StickyLine, line.handle = handle →
          (registry.remove b line).value = .error (.lineNotFound handle)) := by
  refine ⟨?_, ?_, ?_⟩
  · rintro between later d b b' handle hd ⟨a, ha, rfl⟩ hd' habsent
    have hc : ((empty : Cells Buffer).after turns).Sound := sound_empty.after turns
    have hissued : a.handle.id < b'.nextHandle := by
      obtain ⟨b₁, hd₁, hev⟩ := document_after hc hd between
      rw [← after_append] at hd₁
      cases hd'.symm.trans hd₁
      exact Nat.lt_of_lt_of_le ((hc.wellFormed d b hd).issued a ha) hev.next_le
    have hgone : b'.Gone a.handle := ⟨hissued, habsent⟩
    obtain ⟨b'', hd'', hev⟩ := document_after (sound_empty.after (turns ++ between)) hd' later
    rw [← after_append] at hd''
    have hb := (sound_empty.after (turns ++ between ++ later)).wellFormed d b'' hd''
    have hgone' := hgone.evolves hev
    refine ⟨b'', hd'', hgone'.absent, ?_, ?_, ?_⟩
    · intro registry filter limit line hline
      exact registry.handle_ne_of_mem_query hb hgone' hline
    · intro line hhandle
      exact Registry.resolve?_eq_none_of_gone (hhandle ▸ hgone')
    · intro registry
      exact registry.size_erase_of_gone hgone'
  · apply nodup_removed sound_empty
    intro _ _ _ _ hnone
    exact absurd hnone not_works_empty
  · rintro later r handle hlog registry d b hworks line rfl
    obtain ⟨before, t, between, rfl, hremoved⟩ := mem_log_iff.1 hlog
    have hb := (sound_empty.after _).wellFormed d b hworks.document_eq
    rw [List.append_assoc, List.cons_append, after_append, after_cons] at hworks
    have howns : ∀ r registry d b, ((empty : Cells Buffer).after before).Works r registry d b →
        registry.Owns b := fun _ _ _ _ h => owns_after before h
    have hretired := retired_after_removed (sound_empty.after before) howns hremoved
      (between ++ later) hworks
    exact Registry.value_remove_of_retired hb hretired

/-- The text of a line is deleted, and then the registry, which still has a record of the line,
takes it out. -/
def cutScope : List Turn :=
  [⟨.ofLimit 1, .makeDocument "a" ['x', 'y', 'z']⟩, ⟨.ofLimit 1, .openDocument [] 0⟩,
    ⟨.ofLimit 1, .act 0 (.add "outline" 0 2 none)⟩, ⟨.ofLimit 1, .edit 0 (.delete 0 3)⟩,
    ⟨.ofLimit 1, .act 0 (.remove ⟨"a", ⟨0⟩, ⟨0, 2⟩, 0, 0, none⟩)⟩]

-- the line is taken out, and the registry takes no line of that handle out again
theorem cutScope_removed_once :
    (empty : Cells Buffer).log removed? cutScope = [(0, ⟨0⟩)] ∧
      ∃ registry d b, ((empty : Cells Buffer).after cutScope).Works 0 registry d b ∧
        ∀ line : StickyLine, line.handle = ⟨0⟩ →
          (registry.remove b line).value = .error (.lineNotFound ⟨0⟩) := by
  have hlog : (empty : Cells Buffer).log removed? cutScope = [(0, ⟨0⟩)] := by
    decide +kernel
  refine ⟨hlog, ?_⟩
  have hscene : (((empty : Cells Buffer).after cutScope).at? 0).isSome = true := by
    decide +kernel
  obtain ⟨⟨registry, b⟩, hat⟩ := Option.isSome_iff_exists.1 hscene
  obtain ⟨d, hworks⟩ := at?_eq_some_iff.1 hat
  have hremoved : (0, ⟨0⟩) ∈ (empty : Cells Buffer).log removed? cutScope := by
    rw [hlog]
    exact List.mem_singleton_self _
  obtain ⟨-, -, hrefused⟩ := gone_for_good cutScope
  exact ⟨registry, d, b, hworks, hrefused [] 0 ⟨0⟩ hremoved registry d b hworks⟩

end Cells
end StickyScroll
