import StickyScroll.Proofs.Registry.Query

/-!
# What a registry leaves alone

An operation of a registry leaves the text as it is, and every anchor but those that it takes out.
It takes out anchors on its own record, or the one sticky anchor that it was shown a line of, and
makes no record but that of a line that it adds, under a handle that nobody had before. So what is
on record is of this registry's making, and the record of an anchor that stays never changes.
-/

namespace StickyScroll.Registry

variable {ι : Type} {b : Buffer}

theorem evolves_perform (r : Registry ι) (hb : b.WellFormed) (change : Change ι) :
    b.Evolves (r.perform b change).2 := by
  obtain ⟨changes, heq⟩ := r.perform_store_eq_after hb change
  rw [heq]
  exact Buffer.evolves_after hb changes

/-! ## The document -/

theorem text_deleteAll (b : Buffer) (handles : List Handle) :
    (deleteAll b handles).2.text = b.text := by
  induction handles generalizing b with
  | nil => rfl
  | cons handle rest ih => exact ih (b.drop handle).2

theorem text_perform (r : Registry ι) (hb : b.WellFormed) (change : Change ι) :
    (r.perform b change).2.text = b.text := by
  cases change with
  | add source start stop label =>
    show (r.add b source start stop label).store.text = b.text
    rcases r.add_cases hb source start stop label with ⟨_, -, heq⟩ | ⟨-, -, heq⟩ <;> rw [heq]
    rfl
  | remove line =>
    show (r.remove b line).store.text = b.text
    rcases r.remove_cases hb line with ⟨-, heq⟩ | ⟨-, -, heq⟩ | ⟨-, -, -, heq⟩ <;> rw [heq]
    rfl
  | removeFrom source => exact text_deleteAll b _
  | release => exact text_deleteAll b _
  | prune => rfl
  | takeFirstUpdate => rfl
  | modifyListeners change => rfl

/-- An anchor that is found after an operation was there before, just as it is, or is a new sticky
one. -/
theorem origin_perform (r : Registry ι) (hb : b.WellFormed) (change : Change ι) {a : Anchor}
    (ha : a ∈ (r.perform b change).2.anchors) :
    a ∈ b.anchors ∨ (a.handle = ⟨b.nextHandle⟩ ∧ a.marker = .sticky) := by
  cases change with
  | add source start stop label =>
    have hadd : a ∈ (r.add b source start stop label).store.anchors := ha
    rcases r.add_cases hb source start stop label with ⟨_, -, heq⟩ | ⟨-, -, heq⟩
    · rw [heq] at hadd
      exact Or.inl hadd
    · rw [heq] at hadd
      rcases Buffer.mem_anchors_placed.1 hadd with rfl | hold
      · exact Or.inr ⟨rfl, rfl⟩
      · exact Or.inl hold
  | remove line =>
    have hremove : a ∈ (r.remove b line).store.anchors := ha
    rcases r.remove_cases hb line with ⟨-, heq⟩ | ⟨-, -, heq⟩ | ⟨-, -, -, heq⟩
    · rw [heq] at hremove
      exact Or.inl hremove
    · rw [heq] at hremove
      exact Or.inl ((Buffer.mem_anchors_drop hb.distinct).1 hremove).1
    · rw [heq] at hremove
      exact Or.inl hremove
  | removeFrom source => exact Or.inl ((r.mem_anchors_removeFrom hb).1 ha).1
  | release => exact Or.inl ((Buffer.mem_anchors_deleteAll hb).1 ha).1
  | prune => exact Or.inl ha
  | takeFirstUpdate => exact Or.inl ha
  | modifyListeners change => exact Or.inl ha

/-! ## The anchors that go -/

theorem records_iff_isSome {r : Registry ι} {handle : Handle} :
    r.Records handle ↔ (r.records.find? handle).isSome = true :=
  Option.isSome_iff_exists.symm

theorem find?_eq_none_iff {r : Registry ι} {handle : Handle} :
    r.records.find? handle = none ↔ ¬ r.Records handle := by
  rw [records_iff_isSome, Option.not_isSome_iff_eq_none]

-- what a table finds after filtering it found before
theorem records_of_filter {r : Registry ι} {p : Handle → LineRecord → Bool} {handle : Handle}
    (h : ∃ record, (r.records.filter p).find? handle = some record) : r.Records handle := by
  rw [records_iff_isSome]
  cases hfind : r.records.find? handle with
  | some record => rfl
  | none =>
    obtain ⟨record, hrecord⟩ := h
    rw [Table.find?_filter_of_none hfind] at hrecord
    cases hrecord

theorem lost_by_removeFrom (r : Registry ι) (hb : b.WellFormed) (source : String) {a : Anchor}
    (ha : a ∈ b.anchors) (hlost : a ∉ (r.removeFrom b source).store.anchors) :
    r.Records a.handle := by
  have hown : a.handle ∈ r.handlesOf b source := by
    by_contra hnot
    exact hlost ((r.mem_anchors_removeFrom hb).2 ⟨ha, hnot⟩)
  have hfound := Option.isSome_iff_exists.1 (Table.find?_isSome_of_mem_keys hown)
  exact records_of_filter (records_of_filter (r := r.prune b) hfound)

theorem lost_by_release (r : Registry ι) (hb : b.WellFormed) {a : Anchor} (ha : a ∈ b.anchors)
    (hlost : a ∉ (r.release b).store.anchors) : r.Records a.handle := by
  have hown : a.handle ∈ r.records.keys := by
    by_contra hnot
    exact hlost ((Buffer.mem_anchors_deleteAll hb).2 ⟨ha, hnot⟩)
  exact records_iff_isSome.2 (Table.find?_isSome_of_mem_keys hown)

theorem lost_by_remove (r : Registry ι) (hb : b.WellFormed) (line : StickyLine) {a : Anchor}
    (ha : a ∈ b.anchors) (hlost : a ∉ (r.remove b line).store.anchors) :
    a.handle = line.handle ∧ line.documentId = b.id ∧ a.marker = .sticky := by
  rcases r.remove_cases hb line with ⟨-, heq⟩ | ⟨hid, hsticky, heq⟩ | ⟨-, -, -, heq⟩
  · rw [heq] at hlost
    exact absurd ha hlost
  · rw [heq] at hlost
    have hhandle : a.handle = line.handle := by
      by_contra hne
      exact hlost ((Buffer.mem_anchors_drop hb.distinct).2 ⟨ha, hne⟩)
    obtain ⟨c, hc, hhandle', hmarker⟩ := hsticky
    have hsame : a = c := Buffer.eq_of_handle_eq hb.distinct ha hc (hhandle.trans hhandle'.symm)
    exact ⟨hhandle, hid, hsame ▸ hmarker⟩
  · rw [heq] at hlost
    exact absurd ha hlost

theorem mem_anchors_add (r : Registry ι) (hb : b.WellFormed) (source : String) (start stop : Nat)
    (label : Option String) {a : Anchor} (ha : a ∈ b.anchors) :
    a ∈ (r.add b source start stop label).store.anchors := by
  rcases r.add_cases hb source start stop label with ⟨_, -, heq⟩ | ⟨-, -, heq⟩
  · rw [heq]
    exact ha
  · rw [heq]
    exact Buffer.mem_anchors_placed.2 (Or.inr ha)

/-- An anchor that an operation takes out is sticky, or on the registry's own record. -/
theorem lost_by_perform (r : Registry ι) (hb : b.WellFormed) (change : Change ι) {a : Anchor}
    (ha : a ∈ b.anchors) (hlost : a ∉ (r.perform b change).2.anchors) :
    a.marker = .sticky ∨ r.Records a.handle := by
  cases change with
  | add source start stop label =>
    exact absurd (r.mem_anchors_add hb source start stop label ha) hlost
  | remove line => exact Or.inl (r.lost_by_remove hb line ha hlost).2.2
  | removeFrom source => exact Or.inr (r.lost_by_removeFrom hb source ha hlost)
  | release => exact Or.inr (r.lost_by_release hb ha hlost)
  | prune => exact absurd ha hlost
  | takeFirstUpdate => exact absurd ha hlost
  | modifyListeners change => exact absurd ha hlost

-- a line is taken out alone
theorem length_anchors_remove (r : Registry ι) (hb : b.WellFormed) (line : StickyLine) :
    b.anchors.length ≤ (r.remove b line).store.anchors.length + 1 := by
  rcases r.remove_cases hb line with ⟨-, heq⟩ | ⟨-, -, heq⟩ | ⟨-, -, -, heq⟩
  · rw [heq]
    exact Nat.le_succ _
  · rw [heq]
    show b.anchors.length ≤ (b.anchors.eraseP _).length + 1
    have hlength := List.length_eraseP (p := Buffer.named line.handle) (l := b.anchors)
    rw [hlength]
    split <;> omega
  · rw [heq]
    exact Nat.le_succ _

/-! ## The records -/

/-- What is on record after an operation was on record before, or is the line that the operation
added, under the next handle. -/
theorem records_of_perform (r : Registry ι) (hb : b.WellFormed) (change : Change ι)
    {handle : Handle} (h : (r.perform b change).1.Records handle) :
    r.Records handle ∨
      ∃ source start stop label line, change = .add source start stop label ∧
        (r.add b source start stop label).value = .ok line ∧ line.handle = handle ∧
        handle = ⟨b.nextHandle⟩ ∧ b.nextHandle < (r.perform b change).2.nextHandle := by
  cases change with
  | add source start stop label =>
    obtain ⟨record, hrecord⟩ := h
    have hadd : (r.add b source start stop label).registry.records.find? handle = some record :=
      hrecord
    rcases r.add_cases hb source start stop label with ⟨_, -, heq⟩ | ⟨-, -, heq⟩
    · rw [heq] at hadd
      exact Or.inl ⟨record, hadd⟩
    · rw [heq] at hadd
      have hinsert := (Table.find?_insert ..).symm.trans hadd
      by_cases hnew : handle = ⟨b.nextHandle⟩
      · refine Or.inr ⟨source, start, stop, label, _, rfl, congrArg Outcome.value heq, hnew.symm,
          hnew, ?_⟩
        show b.nextHandle < (r.add b source start stop label).store.nextHandle
        rw [heq]
        exact Nat.lt_succ_self _
      · rw [if_neg hnew] at hinsert
        exact Or.inl ⟨record, hinsert⟩
  | remove line =>
    obtain ⟨record, hrecord⟩ := h
    have hremove : (r.remove b line).registry.records.find? handle = some record := hrecord
    have herase : (r.records.erase line.handle).find? handle = some record → r.Records handle := by
      intro hfind
      rw [Table.find?_erase] at hfind
      split at hfind
      next => cases hfind
      next => exact ⟨record, hfind⟩
    rcases r.remove_cases hb line with ⟨-, heq⟩ | ⟨-, -, heq⟩ | ⟨-, -, -, heq⟩
    · rw [heq] at hremove
      exact Or.inl ⟨record, hremove⟩
    · rw [heq] at hremove
      exact Or.inl (herase hremove)
    · rw [heq] at hremove
      exact Or.inl (herase hremove)
  | removeFrom source => exact Or.inl (records_of_filter (records_of_filter (r := r.prune b) h))
  | release =>
    obtain ⟨record, hrecord⟩ := h
    cases hrecord
  | prune => exact Or.inl (records_of_filter h)
  | takeFirstUpdate => exact Or.inl h
  | modifyListeners change => exact Or.inl h

-- the record of a sticky anchor that outlives an operation is still there, and the same
theorem find?_perform_of_some (r : Registry ι) (hb : b.WellFormed) (change : Change ι) {a : Anchor}
    (hold : a ∈ b.anchors) (ha : a ∈ (r.perform b change).2.anchors) (hmarker : a.marker = .sticky)
    {record : LineRecord} (hrecord : r.records.find? a.handle = some record) :
    (r.perform b change).1.records.find? a.handle = some record := by
  have hlive : isLive b a.handle = true := (Buffer.isLive_iff hb.distinct).2 ⟨a, hold, rfl⟩
  cases change with
  | add source start stop label =>
    have hne : a.handle ≠ ⟨b.nextHandle⟩ := hb.handle_ne_fresh .sticky start stop a hold
    show (r.add b source start stop label).registry.records.find? a.handle = some record
    rcases r.add_cases hb source start stop label with ⟨_, -, heq⟩ | ⟨-, -, heq⟩ <;> rw [heq]
    · exact hrecord
    · exact (Table.find?_insert ..).trans ((if_neg hne).trans hrecord)
  | remove line =>
    have hremove : a ∈ (r.remove b line).store.anchors := ha
    show (r.remove b line).registry.records.find? a.handle = some record
    rcases r.remove_cases hb line with ⟨-, heq⟩ | ⟨-, -, heq⟩ | ⟨-, hnot, -, heq⟩
    · rw [heq]
      exact hrecord
    · rw [heq] at hremove ⊢
      have hne : a.handle ≠ line.handle := ((Buffer.mem_anchors_drop hb.distinct).1 hremove).2
      exact (Table.find?_erase ..).trans ((if_neg hne).trans hrecord)
    · rw [heq]
      have hne : a.handle ≠ line.handle := fun h => hnot ⟨a, hold, h, hmarker⟩
      exact (Table.find?_erase ..).trans ((if_neg hne).trans hrecord)
  | removeFrom source => exact r.find?_removeFrom hb source ha hrecord
  | release => exact absurd ⟨record, hrecord⟩ (r.not_records_of_mem_release hb ha)
  | prune => exact Table.find?_filter_of_pos hrecord hlive
  | takeFirstUpdate => exact hrecord
  | modifyListeners change => exact hrecord

/-- The record of a sticky anchor that outlives an operation stays what it was, and so does the lack
of one. -/
theorem find?_perform (r : Registry ι) (hb : b.WellFormed) (change : Change ι) {a : Anchor}
    (hold : a ∈ b.anchors) (ha : a ∈ (r.perform b change).2.anchors)
    (hmarker : a.marker = .sticky) :
    (r.perform b change).1.records.find? a.handle = r.records.find? a.handle := by
  cases hfind : r.records.find? a.handle with
  | some record => exact r.find?_perform_of_some hb change hold ha hmarker hfind
  | none =>
    -- a record that is made is that of another anchor
    rw [Option.eq_none_iff_forall_ne_some]
    intro record hafter
    rcases r.records_of_perform hb change ⟨record, hafter⟩ with
      ⟨_, hrecord⟩ | ⟨_, _, _, _, _, -, -, -, hnew, -⟩
    · rw [hfind] at hrecord
      cases hrecord
    · exact hb.handle_ne_fresh .sticky 0 0 a hold hnew

-- a handle has one record
theorem nodup_keys_perform {r : Registry ι} (hnd : r.records.keys.Nodup) (hb : b.WellFormed)
    (change : Change ι) : (r.perform b change).1.records.keys.Nodup := by
  cases change with
  | add source start stop label =>
    simp only [perform]
    rcases add_cases r hb source start stop label with ⟨fault, -, heq⟩ | ⟨-, -, heq⟩ <;> rw [heq]
    · exact hnd
    · exact Table.nodup_keys_insert hnd _ _
  | remove line =>
    simp only [perform]
    rcases remove_cases r hb line with ⟨-, heq⟩ | ⟨-, -, heq⟩ | ⟨-, -, -, heq⟩ <;> rw [heq]
    · exact hnd
    · exact Table.nodup_keys_erase hnd _
    · exact Table.nodup_keys_erase hnd _
  | removeFrom source =>
    have hpruned : (r.prune b).records.keys.Nodup := Table.nodup_keys_filter hnd _
    exact Table.nodup_keys_filter hpruned _
  | prune => exact Table.nodup_keys_filter hnd _
  | release => exact List.nodup_nil
  | takeFirstUpdate => exact hnd
  | modifyListeners change => exact hnd

end StickyScroll.Registry
