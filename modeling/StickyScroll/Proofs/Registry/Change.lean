import StickyScroll.Proofs.Buffer.History
import StickyScroll.Registry

/-!
# Changes of a registry

One statement for each operation of a registry over a buffer says when it is refused and what it
leaves otherwise. To its buffer a registry does nothing but make sticky anchors and drop handles:
what it leaves of the buffer is what a list of changes of the buffer leaves.
-/

namespace StickyScroll

namespace Buffer

def IsSticky (b : Buffer) (handle : Handle) : Prop :=
  ∃ a ∈ b.anchors, a.handle = handle ∧ a.marker = .sticky

theorem isLive_iff {b : Buffer} (hnd : (b.anchors.map (·.handle)).Nodup) {handle : Handle} :
    Registry.isLive b handle = true ↔ ∃ a ∈ b.anchors, a.handle = handle := by
  show (b.anchorOf? handle).isSome = true ↔ _
  rw [Option.isSome_iff_exists]
  constructor
  · rintro ⟨a, ha⟩
    exact ⟨a, (anchorOf?_eq_some_iff hnd).1 ha⟩
  · rintro ⟨a, ha⟩
    exact ⟨a, (anchorOf?_eq_some_iff hnd).2 ha⟩

/-! ## Dropping many handles -/

theorem deleteAll_eq_after (b : Buffer) (handles : List Handle) :
    (Registry.deleteAll b handles).2 = b.after (handles.map Change.drop) := by
  induction handles generalizing b with
  | nil => rfl
  | cons handle rest ih => exact ih (b.drop handle).2

-- dropping handles takes out exactly the anchors that have them, in whichever order they come
theorem deleteAll_eq {b : Buffer} (hb : b.WellFormed) (handles : List Handle) :
    (Registry.deleteAll b handles).2 =
      { b with anchors := b.anchors.filter fun a => decide (a.handle ∉ handles) } := by
  induction handles generalizing b with
  | nil =>
    have hall : b.anchors.filter (fun a => decide (a.handle ∉ ([] : List Handle))) = b.anchors :=
      List.filter_eq_self.2 fun a _ => by simp
    rw [hall]
    rfl
  | cons handle rest ih =>
    have hrest : (Registry.deleteAll b (handle :: rest)).2 =
        (Registry.deleteAll (b.drop handle).2 rest).2 := rfl
    rw [hrest, ih (hb.drop handle), anchors_drop hb.distinct, List.filter_filter]
    have hpick (a : Anchor) : (decide (a.handle ∉ rest) && !named handle a) =
        decide (a.handle ∉ handle :: rest) := by
      rw [Bool.eq_iff_iff]
      simp [named, and_comm]
    simp only [hpick]
    rfl

theorem mem_anchors_deleteAll {b : Buffer} (hb : b.WellFormed) {handles : List Handle}
    {a : Anchor} :
    a ∈ (Registry.deleteAll b handles).2.anchors ↔ a ∈ b.anchors ∧ a.handle ∉ handles := by
  rw [deleteAll_eq hb, List.mem_filter, decide_eq_true_eq]

end Buffer

namespace Registry

variable {ι : Type}

theorem add_cases (r : Registry ι) {b : Buffer} (hb : b.WellFormed) (source : String)
    (start stop : Nat) (label : Option String) :
    (∃ fault, ¬ (start < stop ∧ b.Accepts start stop) ∧
      r.add b source start stop label = ⟨.error fault, r, b, []⟩) ∨
    (start < stop ∧ b.Accepts start stop ∧
      r.add b source start stop label =
        { value := .ok (.ofAnchor (b.placed (b.fresh .sticky start stop))
            (b.fresh .sticky start stop) label)
          registry := { r with records := r.records.insert ⟨b.nextHandle⟩ ⟨source, label⟩ }
          store := b.placed (b.fresh .sticky start stop)
          events := [.lineAdded source start stop ⟨b.nextHandle⟩] }) := by
  unfold add
  by_cases hlt : start < stop
  · rw [if_neg (Nat.not_le.2 hlt)]
    rcases Buffer.create_cases b .sticky start stop with ⟨fault, hacc, heq⟩ | ⟨hacc, heq⟩
    · have hcreate : RangeStore.create b Marker.sticky start stop = (.error fault, b) := heq
      rw [hcreate]
      exact Or.inl ⟨fault, fun h => hacc h.2, rfl⟩
    · have hcreate : RangeStore.create b Marker.sticky start stop =
          (.ok ⟨b.nextHandle⟩, b.placed (b.fresh .sticky start stop)) := heq
      -- the anchor of the handle just issued is the one that was made
      have hfind : RangeStore.anchorOf? (b.placed (b.fresh .sticky start stop))
          ⟨b.nextHandle⟩ = some (b.fresh .sticky start stop) :=
        (Buffer.anchorOf?_eq_some_iff (hb.placed hacc).distinct).2
          ⟨Buffer.mem_anchors_placed.2 (Or.inl rfl), rfl⟩
      rw [hcreate]
      dsimp only
      rw [hfind]
      exact Or.inr ⟨hlt, hacc, rfl⟩
  · rw [if_pos (Nat.not_lt.1 hlt)]
    exact Or.inl ⟨_, fun h => hlt h.1, rfl⟩

theorem anchorOf?_isSome_iff {b : Buffer} (hb : b.WellFormed) {line : StickyLine} :
    (anchorOf? b line).isSome = true ↔ line.documentId = b.id ∧ b.IsSticky line.handle := by
  unfold anchorOf?
  by_cases hid : line.documentId = RangeStore.documentId b
  · rw [if_pos hid, Option.isSome_iff_exists]
    constructor
    · rintro ⟨a, ha⟩
      obtain ⟨hfind, hmarker⟩ := Option.filter_eq_some_iff.1 ha
      obtain ⟨hmem, hhandle⟩ := (Buffer.anchorOf?_eq_some_iff hb.distinct).1 hfind
      exact ⟨hid, a, hmem, hhandle, beq_iff_eq.1 hmarker⟩
    · rintro ⟨-, a, hmem, hhandle, hmarker⟩
      have hfind := (Buffer.anchorOf?_eq_some_iff hb.distinct).2 ⟨hmem, hhandle⟩
      exact ⟨a, Option.filter_eq_some_iff.2 ⟨hfind, beq_iff_eq.2 hmarker⟩⟩
  · rw [if_neg hid]
    exact iff_of_false (fun h => nomatch h) fun h => hid h.1

theorem remove_cases (r : Registry ι) {b : Buffer} (hb : b.WellFormed) (line : StickyLine) :
    (¬ (line.documentId = b.id ∧
        ((r.records.find? line.handle).isSome = true ∨ b.IsSticky line.handle)) ∧
      r.remove b line = ⟨.error (.lineNotFound line.handle), r, b, []⟩) ∨
    (line.documentId = b.id ∧ b.IsSticky line.handle ∧
      r.remove b line =
        { value := .ok ()
          registry := { r with records := r.records.erase line.handle }
          store := (b.drop line.handle).2
          events := [.lineRemoved ((r.records.find? line.handle).map (·.source)) line.handle] }) ∨
    (line.documentId = b.id ∧ ¬ b.IsSticky line.handle ∧
      (r.records.find? line.handle).isSome = true ∧
      r.remove b line =
        { value := .ok ()
          registry := { r with records := r.records.erase line.handle }
          store := b
          events :=
            [.lineRemoved ((r.records.find? line.handle).map (·.source)) line.handle] }) := by
  unfold remove
  by_cases hid : line.documentId = b.id
  · rw [if_pos (show line.documentId = RangeStore.documentId b from hid)]
    by_cases hsticky : b.IsSticky line.handle
    · have hdropped : (b.drop line.handle).1 = true := by
        obtain ⟨a, ha, hhandle, -⟩ := hsticky
        exact List.any_eq_true.2 ⟨a, ha, Buffer.named_iff.2 hhandle⟩
      have hdelete : RangeStore.delete b line.handle = (true, (b.drop line.handle).2) :=
        Prod.ext hdropped rfl
      rw [if_pos ((anchorOf?_isSome_iff hb).2 ⟨hid, hsticky⟩), hdelete]
      exact Or.inr (Or.inl ⟨hid, hsticky, rfl⟩)
    · have hnone : ¬ (anchorOf? b line).isSome = true := fun h =>
        hsticky ((anchorOf?_isSome_iff hb).1 h).2
      rw [if_neg hnone]
      cases hrecord : r.records.find? line.handle with
      | none =>
        refine Or.inl ⟨?_, rfl⟩
        rintro ⟨-, h | h⟩
        · cases h
        · exact hsticky h
      | some record => exact Or.inr (Or.inr ⟨hid, hsticky, rfl, rfl⟩)
  · rw [if_neg (show ¬ line.documentId = RangeStore.documentId b from hid)]
    exact Or.inl ⟨fun h => hid h.1, rfl⟩

/-! ## Changes as data -/

/-- What can be done to a registry. -/
inductive Change (ι : Type) where
  | add (source : String) (start stop : Nat) (label : Option String)
  | remove (line : StickyLine)
  | removeFrom (source : String)
  | prune
  | release
  | takeFirstUpdate
  -- listeners come, go and are notified
  | modifyListeners (change : Listeners ι → Listeners ι)

-- what a change leaves of a registry and its store
def perform {σ : Type} [RangeStore σ] (r : Registry ι) (store : σ) : Change ι → Registry ι × σ
  | .add source start stop label =>
      let o := r.add store source start stop label
      (o.registry, o.store)
  | .remove line =>
      let o := r.remove store line
      (o.registry, o.store)
  | .removeFrom source =>
      let o := r.removeFrom store source
      (o.registry, o.store)
  | .prune => (r.prune store, store)
  | .release =>
      let o := r.release store
      (o.registry, o.store)
  | .takeFirstUpdate => (r.takeFirstUpdate.2, store)
  | .modifyListeners change => ({ r with listeners := change r.listeners }, store)

-- whatever a registry does to its buffer is a list of changes of the buffer
theorem perform_store_eq_after (r : Registry ι) {b : Buffer} (hb : b.WellFormed)
    (change : Change ι) :
    ∃ changes : List Buffer.Change, (r.perform b change).2 = b.after changes := by
  cases change with
  | add source start stop label =>
    simp only [perform]
    rcases add_cases r hb source start stop label with ⟨fault, -, heq⟩ | ⟨-, hacc, heq⟩
    · rw [heq]
      exact ⟨[], rfl⟩
    · rw [heq]
      refine ⟨[.create .sticky start stop], ?_⟩
      rcases Buffer.create_cases b .sticky start stop with ⟨_, hnot, -⟩ | ⟨-, hcreate⟩
      · exact absurd hacc hnot
      · exact (congrArg Prod.snd hcreate).symm
  | remove line =>
    simp only [perform]
    rcases remove_cases r hb line with ⟨-, heq⟩ | ⟨-, -, heq⟩ | ⟨-, -, -, heq⟩
    · rw [heq]
      exact ⟨[], rfl⟩
    · rw [heq]
      exact ⟨[.drop line.handle], rfl⟩
    · rw [heq]
      exact ⟨[], rfl⟩
  | removeFrom source => exact ⟨_, Buffer.deleteAll_eq_after b _⟩
  | release => exact ⟨_, Buffer.deleteAll_eq_after b _⟩
  | prune => exact ⟨[], rfl⟩
  | takeFirstUpdate => exact ⟨[], rfl⟩
  | modifyListeners change => exact ⟨[], rfl⟩

theorem wellFormed_perform (r : Registry ι) {b : Buffer} (hb : b.WellFormed) (change : Change ι) :
    (r.perform b change).2.WellFormed := by
  obtain ⟨changes, heq⟩ := r.perform_store_eq_after hb change
  rw [heq]
  exact hb.after changes

/-! ## What stays on record -/

/-- The registry has a record of the handle. -/
def Records (r : Registry ι) (handle : Handle) : Prop :=
  ∃ record, r.records.find? handle = some record

-- what a removal by source deletes, in the order of the records
def handlesOf (r : Registry ι) (b : Buffer) (source : String) : List Handle :=
  ((r.prune b).records.filter fun _ record => record.source == source).keys

theorem mem_handlesOf (r : Registry ι) {b : Buffer} (hb : b.WellFormed) {a : Anchor}
    (ha : a ∈ b.anchors) {record : LineRecord}
    (hrecord : r.records.find? a.handle = some record) :
    a.handle ∈ r.handlesOf b record.source := by
  have hlive : isLive b a.handle = true := (Buffer.isLive_iff hb.distinct).2 ⟨a, ha, rfl⟩
  have hpruned : (r.prune b).records.find? a.handle = some record :=
    Table.find?_filter_of_pos hrecord hlive
  exact Table.mem_keys_of_find?_eq_some
    (Table.find?_filter_of_pos hpruned (beq_self_eq_true record.source))

theorem mem_anchors_removeFrom (r : Registry ι) {b : Buffer} (hb : b.WellFormed) {source : String}
    {a : Anchor} :
    a ∈ (r.removeFrom b source).store.anchors ↔
      a ∈ b.anchors ∧ a.handle ∉ r.handlesOf b source :=
  Buffer.mem_anchors_deleteAll hb

-- a line of the source that outlives the removal would have been among those removed
theorem find?_removeFrom (r : Registry ι) {b : Buffer} (hb : b.WellFormed) (source : String)
    {a : Anchor} (ha : a ∈ (r.removeFrom b source).store.anchors) {record : LineRecord}
    (hrecord : r.records.find? a.handle = some record) :
    (r.removeFrom b source).registry.records.find? a.handle = some record := by
  obtain ⟨hmem, hnot⟩ := (r.mem_anchors_removeFrom hb).1 ha
  have hlive : isLive b a.handle = true := (Buffer.isLive_iff hb.distinct).2 ⟨a, hmem, rfl⟩
  have hpruned : (r.prune b).records.find? a.handle = some record :=
    Table.find?_filter_of_pos hrecord hlive
  have hother : (record.source != source) = true := by
    rw [bne_iff_ne]
    rintro rfl
    exact hnot (r.mem_handlesOf hb hmem hrecord)
  exact Table.find?_filter_of_pos hpruned hother

theorem records_removeFrom (r : Registry ι) {b : Buffer} (hb : b.WellFormed) (source : String)
    {a : Anchor} (ha : a ∈ (r.removeFrom b source).store.anchors) (hrecorded : r.Records a.handle) :
    (r.removeFrom b source).registry.Records a.handle := by
  obtain ⟨record, hrecord⟩ := hrecorded
  exact ⟨record, r.find?_removeFrom hb source ha hrecord⟩

-- a line on record is given up when the registry gives up its lines
theorem not_records_of_mem_release (r : Registry ι) {b : Buffer} (hb : b.WellFormed)
    {a : Anchor} (ha : a ∈ (r.release b).store.anchors) : ¬ r.Records a.handle := by
  rintro ⟨record, hrecord⟩
  have hnot := ((Buffer.mem_anchors_deleteAll hb).1 ha).2
  exact hnot (Table.mem_keys_of_find?_eq_some hrecord)

theorem records_remove (r : Registry ι) {b : Buffer} (hb : b.WellFormed) (line : StickyLine)
    {a : Anchor} (ha : a ∈ (r.remove b line).store.anchors) (hmarker : a.marker = .sticky) :
    a ∈ b.anchors ∧ (r.Records a.handle → (r.remove b line).registry.Records a.handle) := by
  have herase : a.handle ≠ line.handle → r.Records a.handle →
      ∃ record, (r.records.erase line.handle).find? a.handle = some record := by
    rintro hne ⟨record, hrecord⟩
    refine ⟨record, ?_⟩
    rw [Table.find?_erase, if_neg hne]
    exact hrecord
  rcases remove_cases r hb line with ⟨-, heq⟩ | ⟨-, -, heq⟩ | ⟨-, hnot, -, heq⟩
  · rw [heq] at ha ⊢
    exact ⟨ha, id⟩
  · rw [heq] at ha ⊢
    obtain ⟨hmem, hne⟩ := (Buffer.mem_anchors_drop hb.distinct).1 ha
    exact ⟨hmem, herase hne⟩
  · rw [heq] at ha ⊢
    have hne : a.handle ≠ line.handle := fun h => hnot ⟨a, ha, h, hmarker⟩
    exact ⟨ha, herase hne⟩

theorem records_add (r : Registry ι) {b : Buffer} (hb : b.WellFormed) (source : String)
    (start stop : Nat) (label : Option String) {a : Anchor}
    (ha : a ∈ (r.add b source start stop label).store.anchors) :
    (r.add b source start stop label).registry.Records a.handle ∨
      (a ∈ b.anchors ∧
        (r.Records a.handle → (r.add b source start stop label).registry.Records a.handle)) := by
  rcases add_cases r hb source start stop label with ⟨fault, -, heq⟩ | ⟨-, -, heq⟩
  · rw [heq] at ha ⊢
    exact Or.inr ⟨ha, id⟩
  · rw [heq] at ha ⊢
    rcases Buffer.mem_anchors_placed.1 ha with rfl | hmem
    · refine Or.inl ⟨⟨source, label⟩, ?_⟩
      exact (Table.find?_insert ..).trans (if_pos rfl)
    · refine Or.inr ⟨hmem, ?_⟩
      rintro ⟨record, hrecord⟩
      have hne : a.handle ≠ ⟨b.nextHandle⟩ := hb.handle_ne_fresh .sticky start stop a hmem
      refine ⟨record, ?_⟩
      exact ((Table.find?_insert ..).trans (if_neg hne)).trans hrecord

def Change.adds : Change ι → Bool
  | add .. => true
  | _ => false

/-- A sticky anchor that is found after a change was there before, and stays on record if it was, or
was made by the change and is on record. -/
theorem records_perform (r : Registry ι) {b : Buffer} (hb : b.WellFormed) (change : Change ι)
    {a : Anchor} (ha : a ∈ (r.perform b change).2.anchors) (hmarker : a.marker = .sticky) :
    (change.adds = true ∧ (r.perform b change).1.Records a.handle) ∨
      (a ∈ b.anchors ∧ (r.Records a.handle → (r.perform b change).1.Records a.handle)) := by
  cases change with
  | add source start stop label =>
    rcases records_add r hb source start stop label ha with hnew | hold
    · exact Or.inl ⟨rfl, hnew⟩
    · exact Or.inr hold
  | remove line => exact Or.inr (records_remove r hb line ha hmarker)
  | removeFrom source =>
    have hmem : a ∈ b.anchors := ((r.mem_anchors_removeFrom hb).1 ha).1
    exact Or.inr ⟨hmem, records_removeFrom r hb source ha⟩
  | prune =>
    refine Or.inr ⟨ha, ?_⟩
    rintro ⟨record, hrecord⟩
    have hlive : isLive b a.handle = true := (Buffer.isLive_iff hb.distinct).2 ⟨a, ha, rfl⟩
    exact ⟨record, Table.find?_filter_of_pos hrecord hlive⟩
  | release =>
    have hmem : a ∈ b.anchors := ((Buffer.mem_anchors_deleteAll hb).1 ha).1
    exact Or.inr ⟨hmem, fun h => absurd h (not_records_of_mem_release r hb ha)⟩
  | takeFirstUpdate => exact Or.inr ⟨ha, id⟩
  | modifyListeners change => exact Or.inr ⟨ha, id⟩

end Registry
end StickyScroll
