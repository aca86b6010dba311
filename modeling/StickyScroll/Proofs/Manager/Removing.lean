import StickyScroll.Proofs.Manager.Ownership
import StickyScroll.Proofs.Registry.Listing

/-!
# Removing lines

A registry takes out the record of a line and its anchor, whichever there is, and is only refused if
there is neither. The anchor is deleted by its handle alone, and a source's lines are deleted in the
order in which the records happen to come. Both are safe because what is on record is sticky and of
this registry's making, and because dropping handles takes out the anchors that have them, in
whichever order they are dropped.
-/

namespace StickyScroll

namespace Registry

variable {ι : Type} {b : Buffer}

/-! ## One line -/

/-- There is something to remove of the line: it is of this document, and its handle is on record or
that of a sticky anchor. -/
def Finds (r : Registry ι) (b : Buffer) (line : StickyLine) : Prop :=
  line.documentId = b.id ∧ (r.Records line.handle ∨ b.IsSticky line.handle)

theorem remove_of_finds (r : Registry ι) (hb : b.WellFormed) (howns : r.Owns b) {line : StickyLine}
    (h : r.Finds b line) :
    r.remove b line =
      { value := .ok ()
        registry := { r with records := r.records.erase line.handle }
        store := { b with anchors := b.anchors.filter fun a => a.handle != line.handle }
        events := [.lineRemoved ((r.records.find? line.handle).map (·.source)) line.handle] } := by
  rcases r.remove_cases hb line with ⟨hnot, -⟩ | ⟨-, -, heq⟩ | ⟨-, hnot, hrecord, heq⟩
  · rw [← records_iff_isSome] at hnot
    exact absurd h hnot
  · have hdrop : (b.drop line.handle).2 =
        { b with anchors := b.anchors.filter fun a => a.handle != line.handle } :=
      congrArg (fun anchors => { b with anchors := anchors }) (Buffer.anchors_drop hb.distinct _)
    rw [heq, hdrop]
  · -- the record is stale: its anchor would be sticky
    have hgone : ∀ a ∈ b.anchors, (a.handle != line.handle) = true := by
      intro a ha
      rw [bne_iff_ne]
      intro hhandle
      have hsticky := howns.sticky a ha (by rw [hhandle]; exact records_iff_isSome.2 hrecord)
      exact hnot ⟨a, ha, hhandle, hsticky⟩
    rw [heq, List.filter_eq_self.2 hgone]

theorem remove_of_not_finds (r : Registry ι) (hb : b.WellFormed) {line : StickyLine}
    (h : ¬ r.Finds b line) :
    r.remove b line = ⟨.error (.lineNotFound line.handle), r, b, []⟩ := by
  rw [Finds, records_iff_isSome] at h
  rcases r.remove_cases hb line with ⟨-, heq⟩ | ⟨hid, hsticky, -⟩ | ⟨hid, -, hrecord, -⟩
  · exact heq
  · exact absurd ⟨hid, Or.inr hsticky⟩ h
  · exact absurd ⟨hid, Or.inl hrecord⟩ h

theorem query_remove (r : Registry ι) (hb : b.WellFormed) (howns : r.Owns b) {line : StickyLine}
    (h : r.Finds b line) (filter : Option String) (limit : Nat) :
    let o := r.remove b line
    o.registry.query o.store filter limit =
      (r.query b filter limit).filter fun other => other.handle != line.handle := by
  rw [r.remove_of_finds hb howns h]
  apply query_of_kept hb fun handle => handle != line.handle
  intro a _ hkept
  exact (Table.find?_erase ..).trans (if_neg (bne_iff_ne.1 hkept))

/-! ## The lines of a source -/

-- the source on record for a handle
def sourceOn? (r : Registry ι) (handle : Handle) : Option String :=
  (r.records.find? handle).map (·.source)

theorem reports_some_iff {r : Registry ι} {source : String} {a : Anchor} :
    r.reports (some source) a = true ↔
      a.marker = .sticky ∧ r.sourceOn? a.handle = some source := by
  rw [reports, Bool.and_eq_true, Option.all_some, beq_iff_eq, beq_iff_eq, sourceOn?]

theorem sourceOf?_of_mem_query {r : Registry ι} (hb : b.WellFormed) {filter : Option String}
    {limit : Nat} {line : StickyLine} (h : line ∈ r.query b filter limit) :
    r.sourceOf? b line = r.sourceOn? line.handle := by
  obtain ⟨a, -, -, -, -, rfl⟩ := (mem_query_iff hb).1 h
  exact r.sourceOf?_shown b a

-- a query for a source shows what is on record with it
theorem sourceOn?_of_mem_query {r : Registry ι} (hb : b.WellFormed) {source : String} {limit : Nat}
    {line : StickyLine} (h : line ∈ r.query b (some source) limit) :
    r.sourceOn? line.handle = some source := by
  obtain ⟨a, -, hmarker, -, hwants, rfl⟩ := (mem_query_iff hb).1 h
  exact (reports_some_iff.1 (reports_iff.2 ⟨hmarker, hwants⟩)).2

theorem nodup_keys_prune {r : Registry ι} (hnd : r.records.keys.Nodup) :
    (r.prune b).records.keys.Nodup :=
  Table.nodup_keys_filter hnd _

theorem find?_prune {r : Registry ι} (hnd : r.records.keys.Nodup) (handle : Handle) :
    (r.prune b).records.find? handle = (r.records.find? handle).filter fun _ => isLive b handle :=
  Table.find?_filter hnd _ handle

theorem mem_handlesOf_iff {r : Registry ι} (hnd : r.records.keys.Nodup) {source : String}
    {handle : Handle} :
    handle ∈ r.handlesOf b source ↔ isLive b handle = true ∧ r.sourceOn? handle = some source := by
  rw [handlesOf, Table.mem_keys_iff, Table.find?_filter (nodup_keys_prune hnd), find?_prune hnd,
    sourceOn?]
  cases r.records.find? handle with
  | none => simp
  | some record => simp [Option.filter_eq_some_iff]

/-- The live records that pass a test are those of the anchors whose records pass it. -/
theorem keys_live_perm {r : Registry ι} (hb : b.WellFormed) (hnd : r.records.keys.Nodup)
    (p : LineRecord → Bool) :
    ((r.prune b).records.filter fun _ record => p record).keys.Perm
      ((b.anchors.filter fun a => (r.records.find? a.handle).any p).map (·.handle)) := by
  have hpruned : (r.prune b).records.keys.Nodup := nodup_keys_prune hnd
  rw [List.perm_ext_iff_of_nodup (Table.nodup_keys_filter hpruned _)
    (hb.distinct.sublist (List.filter_sublist.map _))]
  intro handle
  rw [Table.mem_keys_iff, Table.find?_filter hpruned, find?_prune hnd, List.mem_map]
  constructor
  · rintro ⟨record, hrecord⟩
    obtain ⟨hkept, hp⟩ := Option.filter_eq_some_iff.1 hrecord
    obtain ⟨hfind, hlive⟩ := Option.filter_eq_some_iff.1 hkept
    obtain ⟨a, ha, rfl⟩ := (Buffer.isLive_iff hb.distinct).1 hlive
    exact ⟨a, List.mem_filter.2 ⟨ha, (Option.any_eq_true ..).2 ⟨record, hfind, hp⟩⟩, rfl⟩
  · rintro ⟨a, ha, rfl⟩
    obtain ⟨hmem, hany⟩ := List.mem_filter.1 ha
    obtain ⟨record, hfind, hp⟩ := (Option.any_eq_true ..).1 hany
    have hlive : isLive b a.handle = true := (Buffer.isLive_iff hb.distinct).2 ⟨a, hmem, rfl⟩
    exact ⟨record, Option.filter_eq_some_iff.2 ⟨Option.filter_eq_some_iff.2 ⟨hfind, hlive⟩, hp⟩⟩

-- the handles that are deleted are those of the lines that are shown of the source
theorem handlesOf_perm {r : Registry ι} (hb : b.WellFormed) (howns : r.Owns b)
    (hnd : r.records.keys.Nodup) (source : String) :
    (r.handlesOf b source).Perm ((r.lines b (some source)).map (·.handle)) := by
  have hown : b.anchors.filter (r.reports (some source)) =
      b.anchors.filter fun a => (r.records.find? a.handle).any (·.source == source) := by
    apply List.filter_congr
    intro a ha
    rw [Bool.eq_iff_iff, reports_some_iff, sourceOn?, Option.map_eq_some_iff, Option.any_eq_true]
    simp only [beq_iff_eq]
    -- what is on record is sticky
    apply and_iff_right_of_imp
    rintro ⟨record, hrecord, -⟩
    exact howns.sticky a ha ⟨record, hrecord⟩
  have hlines : (r.lines b (some source)).map (·.handle) =
      (b.anchors.filter (r.reports (some source))).map (·.handle) := by
    rw [r.lines_eq_map hb, List.map_map]
    rfl
  rw [hlines, hown]
  exact keys_live_perm hb hnd (·.source == source)

/-- A removal by source deletes the anchors that are on record with the source. -/
theorem store_removeFrom {r : Registry ι} (hb : b.WellFormed) (hnd : r.records.keys.Nodup)
    (source : String) :
    (r.removeFrom b source).store =
      { b with anchors := b.anchors.filter fun a => r.sourceOn? a.handle != some source } := by
  have hpick : ∀ a ∈ b.anchors, decide (a.handle ∉ r.handlesOf b source) =
      (r.sourceOn? a.handle != some source) := by
    intro a ha
    have hlive : isLive b a.handle = true := (Buffer.isLive_iff hb.distinct).2 ⟨a, ha, rfl⟩
    rw [Bool.eq_iff_iff, decide_eq_true_eq, bne_iff_ne, mem_handlesOf_iff hnd, and_iff_right hlive]
  have hstore : (r.removeFrom b source).store = (deleteAll b (r.handlesOf b source)).2 := rfl
  rw [hstore, Buffer.deleteAll_eq hb, List.filter_congr hpick]

-- what stays on record is live, and of another source
theorem find?_removeFrom_eq {r : Registry ι} (hnd : r.records.keys.Nodup) (source : String)
    (handle : Handle) :
    (r.removeFrom b source).registry.records.find? handle =
      (r.records.find? handle).filter fun record => isLive b handle && record.source != source := by
  have hpruned := Table.find?_filter (nodup_keys_prune (b := b) hnd)
    (fun _ record => record.source != source) handle
  rw [find?_prune hnd, Option.filter_filter] at hpruned
  exact hpruned

theorem query_removeFrom {r : Registry ι} (hb : b.WellFormed) (hnd : r.records.keys.Nodup)
    (source : String) (filter : Option String) (limit : Nat) :
    let o := r.removeFrom b source
    o.registry.query o.store filter limit =
      (r.query b filter limit).filter fun line => r.sourceOn? line.handle != some source := by
  intro o
  have hstore : o.store = _ := store_removeFrom hb hnd source
  rw [hstore]
  apply query_of_kept hb fun handle => r.sourceOn? handle != some source
  intro a ha hkept
  have hlive : isLive b a.handle = true := (Buffer.isLive_iff hb.distinct).2 ⟨a, ha, rfl⟩
  have hfind : o.registry.records.find? a.handle = _ := find?_removeFrom_eq hnd source a.handle
  rw [hfind, hlive]
  cases hrecord : r.records.find? a.handle with
  | none => rfl
  | some record =>
    rw [sourceOn?, hrecord] at hkept
    simpa using hkept

theorem query_removeFrom_self {r : Registry ι} (hb : b.WellFormed) (hnd : r.records.keys.Nodup)
    (source : String) (limit : Nat) :
    let o := r.removeFrom b source
    o.registry.query o.store (some source) limit = [] := by
  intro o
  rw [query_removeFrom hb hnd, List.filter_eq_nil_iff]
  intro line hline
  rw [sourceOn?_of_mem_query hb hline, bne_iff_ne]
  exact fun h => h rfl

theorem query_removeFrom_of_ne {r : Registry ι} (hb : b.WellFormed) (hnd : r.records.keys.Nodup)
    {source other : String} (hother : other ≠ source) (limit : Nat) :
    let o := r.removeFrom b source
    o.registry.query o.store (some other) limit = r.query b (some other) limit := by
  intro o
  rw [query_removeFrom hb hnd, List.filter_eq_self]
  intro line hline
  rw [sourceOn?_of_mem_query hb hline, bne_iff_ne]
  exact fun h => hother (Option.some.inj h)

theorem isLive_removeFrom {r : Registry ι} (hb : b.WellFormed) (hnd : r.records.keys.Nodup)
    {source : String} {handle : Handle} (h : (r.removeFrom b source).registry.Records handle) :
    isLive (r.removeFrom b source).store handle = true := by
  obtain ⟨record, hrecord⟩ := h
  rw [find?_removeFrom_eq hnd, Option.filter_eq_some_iff, Bool.and_eq_true, bne_iff_ne] at hrecord
  obtain ⟨hfind, hlive, hother⟩ := hrecord
  obtain ⟨a, ha, rfl⟩ := (Buffer.isLive_iff hb.distinct).1 hlive
  rw [store_removeFrom hb hnd]
  have hkept := hb.of_sublist (List.filter_sublist
    (p := fun a : Anchor => r.sourceOn? a.handle != some source))
  rw [Buffer.isLive_iff hkept.distinct]
  refine ⟨a, List.mem_filter.2 ⟨ha, ?_⟩, rfl⟩
  rw [sourceOn?, hfind, bne_iff_ne, Option.map_some]
  exact fun h => hother (Option.some.inj h)

theorem size_eq_size_prune (r : Registry ι) (b : Buffer) :
    r.size b = (r.prune b).records.size := by
  have hkeys : r.records.keys.filter (isLive b) = (r.prune b).records.keys := List.filter_map ..
  rw [size, hkeys, Table.length_keys]

-- a registry counts the anchors that are on record
theorem size_eq_length_filter {r : Registry ι} (hb : b.WellFormed) (hnd : r.records.keys.Nodup) :
    r.size b = (b.anchors.filter fun a => (r.records.find? a.handle).isSome).length := by
  have hall : ((r.prune b).records.filter fun _ _ => true) = (r.prune b).records :=
    congrArg Table.mk (List.filter_true _)
  have hlength := (keys_live_perm hb hnd fun _ => true).length_eq
  rw [hall, Table.length_keys, List.length_map] at hlength
  simpa only [size_eq_size_prune, Option.any_true] using hlength

-- a registry whose records are all live counts them all
theorem size_of_live {r : Registry ι} (h : ∀ handle, r.Records handle → isLive b handle = true) :
    r.size b = r.records.size := by
  have hall : ∀ handle ∈ r.records.keys, isLive b handle = true := by
    intro handle hmem
    exact h handle (Table.mem_keys_iff.1 hmem)
  rw [size, List.filter_eq_self.2 hall, Table.length_keys]

/-! ## The order of the records -/

/-- The first registry is the second with its records in another order. -/
structure Reorders (r' r : Registry ι) : Prop where
  perm : r'.records.entries.Perm r.records.entries
  listeners_eq : r'.listeners = r.listeners
  firstUpdate_eq : r'.firstUpdateConsumed = r.firstUpdateConsumed

theorem Reorders.find?_eq {r r' : Registry ι} (h : Reorders r' r) (hnd : r.records.keys.Nodup)
    (handle : Handle) : r'.records.find? handle = r.records.find? handle :=
  Table.find?_of_perm hnd h.perm handle

/-- A removal by source does not depend on the order in which the records come. -/
theorem Reorders.removeFrom {r r' : Registry ι} (h : Reorders r' r) (hb : b.WellFormed)
    (hnd : r.records.keys.Nodup) (source : String) :
    (r'.removeFrom b source).value = (r.removeFrom b source).value ∧
    (r'.removeFrom b source).store = (r.removeFrom b source).store ∧
    (r'.removeFrom b source).events = (r.removeFrom b source).events ∧
    Reorders (r'.removeFrom b source).registry (r.removeFrom b source).registry := by
  have hnd' : r'.records.keys.Nodup := (h.perm.map _).nodup_iff.2 hnd
  have hpruned : (r'.prune b).records.entries.Perm (r.prune b).records.entries := h.perm.filter _
  have hvalue : (r'.removeFrom b source).value = (r.removeFrom b source).value :=
    ((hpruned.filter _).map _).length_eq
  have hsource (handle : Handle) : r'.sourceOn? handle = r.sourceOn? handle := by
    rw [sourceOn?, sourceOn?, h.find?_eq hnd]
  have hstale : r'.staleCount b = r.staleCount b := by
    rw [staleCount, staleCount, Table.size, Table.size, h.perm.length_eq, Table.size, Table.size,
      hpruned.length_eq]
  refine ⟨hvalue, ?_, ?_, ⟨hpruned.filter _, h.listeners_eq, h.firstUpdate_eq⟩⟩
  · rw [store_removeFrom hb hnd, store_removeFrom hb hnd']
    simp only [hsource]
  · show r'.pruneEvents b ++ [.sourceRemoved source (r'.removeFrom b source).value] =
      r.pruneEvents b ++ [.sourceRemoved source (r.removeFrom b source).value]
    rw [hvalue, pruneEvents, pruneEvents, hstale]

end Registry

namespace Cells

/-- Whatever came before and whatever line is given, a registry removes the line exactly if the line
is of its document and there is a record or a sticky anchor of its handle. Then the record and the
anchor go, whichever there are, and nothing else: every query shows what it showed but for the line
of that handle. Else the line is not found, and nothing changes. -/
theorem line_removed_or_not_found (turns : List Turn) {r : RegistryRef}
    {registry : Registry ListenerRef} {d : DocumentRef} {b : Buffer}
    (hworks : ((empty : Cells Buffer).after turns).Works r registry d b) (line : StickyLine) :
    let o := registry.remove b line
    let found := line.documentId = b.id ∧ (registry.Records line.handle ∨ b.IsSticky line.handle)
    (o.value = .ok () ↔ found) ∧
    (found →
      o.registry = { registry with records := registry.records.erase line.handle } ∧
      (∀ handle, o.registry.records.find? handle =
        if handle = line.handle then none else registry.records.find? handle) ∧
      o.store = { b with anchors := b.anchors.filter fun a => a.handle != line.handle } ∧
      ∀ filter limit, o.registry.query o.store filter limit =
        (registry.query b filter limit).filter fun other => other.handle != line.handle) ∧
    (¬ found → o = ⟨.error (.lineNotFound line.handle), registry, b, []⟩) := by
  intro o found
  have hb : b.WellFormed := wellFormed_after turns hworks
  have howns : registry.Owns b := owns_after turns hworks
  have hfound : found → o = _ := registry.remove_of_finds hb howns
  have hnot : ¬ found → o = _ := registry.remove_of_not_finds hb
  refine ⟨?_, ?_, hnot⟩
  · constructor
    · intro hok
      by_contra h
      rw [hnot h] at hok
      cases hok
    · intro h
      rw [hfound h]
  · intro h
    refine ⟨?_, ?_, ?_, registry.query_remove hb howns h⟩
    · rw [hfound h]
    · intro handle
      rw [hfound h]
      exact Table.find?_erase ..
    · rw [hfound h]

/-- Two registries over one document. The first adds three lines and the second one, an anchor of
another marker is made, and an anchor of the first is dropped directly. -/
def mixedScopes : List Turn :=
  let desk : Manager := .ofLimit 1
  [⟨desk, .makeDocument "a" ['x', 'y', 'z']⟩,
    ⟨desk, .openDocument [] 0⟩, ⟨desk, .openDocument [] 0⟩,
    ⟨desk, .act 0 (.add "outline" 0 2 none)⟩, ⟨desk, .act 0 (.add "search" 1 3 none)⟩,
    ⟨desk, .act 0 (.add "outline" 0 1 none)⟩, ⟨desk, .act 1 (.add "outline" 0 3 none)⟩,
    ⟨desk, .edit 0 (.create ⟨"MARK"⟩ 1 2)⟩, ⟨desk, .edit 0 (.drop ⟨2⟩)⟩]

-- what can be removed is a stale record and a zombie; another marker or document is out of reach
theorem mixedScopes_removed :
    let line (documentId : String) (handle : Nat) : StickyLine :=
      ⟨documentId, ⟨handle⟩, ⟨0, 0⟩, 0, 0, none⟩
    ∃ registry d b, ((empty : Cells Buffer).after mixedScopes).Works 0 registry d b ∧
      (registry.remove b (line "a" 2)).value = .ok () ∧
      (registry.remove b (line "a" 3)).value = .ok () ∧
      registry.remove b (line "a" 4) = ⟨.error (.lineNotFound ⟨4⟩), registry, b, []⟩ ∧
      registry.remove b (line "b" 0) = ⟨.error (.lineNotFound ⟨0⟩), registry, b, []⟩ := by
  intro line
  have hscene : (((empty : Cells Buffer).after mixedScopes).at? 0).any (fun (registry, b) =>
      b.id == "a" && (registry.records.find? ⟨2⟩).isSome && (registry.records.find? ⟨4⟩).isNone &&
        b.anchors.any (fun a => a.handle == ⟨3⟩ && a.marker == .sticky) &&
        b.anchors.all (fun a => a.handle != ⟨4⟩ || a.marker != .sticky)) = true := by
    decide +kernel
  simp only [Option.any_eq_true, Bool.and_eq_true, Bool.or_eq_true, List.any_eq_true,
    List.all_eq_true, beq_iff_eq, bne_iff_ne, Option.isNone_iff_eq_none] at hscene
  obtain ⟨⟨registry, b⟩, hat, ⟨⟨⟨hid, hstale⟩, hnone⟩, hzombie⟩, hforeign⟩ := hscene
  obtain ⟨d, hworks⟩ := at?_eq_some_iff.1 hat
  have hremove (documentId : String) (handle : Nat) :=
    line_removed_or_not_found mixedScopes hworks (line documentId handle)
  refine ⟨registry, d, b, hworks, ?_, ?_, ?_, ?_⟩
  · exact (hremove "a" 2).1.2 ⟨hid.symm, Or.inl (Registry.records_iff_isSome.2 hstale)⟩
  · exact (hremove "a" 3).1.2 ⟨hid.symm, Or.inr hzombie⟩
  · apply (hremove "a" 4).2.2
    rintro ⟨-, ⟨record, hrecord⟩ | ⟨a, ha, hhandle, hmarker⟩⟩
    · cases hnone.symm.trans hrecord
    · rcases hforeign a ha with hne | hne
      · exact hne hhandle
      · exact hne hmarker
  · apply (hremove "b" 0).2.2
    rintro ⟨hother, -⟩
    rw [hid] at hother
    exact absurd hother (by decide)

/-- Whatever came before, a removal by source takes out the lines that the registry shows of the
source, and answers how many they are. Every query shows what it showed but for those lines, so the
queries for other sources show the same, and zombies stay. Of the document nothing else goes: not
the text, nor an anchor of another marker or on record with another registry. The stale records go,
whatever their source, so what stays on record is live. The order of the records does not matter. -/
theorem source_removed_exactly (turns : List Turn) {r : RegistryRef}
    {registry : Registry ListenerRef} {d : DocumentRef} {b : Buffer}
    (hworks : ((empty : Cells Buffer).after turns).Works r registry d b) (source : String) :
    let o := registry.removeFrom b source
    o.value = (registry.lines b (some source)).length ∧
    (∀ limit, o.registry.query o.store (some source) limit = []) ∧
    (∀ other, other ≠ source → ∀ limit,
      o.registry.query o.store (some other) limit = registry.query b (some other) limit) ∧
    (∀ limit, o.registry.query o.store none limit = (registry.query b none limit).filter
      fun line => registry.sourceOf? b line != some source) ∧
    o.store =
      { b with anchors := b.anchors.filter fun a => registry.sourceOn? a.handle != some source } ∧
    (∀ a ∈ b.anchors, a.marker ≠ .sticky → a ∈ o.store.anchors) ∧
    (∀ q other, q ≠ r → ((empty : Cells Buffer).after turns).Works q other d b →
      ∀ a ∈ b.anchors, other.Records a.handle → a ∈ o.store.anchors) ∧
    (∀ handle, o.registry.records.find? handle = (registry.records.find? handle).filter
      fun record => Registry.isLive b handle && record.source != source) ∧
    (∀ handle, o.registry.Records handle → Registry.isLive o.store handle = true) ∧
    o.registry.records.size = o.registry.size o.store ∧
    ∀ registry' : Registry ListenerRef, registry'.Reorders registry →
      let o' := registry'.removeFrom b source
      o'.value = o.value ∧ o'.store = o.store ∧ o'.events = o.events ∧
        o'.registry.Reorders o.registry ∧
        ∀ handle, o'.registry.records.find? handle = o.registry.records.find? handle := by
  intro o
  have hb : b.WellFormed := wellFormed_after turns hworks
  have howns : registry.Owns b := owns_after turns hworks
  have hnd : registry.records.keys.Nodup := nodup_keys_after turns hworks
  have hlost : ∀ a ∈ b.anchors, a ∉ o.store.anchors → registry.Records a.handle :=
    fun _ => registry.lost_by_removeFrom hb source
  have hlive : ∀ handle, o.registry.Records handle → Registry.isLive o.store handle = true :=
    fun _ => Registry.isLive_removeFrom hb hnd
  refine ⟨?_, Registry.query_removeFrom_self hb hnd source,
    fun _ hother => Registry.query_removeFrom_of_ne hb hnd hother, ?_,
    Registry.store_removeFrom hb hnd source, ?_, ?_,
    Registry.find?_removeFrom_eq hnd source, hlive, (Registry.size_of_live hlive).symm, ?_⟩
  · have hperm := Registry.handlesOf_perm hb howns hnd source
    rw [← List.length_map (f := fun line : StickyLine => line.handle)]
    exact hperm.length_eq
  · intro limit
    rw [Registry.query_removeFrom hb hnd]
    apply List.filter_congr
    intro line hline
    rw [Registry.sourceOf?_of_mem_query hb hline]
  · intro a ha hforeign
    by_contra hgone
    exact hforeign (howns.sticky a ha (hlost a ha hgone))
  · intro q other hq hworks' a ha hrecord
    by_contra hgone
    exact hq (apart_after turns r q registry other d b a.handle hworks hworks' (hlost a ha hgone)
      hrecord)
  · intro registry' hreorders
    obtain ⟨hvalue, hstore, hevents, hregistry⟩ := hreorders.removeFrom hb hnd source
    have hnd' : o.registry.records.keys.Nodup :=
      Registry.nodup_keys_perform hnd hb (.removeFrom source)
    exact ⟨hvalue, hstore, hevents, hregistry, hregistry.find?_eq hnd'⟩

-- the line of the second registry and the anchor of the other marker stay, and it comes to the same
-- if the records come the other way round
theorem mixedScopes_source_removed :
    ∃ registry d b, ((empty : Cells Buffer).after mixedScopes).Works 0 registry d b ∧
      let o := registry.removeFrom b "outline"
      o.value = (registry.lines b (some "outline")).length ∧
      o.registry.query o.store (some "search") 3 = registry.query b (some "search") 3 ∧
      (∃ a ∈ o.store.anchors, a.handle = ⟨3⟩) ∧ (∃ a ∈ o.store.anchors, a.marker = ⟨"MARK"⟩) ∧
      let reversed : Registry ListenerRef :=
        { registry with records := ⟨registry.records.entries.reverse⟩ }
      (reversed.removeFrom b "outline").value = o.value ∧
        (reversed.removeFrom b "outline").store = o.store := by
  have hscene : (((empty : Cells Buffer).after mixedScopes).at? 0).any (fun (registry, b) =>
      (registry.records.find? ⟨3⟩).isNone && b.anchors.any (·.handle == ⟨3⟩) &&
        b.anchors.any (·.marker == ⟨"MARK"⟩)) = true := by
    decide +kernel
  simp only [Option.any_eq_true, Bool.and_eq_true, List.any_eq_true, beq_iff_eq,
    Option.isNone_iff_eq_none] at hscene
  obtain ⟨⟨registry, b⟩, hat, ⟨hnone, a, ha, hhandle⟩, m, hm, hmarker⟩ := hscene
  obtain ⟨d, hworks⟩ := at?_eq_some_iff.1 hat
  obtain ⟨hvalue, -, hother, -, hstore, hforeign, -, -, -, -, horder⟩ :=
    source_removed_exactly mixedScopes hworks "outline"
  have hzombie : a ∈ (registry.removeFrom b "outline").store.anchors := by
    rw [hstore, List.mem_filter, hhandle, Registry.sourceOn?, hnone]
    exact ⟨ha, rfl⟩
  have hmark : m ∈ (registry.removeFrom b "outline").store.anchors := by
    apply hforeign m hm
    rw [hmarker]
    decide
  obtain ⟨hsame, hsameStore, -⟩ := horder
    { registry with records := ⟨registry.records.entries.reverse⟩ }
    ⟨List.reverse_perm _, rfl, rfl⟩
  exact ⟨registry, d, b, hworks, hvalue, hother "search" (by decide) 3, ⟨a, hzombie, hhandle⟩,
    ⟨m, hmark, hmarker⟩, hsame, hsameStore⟩

end Cells
end StickyScroll
