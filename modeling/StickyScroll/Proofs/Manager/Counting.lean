import Mathlib.Algebra.BigOperators.Group.Finset.Basic
import StickyScroll.Proofs.Manager.Removing

/-!
# Counting lines

A registry counts its lines without a walk: it goes through its records and asks the document, by
handle, which of them are live, whatever the marker of an anchor and wherever it is. A query goes
through the sticky anchors up to the end of the text and looks up the records. Both find the same
lines, because what is on record is sticky while it is there, and everything that is there lies in
the text.
-/

namespace StickyScroll

namespace Registry

variable {ι : Type} {b : Buffer}

/-- The sources that the registry has records of. -/
def sources (r : Registry ι) : Finset String :=
  (r.records.entries.map fun e => e.2.source).toFinset

/-- The lines that a query without a filter shows and that are on record. -/
def ownLines (r : Registry ι) (b : Buffer) : List StickyLine :=
  (r.lines b none).filter fun line => (r.sourceOf? b line).isSome

-- the sources of the records that are live, one for each record
def liveSources (r : Registry ι) (b : Buffer) : List String :=
  (r.prune b).records.entries.map fun e => e.2.source

theorem mem_sources_iff {r : Registry ι} (hnd : r.records.keys.Nodup) {source : String} :
    source ∈ r.sources ↔ ∃ handle, r.sourceOn? handle = some source := by
  have hfind (handle : Handle) (record : LineRecord) :=
    Table.find?_eq_some_iff hnd (k := handle) (a := record)
  rw [sources, List.mem_toFinset, List.mem_map]
  constructor
  · rintro ⟨⟨handle, record⟩, he, rfl⟩
    exact ⟨handle, Option.map_eq_some_iff.2 ⟨record, (hfind handle record).2 he, rfl⟩⟩
  · rintro ⟨handle, hsource⟩
    obtain ⟨record, hrecord, rfl⟩ := Option.map_eq_some_iff.1 hsource
    exact ⟨(handle, record), (hfind handle record).1 hrecord, rfl⟩

theorem mem_sources_of_mem_liveSources {r : Registry ι} {source : String}
    (h : source ∈ r.liveSources b) : source ∈ r.sources := by
  obtain ⟨e, he, rfl⟩ := List.mem_map.1 h
  exact List.mem_toFinset.2 (List.mem_map_of_mem (List.mem_of_mem_filter he))

/-! ## The live records -/

theorem length_liveSources (r : Registry ι) (b : Buffer) :
    (r.liveSources b).length = r.size b := by
  rw [size_eq_size_prune, liveSources, List.length_map, Table.size]

-- a query for a source shows as many lines as there are live records of the source
theorem length_lines_some {r : Registry ι} (hb : b.WellFormed) (howns : r.Owns b)
    (hnd : r.records.keys.Nodup) (source : String) :
    (r.lines b (some source)).length = (r.liveSources b).count source := by
  have hperm := handlesOf_perm hb howns hnd source
  rw [← List.length_map (f := fun line : StickyLine => line.handle), ← hperm.length_eq, handlesOf,
    Table.length_keys, liveSources, List.count, List.countP_map, List.countP_eq_length_filter]
  rfl

-- a query shows every anchor on record, since these are sticky, and its line is on record
theorem size_eq_length_ownLines {r : Registry ι} (hb : b.WellFormed) (howns : r.Owns b)
    (hnd : r.records.keys.Nodup) : r.size b = (r.ownLines b).length := by
  have hown : (fun line => (r.sourceOf? b line).isSome) ∘ r.shown b =
      fun a => (r.records.find? a.handle).isSome := by
    funext a
    rw [Function.comp_apply, sourceOf?_shown, Option.isSome_map]
  rw [size_eq_length_filter hb hnd, ownLines, r.lines_eq_map hb, List.filter_map, hown,
    List.length_map, List.filter_filter]
  congr 1
  apply List.filter_congr
  intro a ha
  rw [Bool.eq_iff_iff, Bool.and_eq_true, ← records_iff_isSome, reports_iff]
  refine (and_iff_left_of_imp fun hrecord => ?_).symm
  exact ⟨howns.sticky a ha hrecord, fun _ hnone => nomatch hnone⟩

theorem size_eq_sum {r : Registry ι} (hb : b.WellFormed) (howns : r.Owns b)
    (hnd : r.records.keys.Nodup) :
    r.size b = ∑ source ∈ r.sources, (r.lines b (some source)).length := by
  have hall : ∀ source ∈ (r.liveSources b : Multiset String), source ∈ r.sources :=
    fun _ h => mem_sources_of_mem_liveSources (Multiset.mem_coe.1 h)
  have hcount := Multiset.sum_count_eq_card hall
  simp only [Multiset.coe_count, Multiset.coe_card] at hcount
  calc r.size b
      = (r.liveSources b).length := (r.length_liveSources b).symm
    _ = ∑ source ∈ r.sources, (r.liveSources b).count source := hcount.symm
    _ = ∑ source ∈ r.sources, (r.lines b (some source)).length :=
        Finset.sum_congr rfl fun source _ => (length_lines_some hb howns hnd source).symm

end Registry

namespace Cells

/-- Whatever came before, a registry counts the lines that are on record and that a query without a
filter shows, and as many as the queries for the sources on record show together. So it counts none
exactly if none of these queries shows a line on record, and the records that it does not count are
those that a pruning would drop. -/
theorem counted_as_listed (turns : List Turn) {r : RegistryRef} {registry : Registry ListenerRef}
    {d : DocumentRef} {b : Buffer}
    (hworks : ((empty : Cells Buffer).after turns).Works r registry d b) :
    registry.size b = (registry.ownLines b).length ∧
    registry.size b = ∑ source ∈ registry.sources, (registry.lines b (some source)).length ∧
    (∀ source, source ∈ registry.sources ↔ ∃ handle, registry.sourceOn? handle = some source) ∧
    (registry.size b = 0 ↔ registry.ownLines b = []) ∧
    (registry.size b = 0 ↔
      ∀ source ∈ registry.sources, registry.lines b (some source) = []) ∧
    registry.size b ≤ registry.records.size ∧
    registry.records.size - registry.size b = registry.staleCount b := by
  have hb : b.WellFormed := wellFormed_after turns hworks
  have howns : registry.Owns b := owns_after turns hworks
  have hnd : registry.records.keys.Nodup := nodup_keys_after turns hworks
  have hown := Registry.size_eq_length_ownLines hb howns hnd
  have hsum := Registry.size_eq_sum hb howns hnd
  refine ⟨hown, hsum, fun _ => Registry.mem_sources_iff hnd, ?_, ?_, ?_, ?_⟩
  · rw [hown, List.length_eq_zero_iff]
  · rw [hsum, Finset.sum_eq_zero_iff]
    exact forall₂_congr fun _ _ => List.length_eq_zero_iff
  · rw [registry.size_eq_size_prune]
    exact List.length_filter_le ..
  · rw [registry.size_eq_size_prune, Registry.staleCount]

-- a stale record, a line of another registry and an anchor of another marker are not counted
theorem mixedScopes_counted :
    ∃ registry d b, ((empty : Cells Buffer).after mixedScopes).Works 0 registry d b ∧
      b.anchors.length = 4 ∧ registry.records.size = 3 ∧ registry.size b = 2 ∧
      (registry.ownLines b).length = 2 ∧
      ∑ source ∈ registry.sources, (registry.lines b (some source)).length = 2 ∧
      registry.staleCount b = 1 := by
  have hscene : (((empty : Cells Buffer).after mixedScopes).at? 0).any (fun (registry, b) =>
      b.anchors.length == 4 && registry.records.size == 3 && registry.size b == 2) = true := by
    decide +kernel
  simp only [Option.any_eq_true, Bool.and_eq_true, beq_iff_eq] at hscene
  obtain ⟨⟨registry, b⟩, hat, ⟨hanchors, hrecords⟩, hsize⟩ := hscene
  obtain ⟨d, hworks⟩ := at?_eq_some_iff.1 hat
  obtain ⟨hown, hsum, -, -, -, -, hstale⟩ := counted_as_listed mixedScopes hworks
  refine ⟨registry, d, b, hworks, hanchors, hrecords, hsize, hown.symm.trans hsize,
    hsum.symm.trans hsize, ?_⟩
  rw [← hstale, hrecords, hsize]

end Cells
end StickyScroll
