import StickyScroll.Proofs.Manager.Holding
import StickyScroll.Proofs.Manager.House
import StickyScroll.Proofs.Manager.Ownership
import StickyScroll.Proofs.Manager.Resolve
import StickyScroll.Proofs.Registry.Filtering

/-!
# Closing a document

When a document is closed its manager forgets the registry, and the registry gives up its lines,
all of them or none. If the registry and its document are free, the document loses exactly the
anchors on record, and the record is empty; nothing else changes anywhere. If one of them is on loan
nothing changes at all. The anchors are then left behind: every registry that is made for the
document from then on shows them as zombies, since it cannot come to have a record of a handle that
was issued before, while the old registry goes on as if nothing had happened, because the record of
an anchor never changes while the anchor is there.
-/

namespace StickyScroll

/-! ## Giving up lines -/

namespace Registry

variable {ι : Type} {b : Buffer}

-- the anchors on record go, and the records with them
theorem perform_release (r : Registry ι) (hb : b.WellFormed) :
    r.perform b .release =
      ({ r with records := .empty },
        { b with anchors := b.anchors.filter fun a => (r.records.find? a.handle).isNone }) := by
  have hpick (a : Anchor) :
      decide (a.handle ∉ r.records.keys) = (r.records.find? a.handle).isNone := by
    rw [Bool.eq_iff_iff, decide_eq_true_eq, Table.mem_keys_iff, Option.isNone_iff_eq_none,
      Option.eq_none_iff_forall_ne_some, not_exists]
  have hstore : (r.perform b .release).2 = (deleteAll b r.records.keys).2 := rfl
  rw [Buffer.deleteAll_eq hb] at hstore
  simp only [hpick] at hstore
  exact Prod.ext rfl hstore

-- an anchor on record goes with its source
theorem not_mem_removeFrom (r : Registry ι) (hb : b.WellFormed) {a : Anchor} (ha : a ∈ b.anchors)
    {record : LineRecord} (hrecord : r.records.find? a.handle = some record) :
    a ∉ (r.removeFrom b record.source).store.anchors := by
  intro hkept
  exact ((r.mem_anchors_removeFrom hb).1 hkept).2 (r.mem_handlesOf hb ha hrecord)

/-! ## What a registry shows of an anchor -/

-- the lines of a handle among those that a query shows
def sightings (r : Registry ι) (b : Buffer) (filter : Option String) (limit : Nat)
    (handle : Handle) : List StickyLine :=
  (r.query b filter limit).filter (·.handle == handle)

/-- A query shows an anchor once if its filter lets the anchor through and its limit reaches it, and
else does not show it. -/
theorem sightings_eq (r : Registry ι) (hb : b.WellFormed) (filter : Option String) (limit : Nat)
    {a : Anchor} (ha : a ∈ b.anchors) :
    r.sightings b filter limit a.handle =
      if r.reports filter a = true ∧ a.span.start ≤ limit then [r.shown b a] else [] := by
  by_cases h : r.reports filter a = true ∧ a.span.start ≤ limit
  · rw [if_pos h]
    obtain ⟨hmarker, hwants⟩ := reports_iff.1 h.1
    have hline := (mem_query_iff hb).2 ⟨a, ha, hmarker, h.2, hwants, rfl⟩
    exact StickyLine.filter_handle_eq (r.nodup_handles_query hb filter limit) hline
  · rw [if_neg h, sightings, List.filter_eq_nil_iff]
    intro line hline hhandle
    obtain ⟨c, hc, hmarker, hlimit, hwants, rfl⟩ := (mem_query_iff hb).1 hline
    have hsame : c = a := Buffer.eq_of_handle_eq hb.distinct hc ha (beq_iff_eq.1 hhandle)
    rw [hsame] at hmarker hlimit hwants
    exact h ⟨reports_iff.2 ⟨hmarker, hwants⟩, hlimit⟩

/-- The registry shows the anchor once, as a zombie, to whoever asks for the lines of all sources,
and never to whoever asks for those of one. -/
structure ShowsZombie (r : Registry ι) (b : Buffer) (a : Anchor) : Prop where
  once : ∀ limit, a.span.start ≤ limit → r.sightings b none limit a.handle = [.zombie b a]
  never : ∀ source limit, r.sightings b (some source) limit a.handle = []

theorem showsZombie_of_not_records {r : Registry ι} (hb : b.WellFormed) {a : Anchor}
    (ha : a ∈ b.anchors) (hmarker : a.marker = .sticky) (hnone : ¬ r.Records a.handle) :
    r.ShowsZombie b a := by
  have hfind := find?_eq_none_iff.2 hnone
  refine ⟨?_, ?_⟩
  · intro limit hlimit
    have hreports : r.reports none a = true := by simp [reports, hmarker]
    rw [r.sightings_eq hb none limit ha, if_pos ⟨hreports, hlimit⟩, shown, hfind]
    rfl
  · intro source limit
    have hreports : r.reports (some source) a = false := by simp [reports, hfind]
    rw [r.sightings_eq hb (some source) limit ha, hreports, if_neg (by simp)]

/-- The registry deals with the anchor as `before` did: it shows the anchor to the same people under
the same label, reads every line of it again, and takes it out when it is asked to, by a line or by
the source on record. -/
structure DealsAs (before r : Registry ι) (b : Buffer) (a : Anchor) : Prop where
  shows : ∀ filter limit, r.sightings b filter limit a.handle =
    if before.reports filter a = true ∧ a.span.start ≤ limit then [before.shown b a] else []
  rereads : ∀ line : StickyLine, line.documentId = b.id → line.handle = a.handle →
    resolve? b line = some (.ofAnchor b a line.label)
  removes : ∀ line : StickyLine, line.documentId = b.id → line.handle = a.handle →
    (r.remove b line).value = .ok () ∧ ¬ (r.remove b line).registry.Records a.handle ∧
      (r.remove b line).store.anchors = b.anchors.filter fun c => !Buffer.named a.handle c
  removesFrom : ∀ record, before.records.find? a.handle = some record →
    a ∉ (r.removeFrom b record.source).store.anchors

theorem dealsAs_of_find?_eq {before r : Registry ι} (hb : b.WellFormed) {a : Anchor}
    (ha : a ∈ b.anchors) (hmarker : a.marker = .sticky)
    (hfind : r.records.find? a.handle = before.records.find? a.handle) :
    DealsAs before r b a := by
  refine ⟨?_, ?_, ?_, ?_⟩
  · intro filter limit
    rw [r.sightings_eq hb filter limit ha, reports_congr hfind, shown_congr hfind]
  · intro line hid hhandle
    exact (resolve?_eq_some_iff hb).2 ⟨hid, a, ha, hhandle.symm, hmarker, rfl⟩
  · intro line hid hhandle
    have hsticky : b.IsSticky line.handle := ⟨a, ha, hhandle.symm, hmarker⟩
    rcases r.remove_cases hb line with ⟨hnot, -⟩ | ⟨-, -, heq⟩ | ⟨-, hnot, -⟩
    · exact absurd ⟨hid, Or.inr hsticky⟩ hnot
    · rw [heq, ← hhandle]
      refine ⟨rfl, ?_, Buffer.anchors_drop hb.distinct line.handle⟩
      rintro ⟨record, hrecord⟩
      exact nomatch ((Table.find?_erase ..).trans (if_pos rfl)).symm.trans hrecord
    · exact absurd hsticky hnot
  · intro record hrecord
    exact r.not_mem_removeFrom hb ha (hfind.trans hrecord)

/-! ## Records that stand -/

/-- The handle was issued, and as long as its anchor is there it is sticky and `found` is what is on
record. -/
structure Standing (handle : Handle) (found : Option LineRecord) (r : Registry ι) (b : Buffer) :
    Prop where
  issued : handle.id < b.nextHandle
  stands : ∀ a ∈ b.anchors, a.handle = handle →
    a.marker = .sticky ∧ r.records.find? a.handle = found

theorem Standing.evolves {handle : Handle} {found : Option LineRecord} {r : Registry ι}
    {b' : Buffer} (h : Standing handle found r b) (hev : b.Evolves b') :
    Standing handle found r b' := by
  have hissued := h.issued
  refine ⟨Nat.lt_of_lt_of_le hissued hev.next_le, ?_⟩
  rintro a' ha' rfl
  rcases hev.origin a' ha' with hnew | ⟨a, ha, hcont⟩
  · omega
  · obtain ⟨hmarker, hfind⟩ := h.stands a ha hcont.handle_eq.symm
    rw [hcont.marker_eq, hcont.handle_eq]
    exact ⟨hmarker, hfind⟩

theorem Standing.perform {handle : Handle} {found : Option LineRecord} {r : Registry ι}
    (h : Standing handle found r b) (hb : b.WellFormed) (change : Change ι) :
    Standing handle found (r.perform b change).1 (r.perform b change).2 := by
  have hissued := h.issued
  refine ⟨Nat.lt_of_lt_of_le hissued (r.evolves_perform hb change).next_le, ?_⟩
  rintro a ha rfl
  rcases r.origin_perform hb change ha with hold | ⟨hnew, -⟩
  · obtain ⟨hmarker, hfind⟩ := h.stands a hold rfl
    exact ⟨hmarker, (r.find?_perform hb change hold ha hmarker).trans hfind⟩
  · rw [hnew] at hissued
    exact absurd hissued (Nat.lt_irrefl _)

theorem standing_of_mem {r : Registry ι} (hb : b.WellFormed) {a : Anchor} (ha : a ∈ b.anchors)
    (hmarker : a.marker = .sticky) : Standing a.handle (r.records.find? a.handle) r b := by
  refine ⟨hb.issued a ha, ?_⟩
  intro c hc hhandle
  rw [Buffer.eq_of_handle_eq hb.distinct hc ha hhandle]
  exact ⟨hmarker, rfl⟩

end Registry

namespace Cells

theorem stable_standing (handle : Handle) (found : Option LineRecord) :
    Stable (Registry.Standing handle found) where
  evolves _ hev h := h.evolves hev
  perform change hb h := h.perform hb change

-- a registry never comes to have a record of a handle that its document issued before
theorem not_records_after {c : Cells Buffer} (hc : c.Sound) {d : DocumentRef} {b : Buffer}
    (hd : c.documents[d]? = some b) {handle : Handle} (hissued : handle.id < b.nextHandle)
    {r : RegistryRef} (hnone : ∀ registry, c.Works r registry d b → ¬ registry.Records handle)
    (turns : List Turn) {registry' : Registry ListenerRef} {b' : Buffer}
    (hworks : (c.after turns).Works r registry' d b') : ¬ registry'.Records handle := by
  induction turns generalizing c b with
  | nil =>
    cases hd.symm.trans hworks.document_eq
    exact hnone registry' hworks
  | cons t rest ih =>
    have hb := hc.wellFormed d b hd
    obtain ⟨changes, hd'⟩ := (c.effect t).document hc hd
    have hissued' := Nat.lt_of_lt_of_le hissued (Buffer.evolves_after hb changes).next_le
    refine ih (hc.apply t) hd' hissued' ?_ hworks
    intro registry₁ hworks₁ hrecord
    rcases works_of_apply hc hworks₁ with rfl | ⟨registry, b₀, hworks₀, hfares⟩
    · exact Registry.not_records_empty handle hrecord
    · cases hd.symm.trans hworks₀.document_eq
      rcases hfares.records hb hworks₀ hrecord with hold | ⟨-, -, -, hnew⟩
      · exact hnone registry hworks₀ hold
      · rw [hnew] at hissued
        exact Nat.lt_irrefl _ hissued

/-! ## Closing -/

/-- In `c'` the registry has given up what it had on record in `c`, and its document has lost the
anchors of that; nothing else has changed. -/
structure GivenUp (c c' : Cells Buffer) (r : RegistryRef) (registry : Registry ListenerRef)
    (d : DocumentRef) (b : Buffer) : Prop where
  works : c'.Works r { registry with records := .empty } d
    { b with anchors := b.anchors.filter fun a => (registry.records.find? a.handle).isNone }
  documents : ∀ e, e ≠ d → c'.documents[e]? = c.documents[e]?
  registries : ∀ q, q ≠ r → c'.registries[q]? = c.registries[q]?

theorem givenUp_settle {c : Cells Buffer} {r : RegistryRef} {registry : Registry ListenerRef}
    {d : DocumentRef} {b : Buffer} (h : c.Works r registry d b) (hb : b.WellFormed) :
    GivenUp c (c.settle r d (registry.perform b .release)) r registry d b := by
  have hworks := works_settle h (registry.perform b .release)
  rw [registry.perform_release hb] at hworks ⊢
  refine ⟨hworks, ?_, ?_⟩
  · intro e hed
    exact List.getElem?_set_ne (Ne.symm hed)
  · intro q hqr
    show ((c.setDocument d _).modifyRegistry r _).registries[q]? = _
    rw [registries_modifyRegistry, if_neg (Ne.symm hqr)]
    rfl

/-- What is left behind when a registry over the document in cell `d` is closed on loan: whatever
happens later, registries from place `made` on show the sticky anchors of `b` that are still there
as zombies, and registry `r` deals with them as `registry` did. -/
def LeftBehind (c : Cells Buffer) (made : Nat) (r : RegistryRef) (registry : Registry ListenerRef)
    (d : DocumentRef) (b : Buffer) : Prop :=
  ∀ turns, ∃ later b', (c.after turns).Works r later d b' ∧
    ∀ a ∈ b.anchors, a.marker = .sticky → ∀ a' ∈ b'.anchors, a'.handle = a.handle →
      (∀ q new, made ≤ q → (c.after turns).Works q new d b' → new.ShowsZombie b' a') ∧
        Registry.DealsAs registry later b' a'

theorem leftBehind {c : Cells Buffer} (hc : c.Sound) {r : RegistryRef}
    {registry : Registry ListenerRef} {d : DocumentRef} {b : Buffer} (h : c.Works r registry d b) :
    c.LeftBehind c.registries.length r registry d b := by
  intro turns
  have hb := hc.wellFormed d b h.document_eq
  -- where the registry and its document have got to
  obtain ⟨later, b', hworks', -⟩ := (stable_id b.id).after hc h rfl turns
  have hb' := (hc.after turns).wellFormed d b' hworks'.document_eq
  refine ⟨later, b', hworks', ?_⟩
  intro a ha hmarker a' ha' hhandle
  obtain ⟨later', b'', hworks'', hstanding⟩ :=
    (stable_standing a.handle (registry.records.find? a.handle)).after hc h
      (Registry.standing_of_mem hb ha hmarker) turns
  obtain ⟨rfl, -, rfl⟩ := hworks'.unique hworks''
  obtain ⟨hmarker', hfind⟩ := hstanding.stands a' ha' hhandle
  refine ⟨?_, ?_⟩
  · intro q new hq hnew
    have hmissing (other : Registry ListenerRef) (hother : c.Works q other d b) :
        ¬ other.Records a.handle :=
      nomatch (List.getElem?_eq_none hq).symm.trans hother.registry_eq
    have hnone := not_records_after hc h.document_eq (hb.issued a ha) hmissing turns hnew
    rw [← hhandle] at hnone
    exact Registry.showsZombie_of_not_records hb' ha' hmarker' hnone
  · rw [← hhandle] at hfind
    exact Registry.dealsAs_of_find?_eq hb' ha' hmarker' hfind

end Cells

namespace House

-- where a document was closed there is room for it again
theorem openDocument_after_close {m : Manager} (hroom : m.size ≤ m.maxDocuments) {id : String}
    {r : RegistryRef} (hget : m.get? id = some r) (c : Cells Buffer) (loans : Loans)
    (d : DocumentRef) {b : Buffer} (hid : b.id = id) :
    let opened := ({ m with held := m.held.erase id } : Manager).openDocument c loans d b
    opened.result = .ok c.registries.length ∧ opened.cells = (c.addRegistry d).2 := by
  have hnone : ({ m with held := m.held.erase id } : Manager).get? b.id = none := by
    rw [Manager.get?_erase, if_pos hid]
  have hfree : (m.held.erase id).size < m.maxDocuments :=
    Nat.lt_of_lt_of_le (Manager.size_erase_lt hget) hroom
  rcases Manager.openDocument_cases { m with held := m.held.erase id } c loans d b with
    ⟨q, hheld, -⟩ | ⟨-, hfull, -⟩ | ⟨-, -, heq⟩
  · exact nomatch hnone.symm.trans hheld
  · exact absurd hfree (Nat.not_lt.2 hfull)
  · intro opened
    rw [show opened = _ from heq]
    exact ⟨rfl, rfl⟩

/-- At every moment, whoever works in the house, closing a document that a manager holds succeeds:
the manager does not hand out the registry any more, for this document id or another, and holds
what else it held. If the registry and its document are free, the document loses exactly the anchors
on record and keeps its text and all other anchors; the record is empty, the listeners and the first
update are as they were, and no other document or registry changes. If one of them is on loan, no
document and no registry changes. The document can then be opened again, and is given a registry
without records; and whatever happens from then on, every sticky anchor that is still there is shown
once, where it is, as a zombie, by every registry that was made since for that document when all
lines are asked for, and never when those of a source are; and the old registry shows it, reads its
lines again and takes it out as it would have done before. -/
theorem closing_is_all_or_nothing (steps : List Step) {k : Nat} {m : Manager} {id : String}
    {r : RegistryRef} (hm : (empty.after steps).managers[k]? = some m)
    (hget : m.get? id = some r) (loans : Loans) :
    let cells := (empty.after steps).cells
    let closed := m.close cells loans id
    closed.found = true ∧ closed.manager.get? id = none ∧
    (∀ other, closed.manager.get? other ≠ some r) ∧
    (∀ other, other ≠ id → closed.manager.get? other = m.get? other) ∧
    ∃ registry d b, cells.Works r registry d b ∧ b.id = id ∧
      let free := loans.permit (.registry r) .write = true ∧
        loans.permit (.document d) .write = true
      (free → Cells.GivenUp cells closed.cells r registry d b) ∧
      (¬ free → closed.cells = cells ∧
        (∀ loans' : Loans,
          let opened := closed.manager.openDocument closed.cells loans' d b
          opened.result = .ok cells.registries.length ∧
            opened.cells.Works cells.registries.length .empty d b ∧
            opened.cells = closed.cells.after [⟨closed.manager, .openDocument loans' d⟩]) ∧
        closed.cells.LeftBehind cells.registries.length r registry d b) := by
  intro cells closed
  have horderly : (empty.after steps).Orderly := orderly_empty.after steps
  have hmem : m ∈ (empty.after steps).managers := List.mem_of_getElem? hm
  have hleads : m.Leads cells := horderly.leads m hmem
  have hc : cells.Sound := horderly.sound
  obtain ⟨registry, d, b, hworks, hid⟩ := hleads id r hget
  have hb := hc.wellFormed d b hworks.document_eq
  have happly : closed.cells = cells.apply ⟨m, .close loans id⟩ := rfl
  have hfree : cells.isFree loans r = true ↔ loans.permit (.registry r) .write = true ∧
      loans.permit (.document d) .write = true := by
    simp only [Cells.isFree, hworks.registry_eq, Option.any_some, Bool.and_eq_true]
  obtain ⟨events, hclosed⟩ := Manager.close_of_some hget cells loans
  have hmanager : closed.manager = { m with held := m.held.erase id } :=
    congrArg Manager.Closed.manager hclosed
  refine ⟨congrArg Manager.Closed.found hclosed, ?_, ?_, ?_, registry, d, b, hworks, hid, ?_, ?_⟩
  · rw [hmanager, Manager.get?_erase, if_pos rfl]
  · intro other
    rw [hmanager]
    exact hleads.get?_erase_ne hget other
  · intro other hne
    rw [hmanager, Manager.get?_erase, if_neg hne]
  · intro hpermits
    rw [happly, Cells.apply_close hget (hfree.2 hpermits) hworks]
    exact Cells.givenUp_settle hworks hb
  · intro hbusy
    have hnot : cells.isFree loans r = false := by
      rw [← Bool.not_eq_true, hfree]
      exact hbusy
    have hsame : closed.cells = cells := by
      rw [happly, Cells.apply_close_idle hget (Or.inl hnot)]
    rw [hsame]
    refine ⟨rfl, ?_, Cells.leftBehind hc hworks⟩
    intro loans' opened
    have hopened : opened.result = .ok cells.registries.length ∧
        opened.cells = (cells.addRegistry d).2 := by
      rw [show opened = closed.manager.openDocument cells loans' d b from rfl, hmanager]
      exact openDocument_after_close (horderly.room m hmem) hget cells loans' d hid
    refine ⟨hopened.1, ?_, ?_⟩
    · rw [hopened.2]
      exact ⟨Cells.registries_addRegistry_length cells d, hworks.document_eq⟩
    · show opened.cells = (Office.apply ⟨closed.manager, cells⟩ (.openDocument loans' d)).cells
      simp only [Office.apply, hworks.document_eq]
      rfl

/-- One manager opens a document, and the registry adds a line. -/
def scopeHouse : List Step :=
  [.hire 1, .move 0 (.makeDocument "a" ['x', 'y', 'z']), .move 0 (.openDocument [] 0),
    .move 0 (.act 0 (.add "outline" 0 2 none))]

-- While somebody reads the document nothing is given up, and the registry that is made when it is
-- opened again shows the old line, which an edit has moved on, as a zombie. While nobody does, the
-- line is given up.
theorem scopeHouse_closed :
    let h := empty.after scopeHouse
    let m : Manager := ⟨1, ⟨[("a", 0)]⟩⟩
    let closed := m.close h.cells [⟨.document 0, .read⟩] "a"
    let later := closed.cells.after
      [⟨closed.manager, .openDocument [] 0⟩, ⟨closed.manager, .edit 0 (.insert 0 ['!'])⟩]
    h.managers[0]? = some m ∧ m.get? "a" = some 0 ∧ closed.found = true ∧
    closed.cells = h.cells ∧
    (∃ new b, later.Works 1 new 0 b ∧ ∃ a ∈ b.anchors, a.span = ⟨1, 3⟩ ∧ new.ShowsZombie b a) ∧
    ∃ registry b, h.cells.Works 0 registry 0 b ∧ b.anchors ≠ [] ∧
      Cells.GivenUp h.cells (m.close h.cells [] "a").cells 0 registry 0 b := by
  intro h m closed later
  have hm : h.managers[0]? = some m := rfl
  have hget : m.get? "a" = some 0 := rfl
  have hscene : ((h.cells.documents[0]?).any fun b => (h.cells.registries[0]?).any fun shared =>
      shared.document == 0 && b.anchors == [⟨⟨0⟩, ⟨0, 2⟩, .sticky⟩]) = true := by
    decide +kernel
  have hscene' : ((later.documents[0]?).any fun b => (later.registries[1]?).any fun shared =>
      shared.document == 0 && b.anchors == [⟨⟨0⟩, ⟨1, 3⟩, .sticky⟩]) = true := by
    decide +kernel
  simp only [Option.any_eq_true, Bool.and_eq_true, beq_iff_eq] at hscene hscene'
  obtain ⟨b, hb, ⟨registry, d⟩, hr, rfl, hanchors⟩ := hscene
  obtain ⟨b', hb', ⟨new, d'⟩, hnew, rfl, hanchors'⟩ := hscene'
  have hworks : h.cells.Works 0 registry 0 b := ⟨hr, hb⟩
  have hworks' : later.Works 1 new 0 b' := ⟨hnew, hb'⟩
  -- closed while the document is read
  obtain ⟨hfound, -, -, -, registry₁, d₁, b₁, hworks₁, -, -, hkept⟩ :=
    closing_is_all_or_nothing scopeHouse hm hget [⟨.document 0, .read⟩]
  obtain ⟨rfl, rfl, rfl⟩ := hworks.unique hworks₁
  obtain ⟨hsame, -, hbehind⟩ := hkept fun hfree => absurd hfree.2 (by decide)
  obtain ⟨old, b'', hold, hanchor⟩ := hbehind
    [⟨closed.manager, .openDocument [] 0⟩, ⟨closed.manager, .edit 0 (.insert 0 ['!'])⟩]
  cases hworks'.document_eq.symm.trans hold.document_eq
  have hshown := (hanchor ⟨⟨0⟩, ⟨0, 2⟩, .sticky⟩ (by simp [hanchors]) rfl ⟨⟨0⟩, ⟨1, 3⟩, .sticky⟩
    (by simp [hanchors']) rfl).1 1 new (Nat.le_refl 1) hworks'
  -- closed while nobody uses it
  obtain ⟨-, -, -, -, registry₂, d₂, b₂, hworks₂, -, hgiven, -⟩ :=
    closing_is_all_or_nothing scopeHouse hm hget []
  obtain ⟨rfl, rfl, rfl⟩ := hworks.unique hworks₂
  refine ⟨hm, hget, hfound, hsame, ?_, registry, b, hworks, ?_, hgiven ⟨rfl, rfl⟩⟩
  · exact ⟨new, b', hworks', _, by simp [hanchors'], rfl, hshown⟩
  · simp [hanchors]

end House
end StickyScroll
