import StickyScroll.Proofs.Manager.Adding
import StickyScroll.Proofs.Manager.Closing
import StickyScroll.Proofs.Manager.Removing

/-!
# Pruning

A pruning drops the records whose anchors are gone. Nobody misses them. A handle is issued once, so
an anchor that is gone does not come back under a handle that is on record; and whatever a registry
answers of lines that are there it reads off the records of anchors that are there. So a registry
with its stale records and one without them `Agrees`, and go on to agree whatever happens; only a
line that has lapsed, which the one still finds on record, tells them apart.
-/

namespace StickyScroll

namespace Buffer

/-- The line is one of this document, and its anchor is gone. -/
def Lapsed (b : Buffer) (line : StickyLine) : Prop :=
  line.documentId = b.id ∧ Registry.isLive b line.handle = false

theorem isLive_of_not_lapsed {b : Buffer} {line : StickyLine} (hid : line.documentId = b.id)
    (hkept : ¬ b.Lapsed line) : Registry.isLive b line.handle = true := by
  by_contra hgone
  exact hkept ⟨hid, by simpa using hgone⟩

end Buffer

namespace Registry

variable {ι : Type} {r r' : Registry ι} {b b' : Buffer}

/-! ## What a pruning drops -/

theorem staleCount_eq (r : Registry ι) (b : Buffer) :
    r.staleCount b = (r.records.keys.filter fun handle => !isLive b handle).length := by
  have hkeys : r.records.keys.filter (fun handle => !isLive b handle) =
      (r.records.filter fun handle _ => !isLive b handle).keys := List.filter_map ..
  have hsplit := r.records.size_filter_add_size_filter_not fun handle _ => isLive b handle
  have hpruned : (r.prune b).records = r.records.filter fun handle _ => isLive b handle := rfl
  rw [hkeys, Table.length_keys, staleCount, hpruned]
  omega

theorem prune_prune (r : Registry ι) (b : Buffer) : (r.prune b).prune b = r.prune b := by
  have hkept : (r.prune b).records.filter (fun handle _ => isLive b handle) =
      (r.prune b).records :=
    congrArg Table.mk (List.filter_eq_self.2 fun _ he => (List.mem_filter.1 he).2)
  rw [prune, hkept]

theorem staleCount_prune (r : Registry ι) (b : Buffer) : (r.prune b).staleCount b = 0 := by
  rw [staleCount, prune_prune, Nat.sub_self]

-- what is answered when a line is added, and what is left of the store, depends on the store alone
theorem add_congr {σ : Type} [RangeStore σ] (r r' : Registry ι) (store : σ) (source : String)
    (start stop : Nat) (label : Option String) :
    (r.add store source start stop label).value = (r'.add store source start stop label).value ∧
      (r.add store source start stop label).store =
        (r'.add store source start stop label).store := by
  unfold add
  split
  next => exact ⟨rfl, rfl⟩
  next =>
    split
    next => exact ⟨rfl, rfl⟩
    next => split <;> exact ⟨rfl, rfl⟩

-- of a registry an addition changes the records alone, and so does a removal
theorem exists_records_add (r : Registry ι) (hb : b.WellFormed) (source : String)
    (start stop : Nat) (label : Option String) :
    ∃ records, (r.add b source start stop label).registry = { r with records := records } := by
  rcases r.add_cases hb source start stop label with ⟨_, -, heq⟩ | ⟨-, -, heq⟩ <;> rw [heq]
  · exact ⟨r.records, rfl⟩
  · exact ⟨_, rfl⟩

theorem exists_records_remove (r : Registry ι) (hb : b.WellFormed) (line : StickyLine) :
    ∃ records, (r.remove b line).registry = { r with records := records } := by
  rcases r.remove_cases hb line with ⟨-, heq⟩ | ⟨-, -, heq⟩ | ⟨-, -, -, heq⟩ <;> rw [heq]
  · exact ⟨r.records, rfl⟩
  · exact ⟨_, rfl⟩
  · exact ⟨_, rfl⟩

/-! ## Registries that agree -/

/-- The registries have the same records of the anchors that are there; all else that they have on
record was issued before. -/
structure Agrees (r r' : Registry ι) (b : Buffer) : Prop where
  owns : r.Owns b
  owns' : r'.Owns b
  nodup : r.records.keys.Nodup
  nodup' : r'.records.keys.Nodup
  find?_eq : ∀ a ∈ b.anchors, r'.records.find? a.handle = r.records.find? a.handle
  listeners_eq : r'.listeners = r.listeners
  firstUpdate_eq : r'.firstUpdateConsumed = r.firstUpdateConsumed

theorem agrees_prune (hb : b.WellFormed) (howns : r.Owns b) (hnd : r.records.keys.Nodup) :
    r.Agrees (r.prune b) b := by
  refine ⟨howns, howns.perform hb .prune, hnd, nodup_keys_prune hnd, ?_, rfl, rfl⟩
  intro a ha
  have hlive : isLive b a.handle = true := (Buffer.isLive_iff hb.distinct).2 ⟨a, ha, rfl⟩
  rw [find?_prune hnd, hlive]
  cases r.records.find? a.handle <;> rfl

namespace Agrees

-- whatever is picked out by its record is picked out by either registry
theorem filter_anchors (h : r.Agrees r' b) (p : Option LineRecord → Bool) :
    (b.anchors.filter fun a => p (r'.records.find? a.handle)) =
      b.anchors.filter fun a => p (r.records.find? a.handle) := by
  apply List.filter_congr
  intro a ha
  rw [h.find?_eq a ha]

theorem find?_of_isLive (h : r.Agrees r' b) (hb : b.WellFormed) {handle : Handle}
    (hlive : isLive b handle = true) : r'.records.find? handle = r.records.find? handle := by
  obtain ⟨a, ha, rfl⟩ := (Buffer.isLive_iff hb.distinct).1 hlive
  exact h.find?_eq a ha

theorem sourceOn?_of_isLive (h : r.Agrees r' b) (hb : b.WellFormed) {handle : Handle}
    (hlive : isLive b handle = true) : r'.sourceOn? handle = r.sourceOn? handle := by
  rw [sourceOn?, sourceOn?, h.find?_of_isLive hb hlive]

theorem finds_iff (h : r.Agrees r' b) (hb : b.WellFormed) {line : StickyLine}
    (hkept : ¬ b.Lapsed line) : r'.Finds b line ↔ r.Finds b line := by
  refine and_congr_right fun hid => or_congr_left ?_
  rw [Records, Records, h.find?_of_isLive hb (Buffer.isLive_of_not_lapsed hid hkept)]

/-! ### What happens to the document -/

-- an anchor that is made later has a handle of which neither registry has a record
theorem evolves (h : r.Agrees r' b) (hev : b.Evolves b') : r.Agrees r' b' := by
  refine { h with owns := h.owns.evolves hev, owns' := h.owns'.evolves hev, find?_eq := ?_ }
  intro a' ha'
  rcases hev.origin a' ha' with hnew | ⟨a, ha, hcont⟩
  · have hnone : ¬ r.Records a'.handle := fun hrecord =>
      Nat.not_lt.2 hnew (h.owns.issued a'.handle hrecord)
    have hnone' : ¬ r'.Records a'.handle := fun hrecord =>
      Nat.not_lt.2 hnew (h.owns'.issued a'.handle hrecord)
    rw [find?_eq_none_iff.2 hnone, find?_eq_none_iff.2 hnone']
  · rw [hcont.handle_eq]
    exact h.find?_eq a ha

/-! ### What the registries do -/

theorem store_perform (h : r.Agrees r' b) (hb : b.WellFormed) {change : Change ι}
    (hkept : ∀ line, change = .remove line → ¬ b.Lapsed line) :
    (r'.perform b change).2 = (r.perform b change).2 := by
  cases change with
  | add source start stop label => exact (add_congr r' r b source start stop label).2
  | remove line =>
    have hfinds := h.finds_iff hb (hkept line rfl)
    simp only [perform]
    by_cases hfound : r.Finds b line
    · rw [r.remove_of_finds hb h.owns hfound, r'.remove_of_finds hb h.owns' (hfinds.2 hfound)]
    · rw [r.remove_of_not_finds hb hfound, r'.remove_of_not_finds hb (hfinds.not.2 hfound)]
  | removeFrom source =>
    simp only [perform]
    rw [store_removeFrom hb h.nodup, store_removeFrom hb h.nodup']
    congr 1
    exact h.filter_anchors fun found => found.map (·.source) != some source
  | release =>
    rw [r.perform_release hb, r'.perform_release hb]
    dsimp only
    congr 1
    exact h.filter_anchors Option.isNone
  | prune => rfl
  | takeFirstUpdate => rfl
  | modifyListeners change => rfl

theorem find?_add (h : r.Agrees r' b) (hb : b.WellFormed) (source : String) (start stop : Nat)
    (label : Option String) {a : Anchor}
    (ha : a ∈ (r.add b source start stop label).store.anchors) :
    (r'.add b source start stop label).registry.records.find? a.handle =
      (r.add b source start stop label).registry.records.find? a.handle := by
  by_cases hvalid : start < stop ∧ b.Accepts start stop
  · rw [r.add_of_fits hb hvalid.1 hvalid.2] at ha ⊢
    rw [r'.add_of_fits hb hvalid.1 hvalid.2, Table.find?_insert, Table.find?_insert]
    rcases Buffer.mem_anchors_placed.1 ha with rfl | hold
    · exact (if_pos rfl).trans (if_pos rfl).symm
    · rw [h.find?_eq a hold]
  · obtain ⟨fault, hunfit⟩ := exists_unfit hvalid
    rw [r.add_of_unfit hunfit] at ha ⊢
    rw [r'.add_of_unfit hunfit]
    exact h.find?_eq a ha

theorem find?_perform (h : r.Agrees r' b) (hb : b.WellFormed) {change : Change ι}
    (hstore : (r'.perform b change).2 = (r.perform b change).2) {a : Anchor}
    (ha : a ∈ (r.perform b change).2.anchors) :
    (r'.perform b change).1.records.find? a.handle =
      (r.perform b change).1.records.find? a.handle := by
  have ha' : a ∈ (r'.perform b change).2.anchors := by rwa [hstore]
  by_cases hmarker : a.marker = .sticky
  · rcases r.records_perform hb change ha hmarker with ⟨hadds, -⟩ | ⟨hold, -⟩
    · cases change with
      | add source start stop label => exact h.find?_add hb source start stop label ha
      | _ => cases hadds
    · rw [r.find?_perform hb change hold ha hmarker, r'.find?_perform hb change hold ha' hmarker]
      exact h.find?_eq a hold
  · -- an anchor of another marker is on record with neither
    have hnone := mt ((h.owns.perform hb change).sticky a ha) hmarker
    have hnone' := mt ((h.owns'.perform hb change).sticky a ha') hmarker
    rw [find?_eq_none_iff.2 hnone, find?_eq_none_iff.2 hnone']

-- what an operation does to the rest of a registry does not depend on the records
theorem rest_perform (h : r.Agrees r' b) (hb : b.WellFormed) (change : Change ι) :
    (r'.perform b change).1.listeners = (r.perform b change).1.listeners ∧
      (r'.perform b change).1.firstUpdateConsumed =
        (r.perform b change).1.firstUpdateConsumed := by
  have hrest := And.intro h.listeners_eq h.firstUpdate_eq
  cases change with
  | add source start stop label =>
    obtain ⟨_, heq⟩ := r.exists_records_add hb source start stop label
    obtain ⟨_, heq'⟩ := r'.exists_records_add hb source start stop label
    simp only [perform, heq, heq']
    exact hrest
  | remove line =>
    obtain ⟨_, heq⟩ := r.exists_records_remove hb line
    obtain ⟨_, heq'⟩ := r'.exists_records_remove hb line
    simp only [perform, heq, heq']
    exact hrest
  | removeFrom source => exact hrest
  | prune => exact hrest
  | release => exact hrest
  | takeFirstUpdate => exact ⟨h.listeners_eq, rfl⟩
  | modifyListeners change => exact ⟨congrArg change h.listeners_eq, h.firstUpdate_eq⟩

/-- Registries that agree go on to agree, unless a line has lapsed and is removed. -/
theorem perform (h : r.Agrees r' b) (hb : b.WellFormed) {change : Change ι}
    (hkept : ∀ line, change = .remove line → ¬ b.Lapsed line) :
    (r.perform b change).1.Agrees (r'.perform b change).1 (r.perform b change).2 := by
  have hstore := h.store_perform hb hkept
  have howns' := h.owns'.perform hb change
  rw [hstore] at howns'
  obtain ⟨hlisteners, hfirst⟩ := h.rest_perform hb change
  exact ⟨h.owns.perform hb change, howns', nodup_keys_perform h.nodup hb change,
    nodup_keys_perform h.nodup' hb change, fun a ha => h.find?_perform hb hstore ha, hlisteners,
    hfirst⟩

end Agrees

/-! ## What the registries answer -/

/-- The registries give the same answers, but for the source of a line that has lapsed and for its
removal. (What becomes of a line can be read off the document alone.) -/
structure AnswersAlike (r r' : Registry ι) (b : Buffer) : Prop where
  add : ∀ source start stop label,
    (r'.add b source start stop label).value = (r.add b source start stop label).value
  query : ∀ filter limit, r'.query b filter limit = r.query b filter limit
  queryEvents : ∀ filter limit, r'.queryEvents b filter limit = r.queryEvents b filter limit
  size : r'.size b = r.size b
  removeFrom : ∀ source, (r'.removeFrom b source).value = (r.removeFrom b source).value
  sourceOf? : ∀ line, ¬ b.Lapsed line → r'.sourceOf? b line = r.sourceOf? b line
  remove : ∀ line, ¬ b.Lapsed line → (r'.remove b line).value = (r.remove b line).value

namespace Agrees

theorem query_eq (h : r.Agrees r' b) (hb : b.WellFormed) (filter : Option String) (limit : Nat) :
    r'.query b filter limit = r.query b filter limit := by
  rw [query_eq_map r hb, query_eq_map r' hb]
  exact map_filter_congr b.anchors h.find?_eq filter limit

theorem queryEvents_eq (h : r.Agrees r' b) (hb : b.WellFormed) (filter : Option String)
    (limit : Nat) :
    r'.queryEvents b filter limit = r.queryEvents b filter limit := by
  have hwalk : (b.overlapping 0 limit).filter r'.isUnrecorded =
      (b.overlapping 0 limit).filter r.isUnrecorded := by
    rw [Buffer.overlapping_eq_filter hb.ordered]
    apply List.filter_congr
    intro a ha
    rw [isUnrecorded, isUnrecorded, h.find?_eq a (List.mem_of_mem_filter ha)]
  unfold queryEvents
  split
  next => exact congrArg _ hwalk
  next => rfl

theorem size_eq (h : r.Agrees r' b) (hb : b.WellFormed) : r'.size b = r.size b := by
  rw [size_eq_length_filter hb h.nodup, size_eq_length_filter hb h.nodup']
  exact congrArg List.length (h.filter_anchors Option.isSome)

theorem value_removeFrom (h : r.Agrees r' b) (hb : b.WellFormed) (source : String) :
    (r'.removeFrom b source).value = (r.removeFrom b source).value := by
  let own (record : LineRecord) := record.source == source
  have hperm := keys_live_perm hb h.nodup own
  have hperm' := keys_live_perm hb h.nodup' own
  rw [h.filter_anchors (Option.any own)] at hperm'
  exact (hperm'.trans hperm.symm).length_eq

theorem sourceOf?_eq (h : r.Agrees r' b) (hb : b.WellFormed) {line : StickyLine}
    (hkept : ¬ b.Lapsed line) : r'.sourceOf? b line = r.sourceOf? b line := by
  rw [sourceOf?, sourceOf?]
  split
  next hid => exact h.sourceOn?_of_isLive hb (Buffer.isLive_of_not_lapsed hid hkept)
  next => rfl

theorem value_remove (h : r.Agrees r' b) (hb : b.WellFormed) {line : StickyLine}
    (hkept : ¬ b.Lapsed line) : (r'.remove b line).value = (r.remove b line).value := by
  have hfinds := h.finds_iff hb hkept
  by_cases hfound : r.Finds b line
  · rw [r.remove_of_finds hb h.owns hfound, r'.remove_of_finds hb h.owns' (hfinds.2 hfound)]
  · rw [r.remove_of_not_finds hb hfound, r'.remove_of_not_finds hb (hfinds.not.2 hfound)]

theorem answersAlike (h : r.Agrees r' b) (hb : b.WellFormed) : r.AnswersAlike r' b where
  add source start stop label := (add_congr r' r b source start stop label).1
  query := h.query_eq hb
  queryEvents := h.queryEvents_eq hb
  size := h.size_eq hb
  removeFrom := h.value_removeFrom hb
  sourceOf? _ := h.sourceOf?_eq hb
  remove _ := h.value_remove hb

end Agrees

end Registry

/-! ## Cells that differ in what is gone -/

namespace Cells

variable {c c' : Cells Buffer} {t : Turn} {q r : RegistryRef}
  {registry registry' other : Registry ListenerRef} {d e : DocumentRef} {b : Buffer}

theorem works_modifyRegistry (h : c.Works r registry d b) (registry' : Registry ListenerRef) :
    (c.modifyRegistry r fun _ => registry').Works r registry' d b := by
  refine ⟨?_, h.document_eq⟩
  rw [registries_modifyRegistry, if_pos rfl, h.registry_eq]
  rfl

theorem works_modifyRegistry_iff (hne : q ≠ r)
    (change : Registry ListenerRef → Registry ListenerRef) :
    (c.modifyRegistry r change).Works q other e b ↔ c.Works q other e b := by
  have hother : (c.modifyRegistry r change).registries[q]? = c.registries[q]? := by
    rw [registries_modifyRegistry, if_neg (Ne.symm hne)]
  constructor
  · intro h
    exact ⟨hother.symm.trans h.registry_eq, h.document_eq⟩
  · intro h
    exact ⟨hother.trans h.registry_eq, h.document_eq⟩

-- who acts does not depend on what the registries are like
theorem acting?_modifyRegistry (c : Cells Buffer) (t : Turn) (r : RegistryRef)
    (change : Registry ListenerRef → Registry ListenerRef) :
    (c.modifyRegistry r change).acting? t = c.acting? t := by
  have hfree (loans : Loans) (q : RegistryRef) :
      (c.modifyRegistry r change).isFree loans q = c.isFree loans q := by
    rw [isFree, isFree, registries_modifyRegistry]
    split
    next => rw [Option.any_map]
    next => rfl
  obtain ⟨m, move⟩ := t
  cases move with
  | close loans id => simp only [acting?, hfree]
  | _ => rfl

theorem addRegistry_modifyRegistry (h : c.Works r registry d b) (registry' : Registry ListenerRef)
    (e : DocumentRef) :
    ((c.modifyRegistry r fun _ => registry').addRegistry e).2 =
      (c.addRegistry e).2.modifyRegistry r fun _ => registry' := by
  have hlt : r < c.registries.length := (List.getElem?_eq_some_iff.1 h.registry_eq).1
  have happend (f : SharedRegistry → SharedRegistry) (shared : SharedRegistry) :
      c.registries.modify r f ++ [shared] = (c.registries ++ [shared]).modify r f := by
    apply List.ext_getElem?
    intro q
    rw [List.getElem?_modify, List.getElem?_append, List.getElem?_append, List.getElem?_modify,
      List.length_modify]
    split
    next => rfl
    next hge => simp [Nat.ne_of_lt (Nat.lt_of_lt_of_le hlt (Nat.not_lt.1 hge))]
  exact congrArg (Cells.mk c.documents) (happend _ _)

theorem settle_modifyRegistry_of_ne (c : Cells Buffer) (hne : q ≠ r) (e : DocumentRef)
    (left : Registry ListenerRef × Buffer) (registry' : Registry ListenerRef) :
    (c.modifyRegistry r fun _ => registry').settle q e left =
      (c.settle q e left).modifyRegistry r fun _ => registry' :=
  congrArg (Cells.mk _) (List.modify_modify_ne _ _ _ (Ne.symm hne))

theorem settle_modifyRegistry (c : Cells Buffer) (r : RegistryRef) (e : DocumentRef)
    (left : Registry ListenerRef × Buffer) (registry' : Registry ListenerRef) :
    (c.modifyRegistry r fun _ => registry').settle r e left = c.settle r e left :=
  congrArg (Cells.mk _) (List.modify_modify_eq _ _ _ _)

theorem modifyRegistry_settle (c : Cells Buffer) (r : RegistryRef) (e : DocumentRef)
    (left : Registry ListenerRef × Buffer) (registry' : Registry ListenerRef) :
    (c.settle r e left).modifyRegistry r (fun _ => registry') = c.settle r e (registry', left.2) :=
  congrArg (Cells.mk _) (List.modify_modify_eq _ _ _ _)

-- which registries there are decides what opening a document does, not what they are like
theorem openDocument_modifyRegistry (h : c.Works r registry d b)
    (registry' : Registry ListenerRef) (m : Manager) (loans : Loans) (e : DocumentRef)
    (store : Buffer) :
    (m.openDocument (c.modifyRegistry r fun _ => registry') loans e store).cells =
      (m.openDocument c loans e store).cells.modifyRegistry r fun _ => registry' := by
  unfold Manager.openDocument
  dsimp only
  split
  next => rfl
  next =>
    split
    next => rfl
    next => exact addRegistry_modifyRegistry h registry' e

theorem apply_modifyRegistry_of_none (h : c.Works r registry d b) (hnone : c.acting? t = none)
    (registry' : Registry ListenerRef) :
    (c.modifyRegistry r fun _ => registry').apply t =
      (c.apply t).modifyRegistry r fun _ => registry' := by
  have hnone' := (acting?_modifyRegistry c t r fun _ => registry').trans hnone
  obtain ⟨m, move⟩ := t
  cases move with
  | makeDocument id text => rfl
  | edit e change =>
    simp only [apply, Office.apply, documents_modifyRegistry]
    split <;> rfl
  | openDocument loans e =>
    simp only [apply, Office.apply, documents_modifyRegistry]
    split
    next => rfl
    next store _ => exact openDocument_modifyRegistry h registry' m loans e store
  | close loans id =>
    cases hget : m.get? id with
    | none =>
      have hidle (c : Cells Buffer) : c.apply ⟨m, .close loans id⟩ = c :=
        congrArg Office.cells (Office.apply_close_of_none (o := ⟨m, c⟩) hget loans)
      rw [hidle, hidle]
    | some q =>
      -- the registry is closed while it is on loan
      have hidle (c : Cells Buffer) (hnone : c.acting? ⟨m, .close loans id⟩ = none) :
          c.apply ⟨m, .close loans id⟩ = c :=
        apply_close_idle hget (Or.inl (by simpa [acting?, hget] using hnone))
      rw [hidle c hnone, hidle _ hnone']
  | act q change => cases hnone

/-- A turn in which a registry does not act does not look at it. -/
theorem apply_modifyRegistry (h : c.Works r registry d b)
    (haside : ∀ change, c.acting? t ≠ some (r, change)) (registry' : Registry ListenerRef) :
    (c.modifyRegistry r fun _ => registry').apply t =
      (c.apply t).modifyRegistry r fun _ => registry' := by
  cases hacting : c.acting? t with
  | none => exact apply_modifyRegistry_of_none h hacting registry'
  | some acted =>
    obtain ⟨q, change⟩ := acted
    have hacting' := (acting?_modifyRegistry c t r fun _ => registry').trans hacting
    have hne : q ≠ r := by
      rintro rfl
      exact haside change hacting
    by_cases hworks : ∃ other e b, c.Works q other e b
    · obtain ⟨other, e, b', hq⟩ := hworks
      rw [apply_of_acting hacting hq,
        apply_of_acting hacting' ((works_modifyRegistry_iff hne _).2 hq)]
      exact settle_modifyRegistry_of_ne c hne e _ registry'
    · have hworks' : ¬ ∃ other e b,
          (c.modifyRegistry r fun _ => registry').Works q other e b := by
        simpa only [works_modifyRegistry_iff hne] using hworks
      rw [apply_of_acting_idle hacting hworks, apply_of_acting_idle hacting' hworks']

/-- The second cells are the first, but that the registry in one cell agrees with the one there. -/
inductive Alike (r : RegistryRef) (c : Cells Buffer) : Cells Buffer → Prop where
  | intro {registry registry' : Registry ListenerRef} {d : DocumentRef} {b : Buffer}
      (hworks : c.Works r registry d b) (hagrees : registry.Agrees registry' b) :
      Alike r c (c.modifyRegistry r fun _ => registry')

/-- Each time in the course of the turns that the registry is asked to remove a line, the line has
not lapsed. -/
def SparesLapsed (r : RegistryRef) : Cells Buffer → List Turn → Prop
  | _, [] => True
  | c, t :: rest =>
    (∀ line registry d b, c.acting? t = some (r, .remove line) → c.Works r registry d b →
      ¬ b.Lapsed line) ∧ SparesLapsed r (c.apply t) rest

theorem Alike.apply (h : Alike r c c') (hc : c.Sound)
    (hspares : ∀ line registry d b, c.acting? t = some (r, .remove line) →
      c.Works r registry d b → ¬ b.Lapsed line) : Alike r (c.apply t) (c'.apply t) := by
  cases h with
  | @intro registry registry' d b hworks hagrees =>
    have hb := hc.wellFormed d b hworks.document_eq
    by_cases haside : ∀ change, c.acting? t ≠ some (r, change)
    · have heffect := c.effect t
      obtain ⟨changes, hdocument⟩ := heffect.document hc hworks.document_eq
      have hregistry := heffect.registry_aside hworks.registry_eq haside
      rw [apply_modifyRegistry hworks haside]
      exact .intro ⟨hregistry, hdocument⟩ (hagrees.evolves (Buffer.evolves_after hb changes))
    · obtain ⟨change, hacting⟩ := not_forall_not.1 haside
      have hkept : ∀ line, change = .remove line → ¬ b.Lapsed line := by
        rintro line rfl
        exact hspares line registry d b hacting hworks
      have hacting' := (acting?_modifyRegistry c t r fun _ => registry').trans hacting
      rw [apply_of_acting hacting hworks,
        apply_of_acting hacting' (works_modifyRegistry hworks registry'), settle_modifyRegistry]
      have hend : c.settle r d (registry'.perform b change) =
          (c.settle r d (registry.perform b change)).modifyRegistry r
            fun _ => (registry'.perform b change).1 := by
        rw [modifyRegistry_settle, ← hagrees.store_perform hb hkept]
      rw [hend]
      exact .intro (works_settle hworks _) (hagrees.perform hb hkept)

theorem Alike.after (h : Alike r c c') (hc : c.Sound) {turns : List Turn}
    (hspares : SparesLapsed r c turns) : Alike r (c.after turns) (c'.after turns) := by
  induction turns generalizing c c' with
  | nil => exact h
  | cons t rest ih => exact ih (h.apply hc hspares.1) (hc.apply t) hspares.2

-- where the two runs part
theorem alike_prune (hc : c.Sound) (hworks : c.Works r registry d b) (howns : registry.Owns b)
    (hnd : registry.records.keys.Nodup) (m : Manager) :
    Alike r c (c.apply ⟨m, .act r .prune⟩) := by
  have hsame : c.setDocument d b = c := by
    obtain ⟨hlt, hget⟩ := List.getElem?_eq_some_iff.1 hworks.document_eq
    show Cells.mk (c.documents.set d b) c.registries = c
    rw [← hget, List.set_getElem_self]
  rw [apply_act m hworks]
  show Alike r c ((c.setDocument d b).modifyRegistry r fun _ => registry.prune b)
  rw [hsame]
  exact .intro hworks (Registry.agrees_prune (hc.wellFormed d b hworks.document_eq) howns hnd)

/-- Whatever came before, a pruning drops exactly the records whose anchors are gone, answers how
many they are, and finds none when it is repeated at once. Nobody misses them: whatever happens from
then on, with the pruning and without it, there is the same in every document (so that every line is
read again alike) and in every other registry, and the registry answers alike whenever it is asked
to add a line, to show lines, to count them or to remove those of a source, and when it is asked of
a line that is there for its source or to remove it. Only the removal of a line that has lapsed must
not be asked for, since that tells whether there was a record. -/
theorem pruning_unseen (turns : List Turn) {r : RegistryRef} {registry : Registry ListenerRef}
    {d : DocumentRef} {b : Buffer}
    (hworks : ((empty : Cells Buffer).after turns).Works r registry d b) :
    let c := (empty : Cells Buffer).after turns
    let pruned := registry.prune b
    (∀ handle, Registry.isLive b handle = true ↔ ∃ a ∈ b.anchors, a.handle = handle) ∧
    (∀ handle, pruned.records.find? handle =
      (registry.records.find? handle).filter fun _ => Registry.isLive b handle) ∧
    registry.staleCount b =
      (registry.records.keys.filter fun handle => !Registry.isLive b handle).length ∧
    pruned.staleCount b = 0 ∧
    ∀ (m : Manager) (later : List Turn), SparesLapsed r c later →
      let without := c.after later
      let withPruning := (c.apply ⟨m, .act r .prune⟩).after later
      ∃ registry₁ registry₂ b', without.Works r registry₁ d b' ∧
        withPruning.Works r registry₂ d b' ∧ registry₁.AnswersAlike registry₂ b' ∧
        withPruning.documents = without.documents ∧
        ∀ q, q ≠ r → withPruning.registries[q]? = without.registries[q]? := by
  intro c pruned
  have hc : c.Sound := sound_empty.after turns
  have hb : b.WellFormed := wellFormed_after turns hworks
  have hnd : registry.records.keys.Nodup := nodup_keys_after turns hworks
  refine ⟨fun _ => Buffer.isLive_iff hb.distinct, Registry.find?_prune hnd,
    registry.staleCount_eq b, registry.staleCount_prune b, ?_⟩
  intro m later hspares without withPruning
  have halike : Alike r without withPruning :=
    (alike_prune hc hworks (owns_after turns hworks) hnd m).after hc hspares
  obtain ⟨registry₁, b', hworks₁, -⟩ := (stable_id b.id).after hc hworks rfl later
  have hb' : b'.WellFormed := (hc.after later).wellFormed d b' hworks₁.document_eq
  generalize withPruning = c' at halike ⊢
  cases halike with
  | @intro _ registry₂ _ _ hworks₁' hagrees =>
    obtain ⟨rfl, rfl, rfl⟩ := hworks₁.unique hworks₁'
    refine ⟨registry₁, registry₂, b', hworks₁, works_modifyRegistry hworks₁ registry₂,
      hagrees.answersAlike hb', rfl, ?_⟩
    intro q hq
    rw [registries_modifyRegistry, if_neg (Ne.symm hq)]

/-- A line is removed, those that are left are moved on, and another is added. -/
def movedScopes : List Turn :=
  let desk : Manager := .ofLimit 1
  [⟨desk, .act 0 (.remove ⟨"a", ⟨0⟩, ⟨0, 2⟩, 0, 0, none⟩)⟩, ⟨desk, .edit 0 (.insert 0 ['!'])⟩,
    ⟨desk, .act 0 (.add "outline" 0 2 none)⟩]

-- at the end the one run still has a stale record and the other has none, and nobody can tell
theorem mixedScopes_pruned :
    let c := (empty : Cells Buffer).after mixedScopes
    let pruned := c.apply ⟨.ofLimit 1, .act 0 .prune⟩
    ∃ registry₁ registry₂ d b, (c.after movedScopes).Works 0 registry₁ d b ∧
      (pruned.after movedScopes).Works 0 registry₂ d b ∧
      registry₁.staleCount b = 1 ∧ registry₂.staleCount b = 0 ∧
      registry₁.AnswersAlike registry₂ b := by
  intro c pruned
  have hscene : (((empty : Cells Buffer).after mixedScopes).at? 0).any (fun scene =>
      Registry.isLive scene.2 ⟨0⟩) = true := by
    decide +kernel
  have hlast : ((((empty : Cells Buffer).after mixedScopes).after movedScopes).at? 0).any
      (fun scene => scene.1.staleCount scene.2 == 1) = true := by
    cbv
  have hlast' : (((((empty : Cells Buffer).after mixedScopes).apply
      ⟨.ofLimit 1, .act 0 .prune⟩).after movedScopes).at? 0).any
      (fun scene => scene.1.staleCount scene.2 == 0) = true := by
    cbv
  simp only [Option.any_eq_true, beq_iff_eq] at hscene hlast hlast'
  obtain ⟨⟨registry, b⟩, hat, hlive⟩ := hscene
  obtain ⟨⟨registry₁, b₁⟩, hat₁, hstale₁⟩ := hlast
  obtain ⟨⟨registry₂, b₂⟩, hat₂, hstale₂⟩ := hlast'
  obtain ⟨d, hworks⟩ := at?_eq_some_iff.1 hat
  obtain ⟨d₁, hworks₁⟩ := at?_eq_some_iff.1 hat₁
  obtain ⟨d₂, hworks₂⟩ := at?_eq_some_iff.1 hat₂
  have hspares : SparesLapsed 0 c movedScopes := by
    refine ⟨?_, ?_, ?_, trivial⟩
    · -- the line that is removed is there
      intro line registry' d' b' hacting hworks' hlapsed
      cases hacting
      obtain ⟨-, -, rfl⟩ := hworks.unique hworks'
      cases hlive.symm.trans hlapsed.2
    · intro line registry' d' b' hacting
      cases hacting
    · intro line registry' d' b' hacting
      cases hacting
  obtain ⟨-, -, -, -, hruns⟩ := pruning_unseen mixedScopes hworks
  obtain ⟨registry₁', registry₂', b', hworks₁', hworks₂', halike, -⟩ :=
    hruns (.ofLimit 1) movedScopes hspares
  obtain ⟨rfl, rfl, rfl⟩ := hworks₁.unique hworks₁'
  obtain ⟨rfl, rfl, rfl⟩ := hworks₂.unique hworks₂'
  exact ⟨registry₁, registry₂, _, _, hworks₁, hworks₂, hstale₁, hstale₂, halike⟩

end Cells
end StickyScroll
