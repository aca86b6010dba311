import StickyScroll.Manager
import StickyScroll.Proofs.Registry.Query

/-!
# Offices

An office is a manager with all the documents and registries there are. Documents are made and
edited, anchors are made and dropped in them directly, documents are opened and closed, and each
registry is changed, whether it is still held or not. In an office where sticky anchors come from
held registries only, and where documents are closed only while nobody uses them, the registry that
is held for a document has a record of every sticky anchor in it.
-/

namespace StickyScroll

/-- A manager, and the cells of the documents and registries that it deals with. -/
structure Office where
  manager : Manager
  cells : Cells Buffer

namespace Office

def ofLimit (maxDocuments : Nat) : Office := ⟨.ofLimit maxDocuments, .empty⟩

/-- What happens in an office. -/
inductive Move where
  | makeDocument (id : String) (text : List Char)
  -- a change of a document that goes past the registries
  | edit (d : DocumentRef) (change : Buffer.Change)
  | openDocument (loans : Loans) (d : DocumentRef)
  | close (loans : Loans) (id : String)
  | act (r : RegistryRef) (change : Registry.Change ListenerRef)

def settle (o : Office) (r : RegistryRef) (d : DocumentRef)
    (left : Registry ListenerRef × Buffer) : Office :=
  { o with cells := o.cells.settle r d left }

def apply (o : Office) : Move → Office
  | .makeDocument id text => { o with cells := (o.cells.addDocument (Buffer.ofText id text)).2 }
  | .edit d change =>
      match o.cells.documents[d]? with
      | none => o
      | some b => { o with cells := o.cells.setDocument d (b.apply change) }
  | .openDocument loans d =>
      match o.cells.documents[d]? with
      | none => o
      | some b =>
          let opened := o.manager.openDocument o.cells loans d b
          ⟨opened.manager, opened.cells⟩
  | .close loans id =>
      let closed := o.manager.close o.cells loans id
      ⟨closed.manager, closed.cells⟩
  | .act r change =>
      match o.cells.registries[r]? with
      | none => o
      | some shared =>
          match o.cells.documents[shared.document]? with
          | none => o
          | some b => o.settle r shared.document (shared.registry.perform b change)

def after (o : Office) (moves : List Move) : Office := moves.foldl apply o

/-- A move keeps the rules of the office: sticky anchors are made by registries that are held at
that moment, and a document is closed while neither its registry nor its store is on loan. -/
def Allows (o : Office) : Move → Prop
  | .edit _ (.create marker ..) => marker ≠ .sticky
  | .close loans id =>
      ∀ r shared, o.manager.get? id = some r → o.cells.registries[r]? = some shared →
        loans.permit (.registry r) .write = true ∧
          loans.permit (.document shared.document) .write = true
  | .act r (.add ..) => ∃ id, o.manager.get? id = some r
  | _ => True

-- every move of a list keeps the rules at its turn
def AllowsAll : Office → List Move → Prop
  | _, [] => True
  | o, move :: rest => o.Allows move ∧ (o.apply move).AllowsAll rest

/-- The registry that is held for a document id is over the document in cell `d`, and has a record
of the handle. -/
def Records (o : Office) (d : DocumentRef) (id : String) (handle : Handle) : Prop :=
  ∃ r registry, o.manager.get? id = some r ∧ o.cells.registries[r]? = some ⟨registry, d⟩ ∧
    registry.Records handle

/-- What the rules keep up in an office. -/
structure Tidy (o : Office) : Prop where
  wellFormed : ∀ (d : DocumentRef) (b : Buffer), o.cells.documents[d]? = some b → b.WellFormed
  held : ∀ (id : String) (r : RegistryRef), o.manager.get? id = some r → ∃ registry d b,
    o.cells.registries[r]? = some ⟨registry, d⟩ ∧ o.cells.documents[d]? = some b ∧ b.id = id
  recorded : ∀ (d : DocumentRef) (b : Buffer), o.cells.documents[d]? = some b →
    ∀ a ∈ b.anchors, a.marker = .sticky → o.Records d b.id a.handle

theorem tidy_ofLimit (maxDocuments : Nat) : (ofLimit maxDocuments).Tidy := by
  refine ⟨?_, ?_, ?_⟩
  · intro d b h
    cases h
  · intro id r h
    cases h
  · intro d b h
    cases h

/-! ## Documents -/

theorem documents_set_cases {documents : List Buffer} {d e : DocumentRef} {b c : Buffer}
    (h : (documents.set d b)[e]? = some c) :
    (e = d ∧ c = b) ∨ (e ≠ d ∧ documents[e]? = some c) := by
  by_cases hed : e = d
  · subst hed
    rw [List.getElem?_set_self'] at h
    obtain ⟨_, -, hc⟩ := Option.map_eq_some_iff.1 h
    exact Or.inl ⟨rfl, hc.symm⟩
  · rw [List.getElem?_set_ne (Ne.symm hed)] at h
    exact Or.inr ⟨hed, h⟩

-- whoever holds a registry still finds its document, under the same id
theorem Tidy.held_set {o : Office} (h : o.Tidy) {d : DocumentRef} {b b' : Buffer}
    (hd : o.cells.documents[d]? = some b) (hid : b'.id = b.id) {id : String} {r : RegistryRef}
    (hget : o.manager.get? id = some r) :
    ∃ registry e c, o.cells.registries[r]? = some ⟨registry, e⟩ ∧
      (o.cells.documents.set d b')[e]? = some c ∧ c.id = id := by
  obtain ⟨registry, e, c, hr, he, hc⟩ := h.held id r hget
  by_cases hed : e = d
  · subst hed
    have hbc : b = c := Option.some.inj (hd.symm.trans he)
    refine ⟨registry, e, b', hr, ?_, ?_⟩
    · rw [List.getElem?_set_self', hd]
      rfl
    · rw [hid, hbc, hc]
  · refine ⟨registry, e, c, hr, ?_, hc⟩
    rw [List.getElem?_set_ne (Ne.symm hed)]
    exact he

theorem Tidy.makeDocument {o : Office} (h : o.Tidy) (id : String) (text : List Char) :
    (o.apply (.makeDocument id text)).Tidy := by
  have hlookup : ∀ (d : DocumentRef) (b : Buffer),
      (o.cells.documents ++ [Buffer.ofText id text])[d]? = some b →
        o.cells.documents[d]? = some b ∨ b = Buffer.ofText id text := by
    intro d b hb
    rw [List.getElem?_append] at hb
    split at hb
    next => exact Or.inl hb
    next => exact Or.inr (List.mem_singleton.1 (List.mem_of_getElem? hb))
  refine ⟨?_, ?_, ?_⟩
  · intro d b hb
    rcases hlookup d b hb with hold | rfl
    · exact h.wellFormed d b hold
    · exact Buffer.wellFormed_ofText id text
  · intro id' r hget
    obtain ⟨registry, d, b, hr, hd, hb⟩ := h.held id' r hget
    have hlt : d < o.cells.documents.length := (List.getElem?_eq_some_iff.1 hd).1
    refine ⟨registry, d, b, hr, ?_, hb⟩
    exact (List.getElem?_append_left hlt).trans hd
  · intro d b hb a ha hmarker
    rcases hlookup d b hb with hold | rfl
    · exact h.recorded d b hold a ha hmarker
    · cases ha

-- an edit makes no sticky anchor, so those found after it were on record before
theorem Tidy.edit {o : Office} (h : o.Tidy) {d : DocumentRef} {change : Buffer.Change}
    (hallows : o.Allows (.edit d change)) : (o.apply (.edit d change)).Tidy := by
  unfold apply
  dsimp only
  split
  next => exact h
  next b hd =>
    have hb : b.WellFormed := h.wellFormed d b hd
    have hid : (b.apply change).id = b.id := (Buffer.evolves_apply hb change).id_eq
    refine ⟨?_, ?_, ?_⟩
    · intro e c he
      rcases documents_set_cases he with ⟨rfl, rfl⟩ | ⟨-, hold⟩
      · exact hb.apply change
      · exact h.wellFormed e c hold
    · intro id r hget
      exact h.held_set hd hid hget
    · intro e c he a ha hmarker
      rcases documents_set_cases he with ⟨rfl, rfl⟩ | ⟨-, hold⟩
      · rcases Buffer.origin_apply hb change ha with hmade | ⟨a', ha', hcont⟩
        · -- the only anchors that are made here are of other markers
          rcases Buffer.made?_cases b change with ⟨hnone, -⟩ | ⟨marker, _, _, rfl, -, hsome, -⟩
          · rw [hnone] at hmade
            cases hmade
          · rw [hsome] at hmade
            obtain rfl := List.mem_singleton.1 hmade
            exact absurd hmarker hallows
        · rw [hid, hcont.handle_eq]
          have hmarker' : a'.marker = .sticky := hcont.marker_eq.symm.trans hmarker
          exact h.recorded e b hd a' ha' hmarker'
      · exact h.recorded e c hold a ha hmarker

/-! ## Registries -/

/-- An operation of a registry keeps an office tidy if the sticky anchors that it leaves are old
ones whose record it leaves, or are on record when the registry is held. -/
theorem Tidy.settle {o : Office} (h : o.Tidy) {r : RegistryRef} {registry : Registry ListenerRef}
    {d : DocumentRef} {b : Buffer} (hr : o.cells.registries[r]? = some ⟨registry, d⟩)
    (hd : o.cells.documents[d]? = some b) {left : Registry ListenerRef × Buffer}
    (hwf : left.2.WellFormed) (hid : left.2.id = b.id)
    (hleft : ∀ a ∈ left.2.anchors, a.marker = .sticky →
      (o.manager.get? b.id = some r ∧ left.1.Records a.handle) ∨
        (a ∈ b.anchors ∧ (registry.Records a.handle → left.1.Records a.handle))) :
    (o.settle r d left).Tidy := by
  refine ⟨?_, ?_, ?_⟩
  · intro e c he
    rcases documents_set_cases he with ⟨-, rfl⟩ | ⟨-, hold⟩
    · exact hwf
    · exact h.wellFormed e c hold
  · intro id q hget
    obtain ⟨registry', e, c, hq, he, hc⟩ := h.held_set hd hid hget
    exact ⟨_, e, c, Cells.registries_settle hq left, he, hc⟩
  · intro e c he a ha hmarker
    rcases documents_set_cases he with ⟨rfl, rfl⟩ | ⟨hne, hold⟩
    · rw [hid]
      rcases hleft a ha hmarker with ⟨hget, hrecord⟩ | ⟨hmem, hkeeps⟩
      · refine ⟨r, _, hget, Cells.registries_settle hr left, ?_⟩
        rw [if_pos rfl]
        exact hrecord
      · obtain ⟨q, registry', hget, hq, hrecord⟩ := h.recorded e b hd a hmem hmarker
        refine ⟨q, _, hget, Cells.registries_settle hq left, ?_⟩
        split
        next hrq =>
          subst hrq
          cases hr.symm.trans hq
          exact hkeeps hrecord
        next => exact hrecord
    · -- the registry that is held for another document is another registry
      obtain ⟨q, registry', hget, hq, hrecord⟩ := h.recorded e c hold a ha hmarker
      have hrq : r ≠ q := by
        rintro rfl
        cases hr.symm.trans hq
        exact hne rfl
      refine ⟨q, _, hget, Cells.registries_settle hq left, ?_⟩
      rw [if_neg hrq]
      exact hrecord

-- what a registry does to its document, if whoever adds a line is held
theorem Tidy.perform {o : Office} (h : o.Tidy) {r : RegistryRef}
    {registry : Registry ListenerRef} {d : DocumentRef} {b : Buffer}
    (hr : o.cells.registries[r]? = some ⟨registry, d⟩) (hd : o.cells.documents[d]? = some b)
    {change : Registry.Change ListenerRef}
    (hadds : change.adds = true → ∃ id, o.manager.get? id = some r) :
    (o.settle r d (registry.perform b change)).Tidy := by
  have hb : b.WellFormed := h.wellFormed d b hd
  obtain ⟨changes, hchanges⟩ := registry.perform_store_eq_after hb change
  have hid : (registry.perform b change).2.id = b.id := by
    rw [hchanges]
    exact (Buffer.evolves_after hb changes).id_eq
  refine h.settle hr hd (registry.wellFormed_perform hb change) hid ?_
  intro a ha hmarker
  rcases registry.records_perform hb change ha hmarker with ⟨hadd, hrecord⟩ | hold
  · obtain ⟨id, hget⟩ := hadds hadd
    obtain ⟨registry', e, c, hr', he, rfl⟩ := h.held id r hget
    cases hr.symm.trans hr'
    cases hd.symm.trans he
    exact Or.inl ⟨hget, hrecord⟩
  · exact Or.inr hold

theorem Tidy.act {o : Office} (h : o.Tidy) {r : RegistryRef}
    {change : Registry.Change ListenerRef} (hallows : o.Allows (.act r change)) :
    (o.apply (.act r change)).Tidy := by
  have hadds : change.adds = true → ∃ id, o.manager.get? id = some r := by
    intro hadd
    cases change with
    | add source start stop label => exact hallows
    | _ => cases hadd
  unfold apply
  dsimp only
  split
  next => exact h
  next shared hr =>
    split
    next => exact h
    next b hd => exact h.perform hr hd hadds

/-! ## Opening -/

-- no document of the id has sticky anchors yet: they would be on record with a registry that is
-- held
theorem Tidy.openDocument {o : Office} (h : o.Tidy) (loans : Loans) (d : DocumentRef) :
    (o.apply (.openDocument loans d)).Tidy := by
  unfold apply
  dsimp only
  split
  next => exact h
  next b hd =>
    rcases o.manager.openDocument_cases o.cells loans d b with
      ⟨_, -, heq⟩ | ⟨-, -, heq⟩ | ⟨hnone, -, heq⟩
    · rw [heq]
      exact h
    · rw [heq]
      exact h
    · rw [heq]
      refine ⟨h.wellFormed, ?_, ?_⟩
      · intro id r hid
        rw [Manager.get?_insert] at hid
        split at hid
        next heq =>
          cases hid
          exact ⟨_, d, b, Cells.registries_addRegistry_length o.cells d, hd, heq.symm⟩
        next =>
          obtain ⟨registry, e, c, hr, he, hc⟩ := h.held id r hid
          exact ⟨registry, e, c, Cells.registries_addRegistry hr d, he, hc⟩
      · intro e c he a ha hmarker
        obtain ⟨r, registry, hheld, hr, hrecord⟩ := h.recorded e c he a ha hmarker
        have hne : c.id ≠ b.id := by
          intro heq
          rw [heq] at hheld
          cases hnone.symm.trans hheld
        refine ⟨r, registry, ?_, Cells.registries_addRegistry hr d, hrecord⟩
        rw [Manager.get?_insert]
        exact (if_neg hne).trans hheld

/-! ## Closing -/

-- the office without the registry of a document id
def forget (o : Office) (id : String) : Office :=
  { o with manager := { o.manager with held := o.manager.held.erase id } }

theorem get?_forget (o : Office) (id other : String) :
    (o.forget id).manager.get? other = if other = id then none else o.manager.get? other :=
  o.manager.get?_erase id other

-- a registry that is closed while it and its document are free gives up its lines
theorem apply_close_of_free {o : Office} {id : String} {r : RegistryRef}
    {registry : Registry ListenerRef} {d : DocumentRef} {b : Buffer} {loans : Loans}
    (hget : o.manager.get? id = some r) (hr : o.cells.registries[r]? = some ⟨registry, d⟩)
    (hd : o.cells.documents[d]? = some b) (hfree : loans.permit (.registry r) .write = true)
    (hfree' : loans.permit (.document d) .write = true) :
    o.apply (.close loans id) = (o.settle r d (registry.perform b .release)).forget id := by
  have hfind : o.manager.held.find? id = some r := hget
  simp only [apply, Manager.close, Manager.releaseRegistry, hfind, hfree, hfree', hr, hd, if_true]
  rfl

theorem apply_close_of_none {o : Office} {id : String} (hget : o.manager.get? id = none)
    (loans : Loans) : o.apply (.close loans id) = o := by
  have hfind : o.manager.held.find? id = none := hget
  simp only [apply, Manager.close, hfind]

theorem Tidy.forget {o : Office} (h : o.Tidy) {id : String} {r : RegistryRef}
    {shared : SharedRegistry} (hget : o.manager.get? id = some r)
    (hr : o.cells.registries[r]? = some shared) (hempty : shared.registry.records = .empty) :
    (o.forget id).Tidy := by
  refine ⟨h.wellFormed, ?_, ?_⟩
  · intro other q hother
    rw [get?_forget] at hother
    split at hother
    next => cases hother
    next => exact h.held other q hother
  · intro e c he a ha hmarker
    obtain ⟨q, registry, hheld, hq, record, hrecord⟩ := h.recorded e c he a ha hmarker
    refine ⟨q, registry, ?_, hq, record, hrecord⟩
    rw [get?_forget]
    split
    next heq =>
      rw [heq, hget] at hheld
      cases hheld
      cases hr.symm.trans hq
      rw [hempty] at hrecord
      cases hrecord
    next => exact hheld

theorem Tidy.close {o : Office} (h : o.Tidy) {loans : Loans} {id : String}
    (hallows : o.Allows (.close loans id)) : (o.apply (.close loans id)).Tidy := by
  cases hget : o.manager.get? id with
  | none =>
    rw [apply_close_of_none hget]
    exact h
  | some r =>
    obtain ⟨registry, d, b, hr, hd, -⟩ := h.held id r hget
    obtain ⟨hfree, hfree'⟩ := hallows r _ hget hr
    rw [apply_close_of_free hget hr hd hfree hfree']
    have hreleased : (o.settle r d (registry.perform b .release)).Tidy :=
      h.perform hr hd fun hadd => nomatch hadd
    refine hreleased.forget hget (Cells.registries_settle hr _) ?_
    rw [if_pos rfl]
    rfl

/-! ## Runs -/

theorem Tidy.apply {o : Office} (h : o.Tidy) {move : Move} (hallows : o.Allows move) :
    (o.apply move).Tidy := by
  cases move with
  | makeDocument id text => exact h.makeDocument id text
  | edit d change => exact h.edit hallows
  | openDocument loans d => exact h.openDocument loans d
  | close loans id => exact h.close hallows
  | act r change => exact h.act hallows

theorem Tidy.after {o : Office} (h : o.Tidy) {moves : List Move} (hallows : o.AllowsAll moves) :
    (o.after moves).Tidy := by
  induction moves generalizing o with
  | nil => exact h
  | cons move rest ih => exact ih (h.apply hallows.1) hallows.2

theorem Tidy.records_of_held {o : Office} (h : o.Tidy) {id : String} {r : RegistryRef}
    {registry : Registry ListenerRef} {d : DocumentRef} {b : Buffer}
    (hget : o.manager.get? id = some r) (hr : o.cells.registries[r]? = some ⟨registry, d⟩)
    (hd : o.cells.documents[d]? = some b) (hid : b.id = id) {a : Anchor} (ha : a ∈ b.anchors)
    (hmarker : a.marker = .sticky) : registry.Records a.handle := by
  obtain ⟨q, registry', hheld, hq, hrecord⟩ := h.recorded d b hd a ha hmarker
  rw [hid, hget] at hheld
  cases hheld
  cases hr.symm.trans hq
  exact hrecord

-- in a tidy office every query of a registry that is held shows recorded lines only
theorem Tidy.query_of_held {o : Office} (h : o.Tidy) {id : String} {r : RegistryRef}
    {registry : Registry ListenerRef} {d : DocumentRef} {b : Buffer}
    (hget : o.manager.get? id = some r) (hr : o.cells.registries[r]? = some ⟨registry, d⟩)
    (hd : o.cells.documents[d]? = some b) (hid : b.id = id) (filter : Option String)
    (limit : Nat) :
    registry.queryEvents b filter limit = [] ∧
      ∀ line ∈ registry.query b filter limit, ∃ record,
        registry.records.find? line.handle = some record ∧ line.label = record.label := by
  have hb : b.WellFormed := h.wellFormed d b hd
  refine ⟨?_, ?_⟩
  · have hnone : (RangeStore.overlapping b 0 limit).filter registry.isUnrecorded = [] := by
      rw [List.filter_eq_nil_iff]
      intro a ha hunrecorded
      have hmem : a ∈ b.anchors := List.mem_of_mem_take (List.mem_filter.1 ha).1
      obtain ⟨hsticky, hunknown⟩ := Bool.and_eq_true_iff.1 hunrecorded
      obtain ⟨record, hrecord⟩ := h.records_of_held hget hr hd hid hmem (beq_iff_eq.1 hsticky)
      rw [hrecord] at hunknown
      cases hunknown
    unfold Registry.queryEvents
    rw [hnone]
    split <;> rfl
  · intro line hline
    obtain ⟨a, ha, hmarker, -, -, rfl⟩ := (Registry.mem_query_iff hb).1 hline
    obtain ⟨record, hrecord⟩ := h.records_of_held hget hr hd hid ha hmarker
    refine ⟨record, hrecord, ?_⟩
    show ((registry.records.find? a.handle).map (·.label)).getD _ = record.label
    rw [hrecord]
    rfl

/-- At every moment of a run that keeps the rules, each sticky anchor of each document is on record
with the registry that is held for the document's id, which is over that very document. So no query
of a registry that is held reports or shows a zombie, and a registry that is made when a document is
opened has no lines, whatever documents of the same id there are. -/
theorem sticky_anchors_on_record (maxDocuments : Nat) (moves : List Move)
    (hallowed : (ofLimit maxDocuments).AllowsAll moves) :
    let o := (ofLimit maxDocuments).after moves
    (∀ (d : DocumentRef) (b : Buffer), o.cells.documents[d]? = some b →
      ∀ a ∈ b.anchors, a.marker = .sticky →
        ∃ r registry record, o.manager.get? b.id = some r ∧
          o.cells.registries[r]? = some ⟨registry, d⟩ ∧
          registry.records.find? a.handle = some record) ∧
    (∀ (id : String) (r : RegistryRef), o.manager.get? id = some r →
      ∃ registry d b, o.cells.registries[r]? = some ⟨registry, d⟩ ∧
        o.cells.documents[d]? = some b ∧ b.id = id ∧
        ∀ (filter : Option String) (limit : Nat),
          registry.queryEvents b filter limit = [] ∧
          ∀ line ∈ registry.query b filter limit, ∃ record,
            registry.records.find? line.handle = some record ∧ line.label = record.label) ∧
    (∀ (loans : Loans) (d : DocumentRef) (b : Buffer) (r : RegistryRef),
      o.cells.documents[d]? = some b → o.manager.get? b.id = none →
      (o.manager.openDocument o.cells loans d b).result = .ok r →
        ∃ registry,
          (o.manager.openDocument o.cells loans d b).cells.registries[r]? = some ⟨registry, d⟩ ∧
          (o.manager.openDocument o.cells loans d b).cells.documents[d]? = some b ∧
          registry.lines b none = [] ∧ registry.size b = 0) := by
  intro o
  have h : o.Tidy := (tidy_ofLimit maxDocuments).after hallowed
  refine ⟨?_, ?_, ?_⟩
  · intro d b hd a ha hmarker
    obtain ⟨r, registry, hget, hr, record, hrecord⟩ := h.recorded d b hd a ha hmarker
    exact ⟨r, registry, record, hget, hr, hrecord⟩
  · intro id r hget
    obtain ⟨registry, d, b, hr, hd, hid⟩ := h.held id r hget
    exact ⟨registry, d, b, hr, hd, hid, h.query_of_held hget hr hd hid⟩
  · intro loans d b r hd hnone hresult
    rcases o.manager.openDocument_cases o.cells loans d b with
      ⟨q, hget, -⟩ | ⟨-, -, heq⟩ | ⟨-, -, heq⟩
    · cases hnone.symm.trans hget
    · rw [heq] at hresult
      cases hresult
    · rw [heq] at hresult ⊢
      cases hresult
      refine ⟨.empty, Cells.registries_addRegistry_length o.cells d, hd, ?_, rfl⟩
      -- a sticky anchor would be on record with a registry that is held, and none is
      rw [List.eq_nil_iff_forall_not_mem]
      intro line hline
      obtain ⟨a, ha, hmarker, -⟩ := (Registry.mem_query_iff (h.wellFormed d b hd)).1 hline
      obtain ⟨q, registry, hget, -⟩ := h.recorded d b hd a ha hmarker
      rw [hnone] at hget
      cases hget

/-- Two documents of one id. The first is opened, gets a line, is edited and closed; the second has
an anchor of another marker, is opened after that and gets a line. -/
def twins : List Move :=
  [.makeDocument "a" ['x', 'y'], .makeDocument "a" ['z'],
    .openDocument [] 0, .act 0 (.add "outline" 0 2 none), .edit 0 (.insert 1 ['!']),
    .edit 1 (.create ⟨"MARK"⟩ 0 1), .close [⟨.document 1, .read⟩] "a",
    .openDocument [] 1, .act 1 (.add "outline" 0 1 none)]

theorem twins_on_record :
    (ofLimit 1).AllowsAll twins ∧
    (∃ b ∈ ((ofLimit 1).after twins).cells.documents, ∃ a ∈ b.anchors, a.marker = .sticky) ∧
    (∀ (d : DocumentRef) (b : Buffer), ((ofLimit 1).after twins).cells.documents[d]? = some b →
      ∀ a ∈ b.anchors, a.marker = .sticky →
        ∃ r registry record, ((ofLimit 1).after twins).manager.get? b.id = some r ∧
          ((ofLimit 1).after twins).cells.registries[r]? = some ⟨registry, d⟩ ∧
          registry.records.find? a.handle = some record) := by
  have hallowed : (ofLimit 1).AllowsAll twins := by
    have hmarker : (⟨"MARK"⟩ : Marker) ≠ .sticky := by decide
    refine ⟨trivial, trivial, trivial, ⟨"a", rfl⟩, trivial, hmarker, ?_, trivial, ⟨"a", rfl⟩,
      trivial⟩
    intro r shared hget hr
    cases hget
    cases hr
    exact ⟨rfl, rfl⟩
  have hsticky : ∃ b ∈ ((ofLimit 1).after twins).cells.documents,
      ∃ a ∈ b.anchors, a.marker = .sticky := by
    decide +kernel
  exact ⟨hallowed, hsticky, (sticky_anchors_on_record 1 twins hallowed).1⟩

end Office
end StickyScroll
