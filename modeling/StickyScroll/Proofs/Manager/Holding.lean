import Mathlib.Data.List.Induction
import StickyScroll.Manager
import StickyScroll.Session.Command

/-!
# What a manager holds

A manager opens and closes documents among cells that others use too. Whatever they do to the
documents and registries meanwhile, it never holds more registries than it may, it holds those of
exactly the documents that were opened and not closed since, each is the registry that was made when
its document was opened first, for that document, and its first update is handed out once.

The stores are any: a document may turn into anything with the same id, and several documents may
have one id.
-/

namespace StickyScroll.Manager

/-- A manager, and all the cells there are. -/
structure Scene (σ : Type) where
  manager : Manager
  cells : Cells σ

/-- What happens: to the manager, to a registry by whoever has got it, and elsewhere. -/
inductive Happening (σ : Type) where
  | openDocument (loans : Loans) (d : DocumentRef)
  | get (id : String)
  | close (loans : Loans) (id : String)
  | takeFirstUpdate (r : RegistryRef)
  -- the records and the listeners of a registry become others
  | tend (r : RegistryRef) (records : Table Handle LineRecord) (listeners : Listeners ListenerRef)
  -- a document becomes another of the same id
  | revise (d : DocumentRef) (store : σ)
  | makeDocument (store : σ)
  -- another manager makes a registry
  | makeRegistry (d : DocumentRef)

-- somebody asks whether it is the first update of a registry
def Happening.takes {σ : Type} (r : RegistryRef) : Happening σ → Bool
  | .takeFirstUpdate q => q == r
  | _ => false

namespace Scene

variable {σ : Type} [RangeStore σ]

-- what is answered when the document in a cell is opened, and what it leaves
def opening? (s : Scene σ) (loans : Loans) (d : DocumentRef) : Option (Opened σ) :=
  (s.cells.documents[d]?).map (s.manager.openDocument s.cells loans d)

def apply (s : Scene σ) : Happening σ → Scene σ
  | .openDocument loans d =>
      match s.opening? loans d with
      | none => s
      | some opened => ⟨opened.manager, opened.cells⟩
  | .get _ => s
  | .close loans id =>
      let closed := s.manager.close s.cells loans id
      ⟨closed.manager, closed.cells⟩
  | .takeFirstUpdate r =>
      { s with cells := s.cells.modifyRegistry r fun registry => registry.takeFirstUpdate.2 }
  | .tend r records listeners =>
      { s with
        cells := s.cells.modifyRegistry r fun registry =>
          { registry with records := records, listeners := listeners } }
  | .revise d store =>
      match s.cells.documents[d]? with
      | none => s
      | some old =>
          if RangeStore.documentId store = RangeStore.documentId old then
            { s with cells := s.cells.setDocument d store }
          else s
  | .makeDocument store => { s with cells := (s.cells.addDocument store).2 }
  | .makeRegistry d => { s with cells := (s.cells.addRegistry d).2 }

def after (s : Scene σ) (run : List (Happening σ)) : Scene σ := run.foldl apply s

theorem after_append (s : Scene σ) (first second : List (Happening σ)) :
    s.after (first ++ second) = (s.after first).after second := List.foldl_append ..

theorem after_snoc (s : Scene σ) (run : List (Happening σ)) (h : Happening σ) :
    s.after (run ++ [h]) = (s.after run).apply h := s.after_append run [h]

/-- The answers to whoever asks, during a run, whether it is the first update of a registry. -/
def firstUpdates (s : Scene σ) (r : RegistryRef) : List (Happening σ) → List Bool
  | [] => []
  | h :: rest =>
      let later := (s.apply h).firstUpdates r rest
      match h.takes r, s.cells.registries[r]? with
      | true, some shared => shared.registry.takeFirstUpdate.1 :: later
      | _, _ => later

end Scene

/-! ## Closing -/

variable {σ : Type} [RangeStore σ]

-- a registry gives up its lines, or is left as it is
theorem cells_releaseRegistry (cells : Cells σ) (loans : Loans) (id : String) (r : RegistryRef) :
    (releaseRegistry cells loans id r).2.1 = cells ∨
      ∃ shared store, cells.registries[r]? = some shared ∧
        cells.documents[shared.document]? = some store ∧
        (releaseRegistry cells loans id r).2.1 =
          let released := shared.registry.release store
          cells.settle r shared.document (released.registry, released.store) := by
  unfold releaseRegistry
  split
  next =>
    split
    next => exact Or.inl rfl
    next shared hr =>
      dsimp only
      split
      next store _ hd => exact Or.inr ⟨shared, store, hr, hd, rfl⟩
      next => exact Or.inl rfl
  next => exact Or.inl rfl

theorem close_of_none {m : Manager} {id : String} (h : m.get? id = none) (cells : Cells σ)
    (loans : Loans) : m.close cells loans id = ⟨false, m, cells, []⟩ := by
  have hfind : m.held.find? id = none := h
  unfold close
  rw [hfind]

theorem close_of_some {m : Manager} {id : String} {r : RegistryRef} (h : m.get? id = some r)
    (cells : Cells σ) (loans : Loans) :
    ∃ events, m.close cells loans id =
      ⟨true, { m with held := m.held.erase id }, (releaseRegistry cells loans id r).2.1, events⟩ := by
  have hfind : m.held.find? id = some r := h
  unfold close
  rw [hfind]
  exact ⟨_, rfl⟩

namespace Scene

/-! ## Cells -/

/-- What becomes of the registry in a cell: it is still for its document, and its first update is
past if it was before or is taken now. -/
structure Continues (taken : Bool) (before after : SharedRegistry) : Prop where
  document_eq : after.document = before.document
  consumed_eq :
    after.registry.firstUpdateConsumed = (before.registry.firstUpdateConsumed || taken)

theorem Continues.same (shared : SharedRegistry) : Continues false shared shared :=
  ⟨rfl, (Bool.or_false _).symm⟩

-- opening a document adds a registry, or leaves the cells as they are
theorem cells_openDocument (s : Scene σ) (loans : Loans) (d : DocumentRef) :
    (s.apply (.openDocument loans d)).cells = s.cells ∨
      (s.apply (.openDocument loans d)).cells = (s.cells.addRegistry d).2 := by
  unfold apply opening?
  dsimp only
  cases s.cells.documents[d]? with
  | none => exact Or.inl rfl
  | some store =>
    show (s.manager.openDocument s.cells loans d store).cells = _ ∨
      (s.manager.openDocument s.cells loans d store).cells = _
    rcases s.manager.openDocument_cases s.cells loans d store
      with ⟨_, -, heq⟩ | ⟨-, -, heq⟩ | ⟨-, -, heq⟩
    · exact Or.inl (by rw [heq])
    · exact Or.inl (by rw [heq])
    · exact Or.inr (by rw [heq])

-- closing an id lets a registry give up its lines, or leaves the cells as they are
theorem cells_close (s : Scene σ) (loans : Loans) (id : String) :
    (s.apply (.close loans id)).cells = s.cells ∨
      ∃ r shared store, s.cells.registries[r]? = some shared ∧
        s.cells.documents[shared.document]? = some store ∧
        (s.apply (.close loans id)).cells =
          let released := shared.registry.release store
          s.cells.settle r shared.document (released.registry, released.store) := by
  show (s.manager.close s.cells loans id).cells = _ ∨
    ∃ r shared store, _ ∧ _ ∧ (s.manager.close s.cells loans id).cells = _
  cases hget : s.manager.get? id with
  | none =>
    rw [close_of_none hget]
    exact Or.inl rfl
  | some r =>
    obtain ⟨events, heq⟩ := close_of_some hget s.cells loans
    rw [heq]
    rcases cells_releaseRegistry s.cells loans id r with hsame | ⟨shared, store, hr, hd, hrelease⟩
    · exact Or.inl hsame
    · exact Or.inr ⟨r, shared, store, hr, hd, hrelease⟩

-- a document becomes another of its id, or nothing happens
theorem apply_revise (s : Scene σ) (d : DocumentRef) (store : σ) :
    s.apply (.revise d store) = s ∨
      ∃ old, s.cells.documents[d]? = some old ∧
        RangeStore.documentId store = RangeStore.documentId old ∧
        s.apply (.revise d store) = { s with cells := s.cells.setDocument d store } := by
  unfold apply
  dsimp only
  split
  next => exact Or.inl rfl
  next old hd =>
    split
    next hid => exact Or.inr ⟨old, hd, hid, rfl⟩
    next => exact Or.inl rfl

variable {s : Scene σ}

-- a change of registry `q` that leaves its first update alone
omit [RangeStore σ] in
theorem registry_modifyRegistry {c : Cells σ} {r q : RegistryRef} {shared : SharedRegistry}
    (hr : c.registries[r]? = some shared) {change : Registry ListenerRef → Registry ListenerRef}
    (hchange : r = q → (change shared.registry).firstUpdateConsumed =
      shared.registry.firstUpdateConsumed) :
    ∃ shared', (c.modifyRegistry q change).registries[r]? = some shared' ∧
      Continues false shared shared' := by
  rw [Cells.registries_modifyRegistry, hr]
  split
  next hqr => exact ⟨_, rfl, rfl, (hchange hqr.symm).trans (Bool.or_false _).symm⟩
  next => exact ⟨shared, rfl, .same shared⟩

theorem registry_apply {r : RegistryRef} {shared : SharedRegistry}
    (hr : s.cells.registries[r]? = some shared) (h : Happening σ) :
    ∃ shared', (s.apply h).cells.registries[r]? = some shared' ∧
      Continues (h.takes r) shared shared' := by
  cases h with
  | openDocument loans d =>
    rcases s.cells_openDocument loans d with heq | heq <;> rw [heq]
    · exact ⟨shared, hr, .same shared⟩
    · exact ⟨shared, Cells.registries_addRegistry hr d, .same shared⟩
  | get id => exact ⟨shared, hr, .same shared⟩
  | close loans id =>
    rcases s.cells_close loans id with heq | ⟨q, found, store, hq, -, heq⟩ <;> rw [heq]
    · exact ⟨shared, hr, .same shared⟩
    · refine registry_modifyRegistry
        (c := s.cells.setDocument found.document (found.registry.release store).store) hr ?_
      rintro rfl
      cases hr.symm.trans hq
      rfl
  | takeFirstUpdate q =>
    by_cases hqr : q = r
    · subst hqr
      show ∃ shared', (s.cells.modifyRegistry q _).registries[q]? = _ ∧ Continues (q == q) _ _
      rw [Cells.registries_modifyRegistry, if_pos rfl, hr, beq_self_eq_true]
      exact ⟨_, rfl, rfl, (Bool.or_true _).symm⟩
    · have htakes : (Happening.takeFirstUpdate q : Happening σ).takes r = false := beq_false_of_ne hqr
      rw [htakes]
      exact registry_modifyRegistry hr fun hrq => absurd hrq.symm hqr
  | tend q records listeners => exact registry_modifyRegistry hr fun _ => rfl
  | revise d store =>
    rcases s.apply_revise d store with heq | ⟨old, -, -, heq⟩ <;> rw [heq] <;>
      exact ⟨shared, hr, .same shared⟩
  | makeDocument store => exact ⟨shared, hr, .same shared⟩
  | makeRegistry d => exact ⟨shared, Cells.registries_addRegistry hr d, .same shared⟩

-- the document that a registry is for never changes
theorem registry_after {r : RegistryRef} {shared : SharedRegistry}
    (hr : s.cells.registries[r]? = some shared) (run : List (Happening σ)) :
    ∃ shared', (s.after run).cells.registries[r]? = some shared' ∧
      shared'.document = shared.document := by
  induction run generalizing s shared with
  | nil => exact ⟨shared, hr, rfl⟩
  | cons h rest ih =>
    obtain ⟨shared', hr', hcontinues⟩ := registry_apply hr h
    obtain ⟨shared'', hr'', hdocument⟩ := ih hr'
    exact ⟨shared'', hr'', hdocument.trans hcontinues.document_eq⟩

section Documents

variable (hdelete : ∀ (store : σ) (handle : Handle),
  RangeStore.documentId (RangeStore.delete store handle).2 = RangeStore.documentId store)

include hdelete

theorem documentId_deleteAll (store : σ) (handles : List Handle) :
    RangeStore.documentId (Registry.deleteAll store handles).2 = RangeStore.documentId store := by
  induction handles generalizing store with
  | nil => rfl
  | cons handle rest ih => exact (ih _).trans (hdelete store handle)

theorem document_apply {d : DocumentRef} {store : σ} (hd : s.cells.documents[d]? = some store)
    (h : Happening σ) :
    ∃ store', (s.apply h).cells.documents[d]? = some store' ∧
      RangeStore.documentId store' = RangeStore.documentId store := by
  cases h with
  | openDocument loans e =>
    rcases s.cells_openDocument loans e with heq | heq <;> rw [heq] <;> exact ⟨store, hd, rfl⟩
  | get id => exact ⟨store, hd, rfl⟩
  | close loans id =>
    rcases s.cells_close loans id with heq | ⟨q, found, other, -, he, heq⟩ <;> rw [heq]
    · exact ⟨store, hd, rfl⟩
    · refine ⟨_, Cells.documents_settle hd _, ?_⟩
      split
      next hde =>
        subst hde
        cases hd.symm.trans he
        exact documentId_deleteAll hdelete store _
      next => rfl
  | takeFirstUpdate r => exact ⟨store, hd, rfl⟩
  | tend r records listeners => exact ⟨store, hd, rfl⟩
  | revise e other =>
    rcases s.apply_revise e other with heq | ⟨old, he, hid, heq⟩ <;> rw [heq]
    · exact ⟨store, hd, rfl⟩
    · refine ⟨_, Cells.document_setDocument hd other, ?_⟩
      split
      next hde =>
        subst hde
        cases hd.symm.trans he
        exact hid
      next => rfl
  | makeDocument other =>
    have hlt : d < s.cells.documents.length := (List.getElem?_eq_some_iff.1 hd).1
    exact ⟨store, (List.getElem?_append_left hlt).trans hd, rfl⟩
  | makeRegistry e => exact ⟨store, hd, rfl⟩

theorem document_after {d : DocumentRef} {store : σ} (hd : s.cells.documents[d]? = some store)
    (run : List (Happening σ)) :
    ∃ store', (s.after run).cells.documents[d]? = some store' ∧
      RangeStore.documentId store' = RangeStore.documentId store := by
  induction run generalizing s store with
  | nil => exact ⟨store, hd, rfl⟩
  | cons h rest ih =>
    obtain ⟨store', hd', hid⟩ := document_apply hdelete hd h
    obtain ⟨store'', hd'', hid'⟩ := ih hd'
    exact ⟨store'', hd'', hid'.trans hid⟩

end Documents

/-! ## The manager -/

/-- The document in cell `d` is not held under its id, and there is room for it. -/
structure Admits (s : Scene σ) (d : DocumentRef) (store : σ) : Prop where
  document_eq : s.cells.documents[d]? = some store
  get?_eq : s.manager.get? (RangeStore.documentId store) = none
  size_lt : s.manager.size < s.manager.maxDocuments

-- then opening it makes a registry
theorem Admits.apply_eq {d : DocumentRef} {store : σ} (h : s.Admits d store) (loans : Loans) :
    s.apply (.openDocument loans d) =
      ⟨{ s.manager with
          held := s.manager.held.insert (RangeStore.documentId store) s.cells.registries.length },
        (s.cells.addRegistry d).2⟩ := by
  unfold apply opening?
  dsimp only
  rw [h.document_eq]
  show (⟨(s.manager.openDocument s.cells loans d store).manager, _⟩ : Scene σ) = _
  rcases s.manager.openDocument_cases s.cells loans d store
    with ⟨r, hget, -⟩ | ⟨-, hfull, -⟩ | ⟨-, -, heq⟩
  · cases h.get?_eq.symm.trans hget
  · exact absurd h.size_lt (Nat.not_lt.2 hfull)
  · rw [heq]

theorem Admits.get?_apply {d : DocumentRef} {store : σ} (h : s.Admits d store) (loans : Loans)
    (id : String) :
    (s.apply (.openDocument loans d)).manager.get? id =
      if id = RangeStore.documentId store then some s.cells.registries.length
      else s.manager.get? id := by
  rw [h.apply_eq]
  exact Table.find?_insert ..

-- opening answers the registry that is held, or is refused for want of room, or makes a registry
theorem opening?_cases {d : DocumentRef} {store : σ} (hd : s.cells.documents[d]? = some store)
    (loans : Loans) :
    (∃ r events, s.manager.get? (RangeStore.documentId store) = some r ∧
      s.opening? loans d = some ⟨.ok r, s.manager, s.cells, events⟩) ∨
    (s.manager.get? (RangeStore.documentId store) = none ∧
      s.manager.maxDocuments ≤ s.manager.size ∧
      s.opening? loans d =
        some ⟨.error (.documentLimit s.manager.size s.manager.maxDocuments), s.manager, s.cells,
          []⟩) ∨
    (s.Admits d store ∧ ∃ events, s.opening? loans d =
      some ⟨.ok s.cells.registries.length, (s.apply (.openDocument loans d)).manager,
        (s.cells.addRegistry d).2, events⟩) := by
  have hopening : s.opening? loans d = some (s.manager.openDocument s.cells loans d store) := by
    unfold opening?
    rw [hd]
    rfl
  rw [hopening]
  rcases s.manager.openDocument_cases s.cells loans d store
    with ⟨r, hget, heq⟩ | ⟨hget, hfull, heq⟩ | ⟨hget, hroom, heq⟩
  · exact Or.inl ⟨r, _, hget, congrArg some heq⟩
  · exact Or.inr (Or.inl ⟨hget, hfull, congrArg some heq⟩)
  · have hadmits : s.Admits d store := ⟨hd, hget, hroom⟩
    refine Or.inr (Or.inr ⟨hadmits, ?_⟩)
    rw [hadmits.apply_eq]
    exact ⟨_, congrArg some heq⟩

-- only opening a document that is admitted and closing one that is held change the manager
theorem manager_apply (s : Scene σ) (h : Happening σ) :
    (s.apply h).manager = s.manager ∨
      (∃ loans d store, h = .openDocument loans d ∧ s.Admits d store) ∨
      ∃ loans id, h = .close loans id ∧
        (s.apply h).manager = { s.manager with held := s.manager.held.erase id } := by
  cases h with
  | openDocument loans d =>
    cases hd : s.cells.documents[d]? with
    | none =>
      have hopening : s.opening? loans d = none := by
        unfold opening?
        rw [hd]
        rfl
      unfold apply
      dsimp only
      rw [hopening]
      exact Or.inl rfl
    | some store =>
      rcases s.opening?_cases hd loans with ⟨r, events, -, heq⟩ | ⟨-, -, heq⟩ | ⟨hadmits, -⟩
      · left
        unfold apply
        dsimp only
        rw [heq]
      · left
        unfold apply
        dsimp only
        rw [heq]
      · exact Or.inr (Or.inl ⟨loans, d, store, rfl, hadmits⟩)
  | close loans id =>
    cases hget : s.manager.get? id with
    | none =>
      left
      show (s.manager.close s.cells loans id).manager = _
      rw [close_of_none hget]
    | some r =>
      obtain ⟨events, heq⟩ := close_of_some hget s.cells loans
      refine Or.inr (Or.inr ⟨loans, id, rfl, ?_⟩)
      show (s.manager.close s.cells loans id).manager = _
      rw [heq]
  | revise d store =>
    left
    rcases s.apply_revise d store with heq | ⟨old, -, -, heq⟩ <;> rw [heq]
  | get id => exact Or.inl rfl
  | takeFirstUpdate r => exact Or.inl rfl
  | tend r records listeners => exact Or.inl rfl
  | makeDocument store => exact Or.inl rfl
  | makeRegistry d => exact Or.inl rfl

theorem get?_close (s : Scene σ) (loans : Loans) (id other : String) :
    (s.apply (.close loans id)).manager.get? other =
      if other = id then none else s.manager.get? other := by
  show (s.manager.close s.cells loans id).manager.get? other = _
  cases hget : s.manager.get? id with
  | none =>
    rw [close_of_none hget]
    split
    next hid => rw [hid, hget]
    next => rfl
  | some r =>
    obtain ⟨events, heq⟩ := close_of_some hget s.cells loans
    rw [heq]
    exact Table.find?_erase ..

/-! ## Runs -/

/-- The manager holds each id once, and not more of them than it may. -/
structure Within (n : Nat) (s : Scene σ) : Prop where
  maxDocuments_eq : s.manager.maxDocuments = n
  size_le : s.manager.size ≤ n
  nodup_keys : s.manager.held.keys.Nodup

theorem Within.apply {n : Nat} (hs : s.Within n) (h : Happening σ) : (s.apply h).Within n := by
  rcases s.manager_apply h with heq | ⟨loans, d, store, rfl, hadmits⟩ | ⟨loans, id, rfl, heq⟩
  · exact ⟨heq ▸ hs.maxDocuments_eq, heq ▸ hs.size_le, heq ▸ hs.nodup_keys⟩
  · rw [hadmits.apply_eq]
    refine ⟨hs.maxDocuments_eq, ?_, Table.nodup_keys_insert hs.nodup_keys _ _⟩
    show (s.manager.held.insert _ _).size ≤ n
    rw [Table.size_insert_of_none hadmits.get?_eq]
    have hlt := hadmits.size_lt
    rw [hs.maxDocuments_eq] at hlt
    exact hlt
  · constructor
    · rw [heq]
      exact hs.maxDocuments_eq
    · rw [heq]
      exact Nat.le_trans (Table.size_erase_le ..) hs.size_le
    · rw [heq]
      exact Table.nodup_keys_erase hs.nodup_keys id

theorem Within.after {n : Nat} (hs : s.Within n) (run : List (Happening σ)) :
    (s.after run).Within n := by
  induction run generalizing s with
  | nil => exact hs
  | cons h rest ih => exact ih (hs.apply h)

-- what is held stays held until it is closed
theorem get?_apply {id : String} {r : RegistryRef} (hget : s.manager.get? id = some r)
    {h : Happening σ} (hopen : ∀ loans, h ≠ .close loans id) :
    (s.apply h).manager.get? id = some r := by
  rcases s.manager_apply h with heq | ⟨loans, d, store, rfl, hadmits⟩ | ⟨loans, other, rfl, -⟩
  · rw [heq]
    exact hget
  · rw [hadmits.get?_apply, if_neg]
    · exact hget
    · rintro rfl
      cases hadmits.get?_eq.symm.trans hget
  · rw [get?_close, if_neg]
    · exact hget
    · rintro rfl
      exact hopen loans rfl

theorem get?_after {id : String} {r : RegistryRef} (hget : s.manager.get? id = some r)
    {run : List (Happening σ)} (hopen : ∀ loans, .close loans id ∉ run) :
    (s.after run).manager.get? id = some r := by
  induction run generalizing s with
  | nil => exact hget
  | cons h rest ih =>
    refine ih (get?_apply hget ?_) fun loans hmem => hopen loans (List.mem_cons_of_mem h hmem)
    rintro loans rfl
    exact hopen loans List.mem_cons_self

/-- During the run, the registry `r` was made when a document was opened under the id, and the id was
not closed since. -/
structure Made (start : Scene σ) (run : List (Happening σ)) (id : String) (r : RegistryRef)
    (before : List (Happening σ)) (loans : Loans) (d : DocumentRef) (store : σ)
    (since : List (Happening σ)) : Prop where
  run_eq : run = before ++ .openDocument loans d :: since
  admits : (start.after before).Admits d store
  documentId_eq : RangeStore.documentId store = id
  registry_eq : r = (start.after before).cells.registries.length
  not_closed : ∀ loans, .close loans id ∉ since

-- every registry that is held was made by an opening of the run
theorem exists_made {start : Scene σ} (hstart : start.manager.held = .empty)
    (run : List (Happening σ)) {id : String} {r : RegistryRef}
    (hget : (start.after run).manager.get? id = some r) :
    ∃ before loans d store since, start.Made run id r before loans d store since := by
  induction run using List.reverseRecOn with
  | nil =>
    change start.manager.held.find? id = some r at hget
    rw [hstart] at hget
    cases hget
  | append_singleton run h ih =>
    rw [after_snoc] at hget
    have hopen : ∀ loans, h ≠ .close loans id := by
      rintro loans rfl
      rw [get?_close, if_pos rfl] at hget
      cases hget
    -- unless it is made now, it was held before
    have hold : (start.after run).manager.get? id = some r →
        ∃ before loans d store since, start.Made (run ++ [h]) id r before loans d store since := by
      intro hheld
      obtain ⟨before, loans, d, store, since, hmade⟩ := ih hheld
      refine ⟨before, loans, d, store, since ++ [h], ?_, hmade.admits, hmade.documentId_eq,
        hmade.registry_eq, ?_⟩
      · rw [hmade.run_eq, List.append_assoc, List.cons_append]
      · intro loans hmem
        rcases List.mem_append.1 hmem with hmem | hmem
        · exact hmade.not_closed loans hmem
        · exact hopen loans (List.mem_singleton.1 hmem).symm
    rcases (start.after run).manager_apply h
      with heq | ⟨loans, d, store, rfl, hadmits⟩ | ⟨loans, other, rfl, -⟩
    · rw [heq] at hget
      exact hold hget
    · rw [hadmits.get?_apply] at hget
      split at hget
      next hid =>
        cases hget
        exact ⟨run, loans, d, store, [], rfl, hadmits, hid.symm, rfl, fun _ => List.not_mem_nil⟩
      next => exact hold hget
    · rw [get?_close] at hget
      split at hget
      next => cases hget
      next => exact hold hget

namespace Made

variable {start : Scene σ} {run before since : List (Happening σ)} {id : String} {r : RegistryRef}
  {loans : Loans} {d : DocumentRef} {store : σ}
  (h : start.Made run id r before loans d store since)

include h

theorem after_eq :
    start.after run = ((start.after before).apply (.openDocument loans d)).after since := by
  rw [h.run_eq, after_append]
  rfl

theorem get?_opened :
    ((start.after before).apply (.openDocument loans d)).manager.get? id = some r := by
  rw [h.admits.get?_apply, if_pos h.documentId_eq.symm, h.registry_eq]

theorem registry_opened :
    ((start.after before).apply (.openDocument loans d)).cells.registries[r]? =
      some ⟨.empty, d⟩ := by
  rw [h.admits.apply_eq, h.registry_eq]
  exact Cells.registries_addRegistry_length _ d

theorem get?_eq : (start.after run).manager.get? id = some r := by
  rw [h.after_eq]
  exact get?_after h.get?_opened h.not_closed

-- the registry is still the one for the document that was opened then
theorem registry_kept :
    ∃ shared, (start.after run).cells.registries[r]? = some shared ∧ shared.document = d := by
  rw [h.after_eq]
  exact registry_after h.registry_opened since

theorem document_kept (hdelete : ∀ (store : σ) (handle : Handle),
    RangeStore.documentId (RangeStore.delete store handle).2 = RangeStore.documentId store) :
    ∃ now, (start.after run).cells.documents[d]? = some now ∧ RangeStore.documentId now = id := by
  have hd : ((start.after before).apply (.openDocument loans d)).cells.documents[d]? =
      some store := by
    rw [h.admits.apply_eq]
    exact h.admits.document_eq
  obtain ⟨now, hnow, hid⟩ := document_after hdelete hd since
  rw [h.after_eq]
  exact ⟨now, hnow, hid.trans h.documentId_eq⟩

end Made

/-! ## First updates -/

theorem firstUpdates_of_consumed {r : RegistryRef} {shared : SharedRegistry}
    (hr : s.cells.registries[r]? = some shared)
    (hconsumed : shared.registry.firstUpdateConsumed = true) (run : List (Happening σ)) :
    ∃ k, s.firstUpdates r run = List.replicate k false := by
  induction run generalizing s shared with
  | nil => exact ⟨0, rfl⟩
  | cons h rest ih =>
    obtain ⟨shared', hr', hcontinues⟩ := registry_apply hr h
    obtain ⟨k, hk⟩ := ih hr' (by rw [hcontinues.consumed_eq, hconsumed]; rfl)
    unfold firstUpdates
    dsimp only
    rw [hr, hk]
    split
    next heq =>
      cases heq
      refine ⟨k + 1, ?_⟩
      show (!shared.registry.firstUpdateConsumed) :: _ = _
      rw [hconsumed]
      rfl
    next => exact ⟨k, rfl⟩

-- the first one who asks is told that it is the first update, and nobody else is
theorem firstUpdates_of_fresh {r : RegistryRef} {shared : SharedRegistry}
    (hr : s.cells.registries[r]? = some shared)
    (hfresh : shared.registry.firstUpdateConsumed = false) (run : List (Happening σ)) :
    s.firstUpdates r run = [] ∨ ∃ k, s.firstUpdates r run = true :: List.replicate k false := by
  induction run generalizing s shared with
  | nil => exact Or.inl rfl
  | cons h rest ih =>
    obtain ⟨shared', hr', hcontinues⟩ := registry_apply hr h
    have hconsumed := hcontinues.consumed_eq
    rw [hfresh, Bool.false_or] at hconsumed
    unfold firstUpdates
    dsimp only
    rw [hr]
    cases htakes : h.takes r with
    | true =>
      obtain ⟨k, hk⟩ := firstUpdates_of_consumed hr' (hconsumed.trans htakes) rest
      refine Or.inr ⟨k, ?_⟩
      show (!shared.registry.firstUpdateConsumed) :: _ = _
      rw [hfresh, hk]
      rfl
    | false => exact ih hr' (hconsumed.trans htakes)

/-! ## The contract -/

theorem mem_documentIds_iff {m : Manager} {id : String} :
    id ∈ m.documentIds ↔ ∃ r, m.get? id = some r := by
  rw [documentIds, List.mem_mergeSort]
  exact Table.mem_keys_iff

theorem pairwise_documentIds {m : Manager} (hnodup : m.held.keys.Nodup) :
    m.documentIds.Pairwise fun a b => Text.bytes a < Text.bytes b := by
  have hsorted : m.documentIds.Pairwise fun a b => Text.byteLe a b = true :=
    List.pairwise_mergeSort Text.byteLe_trans Text.byteLe_total _
  have hdistinct : m.documentIds.Nodup := (List.mergeSort_perm _ _).nodup_iff.2 hnodup
  refine (hsorted.and hdistinct).imp ?_
  rintro a b ⟨hle, hne⟩
  exact Std.lt_of_le_of_ne (of_decide_eq_true hle) fun heq => hne (Text.bytes_inj.1 heq)

-- the ids held are those that were opened, with any answer but a refusal, and not closed since
theorem mem_documentIds_after_iff {start : Scene σ} (hstart : start.manager.held = .empty)
    (run : List (Happening σ)) (id : String) :
    id ∈ (start.after run).manager.documentIds ↔
      ∃ before loans d since store r opened, run = before ++ .openDocument loans d :: since ∧
        (start.after before).cells.documents[d]? = some store ∧
        RangeStore.documentId store = id ∧
        (start.after before).opening? loans d = some opened ∧ opened.result = .ok r ∧
        ∀ loans, .close loans id ∉ since := by
  rw [mem_documentIds_iff]
  constructor
  · rintro ⟨r, hget⟩
    obtain ⟨before, loans, d, store, since, hmade⟩ := exists_made hstart run hget
    have hd := hmade.admits.document_eq
    rcases opening?_cases hd loans with ⟨q, _, hheld, -⟩ | ⟨-, hfull, -⟩ | ⟨-, _, hopened⟩
    · cases hmade.admits.get?_eq.symm.trans hheld
    · exact absurd hmade.admits.size_lt (Nat.not_lt.2 hfull)
    · exact ⟨before, loans, d, since, store, _, _, hmade.run_eq, hd, hmade.documentId_eq, hopened,
        rfl, hmade.not_closed⟩
  · rintro ⟨before, loans, d, since, store, r, opened, rfl, hd, rfl, hopened, hresult, hopen⟩
    have happly : (start.after before).apply (.openDocument loans d) =
        ⟨opened.manager, opened.cells⟩ := by
      unfold apply
      dsimp only
      rw [hopened]
    have hget : opened.manager.get? (RangeStore.documentId store) = some r := by
      rcases opening?_cases hd loans with ⟨q, _, hheld, heq⟩ | ⟨-, -, heq⟩ | ⟨hadmits, _, heq⟩
      · cases Option.some.inj (hopened.symm.trans heq)
        cases hresult
        exact hheld
      · cases Option.some.inj (hopened.symm.trans heq)
        cases hresult
      · cases Option.some.inj (hopened.symm.trans heq)
        cases hresult
        exact (hadmits.get?_apply loans _).trans (if_pos rfl)
    refine ⟨r, ?_⟩
    rw [after_append]
    show (((start.after before).apply (.openDocument loans d)).after since).manager.get? _ = _
    rw [happly]
    exact get?_after hget hopen

/-- A manager that may hold `n` documents, after any run: it holds at most `n`, lists their ids in
strict byte order, and these are the ids that were opened and not closed since. Whatever is held was
made by an opening under its id, for the very document that was opened, which still has that id.
Opening a held id answers the same registry and changes nothing; opening another one is refused
exactly if `n` are held, changing nothing, and else makes a registry with nothing in it. Closing
tells whether the id was held, and then it is not, while the others are. And from the opening that
made it on, a registry is handed out again as long as its id is not closed, and tells the first who
asks, and nobody else, that it is the first update. -/
theorem contract_of_run
    (hdelete : ∀ (store : σ) (handle : Handle),
      RangeStore.documentId (RangeStore.delete store handle).2 = RangeStore.documentId store)
    (n : Nat) (cells : Cells σ) (run : List (Happening σ)) :
    let start : Scene σ := ⟨.ofLimit n, cells⟩
    let s := start.after run
    s.manager.size ≤ n ∧
    (s.manager.documentIds.Pairwise fun a b => Text.bytes a < Text.bytes b) ∧
    (∀ id, id ∈ s.manager.documentIds ↔
      ∃ before loans d since store r opened, run = before ++ .openDocument loans d :: since ∧
        (start.after before).cells.documents[d]? = some store ∧
        RangeStore.documentId store = id ∧
        (start.after before).opening? loans d = some opened ∧ opened.result = .ok r ∧
        ∀ loans, .close loans id ∉ since) ∧
    (∀ id r, s.manager.get? id = some r → ∃ before loans d store since,
      start.Made run id r before loans d store since ∧
      (∃ shared, s.cells.registries[r]? = some shared ∧ shared.document = d) ∧
      ∃ now, s.cells.documents[d]? = some now ∧ RangeStore.documentId now = id) ∧
    (∀ loans d store, s.cells.documents[d]? = some store →
      let id := RangeStore.documentId store
      (∀ r, s.manager.get? id = some r →
        ∃ events, s.opening? loans d = some ⟨.ok r, s.manager, s.cells, events⟩) ∧
      (s.manager.get? id = none → s.manager.size = n →
        s.opening? loans d = some ⟨.error (.documentLimit n n), s.manager, s.cells, []⟩) ∧
      (s.manager.get? id = none → s.manager.size ≠ n →
        let r := s.cells.registries.length
        ∃ manager events,
          s.opening? loans d =
            some ⟨.ok r, manager,
              { s.cells with registries := s.cells.registries ++ [⟨.empty, d⟩] }, events⟩ ∧
          ∀ other, manager.get? other = if other = id then some r else s.manager.get? other)) ∧
    (∀ loans id,
      let closed := s.manager.close s.cells loans id
      (closed.found = true ↔ ∃ r, s.manager.get? id = some r) ∧
      ∀ other, closed.manager.get? other = if other = id then none else s.manager.get? other) ∧
    (∀ id r before loans d store since, start.Made run id r before loans d store since →
      s.manager.get? id = some r ∧
      let answers := ((start.after before).apply (.openDocument loans d)).firstUpdates r since
      answers = [] ∨ ∃ k, answers = true :: List.replicate k false) := by
  intro start s
  have hstart : start.Within n := ⟨rfl, Nat.zero_le n, List.nodup_nil⟩
  have hwithin : s.Within n := hstart.after run
  refine ⟨hwithin.size_le, pairwise_documentIds hwithin.nodup_keys,
    mem_documentIds_after_iff rfl run, ?_, ?_, ?_, ?_⟩
  · intro id r hget
    obtain ⟨before, loans, d, store, since, hmade⟩ := exists_made rfl run hget
    exact ⟨before, loans, d, store, since, hmade, hmade.registry_kept, hmade.document_kept hdelete⟩
  · intro loans d store hd
    have hmax := hwithin.maxDocuments_eq
    rcases s.opening?_cases hd loans
      with ⟨r, events, hget, heq⟩ | ⟨hget, hfull, heq⟩ | ⟨hadmits, events, heq⟩
    · refine ⟨?_, ?_, ?_⟩
      · intro r' hget'
        cases hget.symm.trans hget'
        exact ⟨events, heq⟩
      · intro hnone
        cases hget.symm.trans hnone
      · intro hnone
        cases hget.symm.trans hnone
    · rw [hmax] at hfull heq
      have hsize : s.manager.size = n := Nat.le_antisymm hwithin.size_le hfull
      refine ⟨?_, ?_, ?_⟩
      · intro r hget'
        cases hget.symm.trans hget'
      · intro _ _
        rw [heq, hsize]
      · exact fun _ hne => absurd hsize hne
    · refine ⟨?_, ?_, ?_⟩
      · intro r hget'
        cases hadmits.get?_eq.symm.trans hget'
      · intro _ hsize
        have hlt := hadmits.size_lt
        rw [hmax, hsize] at hlt
        exact absurd hlt (Nat.lt_irrefl n)
      · exact fun _ _ => ⟨_, events, heq, hadmits.get?_apply loans⟩
  · intro loans id
    refine ⟨?_, s.get?_close loans id⟩
    cases hget : s.manager.get? id with
    | none =>
      rw [close_of_none hget]
      exact iff_of_false Bool.false_ne_true fun ⟨_, h⟩ => nomatch h
    | some r =>
      obtain ⟨events, heq⟩ := close_of_some hget s.cells loans
      rw [heq]
      exact iff_of_true rfl ⟨r, rfl⟩
  · intro id r before loans d store since hmade
    exact ⟨hmade.get?_eq, firstUpdates_of_fresh hmade.registry_opened rfl since⟩

-- buffers and scripted stores keep their id
theorem documentId_delete (store : Document) (handle : Handle) :
    RangeStore.documentId (RangeStore.delete store handle).2 = RangeStore.documentId store := by
  cases store <;> rfl

/-- Two stores of one id, a buffer and a scripted store, and one more document. -/
def twins : Cells Document :=
  ⟨[.buffer (.ofText "a" ['x']), .scripted ⟨"a", 1, 1, [], 0, 1, false, none, false⟩,
    .buffer (.ofText "b" [])], []⟩

-- the id of the twins is opened through both of them, closed, and opened through the second
def reopening : List (Happening Document) :=
  [.openDocument [] 0, .takeFirstUpdate 0, .openDocument [] 1, .takeFirstUpdate 0, .close [] "a",
    .openDocument [] 1]

-- until the id is closed, the first registry is handed out, and tells once of a first update
theorem made_twins :
    Made ⟨.ofLimit 1, twins⟩ (reopening.take 4) "a" 0 [] [] 0 (.buffer (.ofText "a" ['x']))
      [.takeFirstUpdate 0, .openDocument [] 1, .takeFirstUpdate 0] where
  run_eq := rfl
  admits := ⟨rfl, rfl, Nat.zero_lt_one⟩
  documentId_eq := rfl
  registry_eq := rfl
  not_closed loans h := by simp at h

/-- There is room for one document: the registry made last, for the scripted store, is handed out
through the buffer too, and the other document is refused. -/
theorem twins_reopened :
    let start : Scene Document := ⟨.ofLimit 1, twins⟩
    let s := start.after reopening
    ((start.after (reopening.take 4)).manager.get? "a" = some 0 ∧
      (start.apply (.openDocument [] 0)).firstUpdates 0
        [.takeFirstUpdate 0, .openDocument [] 1, .takeFirstUpdate 0] = [true, false]) ∧
    (∃ events, s.opening? [] 0 = some ⟨.ok 1, s.manager, s.cells, events⟩) ∧
    s.opening? [] 2 = some ⟨.error (.documentLimit 1 1), s.manager, s.cells, []⟩ ∧
    ∃ shared, s.cells.registries[1]? = some shared ∧ shared.document = 1 := by
  intro start s
  obtain ⟨-, -, -, -, -, -, hanswers⟩ :=
    contract_of_run documentId_delete 1 twins (reopening.take 4)
  obtain ⟨-, -, -, -, hopening, -, -⟩ := contract_of_run documentId_delete 1 twins reopening
  obtain ⟨hheld, -⟩ := hanswers _ _ _ _ _ _ _ made_twins
  obtain ⟨first, hfirst, hid⟩ :
      ∃ store, s.cells.documents[0]? = some store ∧ RangeStore.documentId store = "a" := by
    apply Option.map_eq_some_iff.1
    decide +kernel
  obtain ⟨third, hthird, hid'⟩ :
      ∃ store, s.cells.documents[2]? = some store ∧ RangeStore.documentId store = "b" := by
    apply Option.map_eq_some_iff.1
    decide +kernel
  refine ⟨⟨hheld, by decide +kernel⟩, ?_, ?_, ?_⟩
  · obtain ⟨hagain, -⟩ := hopening [] 0 first hfirst
    exact hagain 1 (by rw [hid]; decide +kernel)
  · obtain ⟨-, hrefused, -⟩ := hopening [] 2 third hthird
    exact hrefused (by rw [hid']; decide +kernel) (by decide +kernel)
  · apply Option.map_eq_some_iff.1
    decide +kernel

end Scene
end StickyScroll.Manager
