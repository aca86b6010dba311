import StickyScroll.Cells
import StickyScroll.Text.Order

/-!
# Managers

A manager holds the registries of the open documents, one for each document id and not more than it
is configured for. It makes a registry when its document is first asked for, hands out the same one
afterwards, and forgets it when the document is closed; then the registry gives up its lines, unless
the registry or its document is in use at that moment.
-/

namespace StickyScroll

/-- The registries that are held, by document id, and how many there may be. -/
structure Manager where
  maxDocuments : Nat
  held : Table String RegistryRef

namespace Manager

/-- The number of documents that a manager may hold if nothing else is asked for. -/
def defaultLimit : Nat := 256

def ofLimit (maxDocuments : Nat) : Manager := ⟨maxDocuments, .empty⟩

def get? (m : Manager) (id : String) : Option RegistryRef := m.held.find? id

theorem get?_erase (m : Manager) (id other : String) :
    ({ m with held := m.held.erase id } : Manager).get? other =
      if other = id then none else m.get? other :=
  Table.find?_erase m.held id other

theorem get?_insert (m : Manager) (id other : String) (r : RegistryRef) :
    ({ m with held := m.held.insert id r } : Manager).get? other =
      if other = id then some r else m.get? other :=
  Table.find?_insert m.held id other r

def size (m : Manager) : Nat := m.held.size

def documentIds (m : Manager) : List String := m.held.keys.mergeSort Text.byteLe

/-- What opening a document leaves, and what it reports. -/
structure Opened (σ : Type) where
  result : Except Fault RegistryRef
  manager : Manager
  cells : Cells σ
  events : List Event

/-- Asking for a held registry through another document of that id is worth a warning. It is seen
only when the registry can be looked into. -/
def openEvents {σ : Type} (cells : Cells σ) (loans : Loans) (d : DocumentRef) (id : String)
    (r : RegistryRef) : List Event :=
  match cells.registries[r]? with
  | some shared =>
      if loans.permit (.registry r) .read && shared.document != d then [.otherStore id] else []
  | none => []

/-- The registry for the document in cell `d`, whose contents are `store`: the one that is held for
its id, or a new one if there is room for it. -/
def openDocument {σ : Type} [RangeStore σ] (m : Manager) (cells : Cells σ) (loans : Loans)
    (d : DocumentRef) (store : σ) : Opened σ :=
  let id := RangeStore.documentId store
  match m.held.find? id with
  | some r => ⟨.ok r, m, cells, openEvents cells loans d id r⟩
  | none =>
      if m.maxDocuments ≤ m.size then
        ⟨.error (.documentLimit m.size m.maxDocuments), m, cells, []⟩
      else
        let (r, cells) := cells.addRegistry d
        let m := { m with held := m.held.insert id r }
        ⟨.ok r, m, cells, [.registryCreated id m.size]⟩

-- opening a document answers the registry that is held, is refused when there is no room, or holds
-- a new registry
theorem openDocument_cases {σ : Type} [RangeStore σ] (m : Manager) (cells : Cells σ)
    (loans : Loans) (d : DocumentRef) (store : σ) :
    let id := RangeStore.documentId store
    (∃ r, m.get? id = some r ∧
      m.openDocument cells loans d store = ⟨.ok r, m, cells, openEvents cells loans d id r⟩) ∨
    (m.get? id = none ∧ m.maxDocuments ≤ m.size ∧
      m.openDocument cells loans d store =
        ⟨.error (.documentLimit m.size m.maxDocuments), m, cells, []⟩) ∨
    (m.get? id = none ∧ m.size < m.maxDocuments ∧
      m.openDocument cells loans d store =
        let m' : Manager := { m with held := m.held.insert id cells.registries.length }
        ⟨.ok cells.registries.length, m', (cells.addRegistry d).2,
          [.registryCreated id m'.size]⟩) := by
  have hfind : m.held.find? (RangeStore.documentId store) =
      m.get? (RangeStore.documentId store) := rfl
  unfold openDocument
  dsimp only
  rw [hfind]
  cases hget : m.get? (RangeStore.documentId store) with
  | some r => exact Or.inl ⟨r, rfl, rfl⟩
  | none =>
    by_cases hfull : m.maxDocuments ≤ m.size
    · exact Or.inr (Or.inl ⟨rfl, hfull, if_pos hfull⟩)
    · exact Or.inr (Or.inr ⟨rfl, Nat.lt_of_not_le hfull, if_neg hfull⟩)

/-- What closing a document leaves, and what it reports. -/
structure Closed (σ : Type) where
  -- the document was held
  found : Bool
  manager : Manager
  cells : Cells σ
  events : List Event

/-- Lets a registry give up its lines, if it and its document are free; counts the anchors that were
given up. -/
def releaseRegistry {σ : Type} [RangeStore σ] (cells : Cells σ) (loans : Loans) (id : String)
    (r : RegistryRef) : Nat × Cells σ × List Event :=
  if loans.permit (.registry r) .write then
    match cells.registries[r]? with
    | none => (0, cells, [])
    | some shared =>
        let isFree := loans.permit (.document shared.document) .write
        match isFree, cells.documents[shared.document]? with
        | true, some store =>
            let released := shared.registry.release store
            (released.value,
              cells.settle r shared.document (released.registry, released.store),
              released.events)
        | _, _ => (0, cells, [.storeBusy shared.registry.records.size])
  else (0, cells, [.registryBusy id])

-- forgets the registry of a document id, and lets it give up its lines
def close {σ : Type} [RangeStore σ] (m : Manager) (cells : Cells σ) (loans : Loans) (id : String) :
    Closed σ :=
  match m.held.find? id with
  | none => ⟨false, m, cells, []⟩
  | some r =>
      let (released, cells, events) := releaseRegistry cells loans id r
      ⟨true, { m with held := m.held.erase id }, cells, events ++ [.registryClosed id released]⟩

end Manager
end StickyScroll
