import StickyScroll.Registry

/-!
# Shared cells

Documents and registries are shared: several names may lead to one of them, and a registry leads to
the document that it was made for. Each lives in a cell of its own, known by its place in the list
of all cells, so that "the very same" is a question about places and not about contents.

While a cell is in use it is on loan: for reading, which others may do too, or for writing, which
excludes everybody else. Loans are nested like calls, so the loans that stand at a moment are a
list that is handed down.
-/

namespace StickyScroll

abbrev DocumentRef := Nat

abbrev RegistryRef := Nat

abbrev ListenerRef := Nat

/-- A registry and the document it was made for. -/
structure SharedRegistry where
  registry : Registry ListenerRef
  document : DocumentRef

/-- All documents and registries there are. -/
structure Cells (σ : Type) where
  documents : List σ
  registries : List SharedRegistry

namespace Cells

variable {σ : Type}

def empty : Cells σ := ⟨[], []⟩

def addDocument (c : Cells σ) (document : σ) : DocumentRef × Cells σ :=
  (c.documents.length, { c with documents := c.documents ++ [document] })

def addRegistry (c : Cells σ) (document : DocumentRef) : RegistryRef × Cells σ :=
  (c.registries.length, { c with registries := c.registries ++ [⟨.empty, document⟩] })

def setDocument (c : Cells σ) (d : DocumentRef) (document : σ) : Cells σ :=
  { c with documents := c.documents.set d document }

-- changes the registry in a cell; the document that it was made for stays
def modifyRegistry (c : Cells σ) (r : RegistryRef)
    (change : Registry ListenerRef → Registry ListenerRef) : Cells σ :=
  { c with
    registries := c.registries.modify r fun shared =>
      { shared with registry := change shared.registry } }

-- puts back what an operation left of a registry and its document
def settle (c : Cells σ) (r : RegistryRef) (d : DocumentRef) (left : Registry ListenerRef × σ) :
    Cells σ :=
  (c.setDocument d left.2).modifyRegistry r fun _ => left.1

theorem registries_addRegistry {c : Cells σ} {r : RegistryRef} {shared : SharedRegistry}
    (hr : c.registries[r]? = some shared) (d : DocumentRef) :
    (c.addRegistry d).2.registries[r]? = some shared := by
  have hlt : r < c.registries.length := (List.getElem?_eq_some_iff.1 hr).1
  exact (List.getElem?_append_left hlt).trans hr

theorem registries_addRegistry_length (c : Cells σ) (d : DocumentRef) :
    (c.addRegistry d).2.registries[c.registries.length]? = some ⟨.empty, d⟩ :=
  List.getElem?_concat_length

@[simp] theorem registries_setDocument (c : Cells σ) (d : DocumentRef) (document : σ) :
    (c.setDocument d document).registries = c.registries := rfl

-- a document is put into the cell named, and into no other
theorem document_setDocument {c : Cells σ} {d e : DocumentRef} {old : σ}
    (he : c.documents[e]? = some old) (document : σ) :
    (c.setDocument d document).documents[e]? = some (if d = e then document else old) := by
  show (c.documents.set d document)[e]? = _
  by_cases hde : d = e
  · subst hde
    rw [if_pos rfl, List.getElem?_set_self (List.getElem?_eq_some_iff.1 he).1]
  · rw [if_neg hde, List.getElem?_set_ne hde, he]

@[simp] theorem documents_modifyRegistry (c : Cells σ) (r : RegistryRef)
    (change : Registry ListenerRef → Registry ListenerRef) :
    (c.modifyRegistry r change).documents = c.documents := rfl

-- a change reaches the registry in the cell named, and no other
theorem registries_modifyRegistry (c : Cells σ) (r q : RegistryRef)
    (change : Registry ListenerRef → Registry ListenerRef) :
    (c.modifyRegistry r change).registries[q]? =
      if r = q then (c.registries[q]?).map fun shared =>
        { shared with registry := change shared.registry }
      else c.registries[q]? := by
  rw [modifyRegistry, List.getElem?_modify]
  split
  next => rfl
  next => simp

theorem registries_settle {c : Cells σ} {r q : RegistryRef} {d e : DocumentRef}
    {registry : Registry ListenerRef} (hq : c.registries[q]? = some ⟨registry, e⟩)
    (left : Registry ListenerRef × σ) :
    (c.settle r d left).registries[q]? = some ⟨if r = q then left.1 else registry, e⟩ := by
  rw [settle, registries_modifyRegistry, registries_setDocument, hq]
  split <;> rfl

theorem documents_settle {c : Cells σ} {r : RegistryRef} {d e : DocumentRef} {old : σ}
    (he : c.documents[e]? = some old) (left : Registry ListenerRef × σ) :
    (c.settle r d left).documents[e]? = some (if d = e then left.2 else old) :=
  document_setDocument he left.2

end Cells

/-! ## Loans -/

/-- What a cell is used for. -/
inductive Access where
  | read | write
  deriving DecidableEq, Repr

/-- A cell. -/
inductive Place where
  | document (d : DocumentRef)
  | registry (r : RegistryRef)
  deriving DecidableEq, Repr

/-- The use of a cell that is going on. -/
structure Loan where
  place : Place
  access : Access
  deriving DecidableEq, Repr

-- the loans that stand, the latest first
abbrev Loans := List Loan

/-- A cell may be read while nobody writes it, and written while nobody uses it. -/
def Loans.permit (loans : Loans) (place : Place) : Access → Bool
  | .read => loans.all fun loan => loan.place != place || loan.access != .write
  | .write => loans.all fun loan => loan.place != place

theorem Loans.permit_write_cons (loans : Loans) (place : Place) (access : Access) :
    Loans.permit (⟨place, access⟩ :: loans) place .write = false := by
  simp [permit]

end StickyScroll
