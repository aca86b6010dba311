import StickyScroll.StickyLine
import StickyScroll.Table
import StickyScroll.Listeners

/-!
# Registries

A registry knows the sticky lines of one document. The spans are anchors of the document's store,
which moves them as the text is edited and may drop them; the registry keeps a record, by handle,
of who registered each line and under which label. Queries walk the store and look the records up,
so a record without an anchor is never seen (it is stale), and a sticky anchor without a record is
reported under a label of its own (it is a zombie).

Every operation takes the store as an argument and gives back what it became, so the operations are
those of any `RangeStore`.
-/

namespace StickyScroll

/-- Who registered a line, and its label. -/
structure LineRecord where
  source : String
  label : Option String
  deriving DecidableEq, Repr

/-- The records of one document's sticky lines, the listeners to its changes, and whether the first
update is past. Listeners are told apart by `ι`. -/
structure Registry (ι : Type) where
  records : Table Handle LineRecord
  listeners : Listeners ι
  firstUpdateConsumed : Bool

/-- What an operation on a registry and its store leaves, and what it reports. -/
structure Outcome (ι σ α : Type) where
  value : α
  registry : Registry ι
  store : σ
  events : List Event

namespace Registry

variable {ι σ : Type} [RangeStore σ]

-- no records, no listeners, and the first update still to come
def empty : Registry ι := ⟨.empty, .empty, false⟩

-- whether the first update is still to come; it is past afterwards
def takeFirstUpdate (r : Registry ι) : Bool × Registry ι :=
  (!r.firstUpdateConsumed, { r with firstUpdateConsumed := true })

/-! ## Queries -/

-- whether a record passes a filter by source; no filter passes all
def matchesSource (filter : Option String) (record : LineRecord) : Bool :=
  filter.all (· == record.source)

/-- The line that a query reports for an anchor, if any: a sticky anchor on record with a matching
source, or one without a record when the query does not filter. -/
def lineFor? (r : Registry ι) (store : σ) (filter : Option String) (a : Anchor) :
    Option StickyLine :=
  if a.marker = .sticky then
    match r.records.find? a.handle with
    | some record =>
        if matchesSource filter record then some (.ofAnchor store a record.label) else none
    | none => if filter.isNone then some (.zombie store a) else none
  else none

/-- The sticky lines that start at or before `limit` and pass a filter by source, in order. The
store promises that order already; sorting keeps it for any store. -/
def query (r : Registry ι) (store : σ) (filter : Option String) (limit : Nat) : List StickyLine :=
  StickyLine.sort ((RangeStore.overlapping store 0 limit).filterMap (r.lineFor? store filter))

-- the whole document's sticky lines that pass a filter by source, in order
def lines (r : Registry ι) (store : σ) (filter : Option String) : List StickyLine :=
  r.query store filter (RangeStore.documentLength store)

-- a sticky anchor that the registry has no record of
def isUnrecorded (r : Registry ι) (a : Anchor) : Bool :=
  a.marker == .sticky && (r.records.find? a.handle).isNone

/-- A query that does not filter warns of every zombie, in the order of the walk. -/
def queryEvents (r : Registry ι) (store : σ) (filter : Option String) (limit : Nat) : List Event :=
  if filter.isNone then
    ((RangeStore.overlapping store 0 limit).filter r.isUnrecorded).map
      fun a => .unrecordedAnchor a.handle a.span
  else []

-- the source on record for a line of this document
def sourceOf? (r : Registry ι) (store : σ) (line : StickyLine) : Option String :=
  if line.documentId = RangeStore.documentId store then
    (r.records.find? line.handle).map (·.source)
  else none

-- the sticky anchor that a line is a snapshot of, if it is still there
def anchorOf? (store : σ) (line : StickyLine) : Option Anchor :=
  if line.documentId = RangeStore.documentId store then
    (RangeStore.anchorOf? store line.handle).filter (·.marker == .sticky)
  else none

-- a line as it is now, under the label it had
def resolve? (store : σ) (line : StickyLine) : Option StickyLine :=
  (anchorOf? store line).map fun a => .ofAnchor store a line.label

def isLive (store : σ) (handle : Handle) : Bool := (RangeStore.anchorOf? store handle).isSome

def size (r : Registry ι) (store : σ) : Nat := (r.records.keys.filter (isLive store)).length

/-! ## Changes -/

/-- Registers a line over the text between two offsets, the first before the second. -/
def add (r : Registry ι) (store : σ) (source : String) (start stop : Nat) (label : Option String) :
    Outcome ι σ (Except Fault StickyLine) :=
  if stop ≤ start then ⟨.error (.invalidRange start stop), r, store, []⟩
  else
    match RangeStore.create store .sticky start stop with
    | (.error fault, store) => ⟨.error fault, r, store, []⟩
    | (.ok handle, store) =>
      match RangeStore.anchorOf? store handle with
      | none => ⟨.error (.lineNotFound handle), r, store, []⟩
      | some anchor =>
          { value := .ok (.ofAnchor store anchor label)
            registry := { r with records := r.records.insert handle ⟨source, label⟩ }
            store := store
            events := [.lineAdded source start stop handle] }

/-- Takes out a line: its record and its sticky anchor, whichever there is. A line of another
document, or with neither, is not found. -/
def remove (r : Registry ι) (store : σ) (line : StickyLine) : Outcome ι σ (Except Fault Unit) :=
  let notFound : Outcome ι σ (Except Fault Unit) :=
    ⟨.error (.lineNotFound line.handle), r, store, []⟩
  if line.documentId = RangeStore.documentId store then
    let record := r.records.find? line.handle
    let (deleted, store') :=
      if (anchorOf? store line).isSome then RangeStore.delete store line.handle else (false, store)
    if deleted || record.isSome then
      { value := .ok ()
        registry := { r with records := r.records.erase line.handle }
        store := store'
        events := [.lineRemoved (record.map (·.source)) line.handle] }
    else { notFound with store := store' }
  else notFound

def prune (r : Registry ι) (store : σ) : Registry ι :=
  { r with records := r.records.filter fun handle _ => isLive store handle }

def staleCount (r : Registry ι) (store : σ) : Nat := r.records.size - (r.prune store).records.size

-- pruning reports how many records it dropped, if any
def pruneEvents (r : Registry ι) (store : σ) : List Event :=
  let pruned := r.staleCount store
  if 0 < pruned then [.recordsPruned pruned] else []

-- deletes the anchors of some handles; counts those that were there
def deleteAll (store : σ) : List Handle → Nat × σ
  | [] => (0, store)
  | handle :: rest =>
      let (deleted, store) := RangeStore.delete store handle
      let (count, store) := deleteAll store rest
      (count + deleted.toNat, store)

/-- Takes out every line of a source, after dropping the stale records; counts the lines. -/
def removeFrom (r : Registry ι) (store : σ) (source : String) : Outcome ι σ Nat :=
  let pruned := r.prune store
  let own := (pruned.records.filter fun _ record => record.source == source).keys
  { value := own.length
    registry :=
      { pruned with records := pruned.records.filter fun _ record => record.source != source }
    store := (deleteAll store own).2
    events := r.pruneEvents store ++ [.sourceRemoved source own.length] }

-- gives up every line on record; counts the anchors that were still there
def release (r : Registry ι) (store : σ) : Outcome ι σ Nat :=
  let (released, store') := deleteAll store r.records.keys
  { value := released
    registry := { r with records := .empty }
    store := store'
    events := [.anchorsReleased (RangeStore.documentId store) released] }

end Registry
end StickyScroll
