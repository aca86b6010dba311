import StickyScroll.Anchor

/-!
# Events

What the parts of the library report while they work: edits of a document, changes of a registry,
queries, notifications, and registries opened and closed. An event has a level, a message and named
fields; a field whose value is absent is left out.
-/

namespace StickyScroll

/-- How much attention an event asks for. -/
inductive Level where
  | trace | debug | warn
  deriving DecidableEq, Repr

/-- The value of a field of an event. -/
inductive FieldValue where
  | number (n : Nat)
  | text (s : String)
  deriving DecidableEq, Repr

/-- Something that happened. -/
inductive Event where
  -- a piece of `size` bytes went into a document
  | textInserted (document : String) (offset size : Nat)
  -- a span of a document was cut out, and `dropped` anchors with it
  | textDeleted (document : String) (start stop dropped : Nat)
  | lineAdded (source : String) (start stop : Nat) (handle : Handle)
  -- the source is known when the registry had a record of the line
  | lineRemoved (source : Option String) (handle : Handle)
  | sourceRemoved (source : String) (removed : Nat)
  | recordsPruned (pruned : Nat)
  | queried (source : Option String) (limit matched : Nat)
  -- a query met a sticky anchor that its registry has no record of
  | unrecordedAnchor (handle : Handle) (span : Span)
  | anchorsReleased (document : String) (released : Nat)
  -- a registry of `lines` records could not reach its store
  | storeBusy (lines : Nat)
  | listenersNotified (listeners : Nat)
  | registryCreated (document : String) (documents : Nat)
  -- a registry was asked for through another store that reports the same document
  | otherStore (document : String)
  | registryBusy (document : String)
  | registryClosed (document : String) (released : Nat)
  deriving DecidableEq, Repr

namespace Event

/-- Edits, queries and housekeeping are traced, changes are for debugging, and what stays undone or
looks wrong is a warning. -/
def level : Event → Level
  | textInserted .. | textDeleted .. | recordsPruned .. | queried .. | listenersNotified .. =>
      .trace
  | unrecordedAnchor .. | storeBusy .. | otherStore .. | registryBusy .. => .warn
  | _ => .debug

def message : Event → String
  | textInserted .. => "markup insert"
  | textDeleted .. => "markup delete"
  | lineAdded .. => "sticky line added"
  | lineRemoved .. => "sticky line removed"
  | sourceRemoved .. => "sticky lines removed for source"
  | recordsPruned .. => "stale sticky line metadata pruned"
  | queried .. => "processing sticky lines"
  | unrecordedAnchor .. => "sticky range without metadata"
  | anchorsReleased .. => "sticky line ranges released"
  | storeBusy .. => "store busy, sticky line ranges not released"
  | listenersNotified .. => "sticky lines listeners notified"
  | registryCreated .. => "sticky lines registry created"
  | otherStore .. => "registry requested through a different store"
  | registryBusy .. => "registry busy, sticky line ranges not released"
  | registryClosed .. => "sticky lines registry closed"

-- a source is a field only where there is one
private def sourceField (source : Option String) : List (String × FieldValue) :=
  source.toList.map fun s => ("source", .text s)

def fields : Event → List (String × FieldValue)
  | textInserted document offset size =>
      [("doc_id", .text document), ("offset", .number offset), ("len", .number size)]
  | textDeleted document start stop dropped =>
      [("doc_id", .text document), ("start", .number start), ("end", .number stop),
        ("dropped", .number dropped)]
  | lineAdded source start stop handle =>
      [("source", .text source), ("start", .number start), ("end", .number stop),
        ("handle", .text handle.display)]
  | lineRemoved source handle => sourceField source ++ [("handle", .text handle.display)]
  | sourceRemoved source removed => [("source", .text source), ("removed", .number removed)]
  | recordsPruned pruned => [("pruned", .number pruned)]
  | queried source limit matched =>
      sourceField source ++ [("limit", .number limit), ("matched", .number matched)]
  | unrecordedAnchor handle span =>
      [("handle", .text handle.display), ("range", .text span.display)]
  | anchorsReleased document released =>
      [("doc_id", .text document), ("released", .number released)]
  | storeBusy lines => [("lines", .number lines)]
  | listenersNotified listeners => [("listeners", .number listeners)]
  | registryCreated document documents =>
      [("doc_id", .text document), ("documents", .number documents)]
  | otherStore document => [("doc_id", .text document)]
  | registryBusy document => [("doc_id", .text document)]
  | registryClosed document released =>
      [("doc_id", .text document), ("released", .number released)]

end Event
end StickyScroll
