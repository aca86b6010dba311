import StickyScroll.Buffer
import StickyScroll.ScriptedStore
import StickyScroll.Cells

/-!
# Commands

What can be asked of a session. Documents, managers, registries, sticky lines and listeners are
known by names; a command says which of them it acts on. A walk through sticky lines, a
notification and a hold run further commands while they are going on, so commands nest.
-/

namespace StickyScroll

/-- A document: a buffer, or a store that answers as it was told to. -/
inductive Document where
  | buffer (b : Buffer)
  | scripted (s : ScriptedStore)

namespace Document

-- carries a change of the store inside over to the document
def onStore {α : Type} (d : Document) (buffer : Buffer → α × Buffer)
    (scripted : ScriptedStore → α × ScriptedStore) : α × Document :=
  match d with
  | .buffer b => ((buffer b).1, .buffer (buffer b).2)
  | .scripted s => ((scripted s).1, .scripted (scripted s).2)

instance : RangeStore Document where
  documentId
    | .buffer b => RangeStore.documentId b
    | .scripted s => RangeStore.documentId s
  documentLength
    | .buffer b => RangeStore.documentLength b
    | .scripted s => RangeStore.documentLength s
  lineOf
    | .buffer b => RangeStore.lineOf b
    | .scripted s => RangeStore.lineOf s
  create d marker start stop :=
    d.onStore (RangeStore.create · marker start stop) (RangeStore.create · marker start stop)
  delete d handle := d.onStore (RangeStore.delete · handle) (RangeStore.delete · handle)
  anchorOf?
    | .buffer b => RangeStore.anchorOf? b
    | .scripted s => RangeStore.anchorOf? s
  overlapping
    | .buffer b => RangeStore.overlapping b
    | .scripted s => RangeStore.overlapping s

end Document

/-- What can be done with a document. -/
inductive DocumentAction where
  | insert (offset : Nat) (piece : List Char)
  | delete (start stop : Nat)
  | replace (start stop : Nat) (piece : List Char)
  | create (marker : Marker) (start stop : Nat)
  | drop (handle : Handle)
  -- sets the span of an anchor of a scripted store
  | place (handle : Handle) (span : Span)
  -- the length and all anchors
  | dump
  | text
  | size
  | lineOf (offset : Nat)
  -- the lines of all offsets, up to the one after the end
  | lineMap
  | anchorOf (handle : Handle)
  | overlapping (start stop : Nat) (stopAfter : Option Nat)

/-- What can be done with a manager. -/
inductive ManagerAction where
  | make (maxDocuments : Option Nat)
  | openDocument (document : String) (storeAs : Option String)
  | get (id : String) (storeAs : Option String)
  | close (id : String)
  | documents
  | inspect

/-- What can be done with a registry while nothing else happens. -/
inductive RegistryAction where
  | add (source : String) (start stop : Nat) (label : Option String) (storeAs : Option String)
  | remove (line : String)
  | removeFrom (source : String)
  | prune
  | takeFirstUpdate
  | lines (source : Option String) (storeAs : Option String)
  | sourceOf (line : String)
  | resolve (line : String) (storeAs : Option String)
  | size
  -- whether the registry was made for this very document
  | uses (document : String)
  | listen (listener : String)
  | unlisten (listener : String)
  | stats
  | inspect

/-- What can be done with sticky lines. -/
inductive LineAction where
  -- reads a line from JSON text
  | forge (storeAs : String) (json : String)
  | display (line : String)
  | encode (line : String)
  | inspect (line : String)
  | compare (a b : String)
  | sort (lines : List String)
  | distinct (lines : List String)

/-- Which lines a walk visits: those of a source, if one is given, that start at or before a limit,
if one is given, and else in the whole document. -/
structure WalkScope where
  source : Option String
  limit : Option Nat

/-- A cell, by the name of a document or registry. -/
inductive CellName where
  | document (name : String)
  | registry (name : String)

/-- What can be asked of a session. -/
inductive Command where
  | makeDocument (name : String) (document : Document)
  | onDocument (name : String) (action : DocumentAction)
  | onManager (name : String) (action : ManagerAction)
  | onRegistry (name : String) (action : RegistryAction)
  | onLines (action : LineAction)
  -- visits lines, running the script for each, until enough of them were seen
  | walk (registry : String) (scope : WalkScope) (stopAfter : Option Nat)
      (script : Option (List Command))
  -- calls the listeners of a registry
  | notify (registry : String)
  -- makes a listener, which runs the script when called
  | makeListener (name : String) (script : Option (List Command))
  -- keeps a cell on loan while commands run
  | hold (cell : CellName) (access : Access) (commands : List Command)

end StickyScroll
