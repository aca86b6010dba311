import StickyScroll.Session.Answer
import StickyScroll.Manager

/-!
# The state of a session

The cells, the names that lead to them, the values kept by name, and the journal.
-/

namespace StickyScroll

/-- A listener: its name when it was made, and what it runs when called. -/
structure Listener where
  name : String
  script : Option (List Command)

/-- Everything that a session keeps. -/
structure Session where
  cells : Cells Document
  listeners : List Listener
  documentNames : Table String DocumentRef
  registryNames : Table String RegistryRef
  managers : Table String Manager
  lines : Table String StickyLine
  listenerNames : Table String ListenerRef
  journal : List Note

namespace Session

def empty : Session := ⟨.empty, [], .empty, .empty, .empty, .empty, .empty, []⟩

/-! ## Looking up -/

def document? (s : Session) (name : String) : Option (DocumentRef × Document) :=
  (s.documentNames.find? name).bind fun d => (s.cells.documents[d]?).map fun doc => (d, doc)

def registry? (s : Session) (name : String) : Option (RegistryRef × SharedRegistry) :=
  (s.registryNames.find? name).bind fun r => (s.cells.registries[r]?).map fun reg => (r, reg)

/-- The manager of a name; one that was never made has the default configuration. -/
def manager (s : Session) (name : String) : Manager :=
  (s.managers.find? name).getD (.ofLimit Manager.defaultLimit)

def place? (s : Session) : CellName → Option Place
  | .document name => (s.documentNames.find? name).map .document
  | .registry name => (s.registryNames.find? name).map .registry

-- the lines of some names, if each is the name of a line
def lines? (s : Session) (names : List String) : Option (List StickyLine) :=
  names.mapM s.lines.find?

def namesOf (s : Session) (r : RegistryRef) : List String :=
  ((s.registryNames.entries.filter (·.2 == r)).map (·.1)).mergeSort Text.byteLe

/-! ## Changing -/

def report (s : Session) (events : List Event) : Session :=
  { s with journal := s.journal ++ events.map .event }

def note (s : Session) (n : Note) : Session := { s with journal := s.journal ++ [n] }

def setDocument (s : Session) (d : DocumentRef) (document : Document) : Session :=
  { s with cells := s.cells.setDocument d document }

def modifyRegistry (s : Session) (r : RegistryRef)
    (change : Registry ListenerRef → Registry ListenerRef) : Session :=
  { s with cells := s.cells.modifyRegistry r change }

def keepLine (s : Session) (name : Option String) (line : StickyLine) : Session :=
  match name with
  | none => s
  | some name => { s with lines := s.lines.insert name line }

/-- Keeps lines by a name, a dot and their places in the list, if a name is given. -/
def keepLines (s : Session) (name : Option String) (lines : List StickyLine) : Session :=
  match name with
  | none => s
  | some name =>
      { s with
        lines := lines.zipIdx.foldl
          (fun table (line, place) => table.insert s!"{name}.{place}" line) s.lines }

def keepRegistry (s : Session) (name : Option String) (r : RegistryRef) : Session :=
  match name with
  | none => s
  | some name => { s with registryNames := s.registryNames.insert name r }

end Session
end StickyScroll
