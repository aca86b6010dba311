import StickyScroll.Manager
import StickyScroll.Text.Quoted

/-!
# What developers see

Every value can be shown with the name of its type and the names of its fields, strings in quotes,
on one line. A type that shows only some of its fields ends with two dots.
-/

namespace StickyScroll

-- one field of a value: its name, and how its value is shown
abbrev ShownField := String × String

def showRecord (type : String) (fields : List ShownField) : String :=
  s!"{type} \x7b " ++ ", ".intercalate (fields.map fun (name, value) => s!"{name}: {value}") ++
    " \x7d"

def showPartly (type : String) (fields : List ShownField) : String :=
  s!"{type} \x7b " ++ ", ".intercalate (fields.map fun (name, value) => s!"{name}: {value}") ++
    ", .. \x7d"

def showOption (value : Option String) : String :=
  match value with
  | none => "None"
  | some shown => s!"Some({shown})"

def showList (values : List String) : String := "[" ++ ", ".intercalate values ++ "]"

def showBool (b : Bool) : String := if b then "true" else "false"

def Span.inspect (s : Span) : String :=
  showRecord "TextRange" [("start", toString s.start), ("end", toString s.stop)]

def Handle.inspect (h : Handle) : String := s!"RangeHandle({h.id})"

def Fault.inspect : Fault → String
  | invalidRange start stop =>
      showRecord "InvalidRange" [("start", toString start), ("end", toString stop)]
  | outOfBounds position length =>
      showRecord "PositionOutOfBounds"
        [("position", toString position), ("length", toString length)]
  | notBoundary position => showRecord "NotCharBoundary" [("position", toString position)]
  | lineNotFound handle => showRecord "StickyLineNotFound" [("handle", handle.inspect)]
  | documentLimit current limit =>
      showRecord "DocumentLimitExceeded"
        [("current", toString current), ("limit", toString limit)]

-- a list of listeners shows how many there are and what was sent
def Listeners.inspect {ι : Type} (l : Listeners ι) : String :=
  showRecord "ListenerList"
    [("listeners", toString l.count),
      ("stats", showRecord "ListenerStats"
        [("notifications_sent", toString l.sent), ("listener_calls", toString l.calls),
          ("listeners_count", toString l.count)])]

def StickyLine.inspect (line : StickyLine) : String :=
  showRecord "StickyLine"
    [("document_id", Text.quoted line.documentId),
      ("handle", line.handle.inspect),
      ("text_range", line.span.inspect),
      ("primary_line", toString line.primaryLine),
      ("scope_line", toString line.scopeLine),
      ("debug_text", showOption (line.label.map Text.quoted))]

/-- A registry shows its document, if the document can be looked into, the number of its records,
stale ones included, its listeners and whether the first update is past. -/
def Registry.inspect {ι : Type} (r : Registry ι) (document : Option String) : String :=
  showPartly "StickyLinesModel"
    [("document_id", showOption (document.map Text.quoted)),
      ("lines", toString r.records.size),
      ("listeners", r.listeners.inspect),
      ("first_update_consumed", showBool r.firstUpdateConsumed)]

-- a manager shows how many documents it may hold, and which it holds
def Manager.inspect (m : Manager) : String :=
  showRecord "StickyLinesManager"
    [("config", showRecord "ManagerConfig" [("max_documents", toString m.maxDocuments)]),
      ("documents", showList (m.documentIds.map Text.quoted))]

end StickyScroll
