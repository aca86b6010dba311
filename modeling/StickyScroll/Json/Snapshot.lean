import StickyScroll.StickyLine
import StickyScroll.Json.Record
import StickyScroll.Json.Written

/-!
# Snapshots as JSON

How spans, handles and sticky lines are kept as JSON text. Nothing but the shape is checked when
they are read back: a span may start after it stops.
-/

namespace StickyScroll

open Json

/-! ## Spans -/

def Span.write (s : Span) : List Char :=
  writeObject [("start", writeNatural s.start), ("end", writeNatural s.stop)]

/-- A span of which some offsets are known. -/
structure Span.Draft where
  start : Option Nat := none
  stop : Option Nat := none

def Span.fields : List (RecordField Span.Draft) :=
  [.of "start" readNatural (·.start) fun draft n => { draft with start := some n },
    .of "end" readNatural (·.stop) fun draft n => { draft with stop := some n }]

def Span.Draft.complete (draft : Span.Draft) : Option Span :=
  draft.start.bind fun start => draft.stop.map fun stop => ⟨start, stop⟩

def Span.read : List Char → Reading Span := readRecord Span.fields {} Span.Draft.complete

def Span.encode (s : Span) : String := String.ofList s.write

def Span.decode (text : String) : Except Defect Span := readAll Span.read text

/-! ## Handles -/

def Handle.write (h : Handle) : List Char := writeNatural h.id

def Handle.read (cs : List Char) : Reading Handle :=
  match readNatural cs with
  | .error defect => .error defect
  | .ok (id, rest) => .ok (⟨id⟩, rest)

def Handle.encode (h : Handle) : String := String.ofList h.write

def Handle.decode (text : String) : Except Defect Handle := readAll Handle.read text

/-! ## Sticky lines -/

def StickyLine.write (line : StickyLine) : List Char :=
  writeObject
    [("document_id", writeString line.documentId),
      ("handle", line.handle.write),
      ("text_range", line.span.write),
      ("primary_line", writeNatural line.primaryLine),
      ("scope_line", writeNatural line.scopeLine),
      ("debug_text", writeOptionalString line.label)]

/-- A sticky line of which some fields are known. -/
structure StickyLine.Draft where
  documentId : Option String := none
  handle : Option Handle := none
  span : Option Span := none
  primaryLine : Option Nat := none
  scopeLine : Option Nat := none
  label : Option (Option String) := none

def StickyLine.fields : List (RecordField StickyLine.Draft) :=
  [.of "document_id" readString (·.documentId)
      fun draft id => { draft with documentId := some id },
    .of "handle" Handle.read (·.handle) fun draft handle => { draft with handle := some handle },
    .of "text_range" Span.read (·.span) fun draft span => { draft with span := some span },
    .of "primary_line" readNatural (·.primaryLine)
      fun draft n => { draft with primaryLine := some n },
    .of "scope_line" readNatural (·.scopeLine) fun draft n => { draft with scopeLine := some n },
    .of "debug_text" readOptionalString (·.label)
      fun draft label => { draft with label := some label }]

-- the sticky line, once all fields but the label are known
def StickyLine.Draft.complete (draft : StickyLine.Draft) : Option StickyLine :=
  draft.documentId.bind fun documentId =>
    draft.handle.bind fun handle =>
      draft.span.bind fun span =>
        draft.primaryLine.bind fun primaryLine =>
          draft.scopeLine.map fun scopeLine =>
            ⟨documentId, handle, span, primaryLine, scopeLine, draft.label.join⟩

def StickyLine.read : List Char → Reading StickyLine :=
  readRecord StickyLine.fields {} StickyLine.Draft.complete

def StickyLine.encode (line : StickyLine) : String := String.ofList line.write

def StickyLine.decode (text : String) : Except Defect StickyLine := readAll StickyLine.read text

end StickyScroll
