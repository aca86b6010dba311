import StickyScroll.RangeStore
import StickyScroll.Event
import StickyScroll.Bisect
import StickyScroll.Text.LineBreak

/-!
# Buffers

A buffer is a text together with the anchors laid over it. Edits move the anchors along with the
text they cover: an anchor grows by what is inserted strictly inside it, shrinks by what is cut out
of it, and goes when a cut takes all of it. The anchors are kept in the order of `Anchor.before`,
so the ones that start early enough for a query are found by bisection.
-/

namespace StickyScroll

/-- A document: its name, its text, its anchors in order, and the number of the next handle. -/
structure Buffer where
  id : String
  text : List Char
  anchors : List Anchor
  nextHandle : Nat

/-- What an edit leaves: whether it was accepted, the buffer, and what it reports. -/
structure Edit where
  result : Except Fault Unit
  buffer : Buffer
  events : List Event

namespace Buffer

def ofText (id : String) (text : List Char) : Buffer := ⟨id, text, [], 0⟩

def length (b : Buffer) : Nat := Text.size b.text

/-- The text before and after an offset, which must lie in the text and between two characters. -/
def split (b : Buffer) (offset : Nat) : Except Fault (List Char × List Char) :=
  if b.length < offset then .error (.outOfBounds offset b.length)
  else match Text.cut? b.text offset with
    | some parts => .ok parts
    | none => .error (.notBoundary offset)

-- puts anchors back in order after their spans moved
def arrange (anchors : List Anchor) : List Anchor := anchors.mergeSort Anchor.le

/-! ## Edits -/

-- Puts a piece of text at an offset. An empty piece changes nothing.
def insert (b : Buffer) (offset : Nat) (piece : List Char) : Edit :=
  match b.split offset with
  | .error fault => ⟨.error fault, b, []⟩
  | .ok (before, after) =>
      if piece.isEmpty then ⟨.ok (), b, []⟩
      else
        { result := .ok ()
          buffer :=
            { b with
              text := before ++ piece ++ after
              anchors := arrange (b.anchors.map (·.moved (·.grow offset (Text.size piece)))) }
          events := [.textInserted b.id offset (Text.size piece)] }

-- an anchor outlives a cut when it is empty or reaches out of the cut
def survives (cut : Span) (a : Anchor) : Bool := a.span.isEmpty || !cut.covers a.span

/-- Takes out the text between two offsets, and the anchors that lose all their text with it. -/
def delete (b : Buffer) (start stop : Nat) : Edit :=
  match Span.make start stop with
  | .error fault => ⟨.error fault, b, []⟩
  | .ok cut =>
    match b.split start with
    | .error fault => ⟨.error fault, b, []⟩
    | .ok (before, _) =>
      match b.split stop with
      | .error fault => ⟨.error fault, b, []⟩
      | .ok (_, after) =>
          if cut.isEmpty then ⟨.ok (), b, []⟩
          else
            let kept := b.anchors.filter (survives cut)
            { result := .ok ()
              buffer :=
                { b with
                  text := before ++ after
                  anchors := arrange (kept.map (·.moved (·.shrink cut))) }
              events := [.textDeleted b.id start stop (b.anchors.length - kept.length)] }

-- takes out the text between two offsets and puts a piece in its place
def replace (b : Buffer) (start stop : Nat) (piece : List Char) : Edit :=
  let cut := b.delete start stop
  match cut.result with
  | .error _ => cut
  | .ok () =>
      let put := cut.buffer.insert start piece
      { put with events := cut.events ++ put.events }

/-! ## Anchors -/

/-- Lays an anchor over the text between two offsets, and gives it the next handle. -/
def create (b : Buffer) (marker : Marker) (start stop : Nat) : Except Fault Handle × Buffer :=
  match Span.make start stop with
  | .error fault => (.error fault, b)
  | .ok span =>
    match b.split start with
    | .error fault => (.error fault, b)
    | .ok _ =>
      match b.split stop with
      | .error fault => (.error fault, b)
      | .ok _ =>
          let anchor : Anchor := ⟨⟨b.nextHandle⟩, span, marker⟩
          let place := bisect (·.before anchor) b.anchors
          (.ok anchor.handle,
            { b with
              anchors := b.anchors.take place ++ anchor :: b.anchors.drop place
              nextHandle := b.nextHandle + 1 })

def named (handle : Handle) (a : Anchor) : Bool := a.handle == handle

-- takes out the first anchor of a handle; says whether there was one
def drop (b : Buffer) (handle : Handle) : Bool × Buffer :=
  (b.anchors.any (named handle), { b with anchors := b.anchors.eraseP (named handle) })

def anchorOf? (b : Buffer) (handle : Handle) : Option Anchor := b.anchors.find? (named handle)

/-- The anchors that share an offset with the span between two offsets, in order. Those that start
after `stop` come last and are cut off by bisection; the others are tested one by one. -/
def overlapping (b : Buffer) (start stop : Nat) : List Anchor :=
  (b.anchors.take (bisect (fun a => decide (a.span.start ≤ stop)) b.anchors)).filter
    fun a => decide (start ≤ a.span.stop)

instance : RangeStore Buffer where
  documentId := id
  documentLength := length
  lineOf b := Text.lineAt b.text
  create := create
  delete := drop
  anchorOf? := anchorOf?
  overlapping := overlapping

/-! ## Names of new buffers -/

-- the name of a buffer that was given none: a number that is counted up
def generatedId (serial : Nat) : String := s!"doc_{serial}"

/-- Makes buffers one after the other, each from a name, if it is given one, and a text. The buffers
without a name are numbered from `serial` on; the number goes with the buffer. -/
def ofTexts : Nat → List (Option String × List Char) → List (Option Nat × Buffer)
  | _, [] => []
  | serial, (some id, text) :: rest => (none, ofText id text) :: ofTexts serial rest
  | serial, (none, text) :: rest =>
      (some serial, ofText (generatedId serial) text) :: ofTexts (serial + 1) rest

end Buffer
end StickyScroll
