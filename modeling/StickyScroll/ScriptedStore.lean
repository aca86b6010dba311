import StickyScroll.RangeStore

/-!
# Scripted stores

A store without a text, whose answers are set beforehand: its length, the width of its lines, its
anchors in any order and with any spans, the handles it gives out, and whether it refuses or loses
what it is asked to create. With it one can see how a registry fares over a store that keeps none of
the promises of a buffer.
-/

namespace StickyScroll

/-- A store that answers as it was told to. -/
structure ScriptedStore where
  id : String
  length : Nat
  lineWidth : Nat
  anchors : List Anchor
  nextHandle : Nat
  step : Nat
  -- new anchors are forgotten at once
  loses : Bool
  -- every creation is refused with this fault
  refusal : Option Fault
  -- a walk meets every anchor, wherever it lies
  visitsAll : Bool

namespace ScriptedStore

/-- Refuses, or gives out the next handle and puts the anchor last, unchecked. Handles are counted
in words of 64 bits. -/
def create (s : ScriptedStore) (marker : Marker) (start stop : Nat) :
    Except Fault Handle × ScriptedStore :=
  match s.refusal with
  | some fault => (.error fault, s)
  | none =>
      let anchor : Anchor := ⟨⟨s.nextHandle⟩, ⟨start, stop⟩, marker⟩
      (.ok anchor.handle,
        { s with
          anchors := if s.loses then s.anchors else s.anchors ++ [anchor]
          nextHandle := (s.nextHandle + s.step) % (maxOffset + 1) })

-- takes out the first anchor of a handle; says whether there was one
def delete (s : ScriptedStore) (handle : Handle) : Bool × ScriptedStore :=
  (s.anchors.any (·.handle == handle),
    { s with anchors := s.anchors.eraseP (·.handle == handle) })

def anchorOf? (s : ScriptedStore) (handle : Handle) : Option Anchor :=
  s.anchors.find? (·.handle == handle)

/-- The anchors that share an offset with the span between two offsets, in the order of the list. -/
def overlapping (s : ScriptedStore) (start stop : Nat) : List Anchor :=
  s.anchors.filter fun a => s.visitsAll || a.span.meets ⟨start, stop⟩

-- sets the span of the first anchor of a handle; says whether there is one
def place (s : ScriptedStore) (handle : Handle) (span : Span) : Bool × ScriptedStore :=
  (s.anchors.any (·.handle == handle),
    { s with anchors := set s.anchors })
where
  -- the list with the span of the first anchor of the handle changed
  set : List Anchor → List Anchor
    | [] => []
    | a :: rest => if a.handle == handle then { a with span := span } :: rest else a :: set rest

instance : RangeStore ScriptedStore where
  documentId := id
  documentLength := length
  lineOf s offset := offset / max s.lineWidth 1
  create := create
  delete := delete
  anchorOf? := anchorOf?
  overlapping := overlapping

end ScriptedStore
end StickyScroll
