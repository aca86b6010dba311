import StickyScroll.Fault

/-!
# Stores of anchors

What a registry needs of the document that it annotates: who the document is, how long it is, on
which line an offset lies, and a place that keeps anchors. A store decides by itself where its
anchors are and in which order it lists them; a registry assumes nothing about either.
-/

namespace StickyScroll

/-- A document that keeps anchors. -/
class RangeStore (σ : Type) where
  -- the name of the document
  documentId : σ → String
  -- length of the text in bytes
  documentLength : σ → Nat
  -- the line on which an offset lies, counted from zero
  lineOf : σ → Nat → Nat
  -- Makes an anchor. A store may change even when it refuses, or make an anchor and lose it.
  create : σ → Marker → Nat → Nat → Except Fault Handle × σ
  -- takes out the anchor of a handle; says whether there was one
  delete : σ → Handle → Bool × σ
  -- the anchor of a handle
  anchorOf? : σ → Handle → Option Anchor
  -- the anchors that a walk from one offset to another meets, in the order of the walk
  overlapping : σ → Nat → Nat → List Anchor

/-- The greatest offset there is, and the greatest handle: the greatest word of 64 bits. -/
def maxOffset : Nat := 0xffffffffffffffff

def RangeStore.allAnchors {σ : Type} [RangeStore σ] (store : σ) : List Anchor :=
  RangeStore.overlapping store 0 maxOffset

end StickyScroll
