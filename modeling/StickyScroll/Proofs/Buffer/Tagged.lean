import Mathlib.Data.Finset.Basic
import StickyScroll.Proofs.Buffer.History

/-!
# Tagged texts

A tagged text says directly what it means that an anchor holds on to its text: every byte carries
the handles of the anchors that hold it. An anchor that is made tags the bytes under it, a cut takes
bytes away with their tags, and new bytes get the tags that the bytes on both sides of them share.
-/

namespace StickyScroll

def Text.encode (cs : List Char) : List UInt8 := cs.flatMap String.utf8EncodeChar

theorem Text.encode_append (cs ds : List Char) : encode (cs ++ ds) = encode cs ++ encode ds :=
  List.flatMap_append

theorem Text.length_encode (cs : List Char) : (encode cs).length = size cs := by
  induction cs with
  | nil => rfl
  | cons c cs ih =>
    rw [encode, List.flatMap_cons, List.length_append, String.length_utf8EncodeChar, size_cons]
    exact congrArg (c.utf8Size + ·) ih

/-- A byte and the handles of the anchors that hold it. -/
structure TaggedByte where
  byte : UInt8
  tags : Finset Handle

abbrev TaggedText := List TaggedByte

namespace TaggedText

def ofBytes (bytes : List UInt8) : TaggedText := bytes.map (⟨·, ∅⟩)

/-- The tags of the byte at a place; past the end there are none. -/
def tagsAt (t : TaggedText) (i : Nat) : Finset Handle := (t[i]?).elim ∅ (·.tags)

def tag (t : TaggedText) (s : Span) (handle : Handle) : TaggedText :=
  t.mapIdx fun i b =>
    if s.start ≤ i ∧ i < s.stop then { b with tags := insert handle b.tags } else b

def untag (t : TaggedText) (handle : Handle) : TaggedText :=
  t.map fun b => { b with tags := b.tags.erase handle }

/-- The tags that the bytes on both sides of an offset share. -/
def around (t : TaggedText) (offset : Nat) : Finset Handle :=
  if offset = 0 then ∅ else t.tagsAt (offset - 1) ∩ t.tagsAt offset

/-- Puts in bytes, with the tags that both sides share. -/
def splice (t : TaggedText) (offset : Nat) (bytes : List UInt8) : TaggedText :=
  t.take offset ++ bytes.map (⟨·, t.around offset⟩) ++ t.drop offset

def cut (t : TaggedText) (start stop : Nat) : TaggedText := t.take start ++ t.drop stop

/-- What a change does to a tagged text, given the handle that was issued if one was. -/
def step (t : TaggedText) (issued : Option Handle) : Buffer.Change → TaggedText
  | .insert offset piece => t.splice offset (Text.encode piece)
  | .delete start stop => t.cut start stop
  | .replace start stop piece => (t.cut start stop).splice start (Text.encode piece)
  | .create _ start stop => issued.elim t (t.tag ⟨start, stop⟩)
  | .drop handle => t.untag handle

/-! ## Tags of the results -/

theorem tagsAt_tag {t : TaggedText} {s : Span} {k h : Handle} {i : Nat} (hs : s.stop ≤ t.length) :
    h ∈ (t.tag s k).tagsAt i ↔ h ∈ t.tagsAt i ∨ h = k ∧ s.start ≤ i ∧ i < s.stop := by
  unfold tagsAt tag
  rw [List.getElem?_mapIdx]
  by_cases hi : i < t.length
  · rw [List.getElem?_eq_getElem hi, Option.map_some, Option.elim_some, Option.elim_some]
    by_cases hin : s.start ≤ i ∧ i < s.stop
    · rw [if_pos hin, Finset.mem_insert]
      show h = k ∨ h ∈ t[i].tags ↔ _
      constructor
      · rintro (rfl | h')
        · exact Or.inr ⟨rfl, hin⟩
        · exact Or.inl h'
      · rintro (h' | ⟨rfl, -⟩)
        · exact Or.inr h'
        · exact Or.inl rfl
    · rw [if_neg hin]
      constructor
      · exact Or.inl
      · rintro (h' | ⟨-, hin'⟩)
        · exact h'
        · exact absurd hin' hin
  · rw [List.getElem?_eq_none (by omega), Option.map_none, Option.elim_none]
    constructor
    · exact Or.inl
    · rintro (h' | ⟨-, -, hlt⟩)
      · exact h'
      · omega

theorem tagsAt_untag (t : TaggedText) (k : Handle) (i : Nat) :
    (t.untag k).tagsAt i = (t.tagsAt i).erase k := by
  unfold tagsAt untag
  rw [List.getElem?_map]
  cases t[i]? with
  | none => exact (Finset.erase_empty k).symm
  | some b => rfl

theorem tagsAt_splice {t : TaggedText} {offset : Nat} (hle : offset ≤ t.length)
    (bytes : List UInt8) (i : Nat) :
    (t.splice offset bytes).tagsAt i =
      if i < offset then t.tagsAt i
      else if i < offset + bytes.length then t.around offset
      else t.tagsAt (i - bytes.length) := by
  have hfront : (t.take offset).length = offset := List.length_take_of_le hle
  unfold splice
  rw [tagsAt, List.append_assoc, List.getElem?_append, hfront]
  by_cases hi : i < offset
  · rw [if_pos hi, if_pos hi, List.getElem?_take_of_lt hi, tagsAt]
  · rw [if_neg hi, if_neg hi, List.getElem?_append, List.length_map]
    by_cases hin : i < offset + bytes.length
    · rw [if_pos hin, if_pos (by omega), List.getElem?_map,
        List.getElem?_eq_getElem (by omega : i - offset < bytes.length)]
      rfl
    · rw [if_neg hin, if_neg (by omega), List.getElem?_drop, tagsAt]
      congr 2
      omega

theorem tagsAt_cut {t : TaggedText} {start stop : Nat} (hle : start ≤ stop)
    (hstop : stop ≤ t.length) (i : Nat) :
    (t.cut start stop).tagsAt i =
      if i < start then t.tagsAt i else t.tagsAt (i + (stop - start)) := by
  have hfront : (t.take start).length = start := List.length_take_of_le (by omega)
  unfold cut
  rw [tagsAt, List.getElem?_append, hfront]
  by_cases hi : i < start
  · rw [if_pos hi, if_pos hi, List.getElem?_take_of_lt hi, tagsAt]
  · rw [if_neg hi, if_neg hi, List.getElem?_drop, tagsAt]
    congr 2
    omega

/-! ## Bytes of the results -/

theorem map_byte_tag (t : TaggedText) (s : Span) (handle : Handle) :
    (t.tag s handle).map (·.byte) = t.map (·.byte) := by
  apply List.ext_getElem?
  intro i
  rw [tag, List.getElem?_map, List.getElem?_mapIdx, List.getElem?_map, Option.map_map]
  congr 1
  funext b
  show (if _ then _ else b : TaggedByte).byte = b.byte
  split <;> rfl

theorem map_byte_untag (t : TaggedText) (handle : Handle) :
    (t.untag handle).map (·.byte) = t.map (·.byte) :=
  List.map_map ..

theorem map_byte_splice {t : TaggedText} {before after : List UInt8}
    (ht : t.map (·.byte) = before ++ after) (bytes : List UInt8) :
    (t.splice before.length bytes).map (·.byte) = before ++ bytes ++ after := by
  rw [splice, List.map_append, List.map_append, List.map_take, List.map_drop, ht,
    List.take_left, List.drop_left, List.map_map]
  congr 2
  exact List.map_id bytes

theorem map_byte_cut {t : TaggedText} {before mid after : List UInt8}
    (ht : t.map (·.byte) = before ++ mid ++ after) :
    (t.cut before.length (before.length + mid.length)).map (·.byte) = before ++ after := by
  rw [cut, List.map_append, List.map_take, List.map_drop, ht, ← List.length_append,
    List.drop_left, List.append_assoc, List.take_left]

end TaggedText
end StickyScroll
