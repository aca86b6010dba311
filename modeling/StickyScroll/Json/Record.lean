import StickyScroll.Json.Numeral
import StickyScroll.Json.Skip

/-!
# Reading JSON: fields and records

Readers for what a record is made of, and for the record itself, which is either an object or an
array of its fields in order. Fields of other names are passed over; a field that comes twice, or a
required field that is missing, makes the record one of another shape.
-/

namespace StickyScroll.Json

/-- Why the value in front cannot be the one asked for. It is read far enough to be recognised, so
it may turn out not to be JSON at all. -/
def refuse (cs : List Char) : Defect :=
  match cs with
  | [] => .unfinished
  | c :: rest =>
      let verdict {α : Type} (scanned : Except Defect α) : Defect :=
        match scanned with
        | .error defect => defect
        | .ok _ => .mismatched
      if c == 'n' then verdict (readWord "ull".toList rest)
      else if c == 't' then verdict (readWord "rue".toList rest)
      else if c == 'f' then verdict (readWord "alse".toList rest)
      else if c == '"' then verdict (readChars rest)
      else if c == '-' then verdict (readNumeral true rest)
      else if c.isDigit then verdict (readNumeral false (c :: rest))
      else if c == '[' || c == '\x7b' then .mismatched
      else .malformed

def readNatural (cs : List Char) : Reading Nat :=
  let cs := skipBlanks cs
  match cs with
  | [] => .error .unfinished
  | c :: _ =>
      if c.isDigit then
        match readNumeral false cs with
        | .error defect => .error defect
        | .ok (.natural n, rest) => .ok (n, rest)
        | .ok (.other, _) => .error .mismatched
      else .error (refuse cs)

def readString (cs : List Char) : Reading String :=
  let cs := skipBlanks cs
  match cs with
  | '"' :: rest =>
      match readChars rest with
      | .error defect => .error defect
      | .ok (text, rest) => .ok (String.ofList text, rest)
  | cs => .error (refuse cs)

def readOptionalString (cs : List Char) : Reading (Option String) :=
  match skipBlanks cs with
  | 'n' :: rest =>
      match readWord "ull".toList rest with
      | .error defect => .error defect
      | .ok rest => .ok (none, rest)
  | cs =>
      match readString cs with
      | .error defect => .error defect
      | .ok (text, rest) => .ok (some text, rest)

/-! ## Records -/

/-- A field of a record: its name, whether a draft of the record has it yet, and how its value is
read into a draft. -/
structure RecordField (δ : Type) where
  name : String
  given : δ → Bool
  read : δ → List Char → Reading δ

-- a reader of values, and a way to put its value into a draft
def RecordField.of {α δ : Type} (name : String) (read : List Char → Reading α) (get : δ → Option α)
    (set : δ → α → δ) : RecordField δ where
  name := name
  given draft := (get draft).isSome
  read draft cs :=
    match read cs with
    | .error defect => .error defect
    | .ok (value, rest) => .ok (set draft value, rest)

/-- Reads the elements of an array into the fields, one each. The first element has no comma before
it. -/
def readElements {δ : Type} : (first : Bool) → List (RecordField δ) → δ → List Char → Reading δ
  | _, [], draft, cs => .ok (draft, cs)
  | first, field :: fields, draft, cs =>
      let element (cs : List Char) : Reading δ :=
        match field.read draft cs with
        | .error defect => .error defect
        | .ok (draft, rest) => readElements false fields draft rest
      match skipBlanks cs with
      | [] => .error .unfinished
      | ']' :: _ => .error .mismatched
      | c :: rest =>
          if first then element (c :: rest)
          else if c == ',' then
            match skipBlanks rest with
            | [] => .error .unfinished
            | ']' :: _ => .error .malformed
            | rest => element rest
          else .error .malformed

-- takes a closing bracket off the front; nothing else may stand there
def readClosing (bracket : Char) (cs : List Char) : Except Defect (List Char) :=
  match skipBlanks cs with
  | [] => .error .unfinished
  | c :: rest => if c == bracket then .ok rest else .error .malformed

def readColon (cs : List Char) : Except Defect (List Char) := readClosing ':' cs

-- reads a member of an object, from behind the opening quote of its name
def readMember {δ : Type} (fields : List (RecordField δ)) (draft : δ) (cs : List Char) :
    Reading δ :=
  match readChars cs with
  | .error defect => .error defect
  | .ok (name, rest) =>
      match fields.find? (·.name == String.ofList name) with
      | some field =>
          if field.given draft then .error .mismatched
          else
            match readColon rest with
            | .error defect => .error defect
            | .ok rest => field.read draft rest
      | none =>
          match readColon rest with
          | .error defect => .error defect
          | .ok rest =>
              match skipValue rest with
              | .error defect => .error defect
              | .ok rest => .ok (draft, rest)

/-- Reads the members of an object into the fields, up to and without the closing brace. Every
member takes at least one character, so there are no more members than characters. -/
def readMembers {δ : Type} (fields : List (RecordField δ)) :
    (rounds : Nat) → (first : Bool) → δ → List Char → Reading δ
  | 0, _, _, _ => .error .unfinished
  | rounds + 1, first, draft, cs =>
      let member (cs : List Char) : Reading δ :=
        match readMember fields draft cs with
        | .error defect => .error defect
        | .ok (draft, rest) => readMembers fields rounds false draft rest
      match skipBlanks cs with
      | [] => .error .unfinished
      | c :: rest =>
          if c == '\x7d' then .ok (draft, c :: rest)
          else if first then if c == '"' then member rest else .error .malformed
          else if c == ',' then
            match skipBlanks rest with
            | [] => .error .unfinished
            | d :: rest => if d == '"' then member rest else .error .malformed
          else .error .malformed

/-- Reads a record: the fields into a draft, and the draft into a value once all required fields are
there. -/
def readRecord {α δ : Type} (fields : List (RecordField δ)) (draft : δ) (complete : δ → Option α)
    (cs : List Char) : Reading α :=
  let cs := skipBlanks cs
  let finish (bracket : Char) (draft : δ) (rest : List Char) : Reading α :=
    match complete draft with
    | none => .error .mismatched
    | some value =>
        match readClosing bracket rest with
        | .error defect => .error defect
        | .ok rest => .ok (value, rest)
  match cs with
  | [] => .error .unfinished
  | c :: rest =>
      if c == '[' then
        match readElements true fields draft rest with
        | .error defect => .error defect
        | .ok (draft, rest) => finish ']' draft rest
      else if c == '\x7b' then
        match readMembers fields (rest.length + 1) true draft rest with
        | .error defect => .error defect
        | .ok (draft, rest) => finish '\x7d' draft rest
      else .error (refuse cs)

-- reads a whole text: one value, and blanks after it
def readAll {α : Type} (read : List Char → Reading α) (text : String) : Except Defect α :=
  match read text.toList with
  | .error defect => .error defect
  | .ok (value, rest) => if (skipBlanks rest).isEmpty then .ok value else .error .malformed

end StickyScroll.Json
