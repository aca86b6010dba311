import StickyScroll.Json.Token

/-!
# Reading JSON: values that nobody asked for

A field that a record does not have may hold any value. The value is passed over: its grammar is
checked, but not the units of its escapes and not the size of its numbers.
-/

namespace StickyScroll.Json

-- passes over what follows a backslash; counts the characters
def skipEscape : List Char → Except Defect Nat
  | [] => .error .unfinished
  | 'u' :: cs =>
      match readUnit cs with
      | .error defect => .error defect
      | .ok _ => .ok 5
  | c :: _ => if (escapedChar? c).isSome then .ok 1 else .error .malformed

-- passes over the characters of a string, up to and with the closing quote
def skipChars : List Char → Except Defect (List Char)
  | [] => .error .unfinished
  | c :: cs =>
      if c == '"' then .ok cs
      else if c == '\\' then
        match skipEscape cs with
        | .error defect => .error defect
        | .ok count => skipChars (cs.drop count)
      else if c < ' ' then .error .malformed
      else skipChars cs
termination_by cs => cs.length
decreasing_by
  · simp only [List.length_drop, List.length_cons]; omega
  · simp only [List.length_cons]; omega

/-- Passes over digits, of which there must be one; the end of the text is no excuse. -/
def skipDigits (cs : List Char) : Except Defect (List Char) :=
  match cs with
  | c :: _ => if c.isDigit then .ok (cs.dropWhile Char.isDigit) else .error .malformed
  | [] => .error .malformed

def skipScale (cs : List Char) : Except Defect (List Char) :=
  match cs with
  | c :: rest =>
      if c == 'e' || c == 'E' then
        match rest with
        | '+' :: rest => skipDigits rest
        | '-' :: rest => skipDigits rest
        | rest => skipDigits rest
      else .ok cs
  | [] => .ok []

def skipNumeral (cs : List Char) : Except Defect (List Char) :=
  match cs with
  | '0' :: c :: _ =>
      if c.isDigit then .error .malformed else skipFraction (cs.drop 1)
  | cs =>
      match skipDigits cs with
      | .error defect => .error defect
      | .ok rest => skipFraction rest
where
  -- passes over a fraction and an exponent, if there are any
  skipFraction (cs : List Char) : Except Defect (List Char) :=
    match cs with
    | '.' :: rest =>
        match skipDigits rest with
        | .error defect => .error defect
        | .ok rest => skipScale rest
    | cs => skipScale cs

/-- An array or an object that is not closed yet. -/
inductive Enclosure where
  | array | object
  deriving DecidableEq, Repr

/-- What comes next in a value that is passed over. -/
inductive Skipping where
  -- the value is at an end
  | done (rest : List Char)
  -- a value must follow inside these enclosures, the innermost first
  | value (inside : List Enclosure) (rest : List Char)

-- passes over the name of a member and its colon, the opening quote included
def skipName (cs : List Char) : Except Defect (List Char) :=
  match skipBlanks cs with
  | [] => .error .unfinished
  | '"' :: rest =>
      match skipChars rest with
      | .error defect => .error defect
      | .ok rest =>
          match skipBlanks rest with
          | [] => .error .unfinished
          | ':' :: rest => .ok rest
          | _ => .error .malformed
  | _ => .error .malformed

/-- What must stand before a value of an enclosure: the name of a member, or nothing. -/
def enterElement (inside : List Enclosure) (enclosure : Enclosure) (cs : List Char) :
    Except Defect Skipping :=
  match enclosure with
  | .array => .ok (.value (.array :: inside) cs)
  | .object =>
      match skipName cs with
      | .error defect => .error defect
      | .ok rest => .ok (.value (.object :: inside) rest)

/-- After a value: closes enclosures, and goes on to the next element after a comma. -/
def closeElements : List Enclosure → List Char → Except Defect Skipping
  | [], cs => .ok (.done cs)
  | enclosure :: inside, cs =>
      match enclosure, skipBlanks cs with
      | _, [] => .error .unfinished
      | _, ',' :: rest => enterElement inside enclosure rest
      | .array, ']' :: rest => closeElements inside rest
      | .object, '}' :: rest => closeElements inside rest
      | _, _ => .error .malformed

-- after an opening bracket: the enclosure may be empty
def openEnclosure (inside : List Enclosure) (enclosure : Enclosure) (cs : List Char) :
    Except Defect Skipping :=
  match enclosure, skipBlanks cs with
  | _, [] => .error .unfinished
  | .array, ']' :: rest => closeElements inside rest
  | .object, '}' :: rest => closeElements inside rest
  | enclosure, cs => enterElement inside enclosure cs

-- passes over a word, string or number, or steps into an array or object
def skipStep (inside : List Enclosure) (cs : List Char) : Except Defect Skipping :=
  match skipBlanks cs with
  | [] => .error .unfinished
  | 'n' :: rest => after (readWord "ull".toList rest)
  | 't' :: rest => after (readWord "rue".toList rest)
  | 'f' :: rest => after (readWord "alse".toList rest)
  | '"' :: rest => after (skipChars rest)
  | '-' :: rest => after (skipNumeral rest)
  | '[' :: rest => openEnclosure inside .array rest
  | '{' :: rest => openEnclosure inside .object rest
  | c :: rest => if c.isDigit then after (skipNumeral (c :: rest)) else .error .malformed
where
  -- a plain value ended here
  after (scanned : Except Defect (List Char)) : Except Defect Skipping :=
    match scanned with
    | .error defect => .error defect
    | .ok rest => closeElements inside rest

/-- Passes over values until the outermost one is at an end. Every round takes at least one
character, so the rounds are no more than the characters. -/
def skipRounds : Nat → List Enclosure → List Char → Except Defect (List Char)
  | 0, _, _ => .error .unfinished
  | rounds + 1, inside, cs =>
      match skipStep inside cs with
      | .error defect => .error defect
      | .ok (.done rest) => .ok rest
      | .ok (.value inside rest) => skipRounds rounds inside rest

def skipValue (cs : List Char) : Except Defect (List Char) := skipRounds (cs.length + 1) [] cs

end StickyScroll.Json
