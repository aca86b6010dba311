import Mathlib.Data.List.Basic
import StickyScroll.Json.Record
import StickyScroll.Json.Written

/-!
# Reading what was written: strings and numbers

A value that is written is read again as it was, whatever is written behind it in an object or at
the end of a text: nothing, a comma, or a closing brace. Strings hold any characters, and numbers
are the naturals of 64 bits.
-/

namespace StickyScroll.Json

/-- What stands behind a value: nothing, a comma, or a closing brace. -/
def Closed : List Char → Prop
  | [] => True
  | c :: _ => c = ',' ∨ c = '\x7d'

/-- The reader takes what is written off the front of a text, and finds the value in it. -/
def Recovers {α : Type} (read : List Char → Reading α) (written : List Char) (value : α) : Prop :=
  ∀ rest, Closed rest → read (written ++ rest) = .ok (value, rest)

/-- Whatever the reader finds has the property. -/
def Yields {α : Type} (read : List Char → Reading α) (p : α → Prop) : Prop :=
  ∀ cs value rest, read cs = .ok (value, rest) → p value

-- one reader after another, which gets what the first one found
theorem Yields.andThen {α β : Type} {read : List Char → Reading α}
    {next : α → List Char → Reading β} {q : α → Prop} {r : β → Prop} (h : Yields read q)
    (hnext : ∀ value, q value → Yields (next value) r) :
    Yields (fun cs =>
      match read cs with
      | .error defect => .error defect
      | .ok (value, rest) => next value rest) r := by
  intro cs value rest hread
  dsimp only at hread
  split at hread
  next => cases hread
  next found _ hfound => exact hnext found (h _ _ _ hfound) _ _ _ hread

/-! ## Strings -/

-- puts a character in front of what was read
def prepend (c : Char) (reading : Reading (List Char)) : Reading (List Char) :=
  match reading with
  | .error defect => .error defect
  | .ok (more, rest) => .ok (c :: more, rest)

/-- A character is written as an escape with a letter, as an escape with digits, or as it is. -/
theorem writeChar_cases (c : Char) :
    (∃ letter, writeChar c = ['\\', letter] ∧ escapedChar? letter = some c) ∨
    (writeChar c = ['\\', 'u', '0', '0'] ++ controlDigits c ∧ c.toNat < 32) ∨
    (writeChar c = [c] ∧ c ≠ '"' ∧ c ≠ '\\' ∧ ¬ c < ' ') := by
  unfold writeChar
  iterate 7
    split
    next h =>
      rw [beq_iff_eq.1 h]
      exact Or.inl ⟨_, rfl, rfl⟩
  split
  next hcontrol => exact Or.inr (Or.inl ⟨rfl, hcontrol⟩)
  next hquote hslash _ _ _ _ _ hplain =>
    exact Or.inr (Or.inr ⟨rfl, by simpa using hquote, by simpa using hslash, hplain⟩)

theorem readChars_escaped {c : Char} {cs : List Char} {count : Nat}
    (h : readEscape cs = .ok (c, count)) :
    readChars ('\\' :: cs) = prepend c (readChars (cs.drop count)) := by
  rw [readChars, if_neg (by decide), if_pos (by decide), h]
  rfl

theorem readEscape_letter {letter c : Char} (h : escapedChar? letter = some c) (cs : List Char) :
    readEscape (letter :: cs) = .ok (c, 1) := by
  unfold readEscape
  split
  next heq => cases heq
  next heq => cases heq; cases h
  next heq => cases heq; rw [h]

theorem hexValue?_digitChar : ∀ n < 16, hexValue? (Nat.digitChar n) = some n := by decide

theorem readUnit_control {c : Char} (hc : c.toNat < 32) (cs : List Char) :
    readUnit ('0' :: '0' :: (controlDigits c ++ cs)) = .ok c.toNat := by
  have htake : ('0' :: '0' :: (controlDigits c ++ cs)).take 4 = '0' :: '0' :: controlDigits c := rfl
  have hsize : ¬ Text.size ('0' :: '0' :: controlDigits c) < 4 := by
    have h1 := Char.utf8Size_pos (Nat.digitChar (c.toNat / 16))
    have h2 := Char.utf8Size_pos (Nat.digitChar (c.toNat % 16))
    have h0 := Char.utf8Size_pos '0'
    simp only [controlDigits, Text.size_cons, Text.size_nil]
    omega
  have hhigh := hexValue?_digitChar (c.toNat / 16) (by omega)
  have hlow := hexValue?_digitChar (c.toNat % 16) (by omega)
  have hzero : hexValue? '0' = some 0 := by decide
  have hvalues : ('0' :: '0' :: controlDigits c).mapM hexValue? =
      some [0, 0, c.toNat / 16, c.toNat % 16] := by
    simp only [controlDigits, List.mapM_cons, List.mapM_nil, hhigh, hlow, hzero]
    rfl
  rw [readUnit, htake, if_neg hsize, hvalues]
  dsimp only
  congr 1
  omega

theorem readEscape_control {c : Char} (hc : c.toNat < 32) (cs : List Char) :
    readEscape ('u' :: '0' :: '0' :: (controlDigits c ++ cs)) = .ok (c, 5) := by
  have htrailing : isTrailing c.toNat = false := by
    simp only [isTrailing, Bool.and_eq_false_iff, decide_eq_false_iff_not]
    omega
  have hleading : isLeading c.toNat = false := by
    simp only [isLeading, Bool.and_eq_false_iff, decide_eq_false_iff_not]
    omega
  rw [readEscape, readUnit_control hc]
  simp only [htrailing, hleading, Char.ofNat_toNat, Bool.false_eq_true, if_false]

/-- A character is read as it was written, escaped or not. -/
theorem readChars_writeChar (c : Char) (cs : List Char) :
    readChars (writeChar c ++ cs) = prepend c (readChars cs) := by
  rcases writeChar_cases c with ⟨letter, heq, hletter⟩ | ⟨heq, hc⟩ | ⟨heq, hquote, hslash, hplain⟩
  · rw [heq]
    exact readChars_escaped (readEscape_letter hletter cs)
  · rw [heq]
    exact readChars_escaped (readEscape_control hc cs)
  · rw [heq, List.singleton_append, readChars, if_neg (by simpa using hquote),
      if_neg (by simpa using hslash), if_neg hplain]
    rfl

theorem readChars_flatMap (chars rest : List Char) :
    readChars (chars.flatMap writeChar ++ '"' :: rest) = .ok (chars, rest) := by
  induction chars with
  | nil =>
    show readChars ('"' :: rest) = _
    rw [readChars, if_pos (by decide)]
  | cons c cs ih =>
    rw [List.flatMap_cons, List.append_assoc, readChars_writeChar, ih]
    rfl

theorem skipBlanks_cons {c : Char} (h : isBlank c = false) (cs : List Char) :
    skipBlanks (c :: cs) = c :: cs := by
  rw [skipBlanks, List.dropWhile_cons_of_neg]
  simp [h]

theorem writeString_append (s : String) (rest : List Char) :
    writeString s ++ rest = '"' :: (s.toList.flatMap writeChar ++ '"' :: rest) := by
  simp [writeString]

theorem readString_write (s : String) (rest : List Char) :
    readString (writeString s ++ rest) = .ok (s, rest) := by
  rw [writeString_append, readString, skipBlanks_cons (by decide)]
  simp only [readChars_flatMap, String.ofList_toList]

theorem recovers_string (s : String) : Recovers readString (writeString s) s :=
  fun rest _ => readString_write s rest

theorem recovers_optionalString (label : Option String) :
    Recovers readOptionalString (writeOptionalString label) label := by
  intro rest _
  cases label with
  | none => rfl
  | some s =>
    have hskip : skipBlanks (writeString s ++ rest) = writeString s ++ rest := by
      rw [writeString_append, skipBlanks_cons (by decide)]
    show readOptionalString (writeString s ++ rest) = _
    unfold readOptionalString
    rw [hskip]
    split
    next heq =>
      rw [writeString_append] at heq
      cases heq
    next => rw [readString_write]

/-! ## Numbers -/

theorem le_ofDigitChars (ds : List Char) (n : Nat) : n ≤ Nat.ofDigitChars 10 ds n := by
  induction ds generalizing n with
  | nil => exact Nat.le_refl n
  | cons d ds ih =>
    rw [Nat.ofDigitChars_cons]
    have := ih (10 * n + (d.toNat - '0'.toNat))
    omega

-- no digit is left over from a number that fits
theorem gather_of_le {ds : List Char} {n : Nat} (h : Nat.ofDigitChars 10 ds n ≤ maxSignificand) :
    gather n ds = (Nat.ofDigitChars 10 ds n, 0) := by
  induction ds generalizing n with
  | nil => rfl
  | cons d ds ih =>
    rw [Nat.ofDigitChars_cons] at h ⊢
    have hnext : n * 10 + digitValue d = 10 * n + (d.toNat - '0'.toNat) := by
      rw [Nat.mul_comm]
      rfl
    have hle := Nat.le_trans (le_ofDigitChars ds _) h
    rw [gather, hnext, if_pos hle, ih h]

theorem head?_toDigits {n : Nat} (h : 0 < n) : (Nat.toDigits 10 n).head? ≠ some '0' := by
  induction n using Nat.strongRecOn with
  | _ n ih =>
    by_cases hn : n < 10
    · rw [Nat.toDigits_of_lt_base hn]
      simp only [List.head?_cons, ne_eq, Option.some.injEq, Nat.digitChar_eq_zero]
      omega
    · have hle := Nat.le_of_not_lt hn
      have hhead := ih (n / 10) (by omega) (by omega)
      rw [Nat.toDigits_of_base_le (by decide) hle,
        List.head?_append_of_ne_nil _ Nat.toDigits_ne_nil]
      exact hhead

-- a number is written without a leading zero
theorem leading_toDigits {n : Nat} {d : Char} {more : List Char}
    (h : Nat.toDigits 10 n = d :: more) : (d == '0' && !more.isEmpty) = false := by
  by_cases hn : n = 0
  · subst hn
    cases h
    rfl
  · have hhead := head?_toDigits (Nat.pos_of_ne_zero hn)
    rw [h] at hhead
    have hd : (d == '0') = false := by simpa using hhead
    rw [hd, Bool.false_and]

theorem Closed.takeWhile_isDigit {rest : List Char} (h : Closed rest) :
    rest.takeWhile Char.isDigit = [] ∧ rest.dropWhile Char.isDigit = rest := by
  cases rest with
  | nil => exact ⟨rfl, rfl⟩
  | cons c cs => rcases h with rfl | rfl <;> exact ⟨rfl, rfl⟩

/-- The digits of a number are read as that number, if they end there. -/
theorem readNumeral_toDigits {n : Nat} (h : n ≤ maxSignificand) {rest : List Char}
    (hrest : Closed rest) :
    readNumeral false (Nat.toDigits 10 n ++ rest) = .ok (.natural n, rest) := by
  have hdigits : ∀ c ∈ Nat.toDigits 10 n, c.isDigit = true := fun c hc =>
    Nat.isDigit_of_mem_toDigits (by decide) (by decide) hc
  obtain ⟨htake, hdrop⟩ := hrest.takeWhile_isDigit
  have hvalue : Nat.ofDigitChars 10 (Nat.toDigits 10 n) 0 = n := Nat.ofDigitChars_ten_toDigits
  have hgather : gather 0 (Nat.toDigits 10 n) = (n, 0) := by
    rw [gather_of_le (Nat.le_trans (Nat.le_of_eq hvalue) h), hvalue]
  unfold readNumeral
  rw [List.takeWhile_append_of_pos hdigits, List.dropWhile_append_of_pos hdigits, htake, hdrop,
    List.append_nil]
  cases hds : Nat.toDigits 10 n with
  | nil => exact absurd hds Nat.toDigits_ne_nil
  | cons d more =>
    rw [hds] at hgather
    dsimp only
    rw [leading_toDigits hds, if_neg Bool.false_ne_true, hgather]
    cases rest with
    | nil => rfl
    | cons c cs => rcases hrest with rfl | rfl <;> rfl

theorem recovers_natural {n : Nat} (h : n ≤ maxSignificand) :
    Recovers readNatural (writeNatural n) n := by
  intro rest hrest
  have hread := readNumeral_toDigits h hrest
  unfold readNatural writeNatural
  cases hds : Nat.toDigits 10 n with
  | nil => exact absurd hds Nat.toDigits_ne_nil
  | cons d more =>
    have hd : d.isDigit = true := by
      apply Nat.isDigit_of_mem_toDigits (b := 10) (n := n) (by decide) (by decide)
      rw [hds]
      exact List.mem_cons_self
    have hblank : isBlank d = false := by
      rw [← Bool.not_eq_true]
      intro hblank
      simp only [isBlank, Bool.or_eq_true, beq_iff_eq] at hblank
      rcases hblank with ((rfl | rfl) | rfl) | rfl <;> cases hd
    rw [hds] at hread
    rw [List.cons_append] at hread ⊢
    rw [skipBlanks_cons hblank]
    dsimp only
    rw [if_pos hd, hread]

theorem gather_le (ds : List Char) {n : Nat} (h : n ≤ maxSignificand) :
    (gather n ds).1 ≤ maxSignificand := by
  induction ds generalizing n with
  | nil => exact h
  | cons d ds ih =>
    rw [gather]
    split
    next hnext => exact ih hnext
    next => exact h

theorem yields_finishNumeral (significand : Nat) (exponent : Int) :
    Yields (finishNumeral significand exponent) (· = .other) := by
  intro cs value rest h
  unfold finishNumeral at h
  split at h
  next => cases h
  next =>
    cases h
    rfl

theorem yields_readExponent (significand : Nat) (exponent : Int) :
    Yields (readExponent significand exponent) (· = .other) := by
  intro cs value rest h
  unfold readExponent at h
  dsimp only at h
  split at h
  next => cases h
  split at h
  next => exact yields_finishNumeral _ _ _ _ _ h
  next => cases h

theorem yields_readScale (significand : Nat) (exponent : Int) :
    Yields (readScale significand exponent) (· = .other) := by
  intro cs value rest h
  unfold readScale at h
  split at h
  next => exact yields_readExponent _ _ _ _ _ h
  next => exact yields_readExponent _ _ _ _ _ h
  next => exact yields_finishNumeral _ _ _ _ _ h

theorem yields_readFraction (significand : Nat) (exponent : Int) :
    Yields (readFraction significand exponent) (· = .other) := by
  intro cs value rest h
  unfold readFraction at h
  split at h
  next => cases h
  split at h
  next => exact yields_readScale _ _ _ _ _ h
  next => cases h

/-- A number that a field may hold fits in 64 bits. -/
theorem yields_readNumeral (negative : Bool) :
    Yields (readNumeral negative) fun numeral =>
      ∀ n, numeral = .natural n → n ≤ maxSignificand := by
  have hother {numeral : Numeral} (h : numeral = .other) (n : Nat) (hn : numeral = .natural n) :
      n ≤ maxSignificand := by
    rw [h] at hn
    cases hn
  intro cs value rest h
  unfold readNumeral at h
  dsimp only at h
  split at h
  next => split at h <;> cases h
  split at h
  next => cases h
  split at h
  next => exact hother (yields_readFraction _ _ _ _ _ h)
  next => exact hother (yields_readExponent _ _ _ _ _ h)
  next => exact hother (yields_readExponent _ _ _ _ _ h)
  split at h
  next =>
    cases h
    intro n hn
    split at hn
    next => cases hn
    next =>
      cases hn
      exact gather_le _ (Nat.zero_le _)
  next => exact hother (yields_finishNumeral _ _ _ _ _ h)

theorem yields_readNatural : Yields readNatural (· ≤ maxSignificand) := by
  intro cs value rest h
  unfold readNatural at h
  dsimp only at h
  split at h
  next => cases h
  split at h
  next =>
    split at h
    next => cases h
    next hread =>
      cases h
      exact yields_readNumeral false _ _ _ hread _ rfl
    next => cases h
  next => cases h

end StickyScroll.Json
