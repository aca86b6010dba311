import StickyScroll.Proofs.Json.Token

/-!
# Reading what was written: records

A record is written as an object, member by member. It is read as it was if each of its members is
of a field, which is not given twice, and the field reads the member's value. What is read from any
text, on the other hand, has every property that the fields see to: of an object or an array, with
the fields in any order and others between them.
-/

namespace StickyScroll.Json

variable {α δ : Type}

/-! ## Objects -/

/-- The members fill a draft up to another one: each belongs to a field that the draft does not have
yet, and the field reads its value. -/
inductive Fills (fields : List (RecordField δ)) : δ → List (String × List Char) → δ → Prop where
  | done (draft : δ) : Fills fields draft [] draft
  | fill {draft next final : δ} {name : String} {value : List Char}
      {members : List (String × List Char)} (field : RecordField δ)
      (hfield : fields.find? (·.name == name) = some field) (hnew : field.given draft = false)
      (hread : Recovers (field.read draft) value next)
      (hmembers : Fills fields next members final) :
      Fills fields draft ((name, value) :: members) final

theorem recovers_field {read : List Char → Reading α} {written : List Char} {value : α}
    (h : Recovers read written value) (name : String) (get : δ → Option α) (set : δ → α → δ)
    (draft : δ) :
    Recovers ((RecordField.of name read get set).read draft) written (set draft value) := by
  intro rest hrest
  simp only [RecordField.of, h rest hrest]

-- the members that are left, each with its comma
def writeMore : List (String × List Char) → List Char
  | [] => []
  | member :: members => ',' :: writeMembers (member :: members)

theorem writeMembers_cons (name : String) (value : List Char)
    (members : List (String × List Char)) :
    writeMembers ((name, value) :: members) =
      writeString name ++ ':' :: (value ++ writeMore members) := by
  cases members with
  | nil => simp [writeMembers, writeMore]
  | cons member members => simp [writeMembers, writeMore]

-- a member takes more than one character
theorem length_le_length_writeMembers (members : List (String × List Char)) :
    members.length ≤ (writeMembers members).length := by
  induction members with
  | nil => exact Nat.le_refl 0
  | cons member members ih =>
    obtain ⟨name, value⟩ := member
    have hmore : (writeMembers members).length ≤ (writeMore members).length := by
      cases members with
      | nil => exact Nat.zero_le _
      | cons member members => exact Nat.le_succ _
    rw [writeMembers_cons]
    simp only [List.length_append, List.length_cons]
    omega

theorem closed_writeMore (members : List (String × List Char)) (rest : List Char) :
    Closed (writeMore members ++ '\x7d' :: rest) := by
  cases members with
  | nil => exact Or.inr rfl
  | cons member members => exact Or.inl rfl

-- a member is read up to the comma or the brace behind it
theorem readMember_of_field {fields : List (RecordField δ)} {draft next : δ} {name : String}
    {value : List Char} {field : RecordField δ}
    (hfield : fields.find? (·.name == name) = some field) (hnew : field.given draft = false)
    (hread : Recovers (field.read draft) value next) {rest : List Char} (hrest : Closed rest) :
    readMember fields draft (name.toList.flatMap writeChar ++ '"' :: ':' :: (value ++ rest)) =
      .ok (next, rest) := by
  have hcolon : readColon (':' :: (value ++ rest)) = .ok (value ++ rest) := rfl
  unfold readMember
  rw [readChars_flatMap]
  simp only [String.ofList_toList, hfield, hnew, Bool.false_eq_true, if_false, hcolon,
    hread rest hrest]

/-- The members of an object are read into the draft that they fill, whether they are all of the
members or those behind others. -/
theorem readMembers_of_fills {fields : List (RecordField δ)} {draft final : δ}
    {members : List (String × List Char)} (h : Fills fields draft members final)
    (rest : List Char) {rounds : Nat} (hrounds : members.length < rounds) (first : Bool) :
    readMembers fields rounds first draft
        ((if first then writeMembers members else writeMore members) ++ '\x7d' :: rest) =
      .ok (final, '\x7d' :: rest) := by
  induction h generalizing rounds first with
  | done draft =>
    obtain ⟨rounds, rfl⟩ := Nat.exists_eq_add_one_of_ne_zero (Nat.ne_of_gt hrounds)
    cases first <;> rfl
  | @fill draft next final name value members field hfield hnew hread hmembers ih =>
    obtain ⟨rounds, rfl⟩ :=
      Nat.exists_eq_add_one_of_ne_zero (Nat.ne_of_gt (Nat.zero_lt_of_lt hrounds))
    have hmember := readMember_of_field hfield hnew hread (closed_writeMore members rest)
    have hbehind := ih (Nat.lt_of_succ_lt_succ hrounds) false
    rw [if_neg Bool.false_ne_true] at hbehind
    have hwritten : writeMembers ((name, value) :: members) ++ '\x7d' :: rest =
        '"' :: (name.toList.flatMap writeChar ++
          '"' :: ':' :: (value ++ (writeMore members ++ '\x7d' :: rest))) := by
      simp [writeMembers_cons, writeString]
    cases first with
    | true =>
      rw [if_pos rfl, hwritten, readMembers, skipBlanks_cons (by decide)]
      dsimp only
      rw [if_neg (by decide), if_pos rfl, if_pos (by decide), hmember]
      exact hbehind
    | false =>
      rw [if_neg Bool.false_ne_true, writeMore, List.cons_append, hwritten, readMembers,
        skipBlanks_cons (by decide)]
      dsimp only
      rw [if_neg (by decide), if_neg Bool.false_ne_true, if_pos (by decide),
        skipBlanks_cons (by decide)]
      dsimp only
      rw [if_pos (by decide), hmember]
      exact hbehind

/-- A record is read as it was written if its members fill a draft of it. -/
theorem recovers_object {fields : List (RecordField δ)} {draft final : δ}
    {members : List (String × List Char)} {complete : δ → Option α} {value : α}
    (h : Fills fields draft members final) (hcomplete : complete final = some value) :
    Recovers (readRecord fields draft complete) (writeObject members) value := by
  intro rest _
  have hwritten : writeObject members ++ rest =
      '\x7b' :: (writeMembers members ++ '\x7d' :: rest) := by
    simp [writeObject]
  have hrounds : members.length < (writeMembers members ++ '\x7d' :: rest).length + 1 := by
    have := length_le_length_writeMembers members
    rw [List.length_append]
    omega
  have hmembers := readMembers_of_fills h rest hrounds true
  rw [if_pos rfl] at hmembers
  have hclosing : readClosing '\x7d' ('\x7d' :: rest) = .ok rest := rfl
  rw [hwritten, readRecord, skipBlanks_cons (by decide)]
  dsimp only
  rw [if_neg (by decide), if_pos (by decide), hmembers]
  simp only [hcomplete, hclosing]

/-! ## What fields see to -/

/-- A draft keeps the property when the field is read into it. -/
def RecordField.Keeps (field : RecordField δ) (p : δ → Prop) : Prop :=
  ∀ draft, p draft → Yields (field.read draft) p

variable {fields : List (RecordField δ)} {p : δ → Prop}

theorem keeps_field {read : List Char → Reading α} {q : α → Prop} (h : Yields read q)
    (name : String) (get : δ → Option α) {set : δ → α → δ}
    (hset : ∀ draft value, p draft → q value → p (set draft value)) :
    (RecordField.of name read get set).Keeps p := by
  intro draft hdraft cs next rest hread
  simp only [RecordField.of] at hread
  split at hread
  next => cases hread
  next value _ hvalue =>
    cases hread
    exact hset draft value hdraft (h _ _ _ hvalue)

theorem yields_readElements (hfields : ∀ field ∈ fields, field.Keeps p) (first : Bool) {draft : δ}
    (hdraft : p draft) : Yields (readElements first fields draft) p := by
  induction fields generalizing first draft with
  | nil =>
    intro cs value rest h
    cases h
    exact hdraft
  | cons field fields ih =>
    rw [List.forall_mem_cons] at hfields
    have helement := (hfields.1 draft hdraft).andThen fun next hnext =>
      ih hfields.2 false hnext
    intro cs value rest h
    rw [readElements] at h
    dsimp only at h
    split at h
    next => cases h
    next => cases h
    split at h
    next => exact helement _ _ _ h
    split at h
    next =>
      split at h
      next => cases h
      next => cases h
      next => exact helement _ _ _ h
    next => cases h

-- a member of no field leaves the draft as it is
theorem yields_readMember (hfields : ∀ field ∈ fields, field.Keeps p) {draft : δ}
    (hdraft : p draft) : Yields (readMember fields draft) p := by
  intro cs value rest h
  unfold readMember at h
  split at h
  next => cases h
  split at h
  next field hfield =>
    split at h
    next => cases h
    split at h
    next => cases h
    next => exact hfields field (List.mem_of_find?_eq_some hfield) draft hdraft _ _ _ h
  next =>
    split at h
    next => cases h
    split at h
    next => cases h
    next =>
      cases h
      exact hdraft

theorem yields_readMembers (hfields : ∀ field ∈ fields, field.Keeps p) (rounds : Nat)
    (first : Bool) {draft : δ} (hdraft : p draft) :
    Yields (readMembers fields rounds first draft) p := by
  induction rounds generalizing first draft with
  | zero =>
    intro cs value rest h
    cases h
  | succ rounds ih =>
    have hmember := (yields_readMember hfields hdraft).andThen fun next hnext =>
      ih false hnext
    intro cs value rest h
    rw [readMembers] at h
    dsimp only at h
    split at h
    next => cases h
    split at h
    next =>
      cases h
      exact hdraft
    split at h
    next =>
      split at h
      next => exact hmember _ _ _ h
      next => cases h
    split at h
    next =>
      split at h
      next => cases h
      split at h
      next => exact hmember _ _ _ h
      next => cases h
    next => cases h

-- a record is a draft that is complete, from the elements of an array or the members of an object
theorem exists_draft_of_readRecord {draft : δ} {complete : δ → Option α} {cs : List Char}
    {value : α} {rest : List Char} (h : readRecord fields draft complete cs = .ok (value, rest)) :
    ∃ final inside behind, complete final = some value ∧
      (readElements true fields draft inside = .ok (final, behind) ∨
        ∃ rounds, readMembers fields rounds true draft inside = .ok (final, behind)) := by
  unfold readRecord at h
  dsimp only at h
  split at h
  next => cases h
  split at h
  next =>
    split at h
    next => cases h
    next final behind hread =>
      split at h
      next => cases h
      next hfound =>
        split at h <;> cases h
        exact ⟨final, _, behind, hfound, Or.inl hread⟩
  split at h
  next =>
    split at h
    next => cases h
    next final behind hread =>
      split at h
      next => cases h
      next hfound =>
        split at h <;> cases h
        exact ⟨final, _, behind, hfound, Or.inr ⟨_, hread⟩⟩
  next => cases h

/-- What is read as a record comes from a draft that has whatever property the fields see to. -/
theorem yields_readRecord (hfields : ∀ field ∈ fields, field.Keeps p) {draft : δ}
    (hdraft : p draft) {complete : δ → Option α} {q : α → Prop}
    (hcomplete : ∀ final value, p final → complete final = some value → q value) :
    Yields (readRecord fields draft complete) q := by
  intro cs value rest h
  obtain ⟨final, inside, behind, hfound, helements | ⟨rounds, hmembers⟩⟩ :=
    exists_draft_of_readRecord h
  · have hfinal := yields_readElements hfields true hdraft _ _ _ helements
    exact hcomplete final value hfinal hfound
  · have hfinal := yields_readMembers hfields rounds true hdraft _ _ _ hmembers
    exact hcomplete final value hfinal hfound

end StickyScroll.Json
