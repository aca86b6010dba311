/-!
# Tables

A table maps keys to values, one value a key. It is a list of pairs without a second pair of a key;
which pair comes first says nothing.
-/

namespace StickyScroll

/-- A finite map, as a list of pairs. -/
structure Table (κ α : Type) where
  entries : List (κ × α)

namespace Table

variable {κ α : Type}

def empty : Table κ α := ⟨[]⟩

def keys (t : Table κ α) : List κ := t.entries.map (·.1)

def size (t : Table κ α) : Nat := t.entries.length

def filter (t : Table κ α) (p : κ → α → Bool) : Table κ α := ⟨t.entries.filter fun e => p e.1 e.2⟩

theorem length_keys (t : Table κ α) : t.keys.length = t.size := List.length_map ..

-- an entry passes a test or fails it
theorem size_filter_add_size_filter_not (t : Table κ α) (p : κ → α → Bool) :
    (t.filter p).size + (t.filter fun k a => !p k a).size = t.size := by
  obtain ⟨entries⟩ := t
  simp only [size, filter]
  induction entries with
  | nil => rfl
  | cons e rest ih =>
    cases hp : p e.1 e.2 with
    | true => simp [hp]; omega
    | false => simp [hp]; omega

theorem nodup_keys_filter {t : Table κ α} (h : t.keys.Nodup) (p : κ → α → Bool) :
    (t.filter p).keys.Nodup :=
  h.sublist (List.filter_sublist.map _)

variable [DecidableEq κ]

def find? (t : Table κ α) (k : κ) : Option α := (t.entries.find? (·.1 == k)).map (·.2)

def erase (t : Table κ α) (k : κ) : Table κ α := ⟨t.entries.filter (·.1 != k)⟩

-- the table in which a key has a given value, whatever it had before
def insert (t : Table κ α) (k : κ) (a : α) : Table κ α := ⟨(k, a) :: (t.erase k).entries⟩

theorem find?_erase (t : Table κ α) (k l : κ) :
    (t.erase k).find? l = if l = k then none else t.find? l := by
  obtain ⟨entries⟩ := t
  simp only [find?, erase, List.find?_filter]
  split
  next h =>
    subst h
    simp
  next h =>
    congr 2
    funext e
    by_cases he : e.1 = l
    · simp [he, h]
    · simp [he]

theorem find?_insert (t : Table κ α) (k l : κ) (a : α) :
    (t.insert k a).find? l = if l = k then some a else t.find? l := by
  by_cases h : l = k
  · subst h
    simp [find?, insert]
  · have hk : (k == l) = false := by simpa using fun hkl => h hkl.symm
    have := find?_erase t k l
    simp only [find?, if_neg h] at this
    simp [find?, insert, hk, h, this]

theorem find?_filter_of_pos {t : Table κ α} {k : κ} {a : α} {p : κ → α → Bool}
    (h : t.find? k = some a) (hp : p k a = true) : (t.filter p).find? k = some a := by
  obtain ⟨entries⟩ := t
  induction entries with
  | nil => cases h
  | cons e rest ih =>
    obtain ⟨l, c⟩ := e
    by_cases hl : l = k
    · -- the entry that is found passes the test, so it is still the first of its key
      have hc : c = a := by simpa [find?, hl] using h
      subst hl hc
      simp [find?, filter, hp]
    · have hrest : (Table.mk rest).find? k = some a := by simpa [find?, hl] using h
      have hkept := ih hrest
      by_cases hpass : p l c = true
      · simpa [find?, filter, hpass, hl] using hkept
      · simpa [find?, filter, hpass] using hkept

-- the entries that a filter keeps are old ones
theorem find?_filter_of_none {t : Table κ α} {k : κ} (h : t.find? k = none)
    (p : κ → α → Bool) : (t.filter p).find? k = none := by
  simp only [find?, filter, Option.map_eq_none_iff, List.find?_eq_none] at *
  intro e he
  exact h e (List.mem_filter.1 he).1

theorem find?_isSome_of_mem_keys {t : Table κ α} {k : κ} (h : k ∈ t.keys) :
    (t.find? k).isSome = true := by
  obtain ⟨e, he, rfl⟩ := List.mem_map.1 h
  simp only [find?, Option.isSome_map, List.find?_isSome]
  exact ⟨e, he, beq_self_eq_true e.1⟩

theorem mem_keys_of_find?_eq_some {t : Table κ α} {k : κ} {a : α} (h : t.find? k = some a) :
    k ∈ t.keys := by
  obtain ⟨e, hfind, -⟩ := Option.map_eq_some_iff.1 h
  have hkey : e.1 = k := by simpa using List.find?_some hfind
  exact List.mem_map.2 ⟨e, List.mem_of_find?_eq_some hfind, hkey⟩

/-! ## Keys -/

theorem keys_erase (t : Table κ α) (k : κ) : (t.erase k).keys = t.keys.filter (· != k) := by
  simp only [keys, erase, List.filter_map]
  rfl

theorem keys_insert (t : Table κ α) (k : κ) (a : α) :
    (t.insert k a).keys = k :: t.keys.filter (· != k) := by
  rw [← keys_erase]
  rfl

theorem mem_keys_iff {t : Table κ α} {k : κ} : k ∈ t.keys ↔ ∃ a, t.find? k = some a :=
  ⟨fun h => Option.isSome_iff_exists.1 (find?_isSome_of_mem_keys h), fun ⟨_, h⟩ =>
    mem_keys_of_find?_eq_some h⟩

theorem size_erase_le (t : Table κ α) (k : κ) : (t.erase k).size ≤ t.size :=
  List.length_filter_le ..

theorem size_erase_of_none {t : Table κ α} {k : κ} (h : t.find? k = none) :
    (t.erase k).size = t.size := by
  have hnone : k ∉ t.keys := by
    rw [mem_keys_iff, h]
    exact fun ⟨_, hsome⟩ => nomatch hsome
  rw [← length_keys, keys_erase, ← length_keys, List.filter_eq_self.2]
  intro l hl
  simpa using fun hlk : l = k => hnone (hlk ▸ hl)

-- a key that had no value adds one entry
theorem size_insert_of_none {t : Table κ α} {k : κ} (h : t.find? k = none) (a : α) :
    (t.insert k a).size = t.size + 1 :=
  congrArg Nat.succ (size_erase_of_none h)

-- a key that has a value has one entry
theorem size_erase_of_some {t : Table κ α} (hnd : t.keys.Nodup) {k : κ} {a : α}
    (h : t.find? k = some a) : (t.erase k).size + 1 = t.size := by
  have hmem := mem_keys_of_find?_eq_some h
  have hpos := List.length_pos_of_mem hmem
  rw [← length_keys, keys_erase, ← hnd.erase_eq_filter, List.length_erase_of_mem hmem, length_keys]
  rw [length_keys] at hpos
  omega

theorem nodup_keys_erase {t : Table κ α} (h : t.keys.Nodup) (k : κ) : (t.erase k).keys.Nodup := by
  rw [keys_erase]
  exact h.filter _

theorem nodup_keys_insert {t : Table κ α} (h : t.keys.Nodup) (k : κ) (a : α) :
    (t.insert k a).keys.Nodup := by
  rw [keys_insert, List.nodup_cons]
  exact ⟨fun hk => by simp at hk, h.filter _⟩

/-! ## Entries -/

-- what is found under a key is its entry, if no key has two
theorem find?_eq_some_iff {t : Table κ α} (h : t.keys.Nodup) {k : κ} {a : α} :
    t.find? k = some a ↔ (k, a) ∈ t.entries := by
  obtain ⟨entries⟩ := t
  induction entries with
  | nil => simp [find?]
  | cons e rest ih =>
    obtain ⟨l, c⟩ := e
    obtain ⟨hfirst, hrest⟩ := List.nodup_cons.1 h
    have hrest' := ih hrest
    by_cases hl : l = k
    · subst hl
      have hnone : (l, a) ∉ rest := fun hmem => hfirst (List.mem_map.2 ⟨_, hmem, rfl⟩)
      simp [find?, hnone, eq_comm]
    · have hne : (k, a) ≠ (l, c) := fun heq => hl (congrArg Prod.fst heq).symm
      rw [List.mem_cons, or_iff_right hne, ← hrest']
      simp [find?, hl]

theorem find?_filter {t : Table κ α} (h : t.keys.Nodup) (p : κ → α → Bool) (k : κ) :
    (t.filter p).find? k = (t.find? k).filter (p k) := by
  apply Option.ext
  intro a
  rw [find?_eq_some_iff (nodup_keys_filter h p), Option.filter_eq_some_iff, find?_eq_some_iff h]
  exact List.mem_filter

-- it does not matter in which order the entries come
theorem find?_of_perm {t u : Table κ α} (h : t.keys.Nodup) (hperm : u.entries.Perm t.entries)
    (k : κ) : u.find? k = t.find? k := by
  have hkeys : u.keys.Nodup := (hperm.map _).nodup_iff.2 h
  apply Option.ext
  intro a
  rw [find?_eq_some_iff hkeys, find?_eq_some_iff h]
  exact hperm.mem_iff

end Table
end StickyScroll
