import StickyScroll.Proofs.Manager.Shared

/-!
# Houses

A house is several managers at work on the same documents and registries. Its cells become what a
list of turns makes of them, so what is known of turns holds in a house. Of its managers a house
keeps that each holds no more than it may, and that what is held for a document id is a registry at
work on a document of that id.
-/

namespace StickyScroll

namespace Manager

/-- What the manager holds for a document id is a registry that works on a document of that id. -/
def Leads (m : Manager) (c : Cells Buffer) : Prop :=
  ∀ id r, m.get? id = some r → ∃ registry d b, c.Works r registry d b ∧ b.id = id

-- an id that is not held any more gave away its place
theorem size_erase_lt {m : Manager} {id : String} {r : RegistryRef} (h : m.get? id = some r) :
    (m.held.erase id).size < m.held.size := by
  have hkey : id ∈ m.held.keys := Table.mem_keys_of_find?_eq_some h
  rw [← Table.length_keys, ← Table.length_keys, Table.keys_erase]
  exact List.length_filter_lt_length_iff_exists.2 ⟨id, hkey, by simp⟩

-- a registry is held for one id, and not held at all when that is given up
theorem Leads.get?_erase_ne {m : Manager} {c : Cells Buffer} (h : m.Leads c) {id : String}
    {r : RegistryRef} (hget : m.get? id = some r) (other : String) :
    ({ m with held := m.held.erase id } : Manager).get? other ≠ some r := by
  intro hother
  rw [get?_erase] at hother
  split at hother
  next => cases hother
  next hne =>
    obtain ⟨registry, d, b, hworks, hid⟩ := h id r hget
    obtain ⟨registry', d', b', hworks', hid'⟩ := h other r hother
    obtain ⟨-, -, rfl⟩ := hworks.unique hworks'
    exact hne (hid'.symm.trans hid)

end Manager

namespace Cells

theorem stable_id (id : String) : Stable fun _ b => b.id = id where
  evolves _ hev hid := hev.id_eq.trans hid
  perform change hb hid := (Registry.evolves_perform _ hb change).id_eq.trans hid

end Cells

/-! ## A manager and a turn -/

theorem Manager.Leads.turn {m : Manager} {c : Cells Buffer} (h : m.Leads c) (hc : c.Sound)
    (t : Turn) : m.Leads (c.apply t) := by
  intro id r hget
  obtain ⟨registry, d, b, hworks, hid⟩ := h id r hget
  obtain ⟨registry', b', hworks', hid'⟩ := (Cells.stable_id id).after hc hworks hid [t]
  exact ⟨registry', d, b', hworks', hid'⟩

/-- A manager that makes a move holds what it held, or all of it but one document, or one document
more, with a registry that is made for it. -/
theorem Office.manager_apply_cases (o : Office) (move : Move) :
    (o.apply move).manager = o.manager ∨
    (∃ id, (o.apply move).manager = { o.manager with held := o.manager.held.erase id }) ∨
    ∃ d b, o.cells.documents[d]? = some b ∧ o.manager.get? b.id = none ∧
      o.manager.size < o.manager.maxDocuments ∧
      (o.apply move).manager =
        { o.manager with held := o.manager.held.insert b.id o.cells.registries.length } ∧
      (o.apply move).cells = (o.cells.addRegistry d).2 := by
  cases move with
  | makeDocument id text => exact Or.inl rfl
  | edit d change =>
    refine Or.inl ?_
    simp only [apply]
    split <;> rfl
  | act r change =>
    refine Or.inl ?_
    simp only [apply]
    split
    · rfl
    · split <;> rfl
  | close loans id =>
    cases hget : o.manager.get? id with
    | none => exact Or.inl (congrArg Office.manager (apply_close_of_none hget loans))
    | some r =>
      have hfind : o.manager.held.find? id = some r := hget
      refine Or.inr (Or.inl ⟨id, ?_⟩)
      simp only [apply, Manager.close, hfind]
  | openDocument loans d =>
    cases hd : o.cells.documents[d]? with
    | none =>
      refine Or.inl ?_
      simp only [apply, hd]
    | some b =>
      simp only [apply, hd]
      rcases o.manager.openDocument_cases o.cells loans d b with
        ⟨_, -, heq⟩ | ⟨-, -, heq⟩ | ⟨hnone, hroom, heq⟩
      · rw [heq]
        exact Or.inl rfl
      · rw [heq]
        exact Or.inl rfl
      · rw [heq]
        exact Or.inr (Or.inr ⟨d, b, hd, hnone, hroom, rfl, rfl⟩)

-- the manager whose turn it is
theorem Manager.Leads.apply {m : Manager} {c : Cells Buffer} (h : m.Leads c) (hc : c.Sound)
    (move : Office.Move) : (Office.apply ⟨m, c⟩ move).manager.Leads (c.apply ⟨m, move⟩) := by
  have hturn := h.turn hc ⟨m, move⟩
  rcases Office.manager_apply_cases ⟨m, c⟩ move with
    heq | ⟨id, heq⟩ | ⟨d, b, hd, -, -, heq, hcells⟩
  · rw [heq]
    exact hturn
  · rw [heq]
    intro other r hother
    rw [get?_erase] at hother
    split at hother
    next => cases hother
    next => exact hturn other r hother
  · rw [heq]
    intro other r hother
    rw [get?_insert] at hother
    split at hother
    next hid =>
      cases hother
      refine ⟨.empty, d, b, ?_, hid.symm⟩
      show (Office.apply ⟨m, c⟩ move).cells.Works _ _ _ _
      rw [hcells]
      exact ⟨Cells.registries_addRegistry_length c d, hd⟩
    next => exact hturn other r hother

theorem Manager.size_apply_le {m : Manager} (h : m.size ≤ m.maxDocuments) (c : Cells Buffer)
    (move : Office.Move) :
    (Office.apply ⟨m, c⟩ move).manager.size ≤ (Office.apply ⟨m, c⟩ move).manager.maxDocuments := by
  rcases Office.manager_apply_cases ⟨m, c⟩ move with
    heq | ⟨id, heq⟩ | ⟨d, b, -, hnone, hroom, heq, -⟩
  · rw [heq]
    exact h
  · rw [heq]
    exact Nat.le_trans (Table.size_erase_le m.held id) h
  · rw [heq]
    show (m.held.insert b.id _).size ≤ m.maxDocuments
    rw [Table.size_insert_of_none hnone]
    exact hroom

/-! ## Several managers -/

/-- Managers, and the cells that they share. -/
structure House where
  managers : List Manager
  cells : Cells Buffer

namespace House

def empty : House := ⟨[], .empty⟩

/-- What happens in a house. -/
inductive Step where
  -- one more manager, who may hold some number of documents
  | hire (maxDocuments : Nat)
  -- the manager at a place of the list makes a move
  | move (k : Nat) (move : Office.Move)

def apply (h : House) : Step → House
  | .hire maxDocuments => { h with managers := h.managers ++ [.ofLimit maxDocuments] }
  | .move k move =>
      match h.managers[k]? with
      | none => h
      | some m =>
          let o := Office.apply ⟨m, h.cells⟩ move
          ⟨h.managers.set k o.manager, o.cells⟩

def after (h : House) (steps : List Step) : House := steps.foldl apply h

/-- What a house keeps. -/
structure Orderly (h : House) : Prop where
  turns : ∃ turns, h.cells = (Cells.empty : Cells Buffer).after turns
  leads : ∀ m ∈ h.managers, m.Leads h.cells
  room : ∀ m ∈ h.managers, m.size ≤ m.maxDocuments

theorem orderly_empty : empty.Orderly where
  turns := ⟨[], rfl⟩
  leads _ hm := nomatch hm
  room _ hm := nomatch hm

theorem Orderly.sound {h : House} (horderly : h.Orderly) : h.cells.Sound := by
  obtain ⟨turns, heq⟩ := horderly.turns
  rw [heq]
  exact Cells.sound_empty.after turns

theorem Orderly.apply {h : House} (horderly : h.Orderly) (step : Step) :
    (h.apply step).Orderly := by
  cases step with
  | hire maxDocuments =>
    refine ⟨horderly.turns, ?_, ?_⟩
    · intro m hm
      rcases List.mem_append.1 hm with hold | hnew
      · exact horderly.leads m hold
      · obtain rfl := List.mem_singleton.1 hnew
        intro id r hget
        cases hget
    · intro m hm
      rcases List.mem_append.1 hm with hold | hnew
      · exact horderly.room m hold
      · obtain rfl := List.mem_singleton.1 hnew
        exact Nat.zero_le _
  | move k move =>
    cases hk : h.managers[k]? with
    | none =>
      simp only [House.apply, hk]
      exact horderly
    | some m =>
      simp only [House.apply, hk]
      have hm : m ∈ h.managers := List.mem_of_getElem? hk
      refine ⟨?_, ?_, ?_⟩
      · obtain ⟨turns, heq⟩ := horderly.turns
        refine ⟨turns ++ [⟨m, move⟩], ?_⟩
        rw [Cells.after_append, ← heq]
        rfl
      · intro other hother
        rcases List.mem_or_eq_of_mem_set hother with hold | rfl
        · exact (horderly.leads other hold).turn horderly.sound ⟨m, move⟩
        · exact (horderly.leads m hm).apply horderly.sound move
      · intro other hother
        rcases List.mem_or_eq_of_mem_set hother with hold | rfl
        · exact horderly.room other hold
        · exact Manager.size_apply_le (horderly.room m hm) h.cells move

theorem Orderly.after {h : House} (horderly : h.Orderly) (steps : List Step) :
    (h.after steps).Orderly := by
  induction steps generalizing h with
  | nil => exact horderly
  | cons step rest ih => exact ih (horderly.apply step)

end House
end StickyScroll
