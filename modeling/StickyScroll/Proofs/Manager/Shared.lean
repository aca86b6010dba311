import StickyScroll.Proofs.Manager.Office
import StickyScroll.Proofs.Registry.Frame

/-!
# Offices that share their cells

Documents and registries may be shared by several offices, and a registry may be in use long after
its document was closed. What goes on is then a list of turns: at each turn a manager makes a move,
and nothing is assumed of what that manager holds. `Cells.effect` says all that a turn can do to the
cells, and `Cells.works_apply` what it means for one registry and its document; a property of the
two that is `Stable` lasts from turn to turn.
-/

namespace StickyScroll

/-- A move in one of the offices that share some cells. -/
structure Turn where
  manager : Manager
  move : Office.Move

namespace Cells

def apply (c : Cells Buffer) (t : Turn) : Cells Buffer := (Office.apply ⟨t.manager, c⟩ t.move).cells

def after (c : Cells Buffer) (turns : List Turn) : Cells Buffer := turns.foldl apply c

@[simp] theorem after_cons (c : Cells Buffer) (t : Turn) (rest : List Turn) :
    c.after (t :: rest) = (c.apply t).after rest := rfl

theorem after_append (c : Cells Buffer) (first second : List Turn) :
    c.after (first ++ second) = (c.after first).after second :=
  List.foldl_append

/-- The registry in cell `r` works on the document in cell `d`. -/
structure Works (c : Cells Buffer) (r : RegistryRef) (registry : Registry ListenerRef)
    (d : DocumentRef) (b : Buffer) : Prop where
  registry_eq : c.registries[r]? = some ⟨registry, d⟩
  document_eq : c.documents[d]? = some b

-- a registry works on one document, and there is one of each in a cell
theorem Works.unique {c : Cells Buffer} {r : RegistryRef}
    {registry registry' : Registry ListenerRef} {d e : DocumentRef} {b b' : Buffer}
    (h : c.Works r registry d b)
    (h' : c.Works r registry' e b') : registry = registry' ∧ d = e ∧ b = b' := by
  have hregistry := h.registry_eq.symm.trans h'.registry_eq
  cases hregistry
  have hdocument := h.document_eq.symm.trans h'.document_eq
  cases hdocument
  exact ⟨rfl, rfl, rfl⟩

theorem not_works_empty {r : RegistryRef} {registry : Registry ListenerRef} {d : DocumentRef}
    {b : Buffer} : ¬ (empty : Cells Buffer).Works r registry d b := by
  intro h
  cases h.registry_eq

/-! ## The registry that acts -/

-- the registry may be written, and so may its document
def isFree (c : Cells Buffer) (loans : Loans) (r : RegistryRef) : Bool :=
  loans.permit (.registry r) .write &&
    (c.registries[r]?).any fun shared => loans.permit (.document shared.document) .write

/-- The registry that acts in a turn, and how: one that is used directly, or one that is closed
while it is free and gives up its lines. -/
def acting? (c : Cells Buffer) (t : Turn) : Option (RegistryRef × Registry.Change ListenerRef) :=
  match t.move with
  | .act r change => some (r, change)
  | .close loans id =>
      match t.manager.get? id with
      | none => none
      | some r => if c.isFree loans r then some (r, .release) else none
  | _ => none

/-- What a turn can leave of the cells. -/
inductive Effect (c : Cells Buffer) (t : Turn) : Cells Buffer → Prop where
  -- nothing is done, or it is refused
  | idle
      (hidle : ∀ r registry d b change, c.Works r registry d b → c.acting? t ≠ some (r, change)) :
      Effect c t c
  | makes (id : String) (text : List Char) (hnone : c.acting? t = none) :
      Effect c t (c.addDocument (Buffer.ofText id text)).2
  | edits {d : DocumentRef} {b : Buffer} (change : Buffer.Change) (hnone : c.acting? t = none)
      (hd : c.documents[d]? = some b) : Effect c t (c.setDocument d (b.apply change))
  | opens {d : DocumentRef} {b : Buffer} (hnone : c.acting? t = none)
      (hd : c.documents[d]? = some b) : Effect c t (c.addRegistry d).2
  | acts {r : RegistryRef} {registry : Registry ListenerRef} {d : DocumentRef} {b : Buffer}
      {change : Registry.Change ListenerRef} (hworks : c.Works r registry d b)
      (hacting : c.acting? t = some (r, change)) :
      Effect c t (c.settle r d (registry.perform b change))

theorem effect_idle_of_none {c : Cells Buffer} {t : Turn} (hnone : c.acting? t = none) :
    c.Effect t c := by
  apply Effect.idle
  intro r registry d b change _ hacting
  rw [hnone] at hacting
  cases hacting

-- a registry that is asked to act does so if it has a document
theorem effect_of_acting {c : Cells Buffer} {t : Turn} {r : RegistryRef}
    {change : Registry.Change ListenerRef} (hacting : c.acting? t = some (r, change))
    (happly : ∀ registry d b, c.Works r registry d b →
      c.apply t = c.settle r d (registry.perform b change))
    (hidle : (¬ ∃ registry d b, c.Works r registry d b) → c.apply t = c) :
    c.Effect t (c.apply t) := by
  by_cases hworks : ∃ registry d b, c.Works r registry d b
  · obtain ⟨registry, d, b, h⟩ := hworks
    rw [happly registry d b h]
    exact .acts h hacting
  · rw [hidle hworks]
    apply Effect.idle
    intro q registry d b change' h hacting'
    cases hacting.symm.trans hacting'
    exact hworks ⟨registry, d, b, h⟩

theorem apply_act {c : Cells Buffer} (m : Manager) {r : RegistryRef}
    {registry : Registry ListenerRef} {d : DocumentRef} {b : Buffer} (h : c.Works r registry d b)
    (change : Registry.Change ListenerRef) :
    c.apply ⟨m, .act r change⟩ = c.settle r d (registry.perform b change) := by
  simp only [apply, Office.apply, h.registry_eq, h.document_eq]
  rfl

theorem apply_act_idle {c : Cells Buffer} (m : Manager) {r : RegistryRef}
    (h : ¬ ∃ registry d b, c.Works r registry d b) (change : Registry.Change ListenerRef) :
    c.apply ⟨m, .act r change⟩ = c := by
  simp only [apply, Office.apply]
  split
  next => rfl
  next shared hr =>
    split
    next => rfl
    next b hd => exact absurd ⟨shared.registry, shared.document, b, hr, hd⟩ h

theorem apply_close {c : Cells Buffer} {m : Manager} {loans : Loans} {id : String}
    {r : RegistryRef} (hget : m.get? id = some r) (hfree : c.isFree loans r = true)
    {registry : Registry ListenerRef} {d : DocumentRef} {b : Buffer} (h : c.Works r registry d b) :
    c.apply ⟨m, .close loans id⟩ = c.settle r d (registry.perform b .release) := by
  simp only [isFree, h.registry_eq, Option.any_some, Bool.and_eq_true] at hfree
  have hclose := Office.apply_close_of_free (o := ⟨m, c⟩) hget h.registry_eq h.document_eq hfree.1
    hfree.2
  exact congrArg Office.cells hclose

-- a registry that is closed keeps its lines if it is on loan, or has no document
theorem apply_close_idle {c : Cells Buffer} {m : Manager} {loans : Loans} {id : String}
    {r : RegistryRef} (hget : m.get? id = some r)
    (h : c.isFree loans r = false ∨ ¬ ∃ registry d b, c.Works r registry d b) :
    c.apply ⟨m, .close loans id⟩ = c := by
  have hfind : m.held.find? id = some r := hget
  simp only [apply, Office.apply, Manager.close, hfind, Manager.releaseRegistry]
  split
  next hpermit =>
    split
    next => rfl
    next shared hr =>
      split
      next store hpermit' hd =>
        -- both are free and the document is there
        have hfree : c.isFree loans r = true := by
          simp only [isFree, hr, hpermit, hpermit', Option.any_some, Bool.and_self]
        rcases h with hbusy | hmissing
        · rw [hfree] at hbusy
          cases hbusy
        · exact absurd ⟨shared.registry, shared.document, store, hr, hd⟩ hmissing
      next => rfl
  next => rfl

theorem effect_edit (c : Cells Buffer) (m : Manager) (d : DocumentRef) (change : Buffer.Change) :
    c.Effect ⟨m, .edit d change⟩ (c.apply ⟨m, .edit d change⟩) := by
  cases hd : c.documents[d]? with
  | none =>
    have hsame : c.apply ⟨m, .edit d change⟩ = c := by simp only [apply, Office.apply, hd]
    rw [hsame]
    exact effect_idle_of_none rfl
  | some b =>
    have hedit : c.apply ⟨m, .edit d change⟩ = c.setDocument d (b.apply change) := by
      simp only [apply, Office.apply, hd]
    rw [hedit]
    exact .edits change rfl hd

theorem effect_openDocument (c : Cells Buffer) (m : Manager) (loans : Loans) (d : DocumentRef) :
    c.Effect ⟨m, .openDocument loans d⟩ (c.apply ⟨m, .openDocument loans d⟩) := by
  cases hd : c.documents[d]? with
  | none =>
    have hsame : c.apply ⟨m, .openDocument loans d⟩ = c := by simp only [apply, Office.apply, hd]
    rw [hsame]
    exact effect_idle_of_none rfl
  | some b =>
    have hopen : c.apply ⟨m, .openDocument loans d⟩ = (m.openDocument c loans d b).cells := by
      simp only [apply, Office.apply, hd]
    rw [hopen]
    rcases m.openDocument_cases c loans d b with
      ⟨_, -, heq⟩ | ⟨-, -, heq⟩ | ⟨-, -, heq⟩ <;> rw [heq]
    · exact effect_idle_of_none rfl
    · exact effect_idle_of_none rfl
    · exact .opens rfl hd

theorem effect_close (c : Cells Buffer) (m : Manager) (loans : Loans) (id : String) :
    c.Effect ⟨m, .close loans id⟩ (c.apply ⟨m, .close loans id⟩) := by
  cases hget : m.get? id with
  | none =>
    have hsame : c.apply ⟨m, .close loans id⟩ = c :=
      congrArg Office.cells (Office.apply_close_of_none (o := ⟨m, c⟩) hget loans)
    rw [hsame]
    exact effect_idle_of_none (by simp only [acting?, hget])
  | some r =>
    cases hfree : c.isFree loans r with
    | false =>
      rw [apply_close_idle hget (Or.inl hfree)]
      exact effect_idle_of_none (by simp [acting?, hget, hfree])
    | true =>
      have hacting : c.acting? ⟨m, .close loans id⟩ = some (r, .release) := by
        simp only [acting?, hget, hfree, if_true]
      apply effect_of_acting hacting
      · intro registry d b h
        exact apply_close hget hfree h
      · intro hmissing
        exact apply_close_idle hget (Or.inr hmissing)

theorem effect_act (c : Cells Buffer) (m : Manager) (r : RegistryRef)
    (change : Registry.Change ListenerRef) :
    c.Effect ⟨m, .act r change⟩ (c.apply ⟨m, .act r change⟩) := by
  have hacting : c.acting? ⟨m, .act r change⟩ = some (r, change) := rfl
  apply effect_of_acting hacting
  · intro registry d b h
    exact apply_act m h change
  · intro hmissing
    exact apply_act_idle m hmissing change

theorem effect (c : Cells Buffer) (t : Turn) : c.Effect t (c.apply t) := by
  obtain ⟨m, move⟩ := t
  cases move with
  | makeDocument id text => exact .makes id text rfl
  | edit d change => exact c.effect_edit m d change
  | openDocument loans d => exact c.effect_openDocument m loans d
  | close loans id => exact c.effect_close m loans id
  | act r change => exact c.effect_act m r change

/-- A registry that acts in a turn, and works on a document, leaves what the operation leaves. -/
theorem apply_of_acting {c : Cells Buffer} {t : Turn} {r : RegistryRef}
    {registry : Registry ListenerRef} {d : DocumentRef} {b : Buffer}
    {change : Registry.Change ListenerRef} (hacting : c.acting? t = some (r, change))
    (h : c.Works r registry d b) : c.apply t = c.settle r d (registry.perform b change) := by
  have heffect := c.effect t
  generalize c.apply t = c' at heffect ⊢
  cases heffect with
  | idle hidle => exact absurd hacting (hidle r registry d b change h)
  | makes _ _ hnone => exact nomatch hnone.symm.trans hacting
  | edits _ hnone => exact nomatch hnone.symm.trans hacting
  | opens hnone => exact nomatch hnone.symm.trans hacting
  | acts hworks hacting' =>
    cases hacting.symm.trans hacting'
    obtain ⟨rfl, rfl, rfl⟩ := h.unique hworks
    rfl

theorem apply_of_acting_idle {c : Cells Buffer} {t : Turn} {r : RegistryRef}
    {change : Registry.Change ListenerRef} (hacting : c.acting? t = some (r, change))
    (h : ¬ ∃ registry d b, c.Works r registry d b) : c.apply t = c := by
  have heffect := c.effect t
  generalize c.apply t = c' at heffect ⊢
  cases heffect with
  | idle => rfl
  | makes _ _ hnone => exact nomatch hnone.symm.trans hacting
  | edits _ hnone => exact nomatch hnone.symm.trans hacting
  | opens hnone => exact nomatch hnone.symm.trans hacting
  | acts hworks hacting' =>
    cases hacting.symm.trans hacting'
    exact absurd ⟨_, _, _, hworks⟩ h

/-! ## Sound cells -/

/-- The documents are well-formed, and every registry has one. -/
structure Sound (c : Cells Buffer) : Prop where
  wellFormed : ∀ (d : DocumentRef) (b : Buffer), c.documents[d]? = some b → b.WellFormed
  leads : ∀ (r : RegistryRef) (registry : Registry ListenerRef) (d : DocumentRef),
    c.registries[r]? = some ⟨registry, d⟩ → ∃ b, c.documents[d]? = some b

theorem sound_empty : (empty : Cells Buffer).Sound := by
  refine ⟨?_, ?_⟩
  · intro d b h
    cases h
  · intro r registry d h
    cases h

namespace Effect

variable {c c' : Cells Buffer} {t : Turn}

/-- Whatever a turn does, to a document it is a list of changes. -/
theorem document (heffect : c.Effect t c') (hc : c.Sound) {d : DocumentRef} {b : Buffer}
    (hd : c.documents[d]? = some b) :
    ∃ changes : List Buffer.Change, c'.documents[d]? = some (b.after changes) := by
  cases heffect with
  | idle => exact ⟨[], hd⟩
  | makes id text =>
    have hlt : d < c.documents.length := (List.getElem?_eq_some_iff.1 hd).1
    exact ⟨[], (List.getElem?_append_left hlt).trans hd⟩
  | @edits e b' change _ he =>
    rw [document_setDocument hd]
    split
    next heq =>
      subst heq
      cases hd.symm.trans he
      exact ⟨[change], rfl⟩
    next => exact ⟨[], rfl⟩
  | opens => exact ⟨[], hd⟩
  | @acts r registry e b' change hworks _ =>
    rw [documents_settle hd]
    split
    next heq =>
      subst heq
      cases hd.symm.trans hworks.document_eq
      obtain ⟨changes, hchanges⟩ := registry.perform_store_eq_after (hc.wellFormed e b hd) change
      exact ⟨changes, congrArg some hchanges⟩
    next => exact ⟨[], rfl⟩

-- a registry that does not act is left alone
theorem registry_aside (heffect : c.Effect t c') {r : RegistryRef} {shared : SharedRegistry}
    (hr : c.registries[r]? = some shared) (haside : ∀ change, c.acting? t ≠ some (r, change)) :
    c'.registries[r]? = some shared := by
  cases heffect with
  | idle => exact hr
  | makes => exact hr
  | edits => exact hr
  | opens => exact registries_addRegistry hr _
  | @acts q registry d b change _ hacting =>
    have hqr : q ≠ r := by
      rintro rfl
      exact haside change hacting
    rw [registries_settle hr, if_neg hqr]

-- the registries of a later time are old ones, over the same document, or new ones without records
theorem registry_origin (heffect : c.Effect t c') {r : RegistryRef}
    {registry' : Registry ListenerRef} {d : DocumentRef}
    (hr : c'.registries[r]? = some ⟨registry', d⟩) :
    (∃ registry, c.registries[r]? = some ⟨registry, d⟩) ∨
      (registry' = .empty ∧ ∃ b, c.documents[d]? = some b) := by
  cases heffect with
  | idle => exact Or.inl ⟨registry', hr⟩
  | makes => exact Or.inl ⟨registry', hr⟩
  | edits => exact Or.inl ⟨registry', hr⟩
  | @opens e b _ he =>
    have happend : (c.registries ++ [⟨.empty, e⟩])[r]? = some ⟨registry', d⟩ := hr
    rw [List.getElem?_append] at happend
    split at happend
    next => exact Or.inl ⟨registry', happend⟩
    next =>
      have hnew := List.mem_singleton.1 (List.mem_of_getElem? happend)
      cases hnew
      exact Or.inr ⟨rfl, b, he⟩
  | @acts q registry e b change _ _ =>
    rw [settle, registries_modifyRegistry, registries_setDocument] at hr
    split at hr
    next =>
      obtain ⟨shared, hshared, heq⟩ := Option.map_eq_some_iff.1 hr
      cases heq
      exact Or.inl ⟨shared.registry, hshared⟩
    next => exact Or.inl ⟨registry', hr⟩

theorem wellFormed (heffect : c.Effect t c') (hc : c.Sound) {d : DocumentRef} {b' : Buffer}
    (hd : c'.documents[d]? = some b') : b'.WellFormed := by
  cases hold : c.documents[d]? with
  | some b =>
    obtain ⟨changes, hchanges⟩ := heffect.document hc hold
    cases hd.symm.trans hchanges
    exact (hc.wellFormed d b hold).after changes
  | none =>
    cases heffect with
    | idle => exact nomatch hold.symm.trans hd
    | opens => exact nomatch hold.symm.trans hd
    | makes id text =>
      have happend : (c.documents ++ [Buffer.ofText id text])[d]? = some b' := hd
      rw [List.getElem?_append] at happend
      split at happend
      next => exact nomatch hold.symm.trans happend
      next =>
        obtain rfl := List.mem_singleton.1 (List.mem_of_getElem? happend)
        exact Buffer.wellFormed_ofText id text
    | edits change _ he =>
      rcases Office.documents_set_cases hd with ⟨rfl, -⟩ | ⟨-, hsame⟩
      · exact nomatch hold.symm.trans he
      · exact nomatch hold.symm.trans hsame
    | acts hworks _ =>
      rcases Office.documents_set_cases hd with ⟨rfl, -⟩ | ⟨-, hsame⟩
      · exact nomatch hold.symm.trans hworks.document_eq
      · exact nomatch hold.symm.trans hsame

theorem sound (heffect : c.Effect t c') (hc : c.Sound) : c'.Sound := by
  refine ⟨fun d b hd => heffect.wellFormed hc hd, ?_⟩
  intro r registry' d hr
  have hdocument : ∃ b, c.documents[d]? = some b := by
    rcases heffect.registry_origin hr with ⟨registry, hold⟩ | ⟨-, hnew⟩
    · exact hc.leads r registry d hold
    · exact hnew
  obtain ⟨b, hd⟩ := hdocument
  obtain ⟨changes, hchanges⟩ := heffect.document hc hd
  exact ⟨_, hchanges⟩

end Effect

theorem Sound.apply {c : Cells Buffer} (hc : c.Sound) (t : Turn) : (c.apply t).Sound :=
  (c.effect t).sound hc

theorem Sound.after {c : Cells Buffer} (hc : c.Sound) (turns : List Turn) :
    (c.after turns).Sound := by
  induction turns generalizing c with
  | nil => exact hc
  | cons t rest ih => exact ih (hc.apply t)

theorem wellFormed_after (turns : List Turn) {r : RegistryRef} {registry : Registry ListenerRef}
    {d : DocumentRef} {b : Buffer} (h : ((empty : Cells Buffer).after turns).Works r registry d b) :
    b.WellFormed :=
  (sound_empty.after turns).wellFormed d b h.document_eq

/-! ## One registry and its document -/

/-- How a registry and its document fare in a turn. -/
inductive Fares (c : Cells Buffer) (t : Turn) (r : RegistryRef) (registry : Registry ListenerRef)
    (b : Buffer) : Registry ListenerRef → Buffer → Prop where
  -- the registry does nothing, whatever becomes of the document
  | aside (changes : List Buffer.Change) (haside : ∀ change, c.acting? t ≠ some (r, change)) :
      Fares c t r registry b registry (b.after changes)
  | acts (change : Registry.Change ListenerRef) (hacting : c.acting? t = some (r, change)) :
      Fares c t r registry b (registry.perform b change).1 (registry.perform b change).2

theorem works_settle {c : Cells Buffer} {r : RegistryRef} {registry : Registry ListenerRef}
    {d : DocumentRef} {b : Buffer} (h : c.Works r registry d b)
    (left : Registry ListenerRef × Buffer) : (c.settle r d left).Works r left.1 d left.2 := by
  constructor
  · rw [registries_settle h.registry_eq, if_pos rfl]
  · rw [documents_settle h.document_eq, if_pos rfl]

theorem works_apply {c : Cells Buffer} (hc : c.Sound) {r : RegistryRef}
    {registry : Registry ListenerRef} {d : DocumentRef} {b : Buffer} (h : c.Works r registry d b)
    (t : Turn) :
    ∃ registry' b', (c.apply t).Works r registry' d b' ∧ c.Fares t r registry b registry' b' := by
  have heffect := c.effect t
  by_cases haside : ∀ change, c.acting? t ≠ some (r, change)
  · obtain ⟨changes, hdocument⟩ := heffect.document hc h.document_eq
    have hregistry := heffect.registry_aside h.registry_eq haside
    exact ⟨registry, _, ⟨hregistry, hdocument⟩, .aside changes haside⟩
  · obtain ⟨change, hacting⟩ := not_forall_not.1 haside
    rw [apply_of_acting hacting h]
    exact ⟨_, _, works_settle h _, .acts change hacting⟩

/-- What a registry that works on a document after a turn was before it: new, or at work on that
very document. -/
theorem works_of_apply {c : Cells Buffer} (hc : c.Sound) {t : Turn} {r : RegistryRef}
    {registry' : Registry ListenerRef} {d : DocumentRef} {b' : Buffer}
    (h : (c.apply t).Works r registry' d b') :
    registry' = .empty ∨
      ∃ registry b, c.Works r registry d b ∧ c.Fares t r registry b registry' b' := by
  rcases (c.effect t).registry_origin h.registry_eq with ⟨registry, hr⟩ | ⟨hnew, -⟩
  · obtain ⟨b, hd⟩ := hc.leads r registry d hr
    have hworks : c.Works r registry d b := ⟨hr, hd⟩
    obtain ⟨registry'', b'', h', hfares⟩ := works_apply hc hworks t
    obtain ⟨rfl, -, rfl⟩ := h.unique h'
    exact Or.inr ⟨registry, b, hworks, hfares⟩
  · exact Or.inl hnew

/-! ## What lasts -/

/-- A property of a registry and its document lasts through changes of the document and through
everything that the registry does. -/
structure Stable (p : Registry ListenerRef → Buffer → Prop) : Prop where
  evolves : ∀ {registry : Registry ListenerRef} {b b' : Buffer}, b.WellFormed → b.Evolves b' →
    p registry b → p registry b'
  perform : ∀ {registry : Registry ListenerRef} {b : Buffer}
    (change : Registry.Change ListenerRef), b.WellFormed → p registry b →
      p (registry.perform b change).1 (registry.perform b change).2

variable {p : Registry ListenerRef → Buffer → Prop}

theorem Stable.fares (hp : Stable p) {c : Cells Buffer} {t : Turn} {r : RegistryRef}
    {registry registry' : Registry ListenerRef} {b b' : Buffer} (hb : b.WellFormed)
    (hfares : c.Fares t r registry b registry' b') (h : p registry b) : p registry' b' := by
  cases hfares with
  | aside changes _ => exact hp.evolves hb (Buffer.evolves_after hb changes) h
  | acts change _ => exact hp.perform change hb h

-- a registry keeps its cell and its document, and what is stable
theorem Stable.after (hp : Stable p) {c : Cells Buffer} (hc : c.Sound) {r : RegistryRef}
    {registry : Registry ListenerRef} {d : DocumentRef} {b : Buffer} (h : c.Works r registry d b)
    (hstart : p registry b) (turns : List Turn) :
    ∃ registry' b', (c.after turns).Works r registry' d b' ∧ p registry' b' := by
  induction turns generalizing c registry b with
  | nil => exact ⟨registry, b, h, hstart⟩
  | cons t rest ih =>
    obtain ⟨registry', b', h', hfares⟩ := works_apply hc h t
    have hb := hc.wellFormed d b h.document_eq
    exact ih (hc.apply t) h' (hp.fares hb hfares hstart)

-- what is stable and holds of registries without records always holds
theorem Stable.always (hp : Stable p) (hempty : ∀ b, p .empty b) {c : Cells Buffer} (hc : c.Sound)
    (hstart : ∀ r registry d b, c.Works r registry d b → p registry b) (turns : List Turn) :
    ∀ r registry d b, (c.after turns).Works r registry d b → p registry b := by
  induction turns generalizing c with
  | nil => exact hstart
  | cons t rest ih =>
    apply ih (hc.apply t)
    intro r registry' d b' h'
    rcases works_of_apply hc h' with rfl | ⟨registry, b, h, hfares⟩
    · exact hempty b'
    · exact hp.fares (hc.wellFormed d b h.document_eq) hfares (hstart r registry d b h)

theorem Stable.of_run (hp : Stable p) (hempty : ∀ b, p .empty b) (turns : List Turn)
    {r : RegistryRef} {registry : Registry ListenerRef} {d : DocumentRef} {b : Buffer}
    (h : ((empty : Cells Buffer).after turns).Works r registry d b) : p registry b := by
  apply hp.always hempty sound_empty ?_ turns r registry d b h
  intro _ _ _ _ hnone
  exact absurd hnone not_works_empty

theorem document_after {c : Cells Buffer} (hc : c.Sound) {d : DocumentRef} {b : Buffer}
    (hd : c.documents[d]? = some b) (turns : List Turn) :
    ∃ b', (c.after turns).documents[d]? = some b' ∧ b.Evolves b' := by
  induction turns generalizing c b with
  | nil => exact ⟨b, hd, .refl b⟩
  | cons t rest ih =>
    obtain ⟨changes, hd'⟩ := (c.effect t).document hc hd
    obtain ⟨b', hlast, hrest⟩ := ih (hc.apply t) hd'
    exact ⟨b', hlast, (Buffer.evolves_after (hc.wellFormed d b hd) changes).trans hrest⟩

/-! ## Logs -/

variable {α : Type}

/-- What is noted of the turns of a run, in order. -/
def log (note? : Cells Buffer → Turn → Option α) : Cells Buffer → List Turn → List α
  | _, [] => []
  | c, t :: rest => (note? c t).toList ++ log note? (c.apply t) rest

theorem log_append (note? : Cells Buffer → Turn → Option α) (c : Cells Buffer)
    (first second : List Turn) :
    c.log note? (first ++ second) = c.log note? first ++ (c.after first).log note? second := by
  induction first generalizing c with
  | nil => rfl
  | cons t rest ih =>
    rw [List.cons_append, log, log, ih, after_cons, List.append_assoc]

theorem mem_log_iff {note? : Cells Buffer → Turn → Option α} {c : Cells Buffer} {turns : List Turn}
    {x : α} :
    x ∈ c.log note? turns ↔
      ∃ before t later, turns = before ++ t :: later ∧ note? (c.after before) t = some x := by
  induction turns generalizing c with
  | nil => simp [log]
  | cons t rest ih =>
    rw [log, List.mem_append, Option.mem_toList, ih]
    constructor
    · rintro (hfirst | ⟨before, t', later, rfl, hnote⟩)
      · exact ⟨[], t, rest, rfl, hfirst⟩
      · exact ⟨t :: before, t', later, rfl, hnote⟩
    · rintro ⟨before, t', later, hsplit, hnote⟩
      cases before with
      | nil =>
        cases hsplit
        exact Or.inl hnote
      | cons t'' before =>
        cases hsplit
        exact Or.inr ⟨before, t', later, rfl, hnote⟩

-- what there is in a cell of a registry, and in the cell of its document
def at? (c : Cells Buffer) (r : RegistryRef) : Option (Registry ListenerRef × Buffer) :=
  match c.registries[r]? with
  | none => none
  | some shared => (c.documents[shared.document]?).map fun b => (shared.registry, b)

theorem at?_eq_some_iff {c : Cells Buffer} {r : RegistryRef} {registry : Registry ListenerRef}
    {b : Buffer} : c.at? r = some (registry, b) ↔ ∃ d, c.Works r registry d b := by
  unfold at?
  constructor
  · intro h
    split at h
    next => cases h
    next shared hr =>
      obtain ⟨b', hd, heq⟩ := Option.map_eq_some_iff.1 h
      cases heq
      exact ⟨shared.document, hr, hd⟩
  · rintro ⟨d, hr, hd⟩
    simp only [hr, hd, Option.map_some]

/-- The registry that adds a line in a turn, and the line that it answers. -/
def added? (c : Cells Buffer) (t : Turn) : Option (RegistryRef × StickyLine) :=
  match c.acting? t with
  | some (r, .add source start stop label) =>
      match c.at? r with
      | none => none
      | some (registry, b) =>
          match (registry.add b source start stop label).value with
          | .ok line => some (r, line)
          | .error _ => none
  | _ => none

theorem added?_eq_some_iff {c : Cells Buffer} {t : Turn} {r : RegistryRef} {line : StickyLine} :
    c.added? t = some (r, line) ↔
      ∃ source start stop label registry d b,
        c.acting? t = some (r, .add source start stop label) ∧ c.Works r registry d b ∧
          (registry.add b source start stop label).value = .ok line := by
  unfold added?
  constructor
  · intro h
    split at h
    next r' source start stop label hacting =>
      split at h
      next => cases h
      next registry b hat =>
        obtain ⟨d, hworks⟩ := at?_eq_some_iff.1 hat
        split at h
        next line' hvalue =>
          cases h
          exact ⟨source, start, stop, label, registry, d, b, hacting, hworks, hvalue⟩
        next => cases h
    next => cases h
  · rintro ⟨source, start, stop, label, registry, d, b, hacting, hworks, hvalue⟩
    have hat := at?_eq_some_iff.2 ⟨d, hworks⟩
    simp only [hacting, hat, hvalue]

end Cells
end StickyScroll
