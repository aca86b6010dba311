import Mathlib.Data.List.Basic
import StickyScroll.Session.Run

/-!
# The wiring of a session

Of a session the wiring is what callbacks depend on: the registries, the listeners and their names,
and the journal. `Wiring.Step` lists all that an action can do to it while some loans stand: most
actions leave the registries alone, and whoever changes a registry has found it free to be written.
-/

namespace StickyScroll

/-- The registries, the listeners with their names, and the journal. -/
structure Wiring where
  registries : List SharedRegistry
  listeners : List Listener
  listenerNames : Table String ListenerRef
  journal : List Note

namespace Wiring

def report (w : Wiring) (events : List Event) : Wiring :=
  { w with journal := w.journal ++ events.map .event }

def note (w : Wiring) (n : Note) : Wiring := { w with journal := w.journal ++ [n] }

-- puts a registry in the cell of `shared`, for the same document
def setRegistry (w : Wiring) (r : RegistryRef) (shared : SharedRegistry)
    (registry : Registry ListenerRef) : Wiring :=
  { w with registries := w.registries.set r { shared with registry := registry } }

def setListeners (w : Wiring) (r : RegistryRef) (shared : SharedRegistry)
    (listeners : Listeners ListenerRef) : Wiring :=
  w.setRegistry r shared { shared.registry with listeners := listeners }

theorem report_nil (w : Wiring) : w.report [] = w := by
  show { w with journal := w.journal ++ [] } = w
  rw [List.append_nil]

/-- What an action can leave of the wiring. -/
inductive Step (loans : Loans) (w : Wiring) : Wiring → Prop where
  -- the registries and the listeners are left alone
  | aside (events : List Event) : Step loans w (w.report events)
  | opens (d : DocumentRef) (events : List Event) :
      Step loans w (report { w with registries := w.registries ++ [⟨.empty, d⟩] } events)
  -- a registry is at work, and keeps its listeners
  | works {r : RegistryRef} {shared : SharedRegistry} {registry : Registry ListenerRef}
      (events : List Event) (hr : w.registries[r]? = some shared)
      (hpermit : loans.permit (.registry r) .write = true)
      (hlisteners : registry.listeners = shared.registry.listeners) :
      Step loans w ((w.setRegistry r shared registry).report events)
  | listens {r : RegistryRef} {shared : SharedRegistry} {name : String} {l : ListenerRef}
      (hr : w.registries[r]? = some shared) (hpermit : loans.permit (.registry r) .write = true)
      (hname : w.listenerNames.find? name = some l) :
      Step loans w
        ((w.setListeners r shared (shared.registry.listeners.add l)).note (.listened r l))
  | unlistens {r : RegistryRef} {shared : SharedRegistry} {l : ListenerRef}
      (hr : w.registries[r]? = some shared) (hpermit : loans.permit (.registry r) .write = true)
      (hmem : l ∈ shared.registry.listeners.registrations) :
      Step loans w
        ((w.setListeners r shared (shared.registry.listeners.remove l).2).note (.unlistened r l))
  | makes (name : String) (script : Option (List Command)) :
      Step loans w
        { w with
          listeners := w.listeners ++ [⟨name, script⟩]
          listenerNames := w.listenerNames.insert name w.listeners.length }

theorem Step.refl (loans : Loans) (w : Wiring) : Step loans w w := by
  have h : Step loans w (w.report []) := .aside []
  rwa [report_nil] at h

end Wiring

namespace Session

def wiring (s : Session) : Wiring :=
  ⟨s.cells.registries, s.listeners, s.listenerNames, s.journal⟩

theorem wiring_report (s : Session) (events : List Event) :
    (s.report events).wiring = s.wiring.report events := rfl

theorem wiring_note (s : Session) (n : Note) : (s.note n).wiring = s.wiring.note n := rfl

/-! ## Names are no part of the wiring -/

@[simp] theorem wiring_keepLine (s : Session) (name : Option String) (line : StickyLine) :
    (s.keepLine name line).wiring = s.wiring := by
  cases name <;> rfl

@[simp] theorem wiring_keepLines (s : Session) (name : Option String) (lines : List StickyLine) :
    (s.keepLines name lines).wiring = s.wiring := by
  cases name <;> rfl

@[simp] theorem wiring_keepRegistry (s : Session) (name : Option String) (r : RegistryRef) :
    (s.keepRegistry name r).wiring = s.wiring := by
  cases name <;> rfl

/-! ## Registries -/

variable {s : Session} {r : RegistryRef} {shared : SharedRegistry}

-- only what becomes of the registry that is in the cell matters
theorem registries_modify (hr : s.cells.registries[r]? = some shared)
    (change : Registry ListenerRef → Registry ListenerRef) :
    s.cells.registries.modify r
        (fun shared => { shared with registry := change shared.registry }) =
      s.cells.registries.set r { shared with registry := change shared.registry } := by
  rw [List.modify_eq_set_getElem?, hr]
  rfl

theorem wiring_modifyRegistry (hr : s.cells.registries[r]? = some shared)
    (change : Registry ListenerRef → Registry ListenerRef) :
    (s.modifyRegistry r change).wiring =
      s.wiring.setRegistry r shared (change shared.registry) := by
  show (⟨s.cells.registries.modify r _, _, _, _⟩ : Wiring) = _
  rw [registries_modify hr]
  rfl

theorem registries_of_name {name : String} (h : s.registry? name = some (r, shared)) :
    s.cells.registries[r]? = some shared := by
  obtain ⟨q, -, hq⟩ := Option.bind_eq_some_iff.1 h
  obtain ⟨found, hfound, heq⟩ := Option.map_eq_some_iff.1 hq
  cases heq
  exact hfound

variable {loans : Loans}

theorem settle_eq {α : Type} (s : Session) (r : RegistryRef) (d : DocumentRef)
    (o : Outcome ListenerRef Document α) :
    s.settle r d o =
      ((s.setDocument d o.store).modifyRegistry r fun _ => o.registry).report o.events := rfl

-- what an operation of a registry leaves, if it leaves the listeners alone
theorem step_settle {α : Type} (d : DocumentRef) (o : Outcome ListenerRef Document α)
    (hr : s.cells.registries[r]? = some shared)
    (hpermit : loans.permit (.registry r) .write = true)
    (hlisteners : o.registry.listeners = shared.registry.listeners) :
    s.wiring.Step loans (s.settle r d o).wiring := by
  have hregistry : (s.setDocument d o.store).cells.registries[r]? = some shared := hr
  rw [settle_eq, wiring_report, wiring_modifyRegistry hregistry]
  exact .works (w := s.wiring) o.events hr hpermit hlisteners

-- a change of the registry alone, which is not reported
theorem step_modifyRegistry (hr : s.cells.registries[r]? = some shared)
    (hpermit : loans.permit (.registry r) .write = true)
    {change : Registry ListenerRef → Registry ListenerRef}
    (hlisteners : (change shared.registry).listeners = shared.registry.listeners) :
    s.wiring.Step loans (s.modifyRegistry r change).wiring := by
  rw [wiring_modifyRegistry hr, ← Wiring.report_nil (Wiring.setRegistry _ _ _ _)]
  exact .works [] hr hpermit hlisteners

end Session

/-! ## Listeners that are taken out, and listeners that are kept -/

namespace Listeners

variable {ι : Type} [DecidableEq ι] {listeners : Listeners ι} {l : ι}

theorem remove_of_mem (h : l ∈ listeners.registrations) :
    listeners.remove l =
      (true, { listeners with registrations := listeners.registrations.erase l }) := by
  rw [remove, List.contains_iff_mem.2 h]

theorem remove_of_not_mem (h : l ∉ listeners.registrations) :
    listeners.remove l = (false, listeners) := by
  rw [remove, List.erase_of_not_mem h, List.contains_eq_mem, decide_eq_false h]

end Listeners

namespace Registry

variable {σ : Type} [RangeStore σ] (registry : Registry ListenerRef) (store : σ)

theorem listeners_add (source : String) (start stop : Nat) (label : Option String) :
    (registry.add store source start stop label).registry.listeners = registry.listeners := by
  unfold add
  split
  next => rfl
  next =>
    split
    next => rfl
    next => split <;> rfl

theorem listeners_remove (line : StickyLine) :
    (registry.remove store line).registry.listeners = registry.listeners := by
  unfold remove
  dsimp only
  split
  next =>
    split <;> split <;> rfl
  next => rfl

end Registry

namespace Session

variable {s : Session} {loans : Loans}

/-! ## What is done to a registry -/

section Acting

variable {r : RegistryRef} {shared : SharedRegistry} (store : Document)

-- whoever only reads reports what the query finds, and gives names to lines
theorem step_of_read {action : RegistryAction} (hread : action.access = .read) :
    s.wiring.Step loans (s.actOnRegistry loans r shared store action).2.wiring := by
  cases action with
  | lines source storeAs =>
    show s.wiring.Step loans (keepLines _ _ _).wiring
    rw [wiring_keepLines]
    exact .aside _
  | sourceOf name =>
    unfold actOnRegistry
    dsimp only
    split <;> exact .refl loans _
  | resolve name storeAs =>
    unfold actOnRegistry
    dsimp only
    split
    next => exact .refl loans _
    next =>
      split
      next => exact .refl loans _
      next =>
        rw [wiring_keepLine]
        exact .refl loans _
  | size => exact .refl loans _
  | uses name =>
    unfold actOnRegistry
    dsimp only
    split <;> exact .refl loans _
  | stats => exact .refl loans _
  | inspect => exact .refl loans _
  | _ => cases hread

variable (hr : s.cells.registries[r]? = some shared)
  (hpermit : loans.permit (.registry r) .write = true)

include hr hpermit

theorem step_add (source : String) (start stop : Nat) (label storeAs : Option String) :
    s.wiring.Step loans
      (s.actOnRegistry loans r shared store (.add source start stop label storeAs)).2.wiring := by
  have hstep := step_settle shared.document (shared.registry.add store source start stop label) hr
    hpermit (shared.registry.listeners_add store source start stop label)
  unfold actOnRegistry
  dsimp only
  split
  next => exact hstep
  next =>
    rw [wiring_keepLine]
    exact hstep

theorem step_remove (name : String) :
    s.wiring.Step loans (s.actOnRegistry loans r shared store (.remove name)).2.wiring := by
  unfold actOnRegistry
  dsimp only
  split
  next => exact .refl loans _
  next line _ =>
    have hstep := step_settle shared.document (shared.registry.remove store line) hr hpermit
      (shared.registry.listeners_remove store line)
    split <;> exact hstep

theorem step_listen (name : String) :
    s.wiring.Step loans (s.actOnRegistry loans r shared store (.listen name)).2.wiring := by
  unfold actOnRegistry
  dsimp only
  split
  next => exact .refl loans _
  next l hname =>
    dsimp only
    rw [wiring_note, wiring_modifyRegistry hr]
    exact .listens hr hpermit hname

theorem step_unlisten (name : String) :
    s.wiring.Step loans (s.actOnRegistry loans r shared store (.unlisten name)).2.wiring := by
  unfold actOnRegistry
  dsimp only
  split
  next => exact .refl loans _
  next l hname =>
    by_cases hmem : l ∈ shared.registry.listeners.registrations
    · have hstep : s.wiring.Step loans _ := .unlistens hr hpermit hmem
      rw [Listeners.remove_of_mem hmem] at hstep ⊢
      dsimp only
      rw [if_pos rfl, wiring_note, wiring_modifyRegistry hr]
      exact hstep
    · -- the registrations stay as they are
      rw [Listeners.remove_of_not_mem hmem]
      dsimp only
      rw [if_neg Bool.false_ne_true]
      exact step_modifyRegistry hr hpermit rfl

theorem step_of_write {action : RegistryAction} (hwrite : action.access = .write) :
    s.wiring.Step loans (s.actOnRegistry loans r shared store action).2.wiring := by
  cases action with
  | add source start stop label storeAs =>
    exact step_add store hr hpermit source start stop label storeAs
  | remove name => exact step_remove store hr hpermit name
  | removeFrom source =>
    exact step_settle shared.document (shared.registry.removeFrom store source) hr hpermit rfl
  | prune =>
    unfold actOnRegistry
    dsimp only
    rw [wiring_report, wiring_modifyRegistry hr]
    exact .works _ hr hpermit rfl
  | takeFirstUpdate => exact step_modifyRegistry hr hpermit rfl
  | listen name => exact step_listen store hr hpermit name
  | unlisten name => exact step_unlisten store hr hpermit name
  | _ => cases hwrite

end Acting

theorem step_actOnRegistry {r : RegistryRef} {shared : SharedRegistry} (store : Document)
    {action : RegistryAction} (hr : s.cells.registries[r]? = some shared)
    (hpermit : loans.permit (.registry r) action.access = true) :
    s.wiring.Step loans (s.actOnRegistry loans r shared store action).2.wiring := by
  cases haccess : action.access with
  | read => exact step_of_read store haccess
  | write => exact step_of_write store hr (haccess ▸ hpermit) haccess

theorem step_onRegistry (s : Session) (loans : Loans) (name : String) (action : RegistryAction) :
    s.wiring.Step loans (s.onRegistry loans name action).2.wiring := by
  unfold onRegistry
  split
  next => exact .refl loans _
  next r shared hname =>
    split
    next hpermit =>
      split
      next => exact .refl loans _
      next => exact .refl loans _
      next store _ _ =>
        split
        next => exact step_actOnRegistry store (registries_of_name hname) hpermit
        next => exact .refl loans _
    next => exact .refl loans _

/-! ## Managers -/

theorem step_openDocument (s : Session) (loans : Loans) (m : Manager) (d : DocumentRef)
    (store : Document) (managers : Table String Manager) :
    let opened := m.openDocument s.cells loans d store
    s.wiring.Step loans
      (({ s with cells := opened.cells, managers := managers } : Session).report
        opened.events).wiring := by
  unfold Manager.openDocument
  dsimp only
  split
  next => exact .aside _
  next =>
    split
    next => exact .aside _
    next => exact .opens d _

theorem step_close (s : Session) (loans : Loans) (m : Manager) (id : String)
    (managers : Table String Manager) :
    let closed := m.close s.cells loans id
    s.wiring.Step loans
      (({ s with cells := closed.cells, managers := managers } : Session).report
        closed.events).wiring := by
  unfold Manager.close
  dsimp only
  split
  next => exact .aside _
  next r _ =>
    unfold Manager.releaseRegistry
    split
    next hpermit =>
      split
      next => exact .aside _
      next shared hr =>
        dsimp only
        split
        next store _ _ =>
          -- both are free, and the registry gives up its lines
          show s.wiring.Step loans (Wiring.report ⟨s.cells.registries.modify r _, _, _, _⟩ _)
          rw [registries_modify hr fun _ => (shared.registry.release store).registry]
          exact .works _ hr hpermit rfl
        next => exact .aside _
    next => exact .aside _

theorem step_onManager (s : Session) (loans : Loans) (name : String) (action : ManagerAction) :
    s.wiring.Step loans (s.onManager loans name action).2.wiring := by
  cases action with
  | make maxDocuments => exact .refl loans _
  | openDocument document storeAs =>
    unfold onManager
    dsimp only
    split
    next => exact .refl loans _
    next d store _ =>
      have hstep := step_openDocument s loans (s.manager name) d store
        (s.managers.insert name ((s.manager name).openDocument s.cells loans d store).manager)
      split
      next =>
        split
        next => exact hstep
        next =>
          show s.wiring.Step loans (keepRegistry _ _ _).wiring
          rw [wiring_keepRegistry]
          exact hstep
      next => exact .refl loans _
  | get id storeAs =>
    unfold onManager
    dsimp only
    split
    next => exact .refl loans _
    next =>
      show s.wiring.Step loans (keepRegistry _ _ _).wiring
      rw [wiring_keepRegistry]
      exact .refl loans _
  | close id => exact step_close s loans _ id _
  | documents => exact .refl loans _
  | inspect => exact .refl loans _

/-! ## Everything else -/

theorem step_onDocument (s : Session) (loans : Loans) (name : String) (action : DocumentAction) :
    s.wiring.Step loans (s.onDocument loans name action).2.wiring := by
  unfold onDocument
  split
  next => exact .refl loans _
  next =>
    split
    next => exact .aside _
    next => exact .refl loans _

theorem step_onLines (s : Session) (loans : Loans) (action : LineAction) :
    s.wiring.Step loans (s.onLines action).2.wiring := by
  cases action with
  | forge storeAs json =>
    unfold onLines
    dsimp only
    split <;> exact .refl loans _
  | compare a b =>
    unfold onLines
    dsimp only
    split <;> exact .refl loans _
  | display _ => exact .refl loans _
  | encode _ => exact .refl loans _
  | inspect _ => exact .refl loans _
  | sort _ => exact .refl loans _
  | distinct _ => exact .refl loans _

end Session
end StickyScroll
