import StickyScroll.Proofs.Session.Lasting

/-!
# Callbacks into the registry that calls

Visitors and listeners may do anything to a session, to the registry that calls them as well, which
they reach by any of its names. That registry is on loan for reading while they run. So whatever
would change its records, its registrations or its first update is refused, and a refusal leaves the
session as it is; of the registry only what it counts of its notifications moves on.
-/

namespace StickyScroll

theorem Loans.permit_write_of_cons {loan : Loan} {loans : Loans} {place : Place}
    (h : loans.permit place .write = false) : Loans.permit (loan :: loans) place .write = false := by
  rw [permit] at h ⊢
  rw [List.all_cons, h, Bool.and_false]

/-- A registry at a later moment is what it was, but for the counts of its notifications. -/
structure SharedRegistry.Resembles (before after : SharedRegistry) : Prop where
  document_eq : after.document = before.document
  records_eq : after.registry.records = before.registry.records
  registrations_eq :
    after.registry.listeners.registrations = before.registry.listeners.registrations
  firstUpdate_eq : after.registry.firstUpdateConsumed = before.registry.firstUpdateConsumed

namespace SharedRegistry.Resembles

theorem refl (shared : SharedRegistry) : shared.Resembles shared := ⟨rfl, rfl, rfl, rfl⟩

theorem trans {x y z : SharedRegistry} (hxy : x.Resembles y) (hyz : y.Resembles z) :
    x.Resembles z where
  document_eq := hyz.document_eq.trans hxy.document_eq
  records_eq := hyz.records_eq.trans hxy.records_eq
  registrations_eq := hyz.registrations_eq.trans hxy.registrations_eq
  firstUpdate_eq := hyz.firstUpdate_eq.trans hxy.firstUpdate_eq

end SharedRegistry.Resembles

/-! ## Registries on loan -/

-- an action finds the registry that it changes free, so it is not one on loan
theorem Wiring.Step.registry_on_loan {loans : Loans} {w w' : Wiring} (h : w.Step loans w')
    {r : RegistryRef} {shared : SharedRegistry} (hloan : loans.permit (.registry r) .write = false)
    (hr : w.registries[r]? = some shared) : w'.registries[r]? = some shared := by
  have hother : ∀ {q : RegistryRef} (found : SharedRegistry),
      loans.permit (.registry q) .write = true → (w.registries.set q found)[r]? = some shared := by
    intro q found hfree
    have hqr : q ≠ r := by
      rintro rfl
      rw [hloan] at hfree
      cases hfree
    rw [List.getElem?_set_ne hqr]
    exact hr
  cases h with
  | aside events => exact hr
  | opens d events =>
    have hlt : r < w.registries.length := (List.getElem?_eq_some_iff.1 hr).1
    exact (List.getElem?_append_left hlt).trans hr
  | works events _ hpermit _ => exact hother _ hpermit
  | listens _ hpermit _ => exact hother _ hpermit
  | unlistens _ hpermit _ => exact hother _ hpermit
  | makes name script => exact hr

namespace Session

/-- The registries that may not be written are found again, and resemble what they were. -/
def SparesLoaned : Relation := fun loans s t =>
  ∀ (r : RegistryRef) (shared : SharedRegistry), loans.permit (.registry r) .write = false →
    s.cells.registries[r]? = some shared →
      ∃ shared', t.cells.registries[r]? = some shared' ∧ shared.Resembles shared'

theorem sparesLoaned_of_eq {s t : Session} (h : t.cells.registries = s.cells.registries)
    (loans : Loans) : SparesLoaned loans s t := by
  intro r shared _ hr
  rw [h]
  exact ⟨shared, hr, .refl shared⟩

theorem SparesLoaned.trans {loans : Loans} {s t u : Session} (hst : SparesLoaned loans s t)
    (htu : SparesLoaned loans t u) : SparesLoaned loans s u := by
  intro r shared hloan hr
  obtain ⟨shared', hr', hresembles⟩ := hst r shared hloan hr
  obtain ⟨shared'', hr'', hresembles'⟩ := htu r shared' hloan hr'
  exact ⟨shared'', hr'', hresembles.trans hresembles'⟩

-- beginning and finishing a notification counts, and does no more
theorem sparesLoaned_modifyListeners (s : Session) (r : RegistryRef)
    (change : Listeners ListenerRef → Listeners ListenerRef)
    (hchange : ∀ l, (change l).registrations = l.registrations) (loans : Loans) :
    SparesLoaned loans s (s.modifyListeners r change) := by
  intro q shared _ hq
  have hmodified := s.cells.registries_modifyRegistry r q
    fun registry => { registry with listeners := change registry.listeners }
  rw [hq] at hmodified
  split at hmodified
  next => exact ⟨_, hmodified, rfl, rfl, hchange _, rfl⟩
  next => exact ⟨shared, hmodified, .refl shared⟩

section Callbacks

variable {run : Command → Effect} {loans : Loans}
  (hrun : ∀ command s, SparesLoaned loans s (run command s).2)

include hrun

theorem sparesLoaned_call (r : RegistryRef) (l : ListenerRef) (s : Session) :
    SparesLoaned loans s (call run r l s) := by
  unfold call
  split
  next => exact sparesLoaned_of_eq rfl loans
  next listener _ =>
    dsimp only
    split
    next => exact sparesLoaned_of_eq rfl loans
    next script _ =>
      exact runEach_keeps (fun _ => sparesLoaned_of_eq rfl loans) SparesLoaned.trans hrun script
        (s.note (.called r l listener.name))

theorem sparesLoaned_callEach (r : RegistryRef) (registrations : List ListenerRef) (s : Session) :
    SparesLoaned loans s (callEach run r registrations s) := by
  induction registrations generalizing s with
  | nil => exact sparesLoaned_of_eq rfl loans
  | cons l rest ih => exact (sparesLoaned_call hrun r l s).trans (ih _)

end Callbacks

theorem lasting_sparesLoaned : Lasting SparesLoaned where
  refl loans s := sparesLoaned_of_eq rfl loans
  trans := SparesLoaned.trans
  unloan h r shared hloan hr := h r shared (Loans.permit_write_of_cons hloan) hr
  step h r shared hloan hr := ⟨shared, h.registry_on_loan hloan hr, .refl shared⟩
  notify := by
    intro inner loans s name r shared hinner hname hpermit
    have hrun := hinner (⟨.registry r, .read⟩ :: loans)
    let registrations := shared.registry.listeners.registrations
    unfold Session.notify
    rw [hname]
    dsimp only
    rw [if_pos hpermit]
    have hbegin := sparesLoaned_modifyListeners (s.note (.notifying r)) r (·.begin)
      (fun _ => rfl) (⟨.registry r, .read⟩ :: loans)
    have hcalls := sparesLoaned_callEach hrun r registrations
      ((s.note (.notifying r)).modifyListeners r (·.begin))
    have hfinish := sparesLoaned_modifyListeners
      (callEach (inner (⟨.registry r, .read⟩ :: loans)) r registrations
        ((s.note (.notifying r)).modifyListeners r (·.begin))) r
      (·.finish registrations.length) (fun _ => rfl) (⟨.registry r, .read⟩ :: loans)
    exact (hbegin.trans hcalls).trans hfinish

/-! ## Refusals -/

/-- An answer that something needed is on loan goes with the session as it was. -/
def IdleIfBusy (s : Session) (result : Answer × Session) : Prop :=
  result.1 = .busy → result.2 = s

theorem idleIfBusy_same (s : Session) (answer : Answer) : IdleIfBusy s (answer, s) := fun _ => rfl

theorem idleIfBusy_onDocument (s : Session) (loans : Loans) (name : String)
    (action : DocumentAction) : IdleIfBusy s (s.onDocument loans name action) := by
  have hanswer : ∀ document : Document, (action.run document).1 ≠ .busy := by
    intro document
    unfold DocumentAction.run DocumentAction.ofEdit DocumentAction.dumpOf
    split <;> try split
    all_goals exact fun h => nomatch h
  unfold onDocument
  split
  next => exact idleIfBusy_same s _
  next d document _ =>
    split
    next => exact fun h => absurd h (hanswer document)
    next => exact idleIfBusy_same s _

theorem idleIfBusy_onManager (s : Session) (loans : Loans) (name : String)
    (action : ManagerAction) : IdleIfBusy s (s.onManager loans name action) := by
  cases action with
  | openDocument document storeAs =>
    unfold onManager
    dsimp only
    split
    next => exact idleIfBusy_same s _
    next =>
      split
      next =>
        split
        next => exact fun h => nomatch h
        next => exact fun h => nomatch h
      next => exact idleIfBusy_same s _
  | get id storeAs =>
    unfold onManager
    dsimp only
    split
    next => exact idleIfBusy_same s _
    next => exact fun h => nomatch h
  | make _ => exact fun h => nomatch h
  | close _ => exact fun h => nomatch h
  | documents => exact idleIfBusy_same s _
  | inspect => exact idleIfBusy_same s _

-- a registry that may be acted on has an answer
theorem idleIfBusy_actOnRegistry (s : Session) (loans : Loans) (r : RegistryRef)
    (shared : SharedRegistry) (store : Document) (action : RegistryAction) :
    IdleIfBusy s (s.actOnRegistry loans r shared store action) := by
  unfold actOnRegistry
  cases action with
  | add source start stop label storeAs =>
    dsimp only
    split <;> exact fun h => nomatch h
  | remove name =>
    dsimp only
    split
    next => exact idleIfBusy_same s _
    next => split <;> exact fun h => nomatch h
  | sourceOf name =>
    dsimp only
    split <;> exact idleIfBusy_same s _
  | resolve name storeAs =>
    dsimp only
    split
    next => exact idleIfBusy_same s _
    next =>
      split
      next => exact idleIfBusy_same s _
      next => exact fun h => nomatch h
  | uses name =>
    dsimp only
    split <;> exact idleIfBusy_same s _
  | listen name =>
    dsimp only
    split
    next => exact idleIfBusy_same s _
    next => exact fun h => nomatch h
  | unlisten name =>
    dsimp only
    split
    next => exact idleIfBusy_same s _
    next => exact fun h => nomatch h
  | removeFrom _ => exact fun h => nomatch h
  | prune => exact fun h => nomatch h
  | takeFirstUpdate => exact fun h => nomatch h
  | lines _ _ => exact fun h => nomatch h
  | size => exact idleIfBusy_same s _
  | stats => exact idleIfBusy_same s _
  | inspect => exact idleIfBusy_same s _

theorem idleIfBusy_onRegistry (s : Session) (loans : Loans) (name : String)
    (action : RegistryAction) : IdleIfBusy s (s.onRegistry loans name action) := by
  unfold onRegistry
  split
  next => exact idleIfBusy_same s _
  next =>
    split
    next =>
      split
      next => exact idleIfBusy_same s _
      next => exact idleIfBusy_same s _
      next =>
        split
        next => exact idleIfBusy_actOnRegistry s loans _ _ _ action
        next => exact idleIfBusy_same s _
    next => exact idleIfBusy_same s _

theorem idleIfBusy_onLines (s : Session) (action : LineAction) :
    IdleIfBusy s (s.onLines action) := by
  cases action with
  | forge storeAs json =>
    unfold onLines
    dsimp only
    split
    next => exact idleIfBusy_same s _
    next => exact fun h => nomatch h
  | compare a b =>
    unfold onLines
    dsimp only
    split <;> exact idleIfBusy_same s _
  | display _ => exact idleIfBusy_same s _
  | encode _ => exact idleIfBusy_same s _
  | inspect _ => exact idleIfBusy_same s _
  | sort _ => exact idleIfBusy_same s _
  | distinct _ => exact idleIfBusy_same s _

theorem idleIfBusy_exec (inner : Inner) (loans : Loans) (command : Command) (s : Session) :
    IdleIfBusy s (command.exec inner loans s) := by
  cases command with
  | makeDocument name document => exact fun h => nomatch h
  | onDocument name action => exact s.idleIfBusy_onDocument loans name action
  | onManager name action => exact s.idleIfBusy_onManager loans name action
  | onRegistry name action => exact s.idleIfBusy_onRegistry loans name action
  | onLines action => exact s.idleIfBusy_onLines action
  | walk name scope stopAfter script =>
    show IdleIfBusy s (s.walk inner loans name scope stopAfter script)
    unfold walk
    split
    next => exact idleIfBusy_same s _
    next => exact fun h => nomatch h
  | notify name =>
    show IdleIfBusy s (s.notify inner loans name)
    unfold notify
    split
    next => exact idleIfBusy_same s _
    next =>
      split
      next => exact fun h => nomatch h
      next => exact idleIfBusy_same s _
  | makeListener name script => exact fun h => nomatch h
  | hold cell access commands =>
    show IdleIfBusy s (s.hold inner loans cell access commands)
    unfold hold
    split
    next => exact idleIfBusy_same s _
    next =>
      split
      next => exact fun h => nomatch h
      next => exact idleIfBusy_same s _

/-- The registry that a command borrows, by its name, and how. -/
def borrows? : Command → Option (String × Access)
  | .onRegistry name action => some (name, action.access)
  | .walk name .. | .notify name => some (name, .read)
  | .hold (.registry name) access _ => some (name, access)
  | _ => none

-- a command that cannot borrow its registry is refused
theorem exec_of_on_loan {s : Session} {name : String} {access : Access} {command : Command}
    (hborrows : borrows? command = some (name, access)) {r : RegistryRef} {shared : SharedRegistry}
    (hname : s.registry? name = some (r, shared)) {loans : Loans}
    (hloan : loans.permit (.registry r) access = false) (inner : Inner) :
    command.exec inner loans s = (.busy, s) := by
  have hbusy : ¬ loans.permit (.registry r) access = true := Bool.eq_false_iff.1 hloan
  cases command with
  | onRegistry name' action =>
    cases hborrows
    show s.onRegistry loans name action = _
    unfold onRegistry
    rw [hname]
    exact if_neg hbusy
  | walk name' scope stopAfter script =>
    cases hborrows
    show s.walk inner loans name scope stopAfter script = _
    have hwhole : ¬ (loans.permit (.registry r) .read &&
        loans.permit (.document shared.document) .read) = true := by
      rw [hloan]
      exact Bool.false_ne_true
    unfold walk showLines findLines
    rw [hname]
    dsimp only
    rw [if_neg hwhole]
  | notify name' =>
    cases hborrows
    exact notify_of_busy hname hloan inner
  | hold cell access' commands =>
    cases cell with
    | document name' => cases hborrows
    | registry name' =>
      cases hborrows
      have hplace : s.place? (.registry name) = some (.registry r) := by
        obtain ⟨q, hq, hfound⟩ := Option.bind_eq_some_iff.1 hname
        obtain ⟨_, -, heq⟩ := Option.map_eq_some_iff.1 hfound
        cases heq
        show (s.registryNames.find? name).map Place.registry = _
        rw [hq]
        rfl
      show s.hold inner loans (.registry name) access commands = _
      unfold hold
      rw [hplace]
      exact if_neg hbusy
  | makeDocument => cases hborrows
  | onDocument => cases hborrows
  | onManager => cases hborrows
  | onLines => cases hborrows
  | makeListener => cases hborrows

/-! ## Callbacks -/

/-- The session that is come to by commands, run one after the other to any depth, while some loans
stand. -/
inductive Acts (loans : Loans) (s : Session) : Session → Prop where
  | nothing : Acts loans s s
  | command {t : Session} (levels : Nat) (command : Command) (h : Acts loans s t) :
      Acts loans s (command.run levels loans t).2

theorem Lasting.acts {p : Relation} (hp : Lasting p) {loans : Loans} {s t : Session}
    (h : Acts loans s t) : p loans s t := by
  induction h with
  | nothing => exact hp.refl loans s
  | command levels command _ ih => exact hp.trans ih (hp.run levels loans command _)

/-- While a registry shows lines to a visitor, whatever the visitor does by commands, or while it
notifies its listeners, whatever their scripts do, its records, its registrations in order, its
first update and the document that it leads to stay what they were. Meanwhile every command that
needs the registry in a way that is on loan is refused, and what is refused in this way changes
nothing. -/
theorem registry_spared_by_callbacks (levels : Nat) (loans : Loans) (s : Session) :
    (∀ (name : String) (r : RegistryRef) (shared : SharedRegistry),
      s.registry? name = some (r, shared) →
      (∀ command : Command,
        ((∃ scope stopAfter script, command = .walk name scope stopAfter script) ∨
          command = .notify name) →
        ∃ shared', (command.run levels loans s).2.cells.registries[r]? = some shared' ∧
          shared'.registry.records = shared.registry.records ∧
          shared'.registry.listeners.registrations = shared.registry.listeners.registrations ∧
          shared'.registry.firstUpdateConsumed = shared.registry.firstUpdateConsumed ∧
          shared'.document = shared.document) ∧
      (∀ (μ : Type) (scope : WalkScope) (visitor : Visitor μ) (known known' : μ)
        (completed : Bool) (t : Session),
        (∀ line known t, Acts (⟨.registry r, .read⟩ :: loans) t
          (visitor (⟨.registry r, .read⟩ :: loans) line (known, t)).2.2) →
        s.showLines loans name scope visitor known = .ok (completed, known', t) →
        ∃ shared', t.cells.registries[r]? = some shared' ∧
          shared'.registry.records = shared.registry.records ∧
          shared'.registry.listeners.registrations = shared.registry.listeners.registrations ∧
          shared'.registry.firstUpdateConsumed = shared.registry.firstUpdateConsumed ∧
          shared'.document = shared.document)) ∧
    (∀ (command : Command) (name : String) (access : Access) (r : RegistryRef)
      (shared : SharedRegistry), borrows? command = some (name, access) →
        s.registry? name = some (r, shared) → loans.permit (.registry r) access = false →
          command.run (levels + 1) loans s = (.busy, s)) ∧
    (∀ command : Command,
      (command.run levels loans s).1 = .busy → (command.run levels loans s).2 = s) := by
  refine ⟨?_, ?_, ?_⟩
  · intro name r shared hname
    have hr := registries_of_name hname
    have hloan := loans.permit_write_cons (.registry r) .read
    refine ⟨?_, ?_⟩
    · intro command hcommand
      have hspares : SparesLoaned (⟨.registry r, .read⟩ :: loans) s
          (command.run levels loans s).2 := by
        cases levels with
        | zero => exact sparesLoaned_of_eq rfl _
        | succ levels =>
          have hinner := lasting_sparesLoaned.run levels
          rcases hcommand with ⟨scope, stopAfter, script, rfl⟩ | rfl
          · exact lasting_sparesLoaned.walk hinner hname scope stopAfter script
          · show SparesLoaned _ s (s.notify (Command.run levels) loans name).2
            cases hpermit : loans.permit (.registry r) .read with
            | true => exact lasting_sparesLoaned.notify hinner hname hpermit
            | false =>
              rw [notify_of_busy hname hpermit]
              exact sparesLoaned_of_eq rfl _
      obtain ⟨shared', hr', h⟩ := hspares r shared hloan hr
      exact ⟨shared', hr', h.records_eq, h.registrations_eq, h.firstUpdate_eq, h.document_eq⟩
    · intro μ scope visitor known known' completed t hvisitor hshown
      rcases s.showLines_cases loans name scope visitor known
        with ⟨refusal, heq⟩ | ⟨q, shared', lines, events, hname', heq⟩
      · cases heq.symm.trans hshown
      · cases hname.symm.trans hname'
        have hwalk := Except.ok.inj (heq.symm.trans hshown)
        have hvisits := lasting_sparesLoaned.visits
          (fun line known t => lasting_sparesLoaned.acts (hvisitor line known t)) lines known
          (s.report events)
        rw [hwalk] at hvisits
        obtain ⟨shared', hr', h⟩ := hvisits r shared hloan hr
        exact ⟨shared', hr', h.records_eq, h.registrations_eq, h.firstUpdate_eq, h.document_eq⟩
  · intro command name access r shared hborrows hname hloan
    exact exec_of_on_loan hborrows hname hloan _
  · intro command
    cases levels with
    | zero => exact fun h => nomatch h
    | succ levels => exact idleIfBusy_exec _ loans command s

/-- A registry with a line and two names, and a listener to it that meddles with it by both, closes
its document and notifies again. -/
def meddling : Session :=
  (empty.steps maxLevels
    [.makeDocument "text" (.buffer (.ofText "a" ['x', 'y', 'z'])),
      .onManager "m" (.openDocument "text" (some "r")),
      .onManager "m" (.get "a" (some "q")),
      .onRegistry "r" (.add "outline" 0 2 none (some "line")),
      .makeListener "meddler"
        (some
          [.onRegistry "q" (.add "outline" 1 2 none none), .onRegistry "q" (.remove "line"),
            .onRegistry "r" .prune, .onRegistry "r" .takeFirstUpdate,
            .onRegistry "q" (.listen "meddler"), .onRegistry "r" (.unlisten "meddler"),
            .onManager "m" (.close "a"), .onDocument "text" (.delete 0 3), .notify "q"]),
      .onRegistry "r" (.listen "meddler")]).2

/-- The meddler is called four times, for a notification may be nested three times, and the registry
is what it was, though its document is closed and its line is cut out. -/
theorem meddled_registry_spared :
    ∃ shared, meddling.registry? "r" = some (0, shared) ∧
      shared.registry.records.keys = [⟨0⟩] ∧ shared.registry.listeners.registrations = [0] ∧
      ∃ shared', ((Command.notify "r").run maxLevels [] meddling).2.cells.registries[0]? =
          some shared' ∧
        shared'.registry.listeners.sent = 4 ∧
        shared'.registry.records = shared.registry.records ∧
        shared'.registry.listeners.registrations = shared.registry.listeners.registrations ∧
        shared'.registry.firstUpdateConsumed = shared.registry.firstUpdateConsumed ∧
        shared'.document = shared.document := by
  have hscene : (meddling.registry? "r").map (fun found =>
      (found.1, found.2.registry.records.keys, found.2.registry.listeners.registrations)) =
        some (0, [⟨0⟩], [0]) := by
    decide +kernel
  have hsent : (((Command.notify "r").run maxLevels [] meddling).2.cells.registries[0]?).map
      (·.registry.listeners.sent) = some 4 := by
    decide +kernel
  obtain ⟨⟨r, shared⟩, hname, hshared⟩ := Option.map_eq_some_iff.1 hscene
  simp only [Prod.mk.injEq] at hshared
  obtain ⟨rfl, hrecords, hregistrations⟩ := hshared
  obtain ⟨hkept, -⟩ := (registry_spared_by_callbacks maxLevels [] meddling).1 "r" 0 shared hname
  obtain ⟨shared', hr', hspared⟩ := hkept (.notify "r") (Or.inr rfl)
  rw [hr'] at hsent
  exact ⟨shared, hname, hrecords, hregistrations, shared', hr', Option.some.inj hsent, hspared⟩

end Session
end StickyScroll
