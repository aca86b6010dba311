import Mathlib
import StickyScroll.Proofs.Session.Ledger
import StickyScroll.Proofs.Session.Lasting
import StickyScroll.Proofs.Session.Nested

/-!
# Notifications

Listeners may notify again, the registry that calls them as well, to any depth. The ledger is kept
through all of it: at every moment of a session, in the middle of nested scripts too, the listeners
of each registry are those on record, a notification that is at an end has called the listeners that
it found, each once and in order, and the counts are those of the notes.
-/

namespace StickyScroll

/-! ## Actions -/

/-- What is on record before is so afterwards, and the same notifications are underway. -/
def Wiring.Recorded (w w' : Wiring) : Prop :=
  ∀ past, w.OnRecord (past ++ w.journal) →
    w'.OnRecord (past ++ w'.journal) ∧
      (Ledger.of (past ++ w'.journal)).underway = (Ledger.of (past ++ w.journal)).underway

namespace Wiring

variable {w w' : Wiring}

theorem Recorded.refl (w : Wiring) : w.Recorded w := fun _ hw => ⟨hw, rfl⟩

theorem Recorded.trans {x y z : Wiring} (hxy : x.Recorded y) (hyz : y.Recorded z) :
    x.Recorded z := by
  intro past hx
  obtain ⟨hy, hunderway⟩ := hxy past hx
  obtain ⟨hz, hunderway'⟩ := hyz past hy
  exact ⟨hz, hunderway'.trans hunderway⟩

-- nothing is noted that the ledger looks at, and the listeners are what they were
theorem recorded_of_quiet {notes : List Note} (hjournal : w'.journal = w.journal ++ notes)
    (hquiet : ∀ note ∈ notes, note.Quiet) (hboard : ∀ r, w'.board r = w.board r)
    (hregistries : w.registries.length ≤ w'.registries.length)
    (hlisteners : w.listeners.length ≤ w'.listeners.length)
    (hnamed : (∀ name l, w.listenerNames.find? name = some l → l < w.listeners.length) →
      ∀ name l, w'.listenerNames.find? name = some l → l < w'.listeners.length) :
    w.Recorded w' := by
  intro past hw
  rw [hjournal, ← List.append_assoc, Ledger.of_append_quiet hquiet]
  exact ⟨hw.quiet hboard hregistries hlisteners (hnamed hw.named_lt) hquiet, rfl⟩

theorem recorded_report (w : Wiring) (events : List Event) : w.Recorded (w.report events) := by
  have hboard : ∀ r, (w.report events).board r = w.board r := fun _ => rfl
  exact recorded_of_quiet rfl (fun _ => Note.quiet_of_mem_events) hboard (Nat.le_refl _)
    (Nat.le_refl _) id

-- one note more, which opens and closes no notification
theorem recorded_of_note {note : Note} (hjournal : w'.journal = w.journal)
    (hunderway : ∀ k : Ledger, (k.enter note).underway = k.underway)
    (hw' : ∀ history, w.OnRecord history → w'.OnRecord (history ++ [note])) :
    w.Recorded (w'.note note) := by
  intro past hw
  show OnRecord _ (past ++ (w'.journal ++ [note])) ∧
    (Ledger.of (past ++ (w'.journal ++ [note]))).underway = _
  rw [hjournal, ← List.append_assoc, Ledger.of_note]
  exact ⟨(hw' _ hw).withJournal _, hunderway _⟩

theorem Step.recorded {loans : Loans} (h : w.Step loans w') : w.Recorded w' := by
  cases h with
  | aside events => exact w.recorded_report events
  | opens d events =>
    refine Recorded.trans ?_ (recorded_report _ events)
    refine recorded_of_quiet (List.append_nil _).symm (fun _ h => nomatch h) (w.board_append d) ?_
      (Nat.le_refl _) id
    show _ ≤ (w.registries ++ _).length
    rw [List.length_append]
    exact Nat.le_add_right _ _
  | @works r shared registry events hr _ hlisteners =>
    refine Recorded.trans ?_ (recorded_report _ events)
    refine recorded_of_quiet (List.append_nil _).symm (fun _ h => nomatch h) ?_ ?_ (Nat.le_refl _) id
    · intro q
      rw [board_setRegistry hr, hlisteners, ← board_of_getElem? hr]
      split
      next hq => rw [hq]
      next => rfl
    · exact Nat.le_of_eq (List.length_set ..).symm
  | listens hr _ hname =>
    exact recorded_of_note rfl (fun _ => rfl) fun _ hw =>
      hw.listened hr (hw.named_lt _ _ hname)
  | unlistens hr _ hmem =>
    exact recorded_of_note rfl (fun _ => rfl) fun _ hw => hw.unlistened hr hmem
  | makes name script =>
    refine recorded_of_quiet (List.append_nil _).symm (fun _ h => nomatch h) (fun _ => rfl)
      (Nat.le_refl _) ?_ ?_
    · show _ ≤ (w.listeners ++ [_]).length
      rw [List.length_append]
      exact Nat.le_add_right _ _
    · intro hnamed other l hl
      show l < (w.listeners ++ [_]).length
      rw [List.length_append, List.length_singleton]
      change (w.listenerNames.insert name w.listeners.length).find? other = some l at hl
      rw [Table.find?_insert] at hl
      split at hl
      next =>
        cases hl
        exact Nat.lt_succ_self _
      next => exact Nat.lt_succ_of_lt (hnamed other l hl)

end Wiring

namespace Session

/-! ## Notifications -/

theorem wiring_modifyListeners {s : Session} {r : RegistryRef} {shared : SharedRegistry}
    (hr : s.cells.registries[r]? = some shared)
    (change : Listeners ListenerRef → Listeners ListenerRef) :
    (s.modifyListeners r change).wiring =
      s.wiring.setListeners r shared (change shared.registry.listeners) :=
  wiring_modifyRegistry hr _

/-- The session is on record, and in the middle of a notification. -/
structure Amid (past : List Note) (n : Notification) (outer : List Notification) (s : Session) :
    Prop where
  onRecord : s.wiring.OnRecord (past ++ s.journal)
  underway_eq : (Ledger.of (past ++ s.journal)).underway = n :: outer

variable {past : List Note} {n : Notification} {outer : List Notification} {s t : Session}

theorem Amid.recorded (hs : Amid past n outer s) (h : s.wiring.Recorded t.wiring) :
    Amid past n outer t := by
  obtain ⟨ht, hunderway⟩ := h past hs.onRecord
  exact ⟨ht, hunderway.trans hs.underway_eq⟩

theorem amid_begun {r : RegistryRef} {shared : SharedRegistry}
    (hs : s.wiring.OnRecord (past ++ s.journal)) (hr : s.cells.registries[r]? = some shared) :
    Amid past ⟨r, shared.registry.listeners.registrations, []⟩
      (Ledger.of (past ++ s.journal)).underway
      ((s.note (.notifying r)).modifyListeners r (·.begin)) := by
  have hwiring : ((s.note (.notifying r)).modifyListeners r (·.begin)).wiring =
      (s.wiring.setListeners r shared shared.registry.listeners.begin).note (.notifying r) :=
    wiring_modifyListeners (s := s.note (.notifying r)) hr _
  have hjournal : ((s.note (.notifying r)).modifyListeners r (·.begin)).journal =
      s.journal ++ [.notifying r] := rfl
  have hregistered : (Ledger.of (past ++ s.journal)).registered r =
      shared.registry.listeners.registrations := by
    rw [← (hs.boards r).registrations_eq, Wiring.board_of_getElem? (w := s.wiring) hr]
  constructor
  · rw [hwiring, hjournal, ← List.append_assoc]
    exact (hs.notifying hr).withJournal _
  · rw [hjournal, ← List.append_assoc, Ledger.of_note, ← hregistered]
    rfl

theorem Amid.called (hs : Amid past n outer s) {l : ListenerRef}
    (hl : n.called ++ [l] <+: n.present) (name : String) :
    Amid past { n with called := n.called ++ [l] } outer
      (s.note (.called n.registry l name)) := by
  have hjournal : (s.note (.called n.registry l name)).journal =
      s.journal ++ [.called n.registry l name] := rfl
  constructor
  · rw [hjournal, ← List.append_assoc]
    exact (hs.onRecord.called hs.underway_eq hl name).withJournal _
  · rw [hjournal, ← List.append_assoc, Ledger.of_note, Ledger.enter_called hs.underway_eq]

-- the notification has called all that it found, and is at an end
theorem Amid.finish (hs : Amid past n outer s) (hall : n.called = n.present)
    (events : List Event) :
    let t := ((s.modifyListeners n.registry (·.finish n.present.length)).note
      (.notified n.registry)).report events
    t.wiring.OnRecord (past ++ t.journal) ∧
      (Ledger.of (past ++ t.journal)).underway = outer ∧
      (Ledger.of (past ++ t.journal)).ended = n :: (Ledger.of (past ++ s.journal)).ended := by
  intro t
  have hlt := (hs.onRecord.proceeds n (hs.underway_eq ▸ List.mem_cons_self)).registry_lt
  have hr : s.cells.registries[n.registry]? = some s.cells.registries[n.registry] :=
    List.getElem?_eq_getElem hlt
  have hjournal : t.journal = s.journal ++ [.notified n.registry] ++ events.map .event := rfl
  have hwiring : t.wiring =
      (((s.wiring.setListeners n.registry s.cells.registries[n.registry]
        (s.cells.registries[n.registry].registry.listeners.finish n.called.length)).note
          (.notified n.registry)).report events) := by
    rw [wiring_report, wiring_note, wiring_modifyListeners hr, hall]
  have hquiet : ∀ note ∈ events.map Note.event, note.Quiet := fun _ => Note.quiet_of_mem_events
  have hledger : Ledger.of (past ++ t.journal) =
      { Ledger.of (past ++ s.journal) with
        underway := outer, ended := n :: (Ledger.of (past ++ s.journal)).ended } := by
    rw [hjournal, ← List.append_assoc, ← List.append_assoc, Ledger.of_append_quiet hquiet,
      Ledger.of_note, Ledger.enter_notified hs.underway_eq]
  refine ⟨?_, by rw [hledger], by rw [hledger]⟩
  rw [hwiring, hjournal, ← List.append_assoc, ← List.append_assoc]
  exact ((hs.onRecord.notified hs.underway_eq hr hall).withJournal _).report events

section Callbacks

variable {run : Command → Effect}
  (hrun : ∀ (command : Command) (s : Session), s.wiring.Recorded (run command s).2.wiring)

include hrun

theorem Amid.call (hs : Amid past n outer s) {l : ListenerRef}
    (hl : n.called ++ [l] <+: n.present) :
    Amid past { n with called := n.called ++ [l] } outer (call run n.registry l s) := by
  have hproceeds := hs.onRecord.proceeds n (hs.underway_eq ▸ List.mem_cons_self)
  have hlt : l < s.listeners.length := hproceeds.present_lt l (hl.subset (by simp))
  unfold Session.call
  rw [List.getElem?_eq_getElem hlt]
  dsimp only
  have hcalled := hs.called hl (s.listeners[l]).name
  split
  next => exact hcalled
  next script _ =>
    have hscript := runEach_keeps (q := fun s t => s.wiring.Recorded t.wiring) (fun _ => .refl _)
      Wiring.Recorded.trans hrun script (s.note (.called n.registry l (s.listeners[l]).name))
    refine (hcalled.recorded hscript).recorded ?_
    exact Wiring.recorded_of_quiet rfl (by simp [Note.Quiet]) (fun _ => rfl) (Nat.le_refl _)
      (Nat.le_refl _) id

-- some of the listeners that were found are called one after the other
theorem Amid.callEach (hs : Amid past n outer s) {next : List ListenerRef}
    (hnext : n.called ++ next <+: n.present) :
    Amid past { n with called := n.called ++ next } outer (callEach run n.registry next s) := by
  induction next generalizing n s with
  | nil =>
    rw [List.append_nil]
    exact hs
  | cons l rest ih =>
    rw [List.append_cons] at hnext ⊢
    have hl : n.called ++ [l] <+: n.present := (List.prefix_append _ _).trans hnext
    exact ih (n := { n with called := n.called ++ [l] }) (hs.call hrun hl) hnext

end Callbacks

/-- Actions, calls and notifications keep the record. -/
def Recorded : Relation := fun _ s t => s.wiring.Recorded t.wiring

/-- A notification that runs calls all that it found, and leaves underway what was underway. -/
theorem onRecord_notify {inner : Inner} (hinner : inner.Keeps Recorded) {loans : Loans}
    {name : String} {r : RegistryRef} {shared : SharedRegistry}
    (hname : s.registry? name = some (r, shared))
    (hpermit : loans.permit (.registry r) .read = true)
    (hs : s.wiring.OnRecord (past ++ s.journal)) :
    let t := (s.notify inner loans name).2
    let present := shared.registry.listeners.registrations
    t.wiring.OnRecord (past ++ t.journal) ∧
      (Ledger.of (past ++ t.journal)).underway = (Ledger.of (past ++ s.journal)).underway ∧
      ∃ earlier, (Ledger.of (past ++ t.journal)).ended = ⟨r, present, present⟩ :: earlier := by
  have hrun : ∀ (command : Command) (s : Session),
      s.wiring.Recorded (inner (⟨.registry r, .read⟩ :: loans) command s).2.wiring :=
    hinner (⟨.registry r, .read⟩ :: loans)
  have hbegun := amid_begun hs (registries_of_name hname)
  obtain ⟨ht, hunderway, hended⟩ := (hbegun.callEach hrun (List.prefix_refl _)).finish rfl
    [.listenersNotified shared.registry.listeners.registrations.length]
  unfold notify
  rw [hname]
  dsimp only
  rw [if_pos hpermit]
  exact ⟨ht, hunderway, _, hended⟩

theorem lasting_recorded : Lasting Recorded where
  refl _ s := .refl _
  trans := Wiring.Recorded.trans
  unloan h := h
  step h := h.recorded
  notify := by
    intro inner loans s name r shared hinner hname hpermit past hs
    obtain ⟨ht, hunderway, -⟩ := onRecord_notify hinner hname hpermit hs
    exact ⟨ht, hunderway⟩

/-! ## Moments of a session -/

theorem Running.recorded (c : Running) : c.session.wiring.Recorded c.after.wiring :=
  lasting_recorded.run c.levels c.loans c.command c.session

theorem Running.Inside.onRecord {c d : Running} (h : c.Inside d) {past : List Note}
    (hc : c.session.wiring.OnRecord (past ++ c.session.journal)) :
    d.session.wiring.OnRecord (past ++ d.session.journal) := by
  have hscript : ∀ (levels : Nat) (loans : Loans) (before : List Command) (s : Session),
      s.wiring.OnRecord (past ++ s.journal) →
        let t := (runEach (Command.run levels loans) before s).2
        t.wiring.OnRecord (past ++ t.journal) := fun levels loans before s hs =>
    (lasting_recorded.runEach (lasting_recorded.run levels) loans before s past hs).1
  cases h with
  | held hplace hpermit => exact hscript _ _ _ _ hc
  | @visiting levels loans s t u name scope stopAfter r visited rest line w before after command
      hfound hvisited =>
    apply hscript
    obtain ⟨shared, events, -, rfl⟩ := report_of_findLines hfound
    obtain ⟨ht, -⟩ := s.wiring.recorded_report events past hc
    let inside : Loans := ⟨.registry r, .read⟩ :: loans
    have hvisits : Recorded inside (s.report events)
        (visitWhile (visitLine (Command.run levels) (before ++ command :: after) stopAfter inside)
          visited (⟨[], []⟩, s.report events)).2.2 :=
      lasting_recorded.visits
        (fun _ _ t => lasting_recorded.runEach (lasting_recorded.run levels) _ _ t) _ _ _
    rw [hvisited] at hvisits
    exact (hvisits past ht).1
  | @listening levels loans s t name listener r shared called waiting l before after command hname
      hpermit hregistrations hcalled hlistener =>
    apply hscript
    have hrun : ∀ (command : Command) (s : Session), s.wiring.Recorded
        (Command.run levels (⟨.registry r, .read⟩ :: loans) command s).2.wiring :=
      lasting_recorded.run levels (⟨.registry r, .read⟩ :: loans)
    have hbegun := amid_begun hc (registries_of_name hname)
    rw [hregistrations] at hbegun
    have hamid := hbegun.callEach hrun (List.prefix_append called (l :: waiting))
    have hnext : called ++ [l] <+: called ++ l :: waiting := ⟨waiting, (List.append_cons ..).symm⟩
    rw [← hcalled]
    exact (hamid.called hnext listener).onRecord

theorem onRecord_empty : empty.wiring.OnRecord [] where
  boards _ := ⟨rfl, rfl, rfl, rfl⟩
  registered_lt _ _ h := nomatch h
  named_lt _ _ h := nomatch h
  proceeds _ h := nomatch h
  called_all _ h := nomatch h

-- each outermost command starts a journal of its own
theorem onRecord_steps (levels : Nat) (commands : List Command) {past : List Note}
    (hs : s.wiring.OnRecord past) (hnone : (Ledger.of past).underway = []) :
    let notes := (s.steps levels commands).1.flatMap (·.notes)
    (s.steps levels commands).2.wiring.OnRecord (past ++ notes) ∧
      (Ledger.of (past ++ notes)).underway = [] := by
  induction commands generalizing s past with
  | nil =>
    show s.wiring.OnRecord (past ++ []) ∧ (Ledger.of (past ++ [])).underway = []
    rw [List.append_nil]
    exact ⟨hs, hnone⟩
  | cons command rest ih =>
    let start : Session := { s with journal := [] }
    have hstart : start.wiring.OnRecord (past ++ start.journal) := by
      show start.wiring.OnRecord (past ++ [])
      rw [List.append_nil]
      exact hs.withJournal []
    obtain ⟨ht, hunderway⟩ := lasting_recorded.run levels [] command start past hstart
    let t := (command.run levels [] start).2
    show (t.steps levels rest).2.wiring.OnRecord
        (past ++ (t.journal ++ (t.steps levels rest).1.flatMap (·.notes))) ∧
      (Ledger.of (past ++ (t.journal ++ (t.steps levels rest).1.flatMap (·.notes)))).underway = []
    rw [← List.append_assoc]
    refine ih ht (hunderway.trans ?_)
    show (Ledger.of (past ++ [])).underway = []
    rw [List.append_nil]
    exact hnone

/-- At every moment of a session the listeners are on record, and no notification is underway
outside of all commands. -/
theorem Happens.onRecord {levels : Nat} {earlier : List Command} {c : Running}
    (hc : Happens levels earlier c) :
    c.session.wiring.OnRecord (notesOf levels earlier ++ c.session.journal) ∧
      (c.loans = [] → (Ledger.of (notesOf levels earlier ++ c.session.journal)).underway = []) := by
  induction hc with
  | outermost command =>
    obtain ⟨hs, hnone⟩ := onRecord_steps levels earlier onRecord_empty rfl
    show Wiring.OnRecord _ (notesOf levels earlier ++ []) ∧
      (_ → (Ledger.of (notesOf levels earlier ++ [])).underway = [])
    rw [List.append_nil]
    exact ⟨hs.withJournal [], fun _ => hnone⟩
  | inside _ h ih => exact ⟨h.onRecord ih.1, fun hnil => absurd hnil h.loans_ne_nil⟩

/-! ## Registering -/

theorem modifyRegistry_congr {r : RegistryRef} {shared : SharedRegistry}
    (hr : s.cells.registries[r]? = some shared)
    {change change' : Registry ListenerRef → Registry ListenerRef}
    (h : change shared.registry = change' shared.registry) :
    s.modifyRegistry r change = s.modifyRegistry r change' := by
  unfold modifyRegistry Cells.modifyRegistry
  rw [registries_modify hr change, registries_modify hr change', h]

theorem modifyRegistry_self {r : RegistryRef} {shared : SharedRegistry}
    (hr : s.cells.registries[r]? = some shared)
    {change : Registry ListenerRef → Registry ListenerRef}
    (h : change shared.registry = shared.registry) : s.modifyRegistry r change = s := by
  have hid : s.modifyRegistry r id = s := by
    show ({ s with cells := ⟨s.cells.documents, s.cells.registries.modify r id⟩ } : Session) = s
    rw [List.modify_id]
  rw [modifyRegistry_congr hr (show change shared.registry = id shared.registry from h), hid]

-- an action on a registry is turned away, or is done
theorem onRegistry_cases (s : Session) (loans : Loans) (name : String) (action : RegistryAction) :
    (∃ answer, s.onRegistry loans name action = (answer, s) ∧ answer ≠ .nothing ∧
      ∀ found, answer ≠ .flag found) ∨
      ∃ r shared store, s.registry? name = some (r, shared) ∧
        s.onRegistry loans name action = s.actOnRegistry loans r shared store action := by
  unfold onRegistry
  split
  next => exact Or.inl ⟨_, rfl, by simp, by simp⟩
  next r shared hname =>
    split
    next =>
      split
      next => exact Or.inl ⟨_, rfl, by simp, by simp⟩
      next => exact Or.inl ⟨_, rfl, by simp, by simp⟩
      next store _ _ =>
        split
        next => exact Or.inr ⟨r, shared, store, hname, rfl⟩
        next => exact Or.inl ⟨_, rfl, by simp, by simp⟩
    next => exact Or.inl ⟨_, rfl, by simp, by simp⟩

/-- A registration is added at the end, or nothing is changed. -/
theorem listen_cases (s : Session) (loans : Loans) (name listener : String) :
    let outcome := s.onRegistry loans name (.listen listener)
    (outcome.1 ≠ .nothing ∧ outcome.2 = s) ∨
      (outcome.1 = .nothing ∧ ∃ r shared l, s.registry? name = some (r, shared) ∧
        s.listenerNames.find? listener = some l ∧
        outcome.2 = (s.modifyListeners r (·.add l)).note (.listened r l)) := by
  dsimp only
  rcases s.onRegistry_cases loans name (.listen listener)
    with ⟨answer, heq, hanswer, -⟩ | ⟨r, shared, store, hname, heq⟩
  · rw [heq]
    exact Or.inl ⟨hanswer, rfl⟩
  · rw [heq]
    unfold actOnRegistry
    dsimp only
    split
    next => exact Or.inl ⟨by simp, rfl⟩
    next l hl =>
      refine Or.inr ⟨rfl, r, shared, l, hname, hl, ?_⟩
      exact congrArg (note · (.listened r l))
        (modifyRegistry_congr (registries_of_name hname) rfl)

/-- The first registration of the listener is taken out, or nothing is changed. -/
theorem unlisten_cases (s : Session) (loans : Loans) (name listener : String) :
    let outcome := s.onRegistry loans name (.unlisten listener)
    (outcome.1 ≠ .flag true ∧ outcome.2 = s) ∨
      (outcome.1 = .flag true ∧ ∃ r shared l before after,
        s.registry? name = some (r, shared) ∧ s.listenerNames.find? listener = some l ∧
        shared.registry.listeners.registrations = before ++ l :: after ∧ l ∉ before ∧
        outcome.2 = (s.modifyListeners r fun listeners =>
          { listeners with registrations := before ++ after }).note (.unlistened r l)) := by
  dsimp only
  rcases s.onRegistry_cases loans name (.unlisten listener)
    with ⟨answer, heq, -, hanswer⟩ | ⟨r, shared, store, hname, heq⟩
  · rw [heq]
    exact Or.inl ⟨hanswer true, rfl⟩
  · rw [heq]
    have hr := registries_of_name hname
    unfold actOnRegistry
    dsimp only
    split
    next => exact Or.inl ⟨by simp, rfl⟩
    next l hl =>
      by_cases hmem : l ∈ shared.registry.listeners.registrations
      · obtain ⟨before, after, hbefore, hsplit, herase⟩ := List.exists_erase_eq hmem
        rw [Listeners.remove_of_mem hmem, herase]
        refine Or.inr ⟨rfl, r, shared, l, before, after, hname, hl, hsplit, hbefore, ?_⟩
        exact congrArg (note · (.unlistened r l)) (modifyRegistry_congr hr rfl)
      · rw [Listeners.remove_of_not_mem hmem]
        exact Or.inl ⟨by simp, modifyRegistry_self hr rfl⟩

/-! ## Listeners that do nothing -/

/-- The listener has no script, so that nothing comes of calling it. -/
def Silent (s : Session) (l : ListenerRef) : Prop :=
  ∀ listener, s.listeners[l]? = some listener → listener.script = none

-- what is noted when listeners are called that do nothing
def callNotes (s : Session) (r : RegistryRef) (present : List ListenerRef) : List Note :=
  present.filterMap fun l => (s.listeners[l]?).map fun listener => .called r l listener.name

theorem call_of_silent (run : Command → Effect) (r : RegistryRef) {l : ListenerRef}
    (hsilent : s.Silent l) :
    call run r l s = { s with journal := s.journal ++ s.callNotes r [l] } := by
  unfold call callNotes
  cases hl : s.listeners[l]? with
  | none =>
    simp only [List.filterMap, hl, Option.map_none, List.append_nil]
  | some listener =>
    simp only [List.filterMap, hl, Option.map_some, hsilent listener hl]
    rfl

theorem callEach_of_silent (run : Command → Effect) (r : RegistryRef)
    {present : List ListenerRef} (hsilent : ∀ l ∈ present, s.Silent l) :
    callEach run r present s = { s with journal := s.journal ++ s.callNotes r present } := by
  induction present generalizing s with
  | nil =>
    show s = { s with journal := s.journal ++ [] }
    rw [List.append_nil]
  | cons l rest ih =>
    have hnotes : s.callNotes r (l :: rest) = s.callNotes r [l] ++ s.callNotes r rest :=
      List.filterMap_append (l := [l])
    -- the listeners are the same after the call
    have hrest : ∀ l' ∈ rest,
        Silent { s with journal := s.journal ++ s.callNotes r [l] } l' :=
      fun l' hl' => hsilent l' (List.mem_cons_of_mem l hl')
    rw [callEach, call_of_silent run r (hsilent l List.mem_cons_self), ih hrest, hnotes,
      ← List.append_assoc]
    rfl

theorem modifyListeners_modifyListeners (s : Session) (r : RegistryRef)
    (first second : Listeners ListenerRef → Listeners ListenerRef) :
    (s.modifyListeners r first).modifyListeners r second =
      s.modifyListeners r (second ∘ first) := by
  unfold modifyListeners modifyRegistry Cells.modifyRegistry
  rw [List.modify_modify_eq]
  rfl

/-- A notification of listeners that do nothing calls each of them, and leaves the listeners of the
registry as `Listeners.notify` does. -/
theorem notify_of_silent {loans : Loans} {name : String} {r : RegistryRef}
    {shared : SharedRegistry} (hname : s.registry? name = some (r, shared))
    (hpermit : loans.permit (.registry r) .read = true)
    (hsilent : ∀ l ∈ shared.registry.listeners.registrations, s.Silent l) (inner : Inner) :
    let present := shared.registry.listeners.registrations
    s.notify inner loans name =
      (.nothing,
        { s.modifyListeners r (·.notify) with
          journal := s.journal ++ [.notifying r] ++ s.callNotes r present ++ [.notified r] ++
            [.event (.listenersNotified present.length)] }) := by
  intro present
  have hr := registries_of_name hname
  have hcalls := callEach_of_silent (s := (s.note (.notifying r)).modifyListeners r (·.begin))
    (inner (⟨.registry r, .read⟩ :: loans)) r hsilent
  have hlisteners : (s.modifyListeners r (·.begin)).modifyListeners r (·.finish present.length) =
      s.modifyListeners r (·.notify) :=
    (s.modifyListeners_modifyListeners r _ _).trans (modifyRegistry_congr hr rfl)
  unfold notify
  rw [hname]
  dsimp only
  rw [if_pos hpermit, hcalls, ← hlisteners]
  rfl

/-! ## The contract -/

/-- Wherever a command is run in a session, before it and after it the record tells of each registry
who is registered and how often listeners were notified and called, every notification that is at an
end has called exactly the registrations that it found, in order, and one that is underway a first
part of them. A notification that runs is at an end afterwards, whatever its listeners do. Taking
back takes the first registration of that listener and leaves the others as they are, or else
changes nothing. -/
theorem notifications_on_record {levels : Nat} {earlier : List Command} {c : Running}
    (hc : Happens levels earlier c) :
    let past := notesOf levels earlier
    (∀ s, s = c.session ∨ s = c.after →
      let history := past ++ s.journal
      let ledger := Ledger.of history
      (∀ n ∈ ledger.ended, n.called = n.present) ∧
      (∀ n ∈ ledger.underway, n.called <+: n.present) ∧
      (c.loans = [] → ledger.underway = []) ∧
      ∀ r shared, s.cells.registries[r]? = some shared →
        let listeners := shared.registry.listeners
        listeners.registrations = ledger.registered r ∧
        listeners.count + tally history .removed r = tally history .added r ∧
        listeners.sent = tally history .begun r ∧
        ((∀ n ∈ ledger.underway, n.registry ≠ r) →
          listeners.calls = tally history .called r)) ∧
    (∀ name r shared, c.command = .notify name → 0 < c.levels →
      c.session.registry? name = some (r, shared) → c.loans.permit (.registry r) .read = true →
        let present := shared.registry.listeners.registrations
        let ledger := Ledger.of (past ++ c.after.journal)
        ledger.underway = (Ledger.of (past ++ c.session.journal)).underway ∧
        ∃ before, ledger.ended = ⟨r, present, present⟩ :: before) ∧
    (∀ name listener, c.command = .onRegistry name (.listen listener) →
      (c.answer ≠ .nothing ∧ c.after = c.session) ∨
        (c.answer = .nothing ∧ ∃ r shared l, c.session.registry? name = some (r, shared) ∧
          c.session.listenerNames.find? listener = some l ∧
          c.after = (c.session.modifyListeners r (·.add l)).note (.listened r l))) ∧
    (∀ name listener, c.command = .onRegistry name (.unlisten listener) →
      (c.answer ≠ .flag true ∧ c.after = c.session) ∨
        (c.answer = .flag true ∧ ∃ r shared l before after,
          c.session.registry? name = some (r, shared) ∧
          c.session.listenerNames.find? listener = some l ∧
          shared.registry.listeners.registrations = before ++ l :: after ∧ l ∉ before ∧
          c.after = (c.session.modifyListeners r fun listeners =>
            { listeners with registrations := before ++ after }).note (.unlistened r l))) := by
  obtain ⟨hbefore, hnone⟩ := hc.onRecord
  obtain ⟨hafter, hunderway⟩ := c.recorded _ hbefore
  refine ⟨?_, ?_, ?_, ?_⟩
  · rintro s hs
    have hs : s.wiring.OnRecord (notesOf levels earlier ++ s.journal) ∧
        (c.loans = [] → (Ledger.of (notesOf levels earlier ++ s.journal)).underway = []) := by
      rcases hs with rfl | rfl
      · exact ⟨hbefore, hnone⟩
      · exact ⟨hafter, fun hnil => hunderway.trans (hnone hnil)⟩
    obtain ⟨hs, hnone⟩ := hs
    refine ⟨hs.called_all, fun n hn => (hs.proceeds n hn).called_isPrefix, hnone, ?_⟩
    intro r shared hr
    obtain ⟨hregistrations, hcount, hsent, hcalls⟩ := hs.boards r
    rw [Wiring.board_of_getElem? (w := s.wiring) hr] at hregistrations hcount hsent hcalls
    refine ⟨hregistrations, hcount, hsent, fun hidle => ?_⟩
    rw [← hcalls, Ledger.pending_eq_zero hidle]
    rfl
  · intro name r shared hcommand hlevels hname hpermit
    obtain ⟨levels, loans, command, s⟩ := c
    cases hcommand
    cases levels with
    | zero => exact absurd hlevels (Nat.lt_irrefl 0)
    | succ levels =>
      exact (onRecord_notify (lasting_recorded.run levels) hname hpermit hbefore).2
  · intro name listener hcommand
    obtain ⟨levels, loans, command, s⟩ := c
    cases hcommand
    cases levels with
    | zero => exact Or.inl ⟨nofun, rfl⟩
    | succ levels => exact s.listen_cases loans name listener
  · intro name listener hcommand
    obtain ⟨levels, loans, command, s⟩ := c
    cases hcommand
    cases levels with
    | zero => exact Or.inl ⟨nofun, rfl⟩
    | succ levels => exact s.unlisten_cases loans name listener

/-- A registry with two listeners, one of which notifies again. It was registered twice, and its first
registration is taken back. -/
def echoing : List Command :=
  [.makeDocument "text" (.buffer (.ofText "a" ['x'])), .onManager "m" (.openDocument "text" (some "r")),
    .makeListener "echo" (some [.notify "r"]), .makeListener "mute" none,
    .onRegistry "r" (.listen "echo"), .onRegistry "r" (.listen "mute"),
    .onRegistry "r" (.listen "echo"), .onRegistry "r" (.unlisten "echo")]

def echoed : Session := { (empty.steps 3 echoing).2 with journal := [] }

-- a notification has called the mute listener, and calls the other one
def amidEcho : Session :=
  (((echoed.note (.notifying 0)).modifyListeners 0 (·.begin)).note (.called 0 1 "mute")).note
    (.called 0 0 "echo")

-- a look at a registry by its name
theorem registry_of_view {s : Session} {name : String} {r : RegistryRef}
    {registrations : List ListenerRef}
    (h : (s.registry? name).map (fun found => (found.1, found.2.registry.listeners.registrations)) =
      some (r, registrations)) :
    ∃ shared, s.registry? name = some (r, shared) ∧
      shared.registry.listeners.registrations = registrations := by
  obtain ⟨⟨q, shared⟩, hname, hshared⟩ := Option.map_eq_some_iff.1 h
  cases hshared
  exact ⟨shared, hname, rfl⟩

theorem callEach_of_mute {s : Session} {l : ListenerRef} {name : String}
    (h : s.listeners[l]? = some ⟨name, none⟩) (run : Command → Effect) (r : RegistryRef) :
    callEach run r [l] s = s.note (.called r l name) := by
  show call run r l s = _
  unfold call
  rw [h]

theorem happens_amidEcho : Happens 3 echoing ⟨2, [⟨.registry 0, .read⟩], .notify "r", amidEcho⟩ := by
  obtain ⟨shared, hname, hregistrations⟩ : ∃ shared, echoed.registry? "r" = some (0, shared) ∧
      shared.registry.listeners.registrations = [1, 0] := registry_of_view (by decide +kernel)
  have hmute : echoed.listeners[1]? = some ⟨"mute", none⟩ := by cbv
  have hecho : echoed.listeners[0]? = some ⟨"echo", some ([] ++ .notify "r" :: [])⟩ := by cbv
  have hnotify : Happens 3 echoing ⟨3, [], .notify "r", echoed⟩ := .outermost (.notify "r")
  unfold amidEcho
  -- what the session is otherwise does not matter
  generalize echoed = s at *
  have hcalled : callEach (Command.run 2 [⟨.registry 0, .read⟩]) 0 [1]
      ((s.note (.notifying 0)).modifyListeners 0 (·.begin)) =
        ((s.note (.notifying 0)).modifyListeners 0 (·.begin)).note (.called 0 1 "mute") :=
    callEach_of_mute (s := (s.note (.notifying 0)).modifyListeners 0 (·.begin)) hmute _ 0
  exact hnotify.inside
    (.listening hname rfl (show _ = [1] ++ 0 :: [] from hregistrations) hcalled hecho)

/-- The nested notification calls both listeners, and so does one more inside it; when the outer one
is at an end too, six calls are counted. -/
theorem echo_on_record :
    (let c : Running := ⟨2, [⟨.registry 0, .read⟩], .notify "r", amidEcho⟩
      let ledger := Ledger.of (notesOf 3 echoing ++ c.after.journal)
      Happens 3 echoing c ∧ ledger.underway = [⟨0, [1, 0], [1, 0]⟩] ∧
        ∃ before, ledger.ended = ⟨0, [1, 0], [1, 0]⟩ :: before) ∧
      let c : Running := ⟨3, [], .notify "r", echoed⟩
      Happens 3 echoing c ∧ ∃ shared, c.after.cells.registries[0]? = some shared ∧
        shared.registry.listeners.sent = 3 ∧ shared.registry.listeners.calls = 6 ∧
        tally (notesOf 3 echoing ++ c.after.journal) .called 0 = 6 := by
  have hinner := happens_amidEcho
  have houter : Happens 3 echoing ⟨3, [], .notify "r", echoed⟩ := .outermost (.notify "r")
  refine ⟨⟨hinner, ?_⟩, houter, ?_⟩
  · obtain ⟨shared, hname, hregistrations⟩ : ∃ shared, amidEcho.registry? "r" = some (0, shared) ∧
        shared.registry.listeners.registrations = [1, 0] := registry_of_view (by decide +kernel)
    have hunderway : (Ledger.of (notesOf 3 echoing ++ amidEcho.journal)).underway =
        [⟨0, [1, 0], [1, 0]⟩] := by
      decide +kernel
    obtain ⟨-, hnotify, -⟩ := notifications_on_record hinner
    obtain ⟨hsame, before, hended⟩ := hnotify "r" 0 shared rfl (by decide) hname (by decide)
    rw [hregistrations] at hended
    exact ⟨hsame.trans hunderway, before, hended⟩
  · obtain ⟨shared, hr, hcounts⟩ : ∃ shared,
        (Running.after ⟨3, [], .notify "r", echoed⟩).cells.registries[0]? = some shared ∧
          (shared.registry.listeners.sent, shared.registry.listeners.calls) = (3, 6) := by
      apply Option.map_eq_some_iff.1
      decide +kernel
    obtain ⟨hmoments, -⟩ := notifications_on_record houter
    obtain ⟨-, -, hnone, hregistries⟩ := hmoments _ (Or.inr rfl)
    obtain ⟨-, -, -, hcalls⟩ := hregistries 0 shared hr
    have hidle := hcalls (by rw [hnone rfl]; exact fun n hn => nomatch hn)
    simp only [Prod.mk.injEq] at hcounts
    exact ⟨shared, hr, hcounts.1, hcounts.2, hidle.symm.trans hcounts.2⟩

end Session

end StickyScroll
