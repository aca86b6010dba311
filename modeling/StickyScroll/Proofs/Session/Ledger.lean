import StickyScroll.Proofs.Session.Wiring

/-!
# The ledger of notifications

The journal tells when a listener is registered and when a registration is taken back, when a
notification begins and ends, and each call in between. `Ledger.of` reads such a history note by
note: who is registered at its end, and of each notification which registrations it found and whom
it called. `Wiring.OnRecord` says that the listeners of all registries are what the ledger says, and
their counts those of the notes.
-/

namespace StickyScroll

/-! ## Reading a history -/

/-- A notification: the registrations that it found, and the listeners that it called so far. -/
structure Notification where
  registry : RegistryRef
  present : List ListenerRef
  called : List ListenerRef
  deriving DecidableEq, Repr

/-- What the notes of a history come to. -/
structure Ledger where
  -- the registrations of each registry, in order
  registered : RegistryRef → List ListenerRef
  -- the notifications that have begun and are not at an end, the innermost first
  underway : List Notification
  -- those that are at an end, the latest first
  ended : List Notification

namespace Ledger

def blank : Ledger := ⟨fun _ => [], [], []⟩

/-- A registration goes to the end, and the first one of a listener is taken back. A call, and the
end of a notification, are of the innermost one that is underway. -/
def enter (k : Ledger) : Note → Ledger
  | .listened r l =>
      { k with registered := fun q => if q = r then k.registered r ++ [l] else k.registered q }
  | .unlistened r l =>
      { k with registered := fun q => if q = r then (k.registered r).erase l else k.registered q }
  | .notifying r => { k with underway := ⟨r, k.registered r, []⟩ :: k.underway }
  | .called r l _ =>
      match k.underway with
      | n :: outer =>
          if n.registry = r then
            { k with underway := { n with called := n.called ++ [l] } :: outer }
          else k
      | [] => k
  | .notified r =>
      match k.underway with
      | n :: outer =>
          if n.registry = r then { k with underway := outer, ended := n :: k.ended } else k
      | [] => k
  | .event _ | .replied .. => k

def of (history : List Note) : Ledger := history.foldl enter blank

theorem of_append (history notes : List Note) :
    of (history ++ notes) = notes.foldl enter (of history) := List.foldl_append ..

theorem of_note (history : List Note) (note : Note) :
    of (history ++ [note]) = (of history).enter note := of_append history [note]

-- the calls of a registry's listeners by the notifications underway
def pending (k : Ledger) (r : RegistryRef) : Nat :=
  ((k.underway.filter (·.registry = r)).flatMap (·.called)).length

theorem pending_eq_zero {k : Ledger} {r : RegistryRef} (h : ∀ n ∈ k.underway, n.registry ≠ r) :
    k.pending r = 0 := by
  have hnone : k.underway.filter (·.registry = r) = [] := by simpa using h
  rw [pending, hnone]
  rfl

section Innermost

variable {k : Ledger} {n : Notification} {outer : List Notification}
  (hunderway : k.underway = n :: outer)

include hunderway

theorem enter_called (l : ListenerRef) (name : String) :
    k.enter (.called n.registry l name) =
      { k with underway := { n with called := n.called ++ [l] } :: outer } := by
  unfold enter
  dsimp only
  rw [hunderway]
  exact if_pos rfl

theorem enter_notified :
    k.enter (.notified n.registry) = { k with underway := outer, ended := n :: k.ended } := by
  unfold enter
  dsimp only
  rw [hunderway]
  exact if_pos rfl

theorem pending_of_underway (r : RegistryRef) :
    k.pending r =
      (if n.registry = r then n.called.length else 0) +
        pending { k with underway := outer } r := by
  rw [pending, hunderway, List.filter_cons]
  split
  next hn =>
    rw [if_pos (by simpa using hn), List.flatMap_cons, List.length_append]
    rfl
  next hn =>
    rw [if_neg (by simpa using hn), Nat.zero_add]
    rfl

end Innermost

end Ledger

/-- What is counted for each registry. -/
inductive Tallied where
  | added | removed | begun | called
  deriving DecidableEq

-- what a note counts as, and for which registry
def Note.tallied? : Note → Option (Tallied × RegistryRef)
  | .listened r _ => some (.added, r)
  | .unlistened r _ => some (.removed, r)
  | .notifying r => some (.begun, r)
  | .called r _ _ => some (.called, r)
  | .event _ | .notified _ | .replied .. => none

/-- How many notes of a history count as something for a registry. -/
def tally (history : List Note) (what : Tallied) (r : RegistryRef) : Nat :=
  history.countP fun note => note.tallied? = some (what, r)

theorem tally_note (history : List Note) (note : Note) (what : Tallied) (r : RegistryRef) :
    tally (history ++ [note]) what r =
      tally history what r + if note.tallied? = some (what, r) then 1 else 0 := by
  unfold tally
  rw [List.countP_append, List.countP_singleton]
  simp only [decide_eq_true_eq]

theorem tally_note_self {note : Note} {what : Tallied} {r : RegistryRef}
    (h : note.tallied? = some (what, r)) (history : List Note) :
    tally (history ++ [note]) what r = tally history what r + 1 := by
  rw [tally_note, if_pos h]

/-! ## Notes that concern a registry -/

def Note.Concerns (r : RegistryRef) : Note → Prop
  | .listened q _ | .unlistened q _ | .notifying q | .notified q | .called q _ _ => q = r
  | .event _ | .replied .. => False

section Concerns

variable {r q : RegistryRef} {note : Note} (hnote : note.Concerns r) (hq : q ≠ r)

include hnote hq

theorem tally_other (history : List Note) (what : Tallied) :
    tally (history ++ [note]) what q = tally history what q := by
  have hnone : note.tallied? ≠ some (what, q) := by
    intro h
    cases note <;> cases h <;> exact hq hnote
  rw [tally_note, if_neg hnone, Nat.add_zero]

theorem Ledger.registered_other (k : Ledger) : (k.enter note).registered q = k.registered q := by
  cases note with
  | listened p l =>
    subst hnote
    exact if_neg hq
  | unlistened p l =>
    subst hnote
    exact if_neg hq
  | notifying p => rfl
  | called p l name =>
    unfold enter
    dsimp only
    split
    next => split <;> rfl
    next => rfl
  | notified p =>
    unfold enter
    dsimp only
    split
    next => split <;> rfl
    next => rfl
  | event e => exact hnote.elim
  | replied name answers => exact hnote.elim

-- the innermost notification is one of `r`, or stays as it is
theorem Ledger.pending_other (k : Ledger) : (k.enter note).pending q = k.pending q := by
  cases note with
  | listened p l => rfl
  | unlistened p l => rfl
  | notifying p =>
    subst hnote
    simp [pending, enter, Ne.symm hq]
  | called p l name =>
    subst hnote
    unfold enter
    dsimp only
    split
    next n outer hunderway =>
      split
      next hn => simp [pending, hunderway, hn, Ne.symm hq]
      next => rfl
    next => rfl
  | notified p =>
    subst hnote
    unfold enter
    dsimp only
    split
    next n outer hunderway =>
      split
      next hn => simp [pending, hunderway, hn, Ne.symm hq]
      next => rfl
    next => rfl
  | event e => exact hnote.elim
  | replied name answers => exact hnote.elim

end Concerns

/-! ## Quiet notes -/

-- the notes that the ledger passes over
def Note.Quiet : Note → Prop
  | .event _ | .replied .. => True
  | _ => False

theorem Note.quiet_of_mem_events {events : List Event} {note : Note}
    (h : note ∈ events.map Note.event) : note.Quiet := by
  obtain ⟨e, -, rfl⟩ := List.mem_map.1 h
  trivial

section Quiet

variable {notes : List Note} (hquiet : ∀ note ∈ notes, note.Quiet)

include hquiet

theorem Ledger.of_append_quiet (history : List Note) : of (history ++ notes) = of history := by
  rw [of_append]
  induction notes with
  | nil => rfl
  | cons note rest ih =>
    have hsame : (of history).enter note = of history := by
      cases note <;> first | rfl | exact (hquiet _ List.mem_cons_self).elim
    rw [List.foldl_cons, hsame]
    exact ih fun n hn => hquiet n (List.mem_cons_of_mem note hn)

theorem tally_append_quiet (history : List Note) : tally (history ++ notes) = tally history := by
  funext what r
  have hnone : tally notes what r = 0 := by
    refine List.countP_eq_zero.2 fun note hnote => ?_
    have hquiet := hquiet note hnote
    cases note <;> first | exact hquiet.elim | exact Bool.false_ne_true
  show List.countP _ _ = _
  rw [List.countP_append]
  exact congrArg (tally history what r + ·) hnone

end Quiet

/-! ## The listeners of a registry -/

/-- The listeners of registry `r` are what a history says of them: their registrations, as many as
were added and not taken back, and how many notifications were begun and how many calls made. -/
structure Listeners.OnRecord (listeners : Listeners ListenerRef) (history : List Note)
    (r : RegistryRef) : Prop where
  registrations_eq : listeners.registrations = (Ledger.of history).registered r
  count_eq : listeners.count + tally history .removed r = tally history .added r
  sent_eq : listeners.sent = tally history .begun r
  -- calls count when their notification is at an end
  calls_eq : listeners.calls + (Ledger.of history).pending r = tally history .called r

namespace Listeners.OnRecord

variable {listeners : Listeners ListenerRef} {history : List Note} {r : RegistryRef}

theorem quiet (h : listeners.OnRecord history r) {notes : List Note}
    (hquiet : ∀ note ∈ notes, note.Quiet) : listeners.OnRecord (history ++ notes) r := by
  have hledger := Ledger.of_append_quiet hquiet history
  have htally := tally_append_quiet hquiet history
  obtain ⟨hregistrations, hcount, hsent, hcalls⟩ := h
  exact ⟨hledger ▸ hregistrations, htally ▸ hcount, htally ▸ hsent, hledger ▸ htally ▸ hcalls⟩

theorem other (h : listeners.OnRecord history r) {q : RegistryRef} {note : Note}
    (hnote : note.Concerns q) (hr : r ≠ q) : listeners.OnRecord (history ++ [note]) r := by
  have htally := tally_other hnote hr history
  obtain ⟨hregistrations, hcount, hsent, hcalls⟩ := h
  constructor
  · rw [Ledger.of_note, Ledger.registered_other hnote hr]
    exact hregistrations
  · rw [htally, htally]
    exact hcount
  · rw [htally]
    exact hsent
  · rw [Ledger.of_note, Ledger.pending_other hnote hr, htally]
    exact hcalls

theorem listened (h : listeners.OnRecord history r) (l : ListenerRef) :
    (listeners.add l).OnRecord (history ++ [.listened r l]) r := by
  obtain ⟨hregistrations, hcount, hsent, hcalls⟩ := h
  constructor
  · rw [Ledger.of_note]
    show listeners.registrations ++ [l] = if r = r then (Ledger.of history).registered r ++ [l] else _
    rw [if_pos rfl, hregistrations]
  · rw [tally_note _ _ .removed, tally_note_self rfl, ← hcount]
    show (listeners.registrations ++ [l]).length + (_ + 0) = listeners.registrations.length + _ + 1
    rw [List.length_append, List.length_singleton]
    omega
  · rw [tally_note]
    exact hsent
  · rw [tally_note, Ledger.of_note]
    exact hcalls

theorem unlistened (h : listeners.OnRecord history r) {l : ListenerRef}
    (hl : l ∈ listeners.registrations) :
    (listeners.remove l).2.OnRecord (history ++ [.unlistened r l]) r := by
  obtain ⟨hregistrations, hcount, hsent, hcalls⟩ := h
  constructor
  · rw [Ledger.of_note]
    show listeners.registrations.erase l =
      if r = r then ((Ledger.of history).registered r).erase l else _
    rw [if_pos rfl, hregistrations]
  · have hpos := List.length_pos_of_mem hl
    rw [tally_note_self rfl, tally_note, ← hcount]
    show (listeners.registrations.erase l).length + _ = listeners.registrations.length + _ + 0
    rw [List.length_erase_of_mem hl]
    omega
  · rw [tally_note]
    exact hsent
  · rw [tally_note, Ledger.of_note]
    exact hcalls

theorem notifying (h : listeners.OnRecord history r) :
    listeners.begin.OnRecord (history ++ [.notifying r]) r := by
  obtain ⟨hregistrations, hcount, hsent, hcalls⟩ := h
  constructor
  · rw [Ledger.of_note]
    exact hregistrations
  · rw [tally_note, tally_note]
    exact hcount
  · rw [tally_note_self rfl, ← hsent]
    rfl
  · rw [tally_note, Ledger.of_note,
      Ledger.pending_of_underway (k := (Ledger.of history).enter (.notifying r)) rfl]
    show listeners.calls + ((if r = r then 0 else 0) + (Ledger.of history).pending r) = _ + 0
    rw [if_pos rfl, Nat.zero_add]
    exact hcalls

section Innermost

variable {n : Notification} {outer : List Notification}
  (hunderway : (Ledger.of history).underway = n :: outer)

include hunderway

theorem called (h : listeners.OnRecord history n.registry) (l : ListenerRef) (name : String) :
    listeners.OnRecord (history ++ [.called n.registry l name]) n.registry := by
  obtain ⟨hregistrations, hcount, hsent, hcalls⟩ := h
  constructor
  · rw [Ledger.of_note, Ledger.enter_called hunderway]
    exact hregistrations
  · rw [tally_note, tally_note]
    exact hcount
  · rw [tally_note]
    exact hsent
  · rw [Ledger.pending_of_underway hunderway, if_pos rfl] at hcalls
    rw [tally_note_self rfl, Ledger.of_note, Ledger.enter_called hunderway,
      Ledger.pending_of_underway rfl, if_pos rfl, List.length_append, List.length_singleton, ← hcalls]
    exact congrArg (listeners.calls + ·) (Nat.add_right_comm ..)

-- the calls of the notification that ends are counted now
theorem notified (h : listeners.OnRecord history n.registry) :
    (listeners.finish n.called.length).OnRecord (history ++ [.notified n.registry]) n.registry := by
  obtain ⟨hregistrations, hcount, hsent, hcalls⟩ := h
  constructor
  · rw [Ledger.of_note, Ledger.enter_notified hunderway]
    exact hregistrations
  · rw [tally_note, tally_note]
    exact hcount
  · rw [tally_note]
    exact hsent
  · rw [Ledger.pending_of_underway hunderway, if_pos rfl] at hcalls
    rw [tally_note, Ledger.of_note, Ledger.enter_notified hunderway]
    exact (Nat.add_assoc ..).trans hcalls

end Innermost

end Listeners.OnRecord

/-! ## Boards -/

namespace Wiring

/-- The listeners of the registry in a cell; before there is one, there are none. -/
def board (w : Wiring) (r : RegistryRef) : Listeners ListenerRef :=
  ((w.registries[r]?).map (·.registry.listeners)).getD .empty

theorem board_of_getElem? {w : Wiring} {r : RegistryRef} {shared : SharedRegistry}
    (hr : w.registries[r]? = some shared) : w.board r = shared.registry.listeners := by
  unfold board
  rw [hr]
  rfl

theorem board_setRegistry {w : Wiring} {r : RegistryRef} {shared : SharedRegistry}
    (hr : w.registries[r]? = some shared) (registry : Registry ListenerRef) (q : RegistryRef) :
    (w.setRegistry r shared registry).board q =
      if q = r then registry.listeners else w.board q := by
  by_cases hq : q = r
  · subst hq
    have hlt : q < w.registries.length := (List.getElem?_eq_some_iff.1 hr).1
    rw [if_pos rfl]
    exact board_of_getElem? (w := w.setRegistry q shared registry) (List.getElem?_set_self hlt)
  · rw [if_neg hq]
    show (((w.registries.set r _)[q]?).map _).getD _ = _
    rw [List.getElem?_set_ne (Ne.symm hq)]
    rfl

-- a new registry has no listeners, like a cell that is not there
theorem board_append (w : Wiring) (d : DocumentRef) (q : RegistryRef) :
    ({ w with registries := w.registries ++ [⟨.empty, d⟩] } : Wiring).board q = w.board q := by
  show (((w.registries ++ [⟨.empty, d⟩])[q]?).map _).getD _ = _
  rcases Nat.lt_trichotomy q w.registries.length with hq | rfl | hq
  · rw [List.getElem?_append_left hq]
    rfl
  · rw [List.getElem?_concat_length, board, List.getElem?_eq_none (Nat.le_refl _)]
    rfl
  · rw [List.getElem?_append_right (Nat.le_of_lt hq), List.getElem?_eq_none, board,
      List.getElem?_eq_none (Nat.le_of_lt hq)]
    exact Nat.sub_pos_of_lt hq

/-- A notification underway calls listeners that exist, and has called a part of those it found, in
their order. -/
structure Proceeds (w : Wiring) (n : Notification) : Prop where
  registry_lt : n.registry < w.registries.length
  present_lt : ∀ l ∈ n.present, l < w.listeners.length
  called_isPrefix : n.called <+: n.present

/-- The listeners of all registries are what a history says of them, and every notification that is
at an end has called the listeners that it found. -/
structure OnRecord (w : Wiring) (history : List Note) : Prop where
  boards : ∀ r, (w.board r).OnRecord history r
  registered_lt : ∀ r, ∀ l ∈ (w.board r).registrations, l < w.listeners.length
  named_lt : ∀ name l, w.listenerNames.find? name = some l → l < w.listeners.length
  proceeds : ∀ n ∈ (Ledger.of history).underway, w.Proceeds n
  called_all : ∀ n ∈ (Ledger.of history).ended, n.called = n.present

namespace OnRecord

variable {w : Wiring} {history : List Note}

-- the notes say nothing of listeners, and the listeners are what they were
theorem quiet (hw : w.OnRecord history) {w' : Wiring} (hboard : ∀ r, w'.board r = w.board r)
    (hregistries : w.registries.length ≤ w'.registries.length)
    (hlisteners : w.listeners.length ≤ w'.listeners.length)
    (hnamed : ∀ name l, w'.listenerNames.find? name = some l → l < w'.listeners.length)
    {notes : List Note} (hquiet : ∀ note ∈ notes, note.Quiet) : w'.OnRecord (history ++ notes) := by
  have hledger := Ledger.of_append_quiet hquiet history
  constructor
  · intro r
    rw [hboard]
    exact (hw.boards r).quiet hquiet
  · intro r l hl
    rw [hboard] at hl
    exact Nat.lt_of_lt_of_le (hw.registered_lt r l hl) hlisteners
  · exact hnamed
  · intro n hn
    rw [hledger] at hn
    obtain ⟨hlt, hpresent, hcalled⟩ := hw.proceeds n hn
    exact ⟨Nat.lt_of_lt_of_le hlt hregistries,
      fun l hl => Nat.lt_of_lt_of_le (hpresent l hl) hlisteners, hcalled⟩
  · intro n hn
    rw [hledger] at hn
    exact hw.called_all n hn

theorem report (hw : w.OnRecord history) (events : List Event) :
    (w.report events).OnRecord (history ++ events.map .event) := by
  have hboard : ∀ r, (w.report events).board r = w.board r := fun _ => rfl
  exact hw.quiet hboard (Nat.le_refl _) (Nat.le_refl _) hw.named_lt fun _ hnote =>
    Note.quiet_of_mem_events hnote

-- what is in the journal of the wiring itself does not matter
theorem withJournal (hw : w.OnRecord history) (journal : List Note) :
    ({ w with journal := journal } : Wiring).OnRecord history where
  boards := hw.boards
  registered_lt := hw.registered_lt
  named_lt := hw.named_lt
  proceeds n hn :=
    have h := hw.proceeds n hn
    ⟨h.registry_lt, h.present_lt, h.called_isPrefix⟩
  called_all := hw.called_all

section Listeners

variable {r : RegistryRef} {shared : SharedRegistry} (hr : w.registries[r]? = some shared)

include hr

-- a change of the listeners of a registry is noted, and the note concerns no other
theorem setListeners (hw : w.OnRecord history) {listeners : Listeners ListenerRef} {note : Note}
    (hnote : note.Concerns r) (hlisteners : listeners.OnRecord (history ++ [note]) r)
    (hlt : ∀ l ∈ listeners.registrations, l < w.listeners.length)
    (hproceeds : ∀ n ∈ (Ledger.of (history ++ [note])).underway, w.Proceeds n)
    (hended : ∀ n ∈ (Ledger.of (history ++ [note])).ended, n.called = n.present) :
    (w.setListeners r shared listeners).OnRecord (history ++ [note]) := by
  have hboard : ∀ q, (w.setListeners r shared listeners).board q =
      if q = r then listeners else w.board q := fun q => board_setRegistry hr _ q
  constructor
  · intro q
    rw [hboard]
    split
    next hq => exact hq ▸ hlisteners
    next hq => exact (hw.boards q).other hnote hq
  · intro q l hl
    rw [hboard] at hl
    split at hl
    next => exact hlt l hl
    next => exact hw.registered_lt q l hl
  · exact hw.named_lt
  · intro n hn
    obtain ⟨hregistry, hpresent, hcalled⟩ := hproceeds n hn
    refine ⟨?_, hpresent, hcalled⟩
    show _ < (w.registries.set r _).length
    rw [List.length_set]
    exact hregistry
  · exact hended

theorem listened (hw : w.OnRecord history) {l : ListenerRef} (hl : l < w.listeners.length) :
    (w.setListeners r shared (shared.registry.listeners.add l)).OnRecord
      (history ++ [.listened r l]) := by
  have hboard := board_of_getElem? hr
  refine hw.setListeners hr rfl ?_ ?_ ?_ ?_
  · exact (hboard ▸ hw.boards r).listened l
  · intro x hx
    rcases List.mem_append.1 hx with hx | hx
    · exact hw.registered_lt r x (hboard ▸ hx)
    · rw [List.mem_singleton.1 hx]
      exact hl
  · rw [Ledger.of_note]
    exact hw.proceeds
  · rw [Ledger.of_note]
    exact hw.called_all

theorem unlistened (hw : w.OnRecord history) {l : ListenerRef}
    (hl : l ∈ shared.registry.listeners.registrations) :
    (w.setListeners r shared (shared.registry.listeners.remove l).2).OnRecord
      (history ++ [.unlistened r l]) := by
  have hboard := board_of_getElem? hr
  refine hw.setListeners hr rfl ?_ ?_ ?_ ?_
  · exact (hboard ▸ hw.boards r).unlistened hl
  · intro x hx
    exact hw.registered_lt r x (hboard ▸ List.mem_of_mem_erase hx)
  · rw [Ledger.of_note]
    exact hw.proceeds
  · rw [Ledger.of_note]
    exact hw.called_all

-- a notification that begins has called nobody
theorem notifying (hw : w.OnRecord history) :
    (w.setListeners r shared shared.registry.listeners.begin).OnRecord
      (history ++ [.notifying r]) := by
  have hboard := board_of_getElem? hr
  refine hw.setListeners hr rfl ?_ ?_ ?_ ?_
  · exact (hboard ▸ hw.boards r).notifying
  · intro x hx
    exact hw.registered_lt r x (hboard ▸ hx)
  · rw [Ledger.of_note]
    intro n hn
    rcases List.mem_cons.1 hn with rfl | hn
    · refine ⟨(List.getElem?_eq_some_iff.1 hr).1, fun l hl => hw.registered_lt r l ?_, ?_⟩
      · rw [(hw.boards r).registrations_eq]
        exact hl
      · exact List.nil_prefix
    · exact hw.proceeds n hn
  · rw [Ledger.of_note]
    exact hw.called_all

end Listeners

section Innermost

variable {n : Notification} {outer : List Notification}
  (hunderway : (Ledger.of history).underway = n :: outer)

include hunderway

-- the innermost notification calls the next of the listeners that it found
theorem called (hw : w.OnRecord history) {l : ListenerRef} (hl : n.called ++ [l] <+: n.present)
    (name : String) : w.OnRecord (history ++ [.called n.registry l name]) := by
  have hledger : Ledger.of (history ++ [.called n.registry l name]) =
      { Ledger.of history with underway := { n with called := n.called ++ [l] } :: outer } := by
    rw [Ledger.of_note, Ledger.enter_called hunderway]
  constructor
  · intro r
    by_cases hr : r = n.registry
    · subst hr
      exact (hw.boards n.registry).called hunderway l name
    · exact (hw.boards r).other (show Note.Concerns n.registry (.called n.registry l name) from rfl) hr
  · exact hw.registered_lt
  · exact hw.named_lt
  · rw [hledger]
    intro m hm
    rcases List.mem_cons.1 hm with rfl | hm
    · obtain ⟨hregistry, hpresent, -⟩ := hw.proceeds n (hunderway ▸ List.mem_cons_self)
      exact ⟨hregistry, hpresent, hl⟩
    · exact hw.proceeds m (hunderway ▸ List.mem_cons_of_mem n hm)
  · rw [hledger]
    exact hw.called_all

theorem notified (hw : w.OnRecord history) {shared : SharedRegistry}
    (hr : w.registries[n.registry]? = some shared) (hall : n.called = n.present) :
    (w.setListeners n.registry shared
      (shared.registry.listeners.finish n.called.length)).OnRecord
        (history ++ [.notified n.registry]) := by
  have hboard := board_of_getElem? hr
  have hledger : Ledger.of (history ++ [.notified n.registry]) =
      { Ledger.of history with underway := outer, ended := n :: (Ledger.of history).ended } := by
    rw [Ledger.of_note, Ledger.enter_notified hunderway]
  refine hw.setListeners hr rfl ?_ ?_ ?_ ?_
  · exact (hboard ▸ hw.boards n.registry).notified hunderway
  · intro x hx
    exact hw.registered_lt n.registry x (hboard ▸ hx)
  · rw [hledger]
    intro m hm
    exact hw.proceeds m (hunderway ▸ List.mem_cons_of_mem n hm)
  · rw [hledger]
    intro m hm
    rcases List.mem_cons.1 hm with rfl | hm
    · exact hall
    · exact hw.called_all m hm

end Innermost

end OnRecord

end Wiring
end StickyScroll
