import StickyScroll.Proofs.Manager.Ownership
import StickyScroll.Proofs.Registry.Receipt
import StickyScroll.Proofs.Session.Reentrancy
import StickyScroll.Proofs.Session.Notification

/-!
# Accounting for records

The records of a registry that still has its lines can be counted without a look at them: they are
the lines that it added, less those whose removal it reported with a source, those that its removals
by source counted, and those that its prunings reported. It holds after every run, since each turn
leaves a receipt that balances and nothing else touches the records: not an edit of the document,
not another registry, and not a request that fails or is refused.
-/

namespace StickyScroll

namespace Cells

/-! ## Receipts of a run -/

/-- The receipt of what a registry does in a turn, if it is this one that acts. -/
def receipt? (r : RegistryRef) (c : Cells Buffer) (t : Turn) : Option Receipt :=
  match c.acting? t with
  | none => none
  | some (q, change) =>
      if q = r then (c.at? r).map fun (registry, b) => registry.receipt b change else none

/-- The registry that gives up its lines in a turn: it is closed while it and its document are
free. -/
def released? (c : Cells Buffer) (t : Turn) : Option RegistryRef :=
  match c.acting? t with
  | some (r, .release) => some r
  | _ => none

-- the number of records in a cell, 0 as long as there is no registry
def recordCount (c : Cells Buffer) (r : RegistryRef) : Nat :=
  ((c.at? r).map fun (registry, _) => registry.records.size).getD 0

theorem Works.recordCount_eq {c : Cells Buffer} {r : RegistryRef}
    {registry : Registry ListenerRef} {d : DocumentRef} {b : Buffer} (h : c.Works r registry d b) :
    c.recordCount r = registry.records.size := by
  rw [recordCount, at?_eq_some_iff.2 ⟨d, h⟩]
  rfl

theorem recordCount_eq_zero {c : Cells Buffer} {r : RegistryRef}
    (h : ∀ registry d b, c.Works r registry d b → registry = .empty) : c.recordCount r = 0 := by
  unfold recordCount
  cases hat : c.at? r with
  | none => rfl
  | some found =>
    obtain ⟨registry, b⟩ := found
    obtain ⟨d, hworks⟩ := at?_eq_some_iff.1 hat
    rw [h registry d b hworks]
    rfl

theorem receipt?_of_aside {c : Cells Buffer} {t : Turn} {r : RegistryRef}
    (haside : ∀ change, c.acting? t ≠ some (r, change)) : receipt? r c t = none := by
  unfold receipt?
  split
  next => rfl
  next q change hacting =>
    have hqr : q ≠ r := by
      rintro rfl
      exact haside change hacting
    exact if_neg hqr

theorem receipt?_of_acting {c : Cells Buffer} {t : Turn} {r : RegistryRef}
    {registry : Registry ListenerRef} {d : DocumentRef} {b : Buffer}
    {change : Registry.Change ListenerRef} (hworks : c.Works r registry d b)
    (hacting : c.acting? t = some (r, change)) :
    receipt? r c t = some (registry.receipt b change) := by
  have hat := at?_eq_some_iff.2 ⟨d, hworks⟩
  simp only [receipt?, hacting, if_true, hat, Option.map_some]

-- there is nothing to act on
theorem receipt?_of_missing {c : Cells Buffer} {r : RegistryRef}
    (hmissing : ∀ registry d b, ¬ c.Works r registry d b) (t : Turn) : receipt? r c t = none := by
  have hat : c.at? r = none := by
    rw [Option.eq_none_iff_forall_ne_some]
    rintro ⟨registry, b⟩ hfound
    obtain ⟨d, hworks⟩ := at?_eq_some_iff.1 hfound
    exact hmissing registry d b hworks
  unfold receipt?
  split
  next => rfl
  next => rw [hat, Option.map_none, ite_self]

/-- Whatever a turn does, the records of a registry balance with the receipt of it, unless the
registry gives up its lines. -/
theorem balance_apply {c : Cells Buffer} (hc : c.Sound)
    (howns : ∀ r registry d b, c.Works r registry d b → registry.Owns b)
    (hnd : ∀ r registry d b, c.Works r registry d b → registry.records.keys.Nodup) (t : Turn)
    {r : RegistryRef} (hkept : c.released? t ≠ some r) :
    Receipt.Balance (c.recordCount r) ((c.apply t).recordCount r) (receipt? r c t).toList := by
  by_cases hworks : ∃ registry d b, c.Works r registry d b
  · obtain ⟨registry, d, b, h⟩ := hworks
    obtain ⟨registry', b', h', hfares⟩ := works_apply hc h t
    rw [h.recordCount_eq, h'.recordCount_eq]
    cases hfares with
    | aside changes haside =>
      rw [receipt?_of_aside haside]
      exact Receipt.balance_nil _
    | acts change hacting =>
      have hchange : change ≠ .release := by
        rintro rfl
        exact hkept (by simp only [released?, hacting])
      rw [receipt?_of_acting h hacting]
      have hb := hc.wellFormed d b h.document_eq
      have hissued := (howns r registry d b h).issued
      exact registry.balance_perform hb hissued (hnd r registry d b h) hchange
  · simp only [not_exists] at hworks
    have hafter : (c.apply t).recordCount r = 0 := by
      apply recordCount_eq_zero
      intro registry' d b' h'
      rcases works_of_apply hc h' with hnew | ⟨registry, b, h, -⟩
      · exact hnew
      · exact absurd h (hworks registry d b)
    have hbefore : c.recordCount r = 0 := by
      apply recordCount_eq_zero
      intro registry d b h
      exact absurd h (hworks registry d b)
    rw [receipt?_of_missing hworks, hbefore, hafter]
    exact Receipt.balance_nil 0

theorem balance_after (turns : List Turn) {r : RegistryRef}
    (hkept : r ∉ (empty : Cells Buffer).log released? turns) :
    Receipt.Balance 0 (((empty : Cells Buffer).after turns).recordCount r)
      ((empty : Cells Buffer).log (receipt? r) turns) := by
  induction turns using List.reverseRecOn with
  | nil => exact Receipt.balance_nil 0
  | append_singleton turns t ih =>
    rw [log_append, List.mem_append, not_or] at hkept
    rw [log_append, after_append]
    have hturn : ((empty : Cells Buffer).after turns).released? t ≠ some r := by
      intro h
      apply hkept.2
      simp [log, h]
    have hbalance := balance_apply (sound_empty.after turns) (fun _ _ _ _ h => owns_after turns h)
      (fun _ _ _ _ h => nodup_keys_after turns h) t hturn
    have hlog : ((empty : Cells Buffer).after turns).log (receipt? r) [t] =
      (receipt? r ((empty : Cells Buffer).after turns) t).toList := List.append_nil _
    rw [hlog]
    exact (ih hkept.1).append hbalance

end Cells

/-! ## Refusals -/

/-- The answer tells that nothing was done. -/
def Answer.Declines (answer : Answer) : Prop := answer = .busy ∨ ∃ fault, answer = .refused fault

namespace Session

theorem settle_of_unchanged {α : Type} {s : Session} {r : RegistryRef} {shared : SharedRegistry}
    (hr : s.cells.registries[r]? = some shared) {o : Outcome ListenerRef Document α}
    (hregistry : o.registry = shared.registry) (hevents : o.events = []) :
    (s.settle r shared.document o).cells.registries = s.cells.registries ∧
      (s.settle r shared.document o).journal = s.journal := by
  have hsame : (s.setDocument shared.document o.store).modifyRegistry r (fun _ => o.registry) =
      s.setDocument shared.document o.store := by
    refine modifyRegistry_self ?_ hregistry
    exact hr
  rw [settle_eq, hsame, hevents]
  exact ⟨rfl, List.append_nil _⟩

-- only additions and removals are ever refused, and these put back what was there
theorem unchanged_of_refused {s : Session} {loans : Loans} {r : RegistryRef}
    {shared : SharedRegistry} (hr : s.cells.registries[r]? = some shared) {store : Document}
    {action : RegistryAction} {fault : Fault}
    (h : (s.actOnRegistry loans r shared store action).1 = .refused fault) :
    (s.actOnRegistry loans r shared store action).2.cells.registries = s.cells.registries ∧
      (s.actOnRegistry loans r shared store action).2.journal = s.journal := by
  revert h
  unfold actOnRegistry
  cases action with
  | add source start stop label storeAs =>
    dsimp only
    split
    next fault' hvalue =>
      obtain ⟨hregistry, hevents⟩ := Registry.add_of_error hvalue
      exact fun _ => settle_of_unchanged hr hregistry hevents
    next => exact fun h => nomatch h
  | remove name =>
    dsimp only
    split
    next => exact fun h => nomatch h
    next line _ =>
      split
      next fault' hvalue =>
        obtain ⟨hregistry, hevents⟩ := Registry.remove_of_error hvalue
        exact fun _ => settle_of_unchanged hr hregistry hevents
      next => exact fun h => nomatch h
  | sourceOf name =>
    dsimp only
    split <;> exact fun _ => ⟨rfl, rfl⟩
  | resolve name storeAs =>
    dsimp only
    split
    next => exact fun h => nomatch h
    next => split <;> exact fun h => nomatch h
  | uses name =>
    dsimp only
    split <;> exact fun _ => ⟨rfl, rfl⟩
  | listen name =>
    dsimp only
    split <;> exact fun h => nomatch h
  | unlisten name =>
    dsimp only
    split <;> exact fun h => nomatch h
  | _ => exact fun h => nomatch h

/-- An action of a registry that is refused, or finds something on loan, leaves every registry as it
was and reports nothing. -/
theorem unchanged_of_declined {s : Session} {loans : Loans} {name : String}
    {action : RegistryAction} (h : (s.onRegistry loans name action).1.Declines) :
    (s.onRegistry loans name action).2.cells.registries = s.cells.registries ∧
      (s.onRegistry loans name action).2.journal = s.journal := by
  rcases s.onRegistry_cases loans name action with
    ⟨answer, heq, -⟩ | ⟨r, shared, store, hname, heq⟩
  · rw [heq]
    exact ⟨rfl, rfl⟩
  rw [heq] at h ⊢
  rcases h with hbusy | ⟨fault, hfault⟩
  · rw [idleIfBusy_actOnRegistry s loans r shared store action hbusy]
    exact ⟨rfl, rfl⟩
  · exact unchanged_of_refused (registries_of_name hname) hfault

end Session

namespace Cells

/-! ## The account -/

/-- After every run the records of a registry that has not been closed, or only while it or its
document was on loan, are as many as the lines it added, less the events of a removal that have a
source, less what its removals by source answered, less what its prunings reported, the prunings in
a removal by source too. When a document is closed while its registry and the document are free no
record is left, and else the records stay. A change that fails leaves the registry as it was, with
nothing answered or reported that counts, as nothing counts that a query reports; and a request that
is refused or finds something on loan changes no registry and reports nothing, wherever it is made
in a session. -/
theorem records_accounted_for (turns : List Turn) :
    let c := (empty : Cells Buffer).after turns
    (∀ r registry d b, c.Works r registry d b → r ∉ (empty : Cells Buffer).log released? turns →
      let receipts := (empty : Cells Buffer).log (receipt? r) turns
      (registry.records.size : ℤ) = Receipt.additions receipts - Receipt.removals receipts -
        Receipt.clearances receipts - Receipt.prunings receipts) ∧
    (∀ (m : Manager) (loans : Loans) (id : String) r registry d b, m.get? id = some r →
      c.Works r registry d b →
      ∃ registry' b', (m.close c loans id).cells.Works r registry' d b' ∧
        registry'.records.size = if loans.permit (.registry r) .write &&
          loans.permit (.document d) .write then 0 else registry.records.size) ∧
    (∀ (registry : Registry ListenerRef) (b : Buffer) change fault,
      registry.fault? b change = some fault →
        (registry.perform b change).1 = registry ∧ registry.receipt b change = ⟨false, 0, []⟩) ∧
    (∀ (registry : Registry ListenerRef) (b : Buffer) filter limit,
      (registry.queryEvents b filter limit).countP (·.isRecordRemoved) = 0 ∧
        ((registry.queryEvents b filter limit).map (·.prunedRecords)).sum = 0) ∧
    (∀ (s : Session) (loans : Loans) (name : String) (action : RegistryAction),
      (s.onRegistry loans name action).1.Declines →
        (s.onRegistry loans name action).2.cells.registries = s.cells.registries ∧
          (s.onRegistry loans name action).2.journal = s.journal) := by
  intro c
  refine ⟨?_, ?_, fun _ _ _ _ h => Registry.blank_of_fault h,
    fun registry b filter limit => registry.quiet_queryEvents b filter limit,
    fun _ _ _ _ h => Session.unchanged_of_declined h⟩
  · intro r registry d b hworks hkept receipts
    have hbalance : Receipt.Balance 0 (c.recordCount r) receipts := balance_after turns hkept
    rw [hworks.recordCount_eq] at hbalance
    unfold Receipt.Balance at hbalance
    omega
  · intro m loans id r registry d b hget hworks
    have hisFree : c.isFree loans r = (loans.permit (.registry r) .write &&
        loans.permit (.document d) .write) := by
      simp only [isFree, hworks.registry_eq, Option.any_some]
    rw [← hisFree]
    show ∃ registry' b', (c.apply ⟨m, .close loans id⟩).Works r registry' d b' ∧ _
    cases hfree : c.isFree loans r with
    | true =>
      rw [apply_close hget hfree hworks]
      exact ⟨_, _, works_settle hworks _, rfl⟩
    | false =>
      rw [apply_close_idle hget (Or.inl hfree)]
      exact ⟨registry, b, hworks, rfl⟩

/-- A manager with one document open. -/
def busyDesk : Manager := ⟨1, ⟨[("a", 0)]⟩⟩

/-- Two registries over one document. The first adds four lines and the second one. An anchor of the
first is dropped directly; the first takes out the line of the second, which it has no record of, a
line of its own, and all lines of a source, at which it finds the stale record; it fails to add a
line without text and adds another; and the document is closed in vain while the registry is in
use. -/
def busyDay : List Turn :=
  let line (handle : Nat) : StickyLine := ⟨"a", ⟨handle⟩, ⟨0, 0⟩, 0, 0, none⟩
  [⟨.ofLimit 1, .makeDocument "a" ['a', 'b', 'c', 'd', 'e', 'f']⟩,
    ⟨.ofLimit 1, .openDocument [] 0⟩, ⟨.ofLimit 1, .openDocument [] 0⟩,
    ⟨busyDesk, .act 0 (.add "outline" 0 2 none)⟩, ⟨busyDesk, .act 0 (.add "outline" 1 3 none)⟩,
    ⟨busyDesk, .act 0 (.add "search" 2 4 none)⟩, ⟨busyDesk, .act 0 (.add "search" 3 6 none)⟩,
    ⟨busyDesk, .act 1 (.add "outline" 0 6 none)⟩, ⟨busyDesk, .edit 0 (.drop ⟨1⟩)⟩,
    ⟨busyDesk, .act 0 (.remove (line 4))⟩, ⟨busyDesk, .act 0 (.remove (line 0))⟩,
    ⟨busyDesk, .act 0 (.removeFrom "search")⟩, ⟨busyDesk, .act 0 (.add "outline" 5 5 none)⟩,
    ⟨busyDesk, .act 0 (.add "outline" 0 1 none)⟩,
    ⟨busyDesk, .close [⟨.registry 0, .read⟩] "a"⟩]

/-- A session with a registry over a document of one character. -/
def quietDesk : Session :=
  { Session.empty with
    cells := ⟨[.buffer (.ofText "a" ['x'])], [⟨.empty, 0⟩]⟩
    registryNames := ⟨[("r", 0)]⟩ }

-- of the five lines on record at some time one was taken out, two went with their source, and one
-- was stale; so one is left
theorem busyDay_accounted_for :
    let c := (empty : Cells Buffer).after busyDay
    let receipts := (empty : Cells Buffer).log (receipt? 0) busyDay
    Receipt.additions receipts = 5 ∧ Receipt.removals receipts = 1 ∧
    Receipt.clearances receipts = 2 ∧ Receipt.prunings receipts = 1 ∧
    ∃ registry d b, c.Works 0 registry d b ∧ registry.records.size = 1 ∧
      (∃ registry' b', (busyDesk.close c [] "a").cells.Works 0 registry' d b' ∧
        registry'.records.size = 0) ∧
      registry.fault? b (.add "outline" 5 5 none) = some (.invalidRange 5 5) ∧
      (registry.perform b (.add "outline" 5 5 none)).1 = registry ∧
      let refused :=
        quietDesk.onRegistry [⟨.document 0, .read⟩] "r" (.add "outline" 0 1 none none)
      refused.1.Declines ∧ refused.2.cells.registries = quietDesk.cells.registries ∧
        refused.2.journal = quietDesk.journal := by
  intro c receipts
  have hscene : (c.registries[0]?.any fun shared => shared.document == 0) = true ∧
      c.documents[0]?.isSome = true ∧ 0 ∉ (empty : Cells Buffer).log released? busyDay := by
    decide +kernel
  have hreceipts : Receipt.additions receipts = 5 ∧ Receipt.removals receipts = 1 ∧
      Receipt.clearances receipts = 2 ∧ Receipt.prunings receipts = 1 := by
    decide +kernel
  obtain ⟨hregistry, hdocument, hkept⟩ := hscene
  simp only [Option.any_eq_true, beq_iff_eq] at hregistry
  obtain ⟨⟨registry, d⟩, hr, rfl⟩ := hregistry
  obtain ⟨b, hb⟩ := Option.isSome_iff_exists.1 hdocument
  have hworks : c.Works 0 registry 0 b := ⟨hr, hb⟩
  obtain ⟨hsize, hclose, hfail, -, hrefusal⟩ := records_accounted_for busyDay
  obtain ⟨hadditions, hremovals, hclearances, hprunings⟩ := hreceipts
  have hone : (registry.records.size : ℤ) = Receipt.additions receipts -
      Receipt.removals receipts - Receipt.clearances receipts - Receipt.prunings receipts :=
    hsize 0 registry 0 b hworks hkept
  obtain ⟨registry', b', hworks', hnone⟩ := hclose busyDesk [] "a" 0 registry 0 b rfl hworks
  have hfault : registry.fault? b (.add "outline" 5 5 none) = some (.invalidRange 5 5) := rfl
  have hdeclined : (quietDesk.onRegistry [⟨.document 0, .read⟩] "r"
      (.add "outline" 0 1 none none)).1.Declines := Or.inl rfl
  refine ⟨hadditions, hremovals, hclearances, hprunings, registry, 0, b, hworks, ?_,
    ⟨registry', b', hworks', hnone⟩, hfault, (hfail registry b _ _ hfault).1, hdeclined,
    hrefusal quietDesk _ _ _ hdeclined⟩
  rw [hadditions, hremovals, hclearances, hprunings] at hone
  omega

end Cells
end StickyScroll
