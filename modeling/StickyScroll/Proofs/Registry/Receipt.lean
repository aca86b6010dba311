import Mathlib
import StickyScroll.Proofs.Registry.Change

/-!
# Receipts

What the operations of a registry answer and report tells how many records it has. A record comes
with a line that is added. It goes with the line, with all lines of its source, when it is found to
be stale, which is looked into by itself and before the lines of a source are taken out, or when
the registry gives up its lines. All but the last leave a receipt: an event or an answer that counts
the record once.
-/

namespace StickyScroll

namespace Event

/-- The removal of a line that was on record; the event has a source only then. -/
def isRecordRemoved (e : Event) : Bool :=
  e.message == "sticky line removed" && e.fields.any (·.1 == "source")

/-- The number in the field `pruned`, where there is one. -/
def prunedRecords (e : Event) : Nat :=
  match e.fields.find? (·.1 == "pruned") with
  | some (_, .number n) => n
  | _ => 0

theorem isRecordRemoved_lineRemoved (source : Option String) (handle : Handle) :
    (lineRemoved source handle).isRecordRemoved = source.isSome := by
  cases source <;> rfl

theorem isRecordRemoved_iff {e : Event} :
    e.isRecordRemoved = true ↔ ∃ source handle, e = .lineRemoved (some source) handle := by
  cases e with
  | lineRemoved source handle =>
    rw [isRecordRemoved_lineRemoved, Option.isSome_iff_exists]
    simp
  | _ => simp [isRecordRemoved, message]

-- no other event has the field
theorem prunedRecords_eq_zero {e : Event} (h : ∀ n, e ≠ .recordsPruned n) :
    e.prunedRecords = 0 := by
  cases e with
  | recordsPruned n => exact absurd rfl (h n)
  | lineRemoved source handle => cases source <;> rfl
  | queried source limit matched => cases source <;> rfl
  | _ => rfl

end Event

/-- What an operation of a registry answers and reports that tells of its records. -/
structure Receipt where
  -- a line was added
  added : Bool
  -- the number of lines that were taken out with their source
  cleared : Nat
  events : List Event
  deriving DecidableEq, Repr

namespace Receipt

def additions (receipts : List Receipt) : Nat := receipts.countP (·.added)

def removals (receipts : List Receipt) : Nat :=
  (receipts.flatMap (·.events)).countP (·.isRecordRemoved)

def clearances (receipts : List Receipt) : Nat := (receipts.map (·.cleared)).sum

def prunings (receipts : List Receipt) : Nat :=
  ((receipts.flatMap (·.events)).map (·.prunedRecords)).sum

/-- From `before` records to `after`, every record that came or went is on some receipt, once. -/
def Balance (before after : Nat) (receipts : List Receipt) : Prop :=
  after + removals receipts + clearances receipts + prunings receipts = before + additions receipts

theorem balance_nil (n : Nat) : Balance n n [] := rfl

theorem Balance.append {k m n : Nat} {first second : List Receipt} (h : Balance k m first)
    (h' : Balance m n second) : Balance k n (first ++ second) := by
  simp only [Balance, removals, clearances, prunings, additions, List.flatMap_append,
    List.map_append, List.sum_append, List.countP_append] at *
  omega

theorem balance_singleton_iff {before after : Nat} {receipt : Receipt} :
    Balance before after [receipt] ↔
      after + receipt.events.countP (·.isRecordRemoved) + receipt.cleared +
        (receipt.events.map (·.prunedRecords)).sum = before + receipt.added.toNat := by
  cases hadded : receipt.added <;>
    simp [Balance, removals, clearances, prunings, additions, hadded]

-- the receipt of an operation that says nothing of the records
theorem balance_blank (n : Nat) : Balance n n [⟨false, 0, []⟩] := rfl

end Receipt

namespace Registry

variable {ι : Type}

section Stores

variable {σ : Type} [RangeStore σ]

/-- The receipt of a change, from what the operation answers and reports. -/
def receipt (r : Registry ι) (store : σ) : Change ι → Receipt
  | .add source start stop label =>
      let o := r.add store source start stop label
      ⟨o.value.isOk, 0, o.events⟩
  | .remove line => ⟨false, 0, (r.remove store line).events⟩
  | .removeFrom source =>
      let o := r.removeFrom store source
      ⟨false, o.value, o.events⟩
  | .prune => ⟨false, 0, r.pruneEvents store⟩
  | .release => ⟨false, 0, (r.release store).events⟩
  | .takeFirstUpdate | .modifyListeners _ => ⟨false, 0, []⟩

/-- Why a change fails, if it does. -/
def fault? (r : Registry ι) (store : σ) : Change ι → Option Fault
  | .add source start stop label =>
      match (r.add store source start stop label).value with
      | .error fault => some fault
      | .ok _ => none
  | .remove line =>
      match (r.remove store line).value with
      | .error fault => some fault
      | .ok () => none
  | _ => none

/-! ## Failures -/

theorem add_of_error {r : Registry ι} {store : σ} {source : String} {start stop : Nat}
    {label : Option String} {fault : Fault}
    (h : (r.add store source start stop label).value = .error fault) :
    (r.add store source start stop label).registry = r ∧
      (r.add store source start stop label).events = [] := by
  unfold add at h ⊢
  by_cases hle : stop ≤ start
  · rw [if_pos hle]
    exact ⟨rfl, rfl⟩
  rw [if_neg hle] at h ⊢
  rcases hcreate : RangeStore.create store Marker.sticky start stop with ⟨outcome, store'⟩
  rw [hcreate] at h
  cases outcome with
  | error _ => exact ⟨rfl, rfl⟩
  | ok handle =>
    dsimp only at h ⊢
    cases hfind : RangeStore.anchorOf? store' handle with
    | none => exact ⟨rfl, rfl⟩
    | some a =>
      rw [hfind] at h
      cases h

theorem remove_of_error {r : Registry ι} {store : σ} {line : StickyLine} {fault : Fault}
    (h : (r.remove store line).value = .error fault) :
    (r.remove store line).registry = r ∧ (r.remove store line).events = [] := by
  unfold remove at h ⊢
  by_cases hid : line.documentId = RangeStore.documentId store
  · rw [if_pos hid] at h ⊢
    generalize (if (anchorOf? store line).isSome then RangeStore.delete store line.handle
      else (false, store)) = outcome at h ⊢
    obtain ⟨deleted, store'⟩ := outcome
    dsimp only at h ⊢
    by_cases hfound : (deleted || (r.records.find? line.handle).isSome) = true
    · rw [if_pos hfound] at h
      cases h
    · rw [if_neg hfound]
      exact ⟨rfl, rfl⟩
  · rw [if_neg hid]
    exact ⟨rfl, rfl⟩

/-- What fails leaves the registry as it was, and a blank receipt. -/
theorem blank_of_fault {r : Registry ι} {store : σ} {change : Change ι} {fault : Fault}
    (h : r.fault? store change = some fault) :
    (r.perform store change).1 = r ∧ r.receipt store change = ⟨false, 0, []⟩ := by
  cases change with
  | add source start stop label =>
    simp only [fault?] at h
    split at h
    next fault' hvalue =>
      obtain ⟨hregistry, hevents⟩ := add_of_error hvalue
      refine ⟨hregistry, ?_⟩
      simp only [receipt, hvalue, hevents]
      rfl
    next => cases h
  | remove line =>
    simp only [fault?] at h
    split at h
    next fault' hvalue =>
      obtain ⟨hregistry, hevents⟩ := remove_of_error hvalue
      refine ⟨hregistry, ?_⟩
      simp only [receipt, hevents]
    next => cases h
  | _ => cases h

/-! ## What events tell -/

theorem prunings_pruneEvents (r : Registry ι) (store : σ) :
    ((r.pruneEvents store).map (·.prunedRecords)).sum = r.staleCount store := by
  unfold pruneEvents
  dsimp only
  split
  next => rfl
  next hnone => simp [Nat.eq_zero_of_not_pos hnone]

theorem removals_pruneEvents (r : Registry ι) (store : σ) :
    (r.pruneEvents store).countP (·.isRecordRemoved) = 0 := by
  unfold pruneEvents
  dsimp only
  split <;> rfl

theorem size_prune_add_staleCount (r : Registry ι) (store : σ) :
    (r.prune store).records.size + r.staleCount store = r.records.size :=
  Nat.add_sub_cancel' (List.length_filter_le ..)

-- what a query warns of is no change
theorem quiet_queryEvents (r : Registry ι) (store : σ) (filter : Option String) (limit : Nat) :
    (r.queryEvents store filter limit).countP (·.isRecordRemoved) = 0 ∧
      ((r.queryEvents store filter limit).map (·.prunedRecords)).sum = 0 := by
  have hzombie : ∀ e ∈ r.queryEvents store filter limit,
      ∃ handle span, e = .unrecordedAnchor handle span := by
    intro e he
    unfold queryEvents at he
    split at he
    next =>
      obtain ⟨a, -, rfl⟩ := List.mem_map.1 he
      exact ⟨a.handle, a.span, rfl⟩
    next => exact absurd he List.not_mem_nil
  constructor
  · rw [List.countP_eq_zero]
    intro e he hremoved
    obtain ⟨_, _, rfl⟩ := hzombie e he
    obtain ⟨_, _, heq⟩ := Event.isRecordRemoved_iff.1 hremoved
    cases heq
  · apply List.sum_eq_zero
    intro n hn
    obtain ⟨e, he, rfl⟩ := List.mem_map.1 hn
    obtain ⟨_, _, rfl⟩ := hzombie e he
    exact Event.prunedRecords_eq_zero fun _ h => nomatch h

end Stores

/-! ## The balance of a change -/

theorem balance_of_fault {r : Registry ι} {b : Buffer} {change : Change ι} {fault : Fault}
    (h : r.fault? b change = some fault) :
    Receipt.Balance r.records.size (r.perform b change).1.records.size [r.receipt b change] := by
  obtain ⟨hregistry, hblank⟩ := blank_of_fault h
  rw [hregistry, hblank]
  exact Receipt.balance_blank _

theorem balance_add (r : Registry ι) {b : Buffer} (hb : b.WellFormed)
    (hissued : ∀ handle, r.Records handle → handle.id < b.nextHandle) (source : String)
    (start stop : Nat) (label : Option String) :
    let change : Change ι := .add source start stop label
    Receipt.Balance r.records.size (r.perform b change).1.records.size [r.receipt b change] := by
  intro change
  rcases add_cases r hb source start stop label with ⟨fault, -, heq⟩ | ⟨-, -, heq⟩
  · have hfault : r.fault? b change = some fault := by simp only [change, fault?, heq]
    exact balance_of_fault hfault
  · -- the handle is a new one, so it was not on record
    have hnone : r.records.find? ⟨b.nextHandle⟩ = none := by
      rw [Option.eq_none_iff_forall_ne_some]
      intro record hrecord
      exact Nat.lt_irrefl _ (hissued _ ⟨record, hrecord⟩)
    simp only [change, perform, receipt, heq]
    rw [Table.size_insert_of_none hnone]
    rfl

-- the event has a source if, and only if, there is a record to take out
theorem balance_remove (r : Registry ι) {b : Buffer} (hb : b.WellFormed)
    (hnd : r.records.keys.Nodup) (line : StickyLine) :
    let change : Change ι := .remove line
    Receipt.Balance r.records.size (r.perform b change).1.records.size [r.receipt b change] := by
  intro change
  have hdone (h : (r.remove b line).registry.records = r.records.erase line.handle)
      (hevents : (r.remove b line).events =
        [.lineRemoved ((r.records.find? line.handle).map (·.source)) line.handle]) :
      Receipt.Balance r.records.size (r.perform b change).1.records.size [r.receipt b change] := by
    simp only [change, perform, receipt, h, hevents]
    cases hfind : r.records.find? line.handle with
    | none =>
      rw [Table.size_erase_of_none hfind]
      rfl
    | some record => exact Table.size_erase_of_some hnd hfind
  rcases remove_cases r hb line with ⟨-, heq⟩ | ⟨-, -, heq⟩ | ⟨-, -, -, heq⟩
  · have hfault : r.fault? b change = some (.lineNotFound line.handle) := by
      simp only [change, fault?, heq]
    exact balance_of_fault hfault
  · exact hdone (by rw [heq]) (by rw [heq])
  · exact hdone (by rw [heq]) (by rw [heq])

theorem balance_prune (r : Registry ι) (b : Buffer) :
    Receipt.Balance r.records.size (r.perform b .prune).1.records.size [r.receipt b .prune] := by
  rw [Receipt.balance_singleton_iff]
  simp only [perform, receipt, removals_pruneEvents, prunings_pruneEvents]
  exact r.size_prune_add_staleCount b

-- the stale records are counted by the pruning, those of the source by the answer
theorem balance_removeFrom (r : Registry ι) (b : Buffer) (source : String) :
    let change : Change ι := .removeFrom source
    Receipt.Balance r.records.size (r.perform b change).1.records.size [r.receipt b change] := by
  intro change
  have hstale := r.size_prune_add_staleCount b
  have hsplit := (r.prune b).records.size_filter_add_size_filter_not
    fun _ record => record.source == source
  have hquiet (n : Nat) : ([.sourceRemoved source n] : List Event).countP (·.isRecordRemoved) = 0 ∧
      (([.sourceRemoved source n] : List Event).map (·.prunedRecords)).sum = 0 := ⟨rfl, rfl⟩
  rw [Receipt.balance_singleton_iff]
  simp only [change, perform, receipt, removeFrom, List.countP_append, List.map_append,
    List.sum_append, removals_pruneEvents, prunings_pruneEvents, Table.length_keys, hquiet, bne]
  simp only [Bool.toNat_false]
  omega

/-- Everything that a registry does but giving up its lines leaves a receipt that balances. -/
theorem balance_perform (r : Registry ι) {b : Buffer} (hb : b.WellFormed)
    (hissued : ∀ handle, r.Records handle → handle.id < b.nextHandle)
    (hnd : r.records.keys.Nodup) {change : Change ι} (hkept : change ≠ .release) :
    Receipt.Balance r.records.size (r.perform b change).1.records.size [r.receipt b change] := by
  cases change with
  | add source start stop label => exact r.balance_add hb hissued source start stop label
  | remove line => exact r.balance_remove hb hnd line
  | removeFrom source => exact r.balance_removeFrom b source
  | prune => exact r.balance_prune b
  | release => exact absurd rfl hkept
  | takeFirstUpdate => exact Receipt.balance_blank _
  | modifyListeners change => exact Receipt.balance_blank _

end Registry
end StickyScroll
