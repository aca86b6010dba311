import Mathlib.Data.List.Induction
import StickyScroll.Proofs.Manager.Shared

/-!
# Ownership

Registries delete by bare handle, without a look at the marker. That they never delete what is not
theirs rests on their records: what is on the record of a registry was issued by its document, to
this very registry, and is sticky as long as it is there. It lasts because a handle is issued once
and an anchor never changes its marker, whichever registries, closed ones included, work on the
document and whatever else is done to it.
-/

namespace StickyScroll

namespace Registry

variable {ι : Type}

/-- What is on record was issued by the document, and is sticky while it is there. -/
structure Owns (r : Registry ι) (b : Buffer) : Prop where
  issued : ∀ handle, r.Records handle → handle.id < b.nextHandle
  sticky : ∀ a ∈ b.anchors, r.Records a.handle → a.marker = .sticky

theorem not_records_empty (handle : Handle) : ¬ (empty : Registry ι).Records handle := by
  rintro ⟨record, hrecord⟩
  cases hrecord

theorem owns_empty (b : Buffer) : (empty : Registry ι).Owns b where
  issued handle h := absurd h (not_records_empty handle)
  sticky a _ h := absurd h (not_records_empty a.handle)

theorem Owns.evolves {r : Registry ι} {b b' : Buffer} (h : r.Owns b) (hev : b.Evolves b') :
    r.Owns b' := by
  refine ⟨?_, ?_⟩
  · intro handle hrecord
    exact Nat.lt_of_lt_of_le (h.issued handle hrecord) hev.next_le
  · intro a' ha' hrecord
    have hissued := h.issued a'.handle hrecord
    rcases hev.origin a' ha' with hnew | ⟨a, ha, hcont⟩
    · omega
    · rw [hcont.handle_eq] at hrecord
      exact hcont.marker_eq.trans (h.sticky a ha hrecord)

theorem Owns.perform {r : Registry ι} {b : Buffer} (h : r.Owns b) (hb : b.WellFormed)
    (change : Change ι) : (r.perform b change).1.Owns (r.perform b change).2 := by
  have hev := r.evolves_perform hb change
  refine ⟨?_, ?_⟩
  · intro handle hrecord
    rcases r.records_of_perform hb change hrecord with
      hold | ⟨_, _, _, _, _, -, -, -, rfl, hissued⟩
    · exact Nat.lt_of_lt_of_le (h.issued handle hold) hev.next_le
    · exact hissued
  · intro a ha hrecord
    rcases r.origin_perform hb change ha with hold | ⟨-, hsticky⟩
    · rcases r.records_of_perform hb change hrecord with
        hrecord' | ⟨_, _, _, _, _, -, -, -, hnew, -⟩
      · exact h.sticky a hold hrecord'
      · exact absurd hnew (hb.handle_ne_fresh .sticky 0 0 a hold)
    · exact hsticky

end Registry

namespace Cells

theorem stable_owns : Stable Registry.Owns where
  evolves _ hev h := h.evolves hev
  perform change hb h := h.perform hb change

theorem owns_after (turns : List Turn) {r : RegistryRef} {registry : Registry ListenerRef}
    {d : DocumentRef} {b : Buffer} (h : ((empty : Cells Buffer).after turns).Works r registry d b) :
    registry.Owns b :=
  stable_owns.of_run Registry.owns_empty turns h

/-- The records of the registry in a cell have one handle each. -/
theorem stable_nodup_keys : Stable fun registry _ => registry.records.keys.Nodup where
  evolves _ _ h := h
  perform change hb h := Registry.nodup_keys_perform h hb change

theorem nodup_keys_after (turns : List Turn) {r : RegistryRef} {registry : Registry ListenerRef}
    {d : DocumentRef} {b : Buffer} (h : ((empty : Cells Buffer).after turns).Works r registry d b) :
    registry.records.keys.Nodup :=
  stable_nodup_keys.of_run (fun _ => List.nodup_nil) turns h

/-! ## Whose handles are on record -/

-- what comes on record in a turn is the line that the registry adds, under a handle that nobody had
theorem Fares.records {c : Cells Buffer} {t : Turn} {r : RegistryRef}
    {registry registry' : Registry ListenerRef} {d : DocumentRef} {b b' : Buffer}
    (hb : b.WellFormed) (hworks : c.Works r registry d b)
    (hfares : c.Fares t r registry b registry' b') {handle : Handle}
    (h : registry'.Records handle) :
    registry.Records handle ∨
      ∃ line, c.added? t = some (r, line) ∧ line.handle = handle ∧ handle = ⟨b.nextHandle⟩ := by
  cases hfares with
  | aside => exact Or.inl h
  | acts change hacting =>
    rcases registry.records_of_perform hb change h with
      hold | ⟨source, start, stop, label, line, rfl, hvalue, hhandle, hnew, -⟩
    · exact Or.inl hold
    · refine Or.inr ⟨line, ?_, hhandle, hnew⟩
      rw [added?_eq_some_iff]
      exact ⟨source, start, stop, label, registry, d, b, hacting, hworks, hvalue⟩

/-- No handle is on record with two registries of one document. -/
def Apart (c : Cells Buffer) : Prop :=
  ∀ r q registry other d b handle, c.Works r registry d b → c.Works q other d b →
    registry.Records handle → other.Records handle → q = r

theorem Apart.apply {c : Cells Buffer} (h : c.Apart) (hc : c.Sound)
    (howns : ∀ r registry d b, c.Works r registry d b → registry.Owns b) (t : Turn) :
    (c.apply t).Apart := by
  intro r q registry' other' d b' handle hr hq hrecord hrecord'
  rcases works_of_apply hc hr with rfl | ⟨registry, b, hr_old, hfares⟩
  · exact absurd hrecord (Registry.not_records_empty handle)
  rcases works_of_apply hc hq with rfl | ⟨other, b₂, hq_old, hfares'⟩
  · exact absurd hrecord' (Registry.not_records_empty handle)
  have hdocument := hr_old.document_eq.symm.trans hq_old.document_eq
  cases hdocument
  have hb := hc.wellFormed d b hr_old.document_eq
  rcases hfares.records hb hr_old hrecord with hold | ⟨line, hadded, -, hnew⟩
  · rcases hfares'.records hb hq_old hrecord' with hold' | ⟨-, -, -, hnew'⟩
    · exact h r q registry other d b handle hr_old hq_old hold hold'
    · -- `q` would have got a handle that was issued to `r` before
      have hissued := (howns r registry d b hr_old).issued handle hold
      rw [hnew'] at hissued
      exact absurd hissued (Nat.lt_irrefl _)
  · rcases hfares'.records hb hq_old hrecord' with hold' | ⟨line', hadded', -⟩
    · have hissued := (howns q other d b hq_old).issued handle hold'
      rw [hnew] at hissued
      exact absurd hissued (Nat.lt_irrefl _)
    · cases hadded.symm.trans hadded'
      rfl

theorem apart_after (turns : List Turn) : ((empty : Cells Buffer).after turns).Apart := by
  induction turns using List.reverseRecOn with
  | nil =>
    intro _ _ _ _ _ _ _ hnone
    exact absurd hnone not_works_empty
  | append_singleton turns t ih =>
    rw [after_append]
    exact ih.apply (sound_empty.after turns) (fun _ _ _ _ h => owns_after turns h) t

/-- The registry added a line under the handle in the course of the run. -/
def Added (turns : List Turn) (r : RegistryRef) (handle : Handle) : Prop :=
  ∃ line, (r, line) ∈ (empty : Cells Buffer).log added? turns ∧ line.handle = handle

-- whatever is on record now was on record at the start or was added by this registry since
theorem records_after {c : Cells Buffer} (hc : c.Sound) (turns : List Turn) {r : RegistryRef}
    {registry' : Registry ListenerRef} {d : DocumentRef} {b' : Buffer}
    (h : (c.after turns).Works r registry' d b') {handle : Handle}
    (hrecord : registry'.Records handle) :
    (∃ line, (r, line) ∈ c.log added? turns ∧ line.handle = handle) ∨
      ∃ registry b, c.Works r registry d b ∧ registry.Records handle := by
  induction turns generalizing c with
  | nil => exact Or.inr ⟨registry', b', h, hrecord⟩
  | cons t rest ih =>
    rcases ih (hc.apply t) h with ⟨line, hlog, hhandle⟩ | ⟨registry₁, b₁, h₁, hrecord₁⟩
    · exact Or.inl ⟨line, List.mem_append_right _ hlog, hhandle⟩
    rcases works_of_apply hc h₁ with rfl | ⟨registry, b, hworks, hfares⟩
    · exact absurd hrecord₁ (Registry.not_records_empty handle)
    have hb := hc.wellFormed d b hworks.document_eq
    rcases hfares.records hb hworks hrecord₁ with hold | ⟨line, hadded, hhandle, -⟩
    · exact Or.inr ⟨registry, b, hworks, hold⟩
    · refine Or.inl ⟨line, List.mem_append_left _ ?_, hhandle⟩
      exact Option.mem_toList.2 hadded

theorem added_of_records (turns : List Turn) {r : RegistryRef} {registry : Registry ListenerRef}
    {d : DocumentRef} {b : Buffer} (h : ((empty : Cells Buffer).after turns).Works r registry d b)
    {handle : Handle} (hrecord : registry.Records handle) : Added turns r handle := by
  rcases records_after sound_empty turns h hrecord with hadded | ⟨_, _, hnone, -⟩
  · exact hadded
  · exact absurd hnone not_works_empty

/-! ## Closing -/

-- closing a document does nothing to the cells, or lets the registry that is held give up its lines
theorem close_cases (c : Cells Buffer) (m : Manager) (loans : Loans) (id : String) :
    (m.close c loans id).cells = c ∨
      ∃ r registry d b, m.get? id = some r ∧ c.Works r registry d b ∧
        (m.close c loans id).cells = c.settle r d (registry.perform b .release) := by
  cases hget : m.get? id with
  | none =>
    have hnone := Office.apply_close_of_none (o := ⟨m, c⟩) hget loans
    exact Or.inl (congrArg Office.cells hnone)
  | some r =>
    by_cases hbusy : c.isFree loans r = false ∨ ¬ ∃ registry d b, c.Works r registry d b
    · exact Or.inl (apply_close_idle hget hbusy)
    · obtain ⟨hfree, hworks⟩ := not_or.1 hbusy
      obtain ⟨registry, d, b, h⟩ := not_not.1 hworks
      have hclose := apply_close hget (by simpa using hfree) h
      exact Or.inr ⟨r, registry, d, b, rfl, h, hclose⟩

-- what a document loses when a manager closes it is on the record of the registry that is closed
theorem lost_by_close {c : Cells Buffer} (hc : c.Sound) (m : Manager) (loans : Loans) (id : String)
    {d : DocumentRef} {b : Buffer} (hd : c.documents[d]? = some b) :
    ∃ b', (m.close c loans id).cells.documents[d]? = some b' ∧ b'.text = b.text ∧
      ∀ a ∈ b.anchors, a ∉ b'.anchors → ∃ r registry, m.get? id = some r ∧
        c.Works r registry d b ∧ registry.Records a.handle := by
  rcases close_cases c m loans id with hsame | ⟨r, registry, e, b₁, hget, hworks, hclose⟩
  · rw [hsame]
    exact ⟨b, hd, rfl, fun a ha hlost => absurd ha hlost⟩
  · have hdocument : (m.close c loans id).cells.documents[d]? =
        some (if e = d then (registry.perform b₁ .release).2 else b) := by
      rw [hclose]
      exact documents_settle hd _
    rw [hdocument]
    refine ⟨_, rfl, ?_⟩
    split
    next hed =>
      subst hed
      cases hd.symm.trans hworks.document_eq
      have hb := hc.wellFormed e b hd
      refine ⟨registry.text_perform hb .release, ?_⟩
      intro a ha hlost
      exact ⟨r, registry, hget, hworks, registry.lost_by_release hb ha hlost⟩
    next => exact ⟨rfl, fun a ha hlost => absurd ha hlost⟩

/-- At every moment of a run, whatever offices take part in it, no handle is on record with two
registries of one document, and what is on record with a registry was issued by its document to
itself, and is sticky while it is there. So a removal by source and the release of a registry take
out only what the registry added; an addition and a pruning take out nothing; and the removal of a
line, whoever made the line up, takes out at most one anchor, that of the line's handle, and only if
the line is of this document and the anchor is sticky. Nothing that a registry does, and no closing
of a document, changes a text or an anchor of another marker. -/
theorem ownership_of_run (turns : List Turn) :
    let c := (empty : Cells Buffer).after turns
    (∀ r registry d b, c.Works r registry d b →
      (∀ q other handle, c.Works q other d b → registry.Records handle → other.Records handle →
        q = r) ∧
      (∀ handle, registry.Records handle → handle.id < b.nextHandle ∧ Added turns r handle) ∧
      (∀ a ∈ b.anchors, registry.Records a.handle → a.marker = .sticky) ∧
      (∀ source, ∀ a ∈ b.anchors, a ∉ (registry.removeFrom b source).store.anchors →
        Added turns r a.handle) ∧
      (∀ a ∈ b.anchors, a ∉ (registry.release b).store.anchors → Added turns r a.handle) ∧
      (∀ source start stop label, ∀ a ∈ b.anchors,
        a ∈ (registry.add b source start stop label).store.anchors) ∧
      (registry.perform b .prune).2 = b ∧
      (∀ line : StickyLine,
        b.anchors.length ≤ (registry.remove b line).store.anchors.length + 1 ∧
        ∀ a ∈ b.anchors, a ∉ (registry.remove b line).store.anchors →
          a.handle = line.handle ∧ line.documentId = b.id ∧ a.marker = .sticky) ∧
      (∀ change, (registry.perform b change).2.text = b.text ∧
        ∀ a ∈ b.anchors, a.marker ≠ .sticky → a ∈ (registry.perform b change).2.anchors)) ∧
    (∀ (m : Manager) (loans : Loans) (id : String) (d : DocumentRef) (b : Buffer),
      c.documents[d]? = some b →
      ∃ b', (m.close c loans id).cells.documents[d]? = some b' ∧ b'.text = b.text ∧
        ∀ a ∈ b.anchors, a ∉ b'.anchors → a.marker = .sticky ∧
          ∃ r registry, m.get? id = some r ∧ c.Works r registry d b ∧ Added turns r a.handle) := by
  intro c
  have hc : c.Sound := sound_empty.after turns
  have hapart : c.Apart := apart_after turns
  refine ⟨?_, ?_⟩
  · intro r registry d b hworks
    have hb : b.WellFormed := hc.wellFormed d b hworks.document_eq
    have howns : registry.Owns b := owns_after turns hworks
    have hadded : ∀ handle, registry.Records handle → Added turns r handle :=
      fun handle hrecord => added_of_records turns hworks hrecord
    refine ⟨?_, ?_, howns.sticky, ?_, ?_, ?_, rfl, ?_, ?_⟩
    · intro q other handle hworks' hrecord hrecord'
      exact hapart r q registry other d b handle hworks hworks' hrecord hrecord'
    · intro handle hrecord
      exact ⟨howns.issued handle hrecord, hadded handle hrecord⟩
    · intro source a ha hlost
      exact hadded a.handle (registry.lost_by_removeFrom hb source ha hlost)
    · intro a ha hlost
      exact hadded a.handle (registry.lost_by_release hb ha hlost)
    · intro source start stop label a ha
      exact registry.mem_anchors_add hb source start stop label ha
    · intro line
      refine ⟨registry.length_anchors_remove hb line, ?_⟩
      intro a ha hlost
      exact registry.lost_by_remove hb line ha hlost
    · intro change
      refine ⟨registry.text_perform hb change, ?_⟩
      intro a ha hforeign
      by_contra hlost
      rcases registry.lost_by_perform hb change ha hlost with hsticky | hrecord
      · exact hforeign hsticky
      · exact hforeign (howns.sticky a ha hrecord)
  · intro m loans id d b hd
    obtain ⟨b', hd', htext, hlost⟩ := lost_by_close hc m loans id hd
    refine ⟨b', hd', htext, ?_⟩
    intro a ha hgone
    obtain ⟨r, registry, hget, hworks, hrecord⟩ := hlost a ha hgone
    have hadded := added_of_records turns hworks hrecord
    exact ⟨(owns_after turns hworks).sticky a ha hrecord, r, registry, hget, hworks, hadded⟩

/-- Two offices open one document. The registry of each adds a line, an anchor of another marker is
made, and the first office closes the document. -/
def twoOffices : List Turn :=
  let first : Manager := ⟨1, ⟨[("a", 0)]⟩⟩
  [⟨.ofLimit 1, .makeDocument "a" ['x', 'y', 'z']⟩,
    ⟨.ofLimit 1, .openDocument [] 0⟩, ⟨.ofLimit 1, .openDocument [] 0⟩,
    ⟨first, .act 0 (.add "outline" 0 2 none)⟩, ⟨first, .act 1 (.add "outline" 1 3 none)⟩,
    ⟨first, .edit 0 (.create ⟨"MARK"⟩ 1 2)⟩, ⟨first, .close [] "a"⟩]

-- the second registry is left with its own line, and with a made up line it does not get at the
-- foreign anchor
theorem twoOffices_owned :
    ∃ registry d b, ((empty : Cells Buffer).after twoOffices).Works 1 registry d b ∧
      registry.Records ⟨1⟩ ∧ Added twoOffices 1 ⟨1⟩ ∧
      ∃ a ∈ b.anchors, a.marker = ⟨"MARK"⟩ ∧
        a ∈ (registry.perform b (.remove ⟨"a", a.handle, a.span, 0, 0, none⟩)).2.anchors := by
  have hscene : (((empty : Cells Buffer).after twoOffices).at? 1).any (fun (registry, b) =>
      (registry.records.find? ⟨1⟩).isSome && b.anchors.any (·.marker == ⟨"MARK"⟩)) = true := by
    decide +kernel
  simp only [Option.any_eq_true, Bool.and_eq_true, List.any_eq_true, beq_iff_eq] at hscene
  obtain ⟨⟨registry, b⟩, hat, hrecord, a, ha, hmarker⟩ := hscene
  obtain ⟨d, hworks⟩ := at?_eq_some_iff.1 hat
  have hforeign : a.marker ≠ .sticky := by
    rw [hmarker]
    decide
  have hrecords : registry.Records ⟨1⟩ := Registry.records_iff_isSome.2 hrecord
  have howned := (ownership_of_run twoOffices).1 1 registry d b hworks
  obtain ⟨-, hadded, -, -, -, -, -, -, hframe⟩ := howned
  exact ⟨registry, d, b, hworks, hrecords, (hadded ⟨1⟩ hrecords).2, a, ha, hmarker,
    (hframe _).2 a ha hforeign⟩

end Cells
end StickyScroll
