import StickyScroll.Proofs.Manager.Shared

/-!
# Lines that are read again

To read a line again, a registry looks its handle up in the document and keeps the label of the
snapshot that it is given; a query goes through the document and takes the labels on record. The two
agree on where the line is now, whatever snapshot is given. They agree on the label too if the
snapshot comes from the registry itself: the record of an anchor never changes while the anchor is
there, nor does the lack of one, so the label that the snapshot had is the one that is shown now. A
snapshot from elsewhere brings a label of its own, and keeps it.
-/

namespace StickyScroll

namespace StickyLine

-- lines with different handles are found by them
theorem filter_handle_eq {lines : List StickyLine} (hnd : (lines.map (·.handle)).Nodup)
    {line : StickyLine} (hline : line ∈ lines) :
    lines.filter (·.handle == line.handle) = [line] := by
  induction lines with
  | nil => cases hline
  | cons first rest ih =>
    obtain ⟨hfirst, hrest⟩ := List.nodup_cons.1 hnd
    rcases List.mem_cons.1 hline with rfl | hlater
    · have hnone : rest.filter (·.handle == line.handle) = [] := by
        rw [List.filter_eq_nil_iff]
        intro other hother hsame
        exact hfirst (List.mem_map.2 ⟨other, hother, beq_iff_eq.1 hsame⟩)
      simp [hnone]
    · have hne : first.handle ≠ line.handle := by
        intro hsame
        exact hfirst (List.mem_map.2 ⟨line, hlater, hsame.symm⟩)
      simp [hne, ih hrest hlater]

end StickyLine

namespace Registry

variable {ι : Type} {b : Buffer}

theorem resolve?_eq_some_iff (hb : b.WellFormed) {line fresh : StickyLine} :
    resolve? b line = some fresh ↔
      line.documentId = b.id ∧
        ∃ a ∈ b.anchors, a.handle = line.handle ∧ a.marker = .sticky ∧
          fresh = .ofAnchor b a line.label := by
  unfold resolve? anchorOf?
  by_cases hid : line.documentId = b.id
  · rw [if_pos (show line.documentId = RangeStore.documentId b from hid), Option.map_eq_some_iff]
    simp only [Option.filter_eq_some_iff, beq_iff_eq]
    constructor
    · rintro ⟨a, ⟨hfound, hmarker⟩, rfl⟩
      obtain ⟨ha, hhandle⟩ := (Buffer.anchorOf?_eq_some_iff hb.distinct).1 hfound
      exact ⟨hid, a, ha, hhandle, hmarker, rfl⟩
    · rintro ⟨-, a, ha, hhandle, hmarker, rfl⟩
      have hfound := (Buffer.anchorOf?_eq_some_iff hb.distinct).2 ⟨ha, hhandle⟩
      exact ⟨a, ⟨hfound, hmarker⟩, rfl⟩
  · rw [if_neg (show line.documentId ≠ RangeStore.documentId b from hid)]
    constructor
    · intro h
      cases h
    · rintro ⟨hid', -⟩
      exact absurd hid' hid

-- the whole document's lines are those of its sticky anchors
theorem mem_lines_iff (r : Registry ι) (hb : b.WellFormed) {line : StickyLine} :
    line ∈ r.lines b none ↔ ∃ a ∈ b.anchors, a.marker = .sticky ∧ line = r.shown b a := by
  rw [lines, mem_query_iff hb]
  constructor
  · rintro ⟨a, ha, hmarker, -, -, rfl⟩
    exact ⟨a, ha, hmarker, rfl⟩
  · rintro ⟨a, ha, hmarker, rfl⟩
    have hlimit : a.span.start ≤ b.length :=
      Nat.le_trans (hb.fits a ha).forward (hb.fits a ha).stop_le
    have hwants : r.Wants none a := by
      intro source hsource
      cases hsource
    exact ⟨a, ha, hmarker, hlimit, hwants, rfl⟩

/-- A line of the document is read again as long as the query shows a line of its handle. -/
theorem isSome_resolve?_iff (r : Registry ι) (hb : b.WellFormed) {line : StickyLine}
    (hid : line.documentId = b.id) :
    (resolve? b line).isSome = true ↔ ∃ other ∈ r.lines b none, other.handle = line.handle := by
  rw [Option.isSome_iff_exists]
  constructor
  · rintro ⟨fresh, hfresh⟩
    obtain ⟨-, a, ha, hhandle, hmarker, -⟩ := (resolve?_eq_some_iff hb).1 hfresh
    exact ⟨r.shown b a, (r.mem_lines_iff hb).2 ⟨a, ha, hmarker, rfl⟩, hhandle⟩
  · rintro ⟨other, hother, hhandle⟩
    obtain ⟨a, ha, hmarker, rfl⟩ := (r.mem_lines_iff hb).1 hother
    exact ⟨_, (resolve?_eq_some_iff hb).2 ⟨hid, a, ha, hhandle, hmarker, rfl⟩⟩

/-- What is read again is the one line of that handle that the query shows, under the old label. -/
theorem resolve?_eq_shown (r : Registry ι) (hb : b.WellFormed) {line fresh : StickyLine}
    (hfresh : resolve? b line = some fresh) :
    ∃ a ∈ b.anchors, a.handle = line.handle ∧ a.marker = .sticky ∧
      (r.lines b none).filter (·.handle == line.handle) = [r.shown b a] ∧
      fresh = { r.shown b a with label := line.label } := by
  obtain ⟨-, a, ha, hhandle, hmarker, rfl⟩ := (resolve?_eq_some_iff hb).1 hfresh
  have hshown : r.shown b a ∈ r.lines b none := (r.mem_lines_iff hb).2 ⟨a, ha, hmarker, rfl⟩
  have honly := StickyLine.filter_handle_eq (r.nodup_handles_query hb none _) hshown
  rw [show (r.shown b a).handle = line.handle from hhandle] at honly
  exact ⟨a, ha, hhandle, hmarker, honly, rfl⟩

/-! ## Labels that last -/

/-- The line is of this document, and has the label that the registry shows it under as long as its
anchor is there. -/
structure Faithful (line : StickyLine) (r : Registry ι) (b : Buffer) : Prop where
  document : line.documentId = b.id
  issued : line.handle.id < b.nextHandle
  label_eq : ∀ a ∈ b.anchors, a.marker = .sticky → a.handle = line.handle →
    line.label = (r.shown b a).label

-- the label depends on the handle and on its record
theorem label_shown_congr {r r' : Registry ι} {b b' : Buffer} {a a' : Anchor}
    (h : r.records.find? a.handle = r'.records.find? a'.handle) :
    (r.shown b a).label = (r'.shown b' a').label := by
  simp only [shown, StickyLine.ofAnchor, h]

theorem Faithful.evolves {line : StickyLine} {r : Registry ι} {b' : Buffer}
    (h : Faithful line r b) (hev : b.Evolves b') : Faithful line r b' := by
  have hissued := h.issued
  refine ⟨h.document.trans hev.id_eq.symm, Nat.lt_of_lt_of_le hissued hev.next_le, ?_⟩
  intro a' ha' hmarker hhandle
  rcases hev.origin a' ha' with hnew | ⟨a, ha, hcont⟩
  · rw [hhandle] at hnew
    omega
  · have hlabel := h.label_eq a ha (hcont.marker_eq.symm.trans hmarker)
      (hcont.handle_eq.symm.trans hhandle)
    rw [hlabel]
    exact label_shown_congr (by rw [hcont.handle_eq])

theorem Faithful.perform {line : StickyLine} {r : Registry ι} (h : Faithful line r b)
    (hb : b.WellFormed) (change : Change ι) :
    Faithful line (r.perform b change).1 (r.perform b change).2 := by
  have hev := r.evolves_perform hb change
  have hissued := h.issued
  refine ⟨h.document.trans hev.id_eq.symm, Nat.lt_of_lt_of_le hissued hev.next_le, ?_⟩
  intro a ha hmarker hhandle
  rcases r.origin_perform hb change ha with hold | ⟨hnew, -⟩
  · rw [h.label_eq a hold hmarker hhandle]
    exact label_shown_congr (r.find?_perform hb change hold ha hmarker).symm
  · rw [← hhandle, hnew] at hissued
    exact absurd hissued (Nat.lt_irrefl _)

theorem faithful_shown (r : Registry ι) (hb : b.WellFormed) {a : Anchor} (ha : a ∈ b.anchors) :
    Faithful (r.shown b a) r b := by
  refine ⟨rfl, hb.issued a ha, ?_⟩
  intro c _ _ hhandle
  exact label_shown_congr (by rw [hhandle]; rfl)

theorem faithful_of_add (r : Registry ι) (hb : b.WellFormed) {source : String} {start stop : Nat}
    {label : Option String} {line : StickyLine}
    (hok : (r.add b source start stop label).value = .ok line) :
    Faithful line (r.add b source start stop label).registry
      (r.add b source start stop label).store := by
  rcases r.add_cases hb source start stop label with ⟨_, -, heq⟩ | ⟨-, -, heq⟩
  · rw [heq] at hok
    cases hok
  · rw [heq] at hok ⊢
    cases hok
    refine ⟨rfl, Nat.lt_succ_self _, ?_⟩
    intro a _ _ hhandle
    have hrecord : (r.records.insert ⟨b.nextHandle⟩ ⟨source, label⟩).find? a.handle =
        some ⟨source, label⟩ := (Table.find?_insert ..).trans (if_pos hhandle)
    simp only [shown, StickyLine.ofAnchor, hrecord, Option.map_some, Option.getD_some]

theorem documentId_of_resolve? (hb : b.WellFormed) {line fresh : StickyLine}
    (hfresh : resolve? b line = some fresh) : fresh.documentId = b.id := by
  obtain ⟨-, a, -, -, -, rfl⟩ := (resolve?_eq_some_iff hb).1 hfresh
  rfl

theorem faithful_of_resolve? {r : Registry ι} (hb : b.WellFormed) {line fresh : StickyLine}
    (h : Faithful line r b) (hfresh : resolve? b line = some fresh) : Faithful fresh r b := by
  obtain ⟨-, a, ha, hhandle, -, rfl⟩ := (resolve?_eq_some_iff hb).1 hfresh
  refine ⟨rfl, hb.issued a ha, ?_⟩
  intro c hc hmarker hsame
  exact h.label_eq c hc hmarker (hsame.trans hhandle)

end Registry

namespace Cells

theorem stable_faithful (line : StickyLine) : Stable (Registry.Faithful line) where
  evolves _ hev h := h.evolves hev
  perform change hb h := h.perform hb change

/-! ## Lines that a registry returned -/

/-- The registry returned the line by the end of the run: when the line was added, in answer to a
query, or when it was given a line to read again, be it one that it had returned before or a
snapshot from `outside`. -/
inductive Returned (outside : StickyLine → Prop) (r : RegistryRef) :
    List Turn → StickyLine → Prop where
  | added {turns : List Turn} {t : Turn} {line : StickyLine}
      (hadded : ((empty : Cells Buffer).after turns).added? t = some (r, line)) :
      Returned outside r (turns ++ [t]) line
  | queried {turns : List Turn} {registry : Registry ListenerRef} {d : DocumentRef} {b : Buffer}
      {filter : Option String} {limit : Nat} {line : StickyLine}
      (hworks : ((empty : Cells Buffer).after turns).Works r registry d b)
      (hline : line ∈ registry.query b filter limit) : Returned outside r turns line
  | reread {turns : List Turn} {registry : Registry ListenerRef} {d : DocumentRef} {b : Buffer}
      {line fresh : StickyLine}
      (hworks : ((empty : Cells Buffer).after turns).Works r registry d b)
      (hline : Returned outside r turns line) (hfresh : Registry.resolve? b line = some fresh) :
      Returned outside r turns fresh
  | read {turns : List Turn} {registry : Registry ListenerRef} {d : DocumentRef} {b : Buffer}
      {line fresh : StickyLine}
      (hworks : ((empty : Cells Buffer).after turns).Works r registry d b)
      (hline : outside line) (hfresh : Registry.resolve? b line = some fresh) :
      Returned outside r turns fresh
  | later {turns : List Turn} {line : StickyLine} (hline : Returned outside r turns line)
      (t : Turn) : Returned outside r (turns ++ [t]) line

/-- A property of lines that every line has when it is returned. -/
structure Initial (outside : StickyLine → Prop)
    (p : StickyLine → Registry ListenerRef → Buffer → Prop) : Prop where
  added : ∀ {registry : Registry ListenerRef} {b : Buffer} {source : String} {start stop : Nat}
    {label : Option String} {line : StickyLine}, b.WellFormed →
      (registry.add b source start stop label).value = .ok line →
        p line (registry.add b source start stop label).registry
          (registry.add b source start stop label).store
  queried : ∀ {registry : Registry ListenerRef} {b : Buffer} {a : Anchor}, b.WellFormed →
    a ∈ b.anchors → p (registry.shown b a) registry b
  reread : ∀ {registry : Registry ListenerRef} {b : Buffer} {line fresh : StickyLine},
    b.WellFormed → p line registry b → Registry.resolve? b line = some fresh → p fresh registry b
  read : ∀ {registry : Registry ListenerRef} {b : Buffer} {line fresh : StickyLine},
    b.WellFormed → outside line → Registry.resolve? b line = some fresh → p fresh registry b

theorem Returned.exists_works {outside : StickyLine → Prop}
    {p : StickyLine → Registry ListenerRef → Buffer → Prop} (hinitial : Initial outside p)
    (hstable : ∀ line, Stable (p line)) {r : RegistryRef} {turns : List Turn} {line : StickyLine}
    (h : Returned outside r turns line) :
    ∃ registry d b, ((empty : Cells Buffer).after turns).Works r registry d b ∧
      p line registry b := by
  induction h with
  | @added turns t line hadded =>
    obtain ⟨source, start, stop, label, registry, d, b, hacting, hworks, hok⟩ :=
      added?_eq_some_iff.1 hadded
    have hc := sound_empty.after turns
    have hb := hc.wellFormed d b hworks.document_eq
    obtain ⟨registry', b', hworks', hfares⟩ := works_apply hc hworks t
    rw [after_append]
    refine ⟨registry', d, b', hworks', ?_⟩
    cases hfares with
    | aside _ haside => exact absurd hacting (haside _)
    | acts change hacting' =>
      cases hacting.symm.trans hacting'
      exact hinitial.added hb hok
  | @queried turns registry d b filter limit line hworks hline =>
    have hb := wellFormed_after turns hworks
    obtain ⟨a, ha, -, -, -, rfl⟩ := (Registry.mem_query_iff hb).1 hline
    exact ⟨registry, d, b, hworks, hinitial.queried hb ha⟩
  | @reread turns registry d b line fresh hworks _ hfresh ih =>
    have hb := wellFormed_after turns hworks
    obtain ⟨registry', d', b', hworks', hline⟩ := ih
    obtain ⟨rfl, rfl, rfl⟩ := hworks.unique hworks'
    exact ⟨registry, d, b, hworks, hinitial.reread hb hline hfresh⟩
  | @read turns registry d b line fresh hworks hline hfresh =>
    have hb := wellFormed_after turns hworks
    exact ⟨registry, d, b, hworks, hinitial.read hb hline hfresh⟩
  | @later turns line _ t ih =>
    obtain ⟨registry, d, b, hworks, hline⟩ := ih
    obtain ⟨registry', b', hworks', hline'⟩ :=
      (hstable line).after (sound_empty.after turns) hworks hline [t]
    rw [after_append]
    exact ⟨registry', d, b', hworks', hline'⟩

/-- What is stable and holds of all lines when they are returned, a line that was returned has. -/
theorem Returned.lasts {outside : StickyLine → Prop}
    {p : StickyLine → Registry ListenerRef → Buffer → Prop} (hinitial : Initial outside p)
    (hstable : ∀ line, Stable (p line)) {r : RegistryRef} {turns : List Turn} {line : StickyLine}
    (h : Returned outside r turns line) {registry : Registry ListenerRef} {d : DocumentRef}
    {b : Buffer} (hworks : ((empty : Cells Buffer).after turns).Works r registry d b) :
    p line registry b := by
  obtain ⟨_, _, _, hworks', hp⟩ := h.exists_works hinitial hstable
  obtain ⟨rfl, rfl, rfl⟩ := hworks.unique hworks'
  exact hp

theorem stable_document (line : StickyLine) : Stable fun _ b => line.documentId = b.id where
  evolves _ hev hid := hid.trans hev.id_eq.symm
  perform change hb hid := hid.trans (Registry.evolves_perform _ hb change).id_eq.symm

theorem initial_document (outside : StickyLine → Prop) :
    Initial outside fun line _ b => line.documentId = b.id where
  added hb hok := (Registry.faithful_of_add _ hb hok).document
  queried _ _ := rfl
  reread hb _ hfresh := Registry.documentId_of_resolve? hb hfresh
  read hb _ hfresh := Registry.documentId_of_resolve? hb hfresh

-- whatever the registry was given to read again, the lines that it returned are of its document
theorem Returned.document {outside : StickyLine → Prop} {r : RegistryRef} {turns : List Turn}
    {line : StickyLine} (h : Returned outside r turns line) {registry : Registry ListenerRef}
    {d : DocumentRef} {b : Buffer}
    (hworks : ((empty : Cells Buffer).after turns).Works r registry d b) :
    line.documentId = b.id :=
  h.lasts (initial_document outside) stable_document hworks

theorem initial_faithful : Initial (fun _ => False) Registry.Faithful where
  added hb hok := Registry.faithful_of_add _ hb hok
  queried hb ha := Registry.faithful_shown _ hb ha
  reread hb hline hfresh := Registry.faithful_of_resolve? hb hline hfresh
  read _ hnone := hnone.elim

/-- A line that comes from the registry itself, directly or by reading such a line again, is
faithful to it ever after. -/
theorem Returned.faithful {r : RegistryRef} {turns : List Turn} {line : StickyLine}
    (h : Returned (fun _ => False) r turns line) {registry : Registry ListenerRef}
    {d : DocumentRef} {b : Buffer}
    (hworks : ((empty : Cells Buffer).after turns).Works r registry d b) :
    Registry.Faithful line registry b :=
  h.lasts initial_faithful stable_faithful hworks

/-- Every line that a registry returned in the course of a run is read again exactly as long as the
query for all lines shows a line of its handle. What is read is the one line of that handle that the
query shows, but for the label, which is that of the line that is given. The label is the same too
if the registry was never given a snapshot from elsewhere on the way to the line. -/
theorem resolve_agrees_with_lines (turns : List Turn) {r : RegistryRef}
    {registry : Registry ListenerRef} {d : DocumentRef} {b : Buffer}
    (hworks : ((empty : Cells Buffer).after turns).Works r registry d b)
    {outside : StickyLine → Prop} {line : StickyLine} (hline : Returned outside r turns line) :
    ((Registry.resolve? b line).isSome = true ↔
      ∃ other ∈ registry.lines b none, other.handle = line.handle) ∧
    ∀ fresh, Registry.resolve? b line = some fresh →
      ∃ shown, (registry.lines b none).filter (·.handle == line.handle) = [shown] ∧
        fresh = { shown with label := line.label } ∧
        (Returned (fun _ => False) r turns line → fresh = shown) := by
  have hb := (sound_empty.after turns).wellFormed d b hworks.document_eq
  refine ⟨registry.isSome_resolve?_iff hb (hline.document hworks), ?_⟩
  intro fresh hfresh
  obtain ⟨a, ha, hhandle, hmarker, honly, heq⟩ := registry.resolve?_eq_shown hb hfresh
  refine ⟨registry.shown b a, honly, heq, ?_⟩
  intro hown
  have hlabel := (hown.faithful hworks).label_eq a ha hmarker hhandle
  rw [heq, hlabel]

/-- Two registries work on one document. The first adds a line, which an edit makes longer. -/
def sharedScope : List Turn :=
  [⟨.ofLimit 1, .makeDocument "d" ['a', 'b']⟩,
    ⟨.ofLimit 1, .openDocument [] 0⟩, ⟨.ofLimit 1, .openDocument [] 0⟩,
    ⟨.ofLimit 1, .act 0 (.add "outline" 0 2 (some "scope"))⟩,
    ⟨.ofLimit 1, .edit 0 (.insert 1 ['c'])⟩]

-- the line as it was when it was added, as it is now, and as a registry without a record shows it
def scopeAdded : StickyLine := ⟨"d", ⟨0⟩, ⟨0, 2⟩, 0, 0, some "scope"⟩
def scopeNow : StickyLine := { scopeAdded with span := ⟨0, 3⟩ }
def scopeZombie : StickyLine := { scopeNow with label := some "StickyZombie" }

theorem returned_scopeAdded : Returned (fun _ => False) 0 sharedScope scopeAdded := by
  have hadded : ((empty : Cells Buffer).after (sharedScope.take 3)).added?
      ⟨.ofLimit 1, .act 0 (.add "outline" 0 2 (some "scope"))⟩ = some (0, scopeAdded) := by
    decide +kernel
  exact (Returned.added hadded).later ⟨.ofLimit 1, .edit 0 (.insert 1 ['c'])⟩

theorem works_sharedScope :
    ∃ registry other d b, ((empty : Cells Buffer).after sharedScope).Works 0 registry d b ∧
      ((empty : Cells Buffer).after sharedScope).Works 1 other d b ∧
      Registry.resolve? b scopeAdded = some scopeNow ∧
      Registry.resolve? b scopeZombie = some scopeZombie ∧
      registry.lines b none = [scopeNow] ∧ other.lines b none = [scopeZombie] := by
  have hscene : (((empty : Cells Buffer).after sharedScope).documents[0]?).any (fun b =>
      (((empty : Cells Buffer).after sharedScope).registries[0]?).any (fun first =>
        (((empty : Cells Buffer).after sharedScope).registries[1]?).any (fun second =>
          first.document == 0 && second.document == 0 &&
            Registry.resolve? b scopeAdded == some scopeNow &&
            Registry.resolve? b scopeZombie == some scopeZombie &&
            first.registry.lines b none == [scopeNow] &&
            second.registry.lines b none == [scopeZombie]))) = true := by
    decide +kernel
  simp only [Option.any_eq_true, Bool.and_eq_true, beq_iff_eq] at hscene
  obtain ⟨b, hb, ⟨registry, d⟩, hr, ⟨other, e⟩, hq, hchecks⟩ := hscene
  obtain ⟨⟨⟨⟨⟨rfl, rfl⟩, hadded⟩, hzombie⟩, hown⟩, hother⟩ := hchecks
  exact ⟨registry, other, 0, b, ⟨hr, hb⟩, ⟨hq, hb⟩, hadded, hzombie, hown, hother⟩

-- the line that was added is read again as the query shows it, with its new end
theorem sharedScope_read_again :
    ∃ registry d b shown, ((empty : Cells Buffer).after sharedScope).Works 0 registry d b ∧
      Returned (fun _ => False) 0 sharedScope scopeAdded ∧
      Registry.resolve? b scopeAdded = some scopeNow ∧
      (registry.lines b none).filter (·.handle == scopeAdded.handle) = [shown] ∧
      scopeNow = shown := by
  obtain ⟨registry, -, d, b, hworks, -, hnow, -⟩ := works_sharedScope
  have hown := returned_scopeAdded
  obtain ⟨-, hagrees⟩ := resolve_agrees_with_lines sharedScope hworks hown
  obtain ⟨shown, honly, -, hsame⟩ := hagrees scopeNow hnow
  exact ⟨registry, d, b, shown, hworks, hown, hnow, honly, hsame hown⟩

/-- The second registry shows the line as a zombie. The first one, given that snapshot to read,
returns it under the label of zombies; given the line that it has just returned, it does so again,
while its query shows the label on record. -/
theorem sharedScope_label_kept :
    ∃ registry other d b, ((empty : Cells Buffer).after sharedScope).Works 0 registry d b ∧
      ((empty : Cells Buffer).after sharedScope).Works 1 other d b ∧
      scopeZombie ∈ other.lines b none ∧
      Returned (fun _ => True) 0 sharedScope scopeZombie ∧
      Registry.resolve? b scopeZombie = some scopeZombie ∧
      (registry.lines b none).filter (·.handle == scopeZombie.handle) = [scopeNow] ∧
      scopeZombie ≠ scopeNow := by
  obtain ⟨registry, other, d, b, hworks, hworks', -, hzombie, hown, hother⟩ := works_sharedScope
  have hshown : scopeZombie ∈ other.lines b none := by
    rw [hother]
    exact List.mem_singleton_self _
  have hreturned : Returned (fun _ => True) 0 sharedScope scopeZombie :=
    .read hworks trivial hzombie
  have honly : (registry.lines b none).filter (·.handle == scopeZombie.handle) = [scopeNow] := by
    rw [hown]
    rfl
  exact ⟨registry, other, d, b, hworks, hworks', hshown, hreturned, hzombie, honly, by decide⟩

end Cells
end StickyScroll
