import Mathlib
import StickyScroll.Proofs.Visits
import StickyScroll.Proofs.Registry.Query
import StickyScroll.Session.Run

/-!
# Walks

The lines of a walk are found before the first of them is visited. Whatever a visitor does to the
session meanwhile, it is shown what the query would have answered right before, field for field, up
to the first line after which it declines to see more.
-/

namespace StickyScroll

namespace Session

/-- The visitor, writing down what it is shown and what it answers. -/
def Visitor.recording {μ : Type} (visitor : Visitor μ) : Visitor (List (StickyLine × Bool) × μ) :=
  fun loans line ((shown, known), s) =>
    let (more, known, s) := visitor loans line (known, s)
    (more, (shown ++ [(line, more)], known), s)

-- recording changes nothing of what is shown and done
theorem visitWhile_recording {μ : Type} (visitor : Visitor μ) (loans : Loans)
    (lines : List StickyLine) (known : μ) (s : Session) :
    ∃ completed shown known' t,
      visitWhile (visitor loans) lines (known, s) = (completed, known', t) ∧
      visitWhile (visitor.recording loans) lines (([], known), s) =
        (completed, (shown, known'), t) ∧
      Showing lines completed shown := by
  have hplain := visitWhile_view (visitor.recording loans) (visitor loans)
    (fun u : (List (StickyLine × Bool) × μ) × Session => (u.1.2, u.2))
    (fun _ _ => rfl) lines (([], known), s)
  obtain ⟨shown, hrecorded, hshown⟩ := visitWhile_record (visitor.recording loans)
    (fun u => u.1.1) (fun _ _ => rfl) lines (([], known), s)
  rw [List.nil_append] at hrecorded
  refine ⟨_, shown, _, _, hplain, ?_, hshown⟩
  rw [← hrecorded]

-- what the visitor of a walk has seen by itself is what it was shown
theorem visitWhile_visitLine (inner : Inner) (script : List Command) (stopAfter : Option Nat)
    (loans : Loans) (lines : List StickyLine) (s : Session) :
    let visits := visitWhile ((visitLine inner script stopAfter).recording loans) lines
      (([], ⟨[], []⟩), s)
    visits.2.1.2.seen = visits.2.1.1.map Prod.fst := by
  apply visitWhile_invariant
    (p := fun u : (List (StickyLine × Bool) × Walking) × Session =>
      u.1.2.seen = u.1.1.map Prod.fst)
  · rintro line - ⟨⟨shown, w⟩, t⟩ hseen
    show w.seen ++ [line] = (shown ++ [(line, _)]).map Prod.fst
    rw [List.map_append, hseen]
    rfl
  · rfl

section Readable

variable {s : Session} {loans : Loans} {name : String} {r : RegistryRef} {shared : SharedRegistry}
  {store : Document} (hname : s.registry? name = some (r, shared))
  (hregistry : loans.permit (.registry r) .read = true)
  (hdocument : loans.permit (.document shared.document) .read = true)
  (hstore : s.cells.documents[shared.document]? = some store)

include hname hregistry hdocument hstore

theorem findLines_of_readable (scope : WalkScope) :
    ∃ events, s.findLines loans name scope =
      .ok (r, shared.registry.query store scope.source
        (scope.limit.getD (RangeStore.documentLength store)), s.report events) := by
  let limit := scope.limit.getD (RangeStore.documentLength store)
  let lines := shared.registry.query store scope.source limit
  refine ⟨shared.registry.queryEvents store scope.source limit ++
    [.queried scope.source limit lines.length], ?_⟩
  unfold findLines
  rw [hname]
  dsimp only
  rw [if_pos (by rw [hregistry, hdocument]; rfl), hstore]

-- what is found does not depend on the visitor
theorem showLines_of_readable (scope : WalkScope) :
    ∃ events, ∀ (μ : Type) (visitor : Visitor μ) (known : μ),
      s.showLines loans name scope visitor known =
        .ok (visitWhile (visitor (⟨.registry r, .read⟩ :: loans))
          (shared.registry.query store scope.source
            (scope.limit.getD (RangeStore.documentLength store)))
          (known, s.report events)) := by
  obtain ⟨events, hfound⟩ := findLines_of_readable hname hregistry hdocument hstore scope
  refine ⟨events, fun μ visitor known => ?_⟩
  unfold showLines
  rw [hfound]

theorem showLines_recording {μ : Type} (scope : WalkScope) (visitor : Visitor μ) (known : μ) :
    ∃ completed shown known' t,
      s.showLines loans name scope visitor known = .ok (completed, known', t) ∧
      s.showLines loans name scope visitor.recording ([], known) =
        .ok (completed, (shown, known'), t) ∧
      Showing
        (shared.registry.query store scope.source
          (scope.limit.getD (RangeStore.documentLength store))) completed shown := by
  obtain ⟨events, hvisits⟩ := showLines_of_readable hname hregistry hdocument hstore scope
  obtain ⟨completed, shown, known', t, hplain, hrecorded, hshown⟩ :=
    visitWhile_recording visitor (⟨.registry r, .read⟩ :: loans)
      (shared.registry.query store scope.source
        (scope.limit.getD (RangeStore.documentLength store))) known (s.report events)
  refine ⟨completed, shown, known', t, ?_, ?_, hshown⟩
  · rw [hvisits, hplain]
  · rw [hvisits, hrecorded]

-- the answer to a walk tells the lines that the script was run for
theorem walk_recording (scope : WalkScope) (inner : Inner) (stopAfter : Option Nat)
    (script : Option (List Command)) :
    ∃ completed shown w t,
      s.showLines loans name scope (visitLine inner (script.getD []) stopAfter).recording
        ([], ⟨[], []⟩) = .ok (completed, (shown, w), t) ∧
      s.walk inner loans name scope stopAfter script =
        (.walked completed (shown.map Prod.fst) (script.map fun _ => w.nested), t) := by
  obtain ⟨completed, shown, w, t, hplain, hrecorded, -⟩ :=
    showLines_recording hname hregistry hdocument hstore scope
      (visitLine inner (script.getD []) stopAfter) ⟨[], []⟩
  have hseen : w.seen = shown.map Prod.fst := by
    obtain ⟨events, hvisits⟩ := showLines_of_readable hname hregistry hdocument hstore scope
    have hkept := visitWhile_visitLine inner (script.getD []) stopAfter
      (⟨.registry r, .read⟩ :: loans) (shared.registry.query store scope.source
        (scope.limit.getD (RangeStore.documentLength store))) (s.report events)
    rwa [Except.ok.inj ((hvisits _ _ _).symm.trans hrecorded)] at hkept
  refine ⟨completed, shown, w, t, hrecorded, ?_⟩
  unfold walk
  rw [hplain, ← hseen]

-- a walk that declines nothing is the query itself
theorem walk_of_nothing_declined (scope : WalkScope) (inner : Inner) :
    (s.walk inner loans name scope none none).1 =
      .walked true
        (shared.registry.query store scope.source
          (scope.limit.getD (RangeStore.documentLength store))) none := by
  obtain ⟨completed, shown, known', t, -, hrecorded, hshown⟩ :=
    showLines_recording hname hregistry hdocument hstore scope (visitLine inner [] none) ⟨[], []⟩
  obtain ⟨events, hvisits⟩ := showLines_of_readable hname hregistry hdocument hstore scope
  have hcompleted : completed = true := by
    have h := (hvisits _ (visitLine inner [] none).recording ([], ⟨[], []⟩)).symm.trans hrecorded
    rw [visitWhile_of_forall_true fun line u => rfl] at h
    exact (congrArg Prod.fst (Except.ok.inj h)).symm
  subst hcompleted
  obtain ⟨completed', shown', w, t', hrecorded', hwalk⟩ :=
    walk_recording hname hregistry hdocument hstore scope inner none none
  cases Except.ok.inj (hrecorded'.symm.trans hrecorded)
  rw [hwalk, hshown.map_fst_of_completed]
  rfl

-- without a limit a walk goes as far as the document is long right before
omit hregistry hdocument in
theorem findLines_of_no_limit (source : Option String) :
    s.findLines loans name ⟨source, none⟩ =
      s.findLines loans name ⟨source, some (RangeStore.documentLength store)⟩ := by
  unfold findLines
  rw [hname]
  dsimp only
  rw [hstore]
  rfl

theorem lines_of_readable (source : Option String) :
    (s.onRegistry loans name (.lines source none)).1 =
      .lines (shared.registry.query store source (RangeStore.documentLength store)) := by
  have hpermit : loans.permit (.registry r) (RegistryAction.lines source none).access = true :=
    hregistry
  have hpermits : (RegistryAction.lines source none).storeAccess.all
      (loans.permit (.document shared.document)) = true := hdocument
  unfold onRegistry
  rw [hname]
  dsimp only
  rw [if_pos hpermit, hstore]
  show (if _ then _ else _ : Answer × Session).1 = _
  rw [if_pos hpermits]
  rfl

/-- A walk shows its visitor, whatever that does to the session meanwhile, the lines that the same
query finds right before: from the first on, all of them if each is welcome, and else up to the
first after which the visitor declines, and the walk then answers that it was not completed. Without
a limit it goes as far as the document is long before the first visit. -/
theorem walk_shows_snapshot (scope : WalkScope) :
    let length := RangeStore.documentLength store
    let lines := shared.registry.query store scope.source (scope.limit.getD length)
    -- what the query finds, if nothing is done with the lines
    (∀ inner, (s.walk inner loans name scope none none).1 = .walked true lines none) ∧
    (scope.limit = none → (s.onRegistry loans name (.lines scope.source none)).1 = .lines lines ∧
      ∀ (μ : Type) (visitor : Visitor μ) (known : μ),
        s.showLines loans name scope visitor known =
          s.showLines loans name ⟨scope.source, some length⟩ visitor known) ∧
    (∀ (μ : Type) (visitor : Visitor μ) (known : μ), ∃ completed shown known' t,
      s.showLines loans name scope visitor known = .ok (completed, known', t) ∧
      s.showLines loans name scope visitor.recording ([], known) =
        .ok (completed, (shown, known'), t) ∧
      shown.map Prod.fst <+: lines ∧
      (completed = true → shown.map Prod.fst = lines) ∧
      (completed = false ↔ ∃ line, (line, false) ∈ shown) ∧
      ∀ line, (line, false) ∈ shown →
        ∃ before : List StickyLine, shown = before.map (·, true) ++ [(line, false)]) ∧
    (∀ (inner : Inner) (stopAfter : Option Nat) (script : Option (List Command)),
      ∃ completed shown w t,
        s.showLines loans name scope (visitLine inner (script.getD []) stopAfter).recording
          ([], ⟨[], []⟩) = .ok (completed, (shown, w), t) ∧
        s.walk inner loans name scope stopAfter script =
          (.walked completed (shown.map Prod.fst) (script.map fun _ => w.nested), t)) := by
  refine ⟨walk_of_nothing_declined hname hregistry hdocument hstore scope, ?_, ?_,
    walk_recording hname hregistry hdocument hstore scope⟩
  · intro hlimit
    obtain ⟨source, limit⟩ := scope
    cases hlimit
    refine ⟨lines_of_readable hname hregistry hdocument hstore source, ?_⟩
    intro μ visitor known
    unfold showLines
    rw [findLines_of_no_limit hname hstore]
  · intro μ visitor known
    obtain ⟨completed, shown, known', t, hplain, hrecorded, hshown⟩ :=
      showLines_recording hname hregistry hdocument hstore scope visitor known
    refine ⟨completed, shown, known', t, hplain, hrecorded, hshown.map_fst_isPrefix, ?_,
      hshown.completed_eq_false_iff, fun line => hshown.eq_append_of_declined⟩
    rintro rfl
    exact hshown.map_fst_of_completed

end Readable

/-- A document of two lines, both of them sticky. -/
def pages : Session :=
  (empty.steps maxLevels
    [.makeDocument "text" (.buffer (.ofText "a" ['x', 'y', '\n', 'z'])),
      .onManager "m" (.openDocument "text" (some "r")),
      .onRegistry "r" (.add "outline" 0 2 (some "first") none),
      .onRegistry "r" (.add "outline" 3 4 none none)]).2

-- cuts out the text, walks through what is left of the lines and closes the document
def tearing : List Command :=
  [.onDocument "text" (.delete 0 4), .walk "r" ⟨none, none⟩ none none, .onManager "m" (.close "a")]

/-- Both lines are shown as they were, though the text is gone after the first. -/
theorem torn_pages_shown :
    ∃ shared store, pages.registry? "r" = some (0, shared) ∧
      pages.cells.documents[shared.document]? = some store ∧
      ∃ shown w t,
        pages.showLines [] "r" ⟨none, none⟩ (visitLine (Command.run 3) tearing none).recording
          ([], ⟨[], []⟩) = .ok (true, (shown, w), t) ∧
        shown.map Prod.fst = shared.registry.query store none (RangeStore.documentLength store) ∧
        shown.map (fun entry => (entry.1.span, entry.1.label)) =
          [(⟨0, 2⟩, some "first"), (⟨3, 4⟩, none)] ∧
        t.cells.documents.map RangeStore.documentLength = [0] := by
  have hscene : (pages.registry? "r").map (fun found =>
      (found.1, found.2.document, pages.cells.documents[found.2.document]?.isSome)) =
        some (0, 0, true) := by
    decide +kernel
  have houtcome :
      (match pages.showLines [] "r" ⟨none, none⟩
          (visitLine (Command.run 3) tearing none).recording ([], ⟨[], []⟩) with
        | .ok (completed, (shown, _), t) =>
          some (completed,
            shown.map fun entry : StickyLine × Bool => (entry.1.span, entry.1.label),
            t.cells.documents.map RangeStore.documentLength)
        | .error _ => none) =
          some (true, [(⟨0, 2⟩, some "first"), (⟨3, 4⟩, none)], [0]) := by
    cbv
  obtain ⟨⟨r, shared⟩, hname, hshared⟩ := Option.map_eq_some_iff.1 hscene
  simp only [Prod.mk.injEq] at hshared
  obtain ⟨rfl, -, hsome⟩ := hshared
  obtain ⟨store, hstore⟩ := Option.isSome_iff_exists.1 hsome
  have hfree : ∀ place, Loans.permit [] place .read = true := fun _ => rfl
  obtain ⟨-, -, hvisitors, -⟩ :=
    walk_shows_snapshot hname (hfree _) (hfree _) hstore ⟨none, none⟩
  obtain ⟨completed, shown, w, t, -, hrecorded, -, hall, -, -⟩ :=
    hvisitors Walking (visitLine (Command.run 3) tearing none) ⟨[], []⟩
  rw [hrecorded] at houtcome
  simp only [Option.some.injEq, Prod.mk.injEq] at houtcome
  obtain ⟨rfl, hlines, hlength⟩ := houtcome
  exact ⟨shared, store, hname, hstore, shown, w, t, hrecorded, hall rfl, hlines, hlength⟩

end Session
end StickyScroll
