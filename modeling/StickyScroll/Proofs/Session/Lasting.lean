import StickyScroll.Proofs.Session.Wiring

/-!
# What lasts while commands run

Commands run commands, to any depth. A relation between sessions that single actions and
notifications keep, and that does not depend on the further loans of the commands inside, holds
between the sessions before and after any command: the induction over nested scripts is done here,
once.
-/

namespace StickyScroll.Session

/-- A relation between the sessions before and after some commands that were run under given
loans. -/
abbrev Relation := Loans → Session → Session → Prop

-- how commands one level further in are run keeps a relation
def Inner.Keeps (inner : Inner) (p : Relation) : Prop :=
  ∀ loans command s, p loans s (inner loans command s).2

/-- The relation holds through every command if it holds through the commands inside. -/
structure Lasting (p : Relation) : Prop where
  refl : ∀ loans s, p loans s s
  trans : ∀ {loans s t u}, p loans s t → p loans t u → p loans s u
  -- what was kept under one more loan is kept without it
  unloan : ∀ {loan loans s t}, p (loan :: loans) s t → p loans s t
  step : ∀ {loans} {s t : Session}, s.wiring.Step loans t.wiring → p loans s t
  notify : ∀ {inner : Inner} {loans : Loans} {s : Session} {name : String} {r : RegistryRef}
    {shared : SharedRegistry}, inner.Keeps p → s.registry? name = some (r, shared) →
      loans.permit (.registry r) .read = true →
        p (⟨.registry r, .read⟩ :: loans) s (s.notify inner loans name).2

-- what each command of a script keeps, the script keeps
theorem runEach_keeps {q : Session → Session → Prop} (hrefl : ∀ s, q s s)
    (htrans : ∀ {s t u}, q s t → q t u → q s u) {run : Command → Effect}
    (hrun : ∀ command s, q s (run command s).2) (script : List Command) (s : Session) :
    q s (runEach run script s).2 := by
  induction script generalizing s with
  | nil => exact hrefl s
  | cons command rest ih => exact htrans (hrun command s) (ih _)

variable {p : Relation} {inner : Inner}

theorem Lasting.runEach (hp : Lasting p) (hinner : inner.Keeps p) (loans : Loans)
    (script : List Command) (s : Session) : p loans s (runEach (inner loans) script s).2 :=
  runEach_keeps (hp.refl loans) hp.trans (hinner loans) script s

/-! ## Walks -/

-- finding lines reports, and does no more
theorem report_of_findLines {s t : Session} {loans : Loans} {name : String} {scope : WalkScope}
    {r : RegistryRef} {lines : List StickyLine}
    (h : s.findLines loans name scope = .ok (r, lines, t)) :
    ∃ shared events, s.registry? name = some (r, shared) ∧ t = s.report events := by
  unfold findLines at h
  split at h
  next => cases h
  next r shared hname =>
    split at h
    next =>
      split at h
      next => cases h
      next =>
        cases h
        exact ⟨shared, _, hname, rfl⟩
    next => cases h

-- the lines that are shown were found before, and the session is changed by the visitor only
theorem showLines_cases {μ : Type} (s : Session) (loans : Loans) (name : String)
    (scope : WalkScope) (visitor : Visitor μ) (known : μ) :
    (∃ refusal, s.showLines loans name scope visitor known = .error refusal) ∨
      ∃ r shared lines events, s.registry? name = some (r, shared) ∧
        s.showLines loans name scope visitor known =
          .ok (visitWhile (visitor (⟨.registry r, .read⟩ :: loans)) lines
            (known, s.report events)) := by
  unfold showLines
  split
  next => exact Or.inl ⟨_, rfl⟩
  next r lines t hfound =>
    obtain ⟨shared, events, hname, rfl⟩ := report_of_findLines hfound
    exact Or.inr ⟨r, shared, lines, events, hname, rfl⟩

theorem Lasting.visits (hp : Lasting p) {μ : Type} {loans : Loans}
    {visit : StickyLine → μ × Session → Bool × μ × Session}
    (hvisit : ∀ line known s, p loans s (visit line (known, s)).2.2) (lines : List StickyLine)
    (known : μ) (s : Session) : p loans s (visitWhile visit lines (known, s)).2.2 := by
  apply visitWhile_invariant (p := fun seen : μ × Session => p loans s seen.2)
  · rintro line - ⟨known, t⟩ ht
    exact hp.trans ht (hvisit line known t)
  · exact hp.refl loans s

theorem Lasting.walk (hp : Lasting p) (hinner : inner.Keeps p) {loans : Loans} {s : Session}
    {name : String} {r : RegistryRef} {shared : SharedRegistry}
    (hname : s.registry? name = some (r, shared)) (scope : WalkScope) (stopAfter : Option Nat)
    (script : Option (List Command)) :
    p (⟨.registry r, .read⟩ :: loans) s (s.walk inner loans name scope stopAfter script).2 := by
  unfold Session.walk
  rcases s.showLines_cases loans name scope (visitLine inner (script.getD []) stopAfter) ⟨[], []⟩
    with ⟨refusal, heq⟩ | ⟨q, shared', lines, events, hname', heq⟩
  · rw [heq]
    exact hp.refl _ s
  · cases hname.symm.trans hname'
    rw [heq]
    refine hp.trans (hp.step (t := s.report events) (.aside events)) ?_
    exact hp.visits (fun line _ t => hp.runEach hinner _ _ t) lines _ _

/-! ## Commands -/

theorem Lasting.hold (hp : Lasting p) (hinner : inner.Keeps p) (loans : Loans) (s : Session)
    (cell : CellName) (access : Access) (commands : List Command) :
    p loans s (s.hold inner loans cell access commands).2 := by
  unfold Session.hold
  split
  next => exact hp.refl loans s
  next =>
    split
    next => exact hp.unloan (hp.runEach hinner _ commands s)
    next => exact hp.refl loans s

theorem notify_of_none {s : Session} {name : String} (hname : s.registry? name = none)
    (inner : Inner) (loans : Loans) : s.notify inner loans name = (.unknown, s) := by
  unfold Session.notify
  rw [hname]

theorem notify_of_busy {s : Session} {name : String} {r : RegistryRef} {shared : SharedRegistry}
    (hname : s.registry? name = some (r, shared)) {loans : Loans}
    (hbusy : loans.permit (.registry r) .read = false) (inner : Inner) :
    s.notify inner loans name = (.busy, s) := by
  unfold Session.notify
  rw [hname]
  exact if_neg (Bool.eq_false_iff.1 hbusy)

theorem Lasting.exec (hp : Lasting p) (hinner : inner.Keeps p) (loans : Loans) (command : Command)
    (s : Session) : p loans s (command.exec inner loans s).2 := by
  cases command with
  | makeDocument name document => exact hp.step (.refl loans _)
  | onDocument name action => exact hp.step (s.step_onDocument loans name action)
  | onManager name action => exact hp.step (s.step_onManager loans name action)
  | onRegistry name action => exact hp.step (s.step_onRegistry loans name action)
  | onLines action => exact hp.step (s.step_onLines loans action)
  | walk name scope stopAfter script =>
    cases hname : s.registry? name with
    | some found => exact hp.unloan (hp.walk hinner hname scope stopAfter script)
    | none =>
      have hsame : s.walk inner loans name scope stopAfter script = (.unknown, s) := by
        unfold Session.walk showLines findLines
        rw [hname]
      show p loans s (s.walk inner loans name scope stopAfter script).2
      rw [hsame]
      exact hp.refl loans s
  | notify name =>
    show p loans s (s.notify inner loans name).2
    cases hname : s.registry? name with
    | some found =>
      cases hpermit : loans.permit (.registry found.1) .read with
      | true => exact hp.unloan (hp.notify hinner hname hpermit)
      | false =>
        rw [notify_of_busy hname hpermit]
        exact hp.refl loans s
    | none =>
      rw [notify_of_none hname]
      exact hp.refl loans s
  | makeListener name script => exact hp.step (.makes name script)
  | hold cell access commands => exact hp.hold hinner loans s cell access commands

/-- A relation that lasts holds through every command, however deep it nests. -/
theorem Lasting.run (hp : Lasting p) (levels : Nat) : Inner.Keeps (Command.run levels) p := by
  induction levels with
  | zero => exact fun loans command s => hp.refl loans s
  | succ levels ih => exact fun loans command s => hp.exec ih loans command s

end StickyScroll.Session
