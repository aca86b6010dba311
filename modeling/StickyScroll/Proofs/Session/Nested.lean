import StickyScroll.Session.Run

/-!
# Commands inside commands

A session runs outermost commands one after the other, and inside them the commands of their
scripts, to any depth. `Running` is a command with the session in which it is run; `Happens` says
that it is come to in the course of a session, in the middle of whatever is going on.
-/

namespace StickyScroll.Session

/-- A command that is run: how many levels it may have, under which loans, and in which session. -/
structure Running where
  levels : Nat
  loans : Loans
  command : Command
  session : Session

namespace Running

def answer (c : Running) : Answer := (c.command.run c.levels c.loans c.session).1

def after (c : Running) : Session := (c.command.run c.levels c.loans c.session).2

-- a command of a script, run after those that come before it
def ofScript (levels : Nat) (loans : Loans) (before : List Command) (command : Command)
    (s : Session) : Running :=
  ⟨levels, loans, command, (runEach (Command.run levels loans) before s).2⟩

/-- The commands that a command runs one level further in: in a script that is run while a cell is
held, for a line that is visited, or by a listener that is called. -/
inductive Inside : Running → Running → Prop where
  | held {levels : Nat} {loans : Loans} {s : Session} {cell : CellName} {access : Access}
      {place : Place} {before after : List Command} {command : Command}
      (hplace : s.place? cell = some place) (hpermit : loans.permit place access = true) :
      Inside ⟨levels + 1, loans, .hold cell access (before ++ command :: after), s⟩
        (ofScript levels (⟨place, access⟩ :: loans) before command s)
  -- the lines before were visited, and more are wanted
  | visiting {levels : Nat} {loans : Loans} {s t u : Session} {name : String} {scope : WalkScope}
      {stopAfter : Option Nat} {r : RegistryRef} {visited rest : List StickyLine} {line : StickyLine}
      {w : Walking} {before after : List Command} {command : Command}
      (hfound : s.findLines loans name scope = .ok (r, visited ++ line :: rest, t))
      (hvisited : visitWhile
        (visitLine (Command.run levels) (before ++ command :: after) stopAfter
          (⟨.registry r, .read⟩ :: loans)) visited (⟨[], []⟩, t) = (true, w, u)) :
      Inside ⟨levels + 1, loans, .walk name scope stopAfter (some (before ++ command :: after)), s⟩
        (ofScript levels (⟨.registry r, .read⟩ :: loans) before command u)
  -- the listeners before were called
  | listening {levels : Nat} {loans : Loans} {s t : Session} {name listener : String}
      {r : RegistryRef} {shared : SharedRegistry} {called waiting : List ListenerRef}
      {l : ListenerRef} {before after : List Command} {command : Command}
      (hname : s.registry? name = some (r, shared))
      (hpermit : loans.permit (.registry r) .read = true)
      (hregistrations : shared.registry.listeners.registrations = called ++ l :: waiting)
      (hcalled : callEach (Command.run levels (⟨.registry r, .read⟩ :: loans)) r called
        ((s.note (.notifying r)).modifyListeners r (·.begin)) = t)
      (hlistener : t.listeners[l]? = some ⟨listener, some (before ++ command :: after)⟩) :
      Inside ⟨levels + 1, loans, .notify name, s⟩
        (ofScript levels (⟨.registry r, .read⟩ :: loans) before command
          (t.note (.called r l listener)))

-- inside a command a cell is on loan
theorem Inside.loans_ne_nil {c d : Running} (h : c.Inside d) : d.loans ≠ [] := by
  cases h <;> exact List.cons_ne_nil _ _

end Running

/-- After the outermost commands `earlier`, a command is run: one more outermost command, or a
command inside one that is run. -/
inductive Happens (levels : Nat) (earlier : List Command) : Running → Prop where
  | outermost (command : Command) :
      Happens levels earlier
        ⟨levels, [], command, { (empty.steps levels earlier).2 with journal := [] }⟩
  | inside {c d : Running} (hc : Happens levels earlier c) (h : c.Inside d) :
      Happens levels earlier d

/-- All that was noted while the outermost commands `earlier` were run. -/
def notesOf (levels : Nat) (earlier : List Command) : List Note :=
  (empty.steps levels earlier).1.flatMap (·.notes)

end StickyScroll.Session
