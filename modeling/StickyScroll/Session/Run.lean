import StickyScroll.Session.Action

/-!
# Running commands

Commands that run further commands put a loan of their own before them, and hand on one level of
nesting less. A walk has the registry on loan for reading while its lines are visited, a
notification while its listeners are called, and a hold has the cell on loan that it was asked to
hold.
-/

namespace StickyScroll

abbrev Effect := Session → Answer × Session

namespace Session

/-! ## Commands inside commands -/

-- how commands one level further in are run: under some loans
abbrev Inner := Loans → Command → Effect

def runEach (run : Command → Effect) : List Command → Session → List Answer × Session
  | [], s => ([], s)
  | command :: rest, s =>
      let (answer, s) := run command s
      let (answers, s) := runEach run rest s
      (answer :: answers, s)

/-- Finds the lines of a registry that are in scope, if neither the registry nor its document is being
written, and reports how many there are. -/
def findLines (s : Session) (loans : Loans) (name : String) (scope : WalkScope) :
    Except Answer (RegistryRef × List StickyLine × Session) :=
  match s.registry? name with
  | none => .error .unknown
  | some (r, shared) =>
      if loans.permit (.registry r) .read && loans.permit (.document shared.document) .read then
        match s.cells.documents[shared.document]? with
        | none => .error .unknown
        | some store =>
            let limit := scope.limit.getD (RangeStore.documentLength store)
            let lines := shared.registry.query store scope.source limit
            let events :=
              shared.registry.queryEvents store scope.source limit ++
                [.queried scope.source limit lines.length]
            .ok (r, lines, s.report events)
      else .error .busy

/-- A visitor of lines, and what it knows. Under the loans that stand it may do anything to the
session, and it says whether it wants to see more. -/
abbrev Visitor (μ : Type) := Loans → StickyLine → μ × Session → Bool × μ × Session

/-- Shows the lines of a registry to a visitor. They are found before the first is visited, and the
registry is on loan for reading until the last one was. -/
def showLines {μ : Type} (s : Session) (loans : Loans) (name : String) (scope : WalkScope)
    (visitor : Visitor μ) (known : μ) : Except Answer (Bool × μ × Session) :=
  match s.findLines loans name scope with
  | .error answer => .error answer
  | .ok (r, lines, s) =>
      .ok (visitWhile (visitor (⟨.registry r, .read⟩ :: loans)) lines (known, s))

/-- What a walk has come to. -/
structure Walking where
  seen : List StickyLine
  nested : List (List Answer)

-- records a line, runs the script, and goes on until enough lines were seen
def visitLine (inner : Inner) (script : List Command) (stopAfter : Option Nat) : Visitor Walking :=
  fun loans line (w, s) =>
    let (answers, s) := runEach (inner loans) script s
    let seen := w.seen ++ [line]
    (wantsMore stopAfter seen.length, ⟨seen, w.nested ++ [answers]⟩, s)

-- walks through the lines of a registry, with the script for each of them
def walk (s : Session) (inner : Inner) (loans : Loans) (name : String) (scope : WalkScope)
    (stopAfter : Option Nat) (script : Option (List Command)) : Answer × Session :=
  match s.showLines loans name scope (visitLine inner (script.getD []) stopAfter) ⟨[], []⟩ with
  | .error answer => (answer, s)
  | .ok (completed, w, s) => (.walked completed w.seen (script.map fun _ => w.nested), s)

def call (run : Command → Effect) (r : RegistryRef) (l : ListenerRef) (s : Session) : Session :=
  match s.listeners[l]? with
  | none => s
  | some listener =>
      let s := s.note (.called r l listener.name)
      match listener.script with
      | none => s
      | some script =>
          let (answers, s) := runEach run script s
          s.note (.replied listener.name answers)

def callEach (run : Command → Effect) (r : RegistryRef) : List ListenerRef → Session → Session
  | [], s => s
  | l :: rest, s => callEach run r rest (call run r l s)

def modifyListeners (s : Session) (r : RegistryRef)
    (change : Listeners ListenerRef → Listeners ListenerRef) : Session :=
  s.modifyRegistry r fun registry => { registry with listeners := change registry.listeners }

-- calls the listeners of a registry, which is on loan for reading meanwhile
def notify (s : Session) (inner : Inner) (loans : Loans) (name : String) : Answer × Session :=
  match s.registry? name with
  | none => (.unknown, s)
  | some (r, shared) =>
      if loans.permit (.registry r) .read then
        let registrations := shared.registry.listeners.registrations
        let s := (s.note (.notifying r)).modifyListeners r (·.begin)
        let s := callEach (inner (⟨.registry r, .read⟩ :: loans)) r registrations s
        let s := (s.modifyListeners r (·.finish registrations.length)).note (.notified r)
        (.nothing, s.report [.listenersNotified registrations.length])
      else (.busy, s)

def hold (s : Session) (inner : Inner) (loans : Loans) (cell : CellName) (access : Access)
    (commands : List Command) : Answer × Session :=
  match s.place? cell with
  | none => (.unknown, s)
  | some place =>
      if loans.permit place access then
        let (answers, s) := runEach (inner (⟨place, access⟩ :: loans)) commands s
        (.several answers, s)
      else (.busy, s)

end Session

-- runs a command, given how commands one level further in are run
def Command.exec (inner : Session.Inner) (loans : Loans) (command : Command) : Effect := fun s =>
  match command with
  | makeDocument name document => s.makeDocument name document
  | onDocument name action => s.onDocument loans name action
  | onManager name action => s.onManager loans name action
  | onRegistry name action => s.onRegistry loans name action
  | onLines action => s.onLines action
  | walk registry scope stopAfter script => s.walk inner loans registry scope stopAfter script
  | notify registry => s.notify inner loans registry
  | makeListener name script => s.makeListener name script
  | hold cell access commands => s.hold inner loans cell access commands

/-- Runs a command that may nest `levels` deep; with no levels left it is too deep. -/
def Command.run : (levels : Nat) → Loans → Command → Effect
  | 0 => fun _ _ s => (.tooDeep, s)
  | levels + 1 => Command.exec (Command.run levels)

namespace Session

-- how many levels of commands there may be, the outermost included
def maxLevels : Nat := 4

/-- What comes of one outermost command: its answer, and what was noted meanwhile. -/
structure Step where
  answer : Answer
  notes : List Note

def Step.log (step : Step) : List LogEntry := step.notes.filterMap Note.logEntry?

-- the events, in the order in which they were reported
def Step.events (step : Step) : List Event := step.notes.filterMap Note.event?

-- runs one outermost command, with an empty journal and nothing on loan
def step (levels : Nat) (s : Session) (command : Command) : Step × Session :=
  let (answer, s) := command.run levels [] { s with journal := [] }
  (⟨answer, s.journal⟩, s)

def steps (levels : Nat) (s : Session) : List Command → List Step × Session
  | [] => ([], s)
  | command :: rest =>
      let (step, s) := s.step levels command
      let (more, s) := s.steps levels rest
      (step :: more, s)

end Session
end StickyScroll
