import StickyScroll.Session.State
import StickyScroll.Visit
import StickyScroll.Inspect
import StickyScroll.Json.Snapshot

/-!
# Actions

What the commands do that run no further commands: they act on a document, a manager, a registry,
on sticky lines, or make a listener. Each gets an answer and may change the session. An action that
finds a cell on loan in conflict with what it needs answers that it is busy, and changes nothing.
-/

namespace StickyScroll

/-! ## Documents -/

namespace DocumentAction

-- edits and changes of anchors write the document; everything else reads it
def access : DocumentAction → Access
  | insert .. | delete .. | replace .. | create .. | drop .. | place .. => .write
  | _ => .read

def dumpOf {σ : Type} [RangeStore σ] (d : σ) : Answer :=
  .dump (RangeStore.documentLength d) (RangeStore.allAnchors d)

-- the answer to an edit: a dump of what became of the document, or the fault
def ofEdit (e : Edit) : Answer × Document × List Event :=
  match e.result with
  | .ok () => (dumpOf e.buffer, .buffer e.buffer, e.events)
  | .error fault => (.refused fault, .buffer e.buffer, e.events)

-- records an anchor, and goes on until enough were recorded
def record (stopAfter : Option Nat) (a : Anchor) (seen : List Anchor) : Bool × List Anchor :=
  (wantsMore stopAfter (seen.length + 1), seen ++ [a])

/-- The answer to an action, what becomes of the document, and what is reported. Only buffers can be
edited, and only scripted stores have spans set. -/
def run (action : DocumentAction) (d : Document) : Answer × Document × List Event :=
  match action, d with
  | insert offset piece, .buffer b => ofEdit (b.insert offset piece)
  | delete start stop, .buffer b => ofEdit (b.delete start stop)
  | replace start stop piece, .buffer b => ofEdit (b.replace start stop piece)
  | create marker start stop, d =>
      match RangeStore.create d marker start stop with
      | (.ok h, d) => (.handle h, d, [])
      | (.error fault, d) => (.refused fault, d, [])
  | drop handle, d =>
      let (found, d) := RangeStore.delete d handle
      (.flag found, d, [])
  | place handle span, .scripted s =>
      let (found, s) := s.place handle span
      (.flag found, .scripted s, [])
  | dump, d => (dumpOf d, d, [])
  | text, .buffer b => (.text (String.ofList b.text), d, [])
  | size, .buffer b => (.bufferSize b.id b.length b.anchors.length, d, [])
  | lineOf offset, d => (.number (RangeStore.lineOf d offset), d, [])
  | lineMap, d =>
      (.numbers ((List.range (RangeStore.documentLength d + 2)).map (RangeStore.lineOf d)), d, [])
  | anchorOf handle, d =>
      match RangeStore.anchorOf? d handle with
      | some a => (.anchor a, d, [])
      | none => (.nothing, d, [])
  | overlapping start stop stopAfter, d =>
      let (completed, seen) :=
        visitWhile (record stopAfter) (RangeStore.overlapping d start stop) []
      (.met completed seen, d, [])
  | _, d => (.unknown, d, [])

end DocumentAction

namespace Session

def makeDocument (s : Session) (name : String) (document : Document) : Answer × Session :=
  let (d, cells) := s.cells.addDocument document
  (DocumentAction.dumpOf document,
    { s with cells := cells, documentNames := s.documentNames.insert name d })

def onDocument (s : Session) (loans : Loans) (name : String) (action : DocumentAction) :
    Answer × Session :=
  match s.document? name with
  | none => (.unknown, s)
  | some (d, document) =>
      if loans.permit (.document d) action.access then
        let (answer, document, events) := action.run document
        (answer, (s.setDocument d document).report events)
      else (.busy, s)

/-! ## Managers -/

/-- Hands out a registry: tells the names that already lead to it, and gives it a new one. -/
def handOut (s : Session) (storeAs : Option String) (r : RegistryRef) : Answer × Session :=
  (.sharedWith (s.namesOf r), s.keepRegistry storeAs r)

def onManager (s : Session) (loans : Loans) (name : String) (action : ManagerAction) :
    Answer × Session :=
  let m := s.manager name
  match action with
  | .make maxDocuments =>
      let limit := maxDocuments.getD Manager.defaultLimit
      (.number limit, { s with managers := s.managers.insert name (.ofLimit limit) })
  | .openDocument document storeAs =>
      match s.document? document with
      | none => (.unknown, s)
      | some (d, store) =>
          if loans.permit (.document d) .read then
            let opened := m.openDocument s.cells loans d store
            let s' :=
              { s with
                cells := opened.cells
                managers := s.managers.insert name opened.manager }
            match opened.result with
            | .error fault => (.refused fault, s'.report opened.events)
            | .ok r => (s'.report opened.events).handOut storeAs r
          else (.busy, s)
  | .get id storeAs =>
      match m.get? id with
      | none => (.nothing, s)
      | some r => s.handOut storeAs r
  | .close id =>
      let closed := m.close s.cells loans id
      (.flag closed.found,
        { s with
          cells := closed.cells
          managers := s.managers.insert name closed.manager }.report closed.events)
  | .documents => (.documents m.documentIds, s)
  | .inspect => (.text m.inspect, s)

end Session

/-! ## Registries -/

namespace RegistryAction

/-- Changes of the records, the listeners or the first update write the registry. -/
def access : RegistryAction → Access
  | add .. | remove .. | removeFrom .. | prune | takeFirstUpdate | listen .. | unlisten .. => .write
  | _ => .read

def storeAccess : RegistryAction → Option Access
  | add .. | remove .. | removeFrom .. => some .write
  | prune | lines .. | sourceOf .. | resolve .. | size => some .read
  | takeFirstUpdate | uses .. | listen .. | unlisten .. | stats | inspect => none

-- a line without text is refused before the store is looked at
def early? : RegistryAction → Option Fault
  | add _ start stop .. => if stop ≤ start then some (.invalidRange start stop) else none
  | _ => none

end RegistryAction

namespace Session

-- puts back what an operation left of a registry and its store
def settle {α : Type} (s : Session) (r : RegistryRef) (d : DocumentRef)
    (o : Outcome ListenerRef Document α) : Session :=
  ({ s with cells := s.cells.settle r d (o.registry, o.store) } : Session).report o.events

/-- Acts on the registry in cell `r`, made for the document in cell `shared.document`, which has the
contents `store`. -/
def actOnRegistry (s : Session) (loans : Loans) (r : RegistryRef) (shared : SharedRegistry)
    (store : Document) (action : RegistryAction) : Answer × Session :=
  let registry := shared.registry
  let d := shared.document
  match action with
  | .add source start stop label storeAs =>
      let o := registry.add store source start stop label
      match o.value with
      | .error fault => (.refused fault, s.settle r d o)
      | .ok line => (.line line, (s.settle r d o).keepLine storeAs line)
  | .remove name =>
      match s.lines.find? name with
      | none => (.unknown, s)
      | some line =>
          let o := registry.remove store line
          match o.value with
          | .error fault => (.refused fault, s.settle r d o)
          | .ok () => (.nothing, s.settle r d o)
  | .removeFrom source =>
      let o := registry.removeFrom store source
      (.number o.value, s.settle r d o)
  | .prune =>
      (.number (registry.staleCount store),
        (s.modifyRegistry r fun _ => registry.prune store).report (registry.pruneEvents store))
  | .takeFirstUpdate =>
      (.flag registry.takeFirstUpdate.1, s.modifyRegistry r fun _ => registry.takeFirstUpdate.2)
  | .lines source storeAs =>
      let lines := registry.lines store source
      (.lines lines,
        (s.report
          (registry.queryEvents store source (RangeStore.documentLength store))).keepLines
            storeAs lines)
  | .sourceOf name =>
      match s.lines.find? name with
      | none => (.unknown, s)
      | some line => (((registry.sourceOf? store line).map Answer.text).getD .nothing, s)
  | .resolve name storeAs =>
      match s.lines.find? name with
      | none => (.unknown, s)
      | some line =>
          match Registry.resolve? store line with
          | none => (.nothing, s)
          | some fresh => (.line fresh, s.keepLine storeAs fresh)
  | .size => (.registrySize (RangeStore.documentId store) (registry.size store), s)
  | .uses name =>
      match s.documentNames.find? name with
      | none => (.unknown, s)
      | some other => (.flag (other == d), s)
  | .listen name =>
      match s.listenerNames.find? name with
      | none => (.unknown, s)
      | some l =>
          (.nothing,
            (s.modifyRegistry r fun _ =>
              { registry with listeners := registry.listeners.add l }).note (.listened r l))
  | .unlisten name =>
      match s.listenerNames.find? name with
      | none => (.unknown, s)
      | some l =>
          let (found, listeners) := registry.listeners.remove l
          let s := s.modifyRegistry r fun _ => { registry with listeners := listeners }
          (.flag found, if found then s.note (.unlistened r l) else s)
  | .stats =>
      (.stats registry.listeners.count registry.listeners.sent registry.listeners.calls, s)
  | .inspect =>
      let document :=
        if loans.permit (.document d) .read then some (RangeStore.documentId store) else none
      (.text (registry.inspect document), s)

-- acts on a registry, unless it or the store is on loan
def onRegistry (s : Session) (loans : Loans) (name : String) (action : RegistryAction) :
    Answer × Session :=
  match s.registry? name with
  | none => (.unknown, s)
  | some (r, shared) =>
      if loans.permit (.registry r) action.access then
        match action.early?, s.cells.documents[shared.document]? with
        | some fault, _ => (.refused fault, s)
        | none, none => (.unknown, s)
        | none, some store =>
            if action.storeAccess.all (loans.permit (.document shared.document)) then
              s.actOnRegistry loans r shared store action
            else (.busy, s)
      else (.busy, s)

/-! ## Lines -/

def aboutLine (s : Session) (name : String) (answer : StickyLine → Answer) : Answer :=
  ((s.lines.find? name).map answer).getD .unknown

def aboutLines (s : Session) (names : List String) (answer : List StickyLine → Answer) : Answer :=
  ((s.lines? names).map answer).getD .unknown

-- Acts on sticky lines. Only reading one from text changes the session.
def onLines (s : Session) (action : LineAction) : Answer × Session :=
  match action with
  | .forge storeAs json =>
      match StickyLine.decode json with
      | .error defect => (.unreadable defect, s)
      | .ok line => (.line line, s.keepLine (some storeAs) line)
  | .display name => (s.aboutLine name .line, s)
  | .encode name => (s.aboutLine name fun line => .text line.encode, s)
  | .inspect name => (s.aboutLine name fun line => .text line.inspect, s)
  | .compare a b =>
      match s.lines.find? a, s.lines.find? b with
      | some a, some b => (.comparison (a.same b) (a.compare b) (a.lt b) (a.le b), s)
      | _, _ => (.unknown, s)
  | .sort names => (s.aboutLines names fun lines => .lines (StickyLine.sort lines), s)
  | .distinct names =>
      (s.aboutLines names fun lines => .number (StickyLine.distinct lines).length, s)

/-! ## Listeners -/

def makeListener (s : Session) (name : String) (script : Option (List Command)) :
    Answer × Session :=
  (.nothing,
    { s with
      listeners := s.listeners ++ [⟨name, script⟩]
      listenerNames := s.listenerNames.insert name s.listeners.length })

end Session
end StickyScroll
