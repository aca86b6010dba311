import StickyScroll.Session.Command
import StickyScroll.Json.Token

/-!
# Answers

What a session answers to a command, and what it notes in its journal meanwhile.
-/

namespace StickyScroll

/-- The answer to a command. -/
inductive Answer where
  | nothing
  | flag (b : Bool)
  | number (n : Nat)
  | numbers (ns : List Nat)
  | text (s : String)
  | handle (h : Handle)
  | anchor (a : Anchor)
  | line (line : StickyLine)
  | lines (lines : List StickyLine)
  -- the length of a document and its anchors
  | dump (length : Nat) (anchors : List Anchor)
  -- whether all anchors in reach were met, and those that were
  | met (completed : Bool) (anchors : List Anchor)
  -- whether all lines in scope were visited, those that were, and the answers of the script to each
  -- of them if there was a script
  | walked (completed : Bool) (seen : List StickyLine) (nested : Option (List (List Answer)))
  | bufferSize (id : String) (bytes : Nat) (anchors : Nat)
  | registrySize (id : String) (lines : Nat)
  -- a registry, by the names that already led to it
  | sharedWith (names : List String)
  | documents (ids : List String)
  -- registrations, notifications begun, and calls finished
  | stats (registrations sent calls : Nat)
  -- how two lines compare
  | comparison (same : Bool) (order : Ordering) (lt le : Bool)
  -- the answers of commands that were run one after the other
  | several (answers : List Answer)
  | refused (fault : Fault)
  -- the text to read a line from is not a line
  | unreadable (defect : Json.Defect)
  -- a cell that the command needs is on loan
  | busy
  -- the command is nested too deeply
  | tooDeep
  -- a name that nothing was ever called by, or an action that its target does not have
  | unknown

/-- An entry of the journal of a session. -/
inductive Note where
  | event (e : Event)
  -- a listener is registered with a registry, or a registration of it is taken back
  | listened (registry : RegistryRef) (listener : ListenerRef)
  | unlistened (registry : RegistryRef) (listener : ListenerRef)
  -- a notification of a registry's listeners begins, or is at an end
  | notifying (registry : RegistryRef)
  | notified (registry : RegistryRef)
  -- a listener is called on behalf of a registry
  | called (registry : RegistryRef) (listener : ListenerRef) (name : String)
  -- a listener's script is at an end
  | replied (name : String) (answers : List Answer)

def Note.event? : Note → Option Event
  | .event e => some e
  | _ => none

/-- What the log of listeners shows: a call, by the listener's name, or the answers that its script
got. -/
inductive LogEntry where
  | called (name : String)
  | replied (name : String) (answers : List Answer)

def Note.logEntry? : Note → Option LogEntry
  | .called _ _ name => some (.called name)
  | .replied name answers => some (.replied name answers)
  | _ => none

end StickyScroll
