import Formwork.LiveSession

/-!
Replaying edits in a live session: the edits are made one after another with a pause between them, and
then the session comes to rest.
-/

namespace Formwork.Cli

/-- An edit of a field. -/
abbrev Edit := String × String

namespace Replay

def listener : Listener := { name := "replay" }

def makeEdit (l : LiveSession) (e : Edit) : Except Fault LiveSession :=
  match l.edit e.1 (.text e.2) with
  | (l, .ok _) => .ok l
  | (_, .error why) => .error why

def pauseAndEdit (fuel pause : Nat) (l : LiveSession) (e : Edit) : Except Fault LiveSession :=
  makeEdit (if pause = 0 then l else l.waitOut fuel (.sleep (pause * 1000))) e

def makeEdits (fuel pause : Nat) (l : LiveSession) : List Edit → Except Fault LiveSession
  | [] => .ok l
  | e :: es => do es.foldlM (pauseAndEdit fuel pause) (← makeEdit l e)

/-- Enough for the turns of every task of every edit. -/
def fuelFor (l : LiveSession) (edits : List Edit) : Nat :=
  100 * (edits.length + 1) * (l.session.slots.length + 1)

/-- The session after some edits, at rest and closed. -/
def run (l : LiveSession) (edits : List Edit) (pause : Nat) : Except Fault LiveSession := do
  let fuel := fuelFor l edits
  let l ← makeEdits fuel pause (l.addListener listener) edits
  return (l.waitOut fuel .idle).waitOut fuel .close

/-- The states in which a field was shown to be evaluated. -/
def requests (l : LiveSession) : List FieldState :=
  l.sightings.filterMap fun s => match s with
    | .shown _ _ state => if state.phase = .pending then some state else none
    | .mark _ => none

def requestValue (s : FieldState) : Value := .record [("field", .text s.field.id), ("value", s.value)]

/-- The fields that were edited, in the order of their first edits. -/
def edited (edits : List Edit) : List String :=
  edits.foldl (fun ids e => if ids.contains e.1 then ids else ids ++ [e.1]) []

def report (l : LiveSession) (edits : List Edit) : Value :=
  .record [("mode", .text l.session.mode.name),
    ("advisoryRequests", .list ((requests l).map requestValue)),
    ("fields", .list ((edited edits).filterMap fun id =>
      (l.session.slot? id).map fun slot => slot.state.toValue))]

end Replay
end Formwork.Cli
