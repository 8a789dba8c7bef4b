import GuestBoundary.Interface.Operand

/-!
# Monitors of objects

Native code enters and exits the monitor of an object.  A thread that has to wait for another one
waits forever, since the other one does not run.
-/

namespace GuestBoundary.Interface

open Entry

variable {H : Type}

/-- Enters the monitor of an object. -/
def monitorEnter (h : Handle) : Entry H Unit := do
  let o ← require h "object"
  let w ← Action.world
  match (w.object o).monitor.enter? w.thread.id with
  | some monitor => Action.update fun w => w.setObject o { w.object o with monitor }
  | none => Action.halt (.deadlock (.monitor o))

/-- Exits the monitor of an object. -/
def monitorExit (h : Handle) : Entry H Unit := do
  let o ← require h "object"
  let w ← Action.world
  match (w.object o).monitor.exit? w.thread.id with
  | some monitor => Action.update fun w => w.setObject o { w.object o with monitor }
  | none =>
    fault .illegalMonitorState (Monitor.notOwnerMessage ++ " of " ++ w.dottedName o)

end GuestBoundary.Interface
