import GuestBoundary.Script.Reading.Commands
import GuestBoundary.Script.Writing.Reports

/-!
# Scripts as documents

A script is a JSON object: `steps` lists its commands, the other members say how the run is set up.
Its answer is the transcript of the run, or what is wrong with the configuration.
-/

namespace GuestBoundary.Script

/-- The answer to a script; none if it cannot be read or makes no sense. -/
def answer? (j : Json) : Option Json := do
  let commands ← Reading.commands? j
  match Reading.setup j with
  | .error e => return Writing.configError e
  | .ok setup => Writing.transcript? (run setup commands)

end GuestBoundary.Script
