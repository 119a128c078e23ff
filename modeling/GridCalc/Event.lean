/-!
# Events

What reading and evaluating a table report on the way. Warnings concern the text of the table; all
else tells how the evaluation went. Cells and regions are reported by name.
-/

set_option autoImplicit false

namespace GridCalc

inductive Event where
  | repeatAboveTable
  | cycle (name : String)
  | resuming (name : String)
  | cloned (name source kind : String)
  | countsAsZero (name kind region : String)
  deriving DecidableEq, Repr

namespace Event

def isWarning : Event → Bool
  | repeatAboveTable => true
  | _ => false

def message : Event → String
  | repeatAboveTable => "Row repeat directive used before the first row"
  | cycle name => s!"Cycle detected at {name}"
  | resuming name => s!"Resuming evaluation from {name}"
  | cloned name source kind => s!"{name} cloned {source} as {kind}"
  | countsAsZero name kind region => s!"{name} ({kind}) counts as 0 in {region}"

end Event

end GridCalc
