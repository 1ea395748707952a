import Licensing.Event
import Licensing.Failure

/-! # Reporting

A computation that notes events and may fail. What was noted before a failure stays noted.

* `Reporting` — such a computation.
* `Reporting.outcome` — its outcome and all events in order.
-/

namespace Licensing

/-- A computation that notes events and may fail. -/
abbrev Reporting := ExceptT Failure (StateM (List Event))

namespace Reporting

def note (event : Event) : Reporting Unit :=
  modify (· ++ [event])

def noteAll (events : List Event) : Reporting Unit :=
  modify (· ++ events)

/-- A result that needs no notes; its faults are wrapped. -/
def lift {ε α : Type} (wrap : ε → Failure) : Except ε α → Reporting α
  | .ok a => pure a
  | .error fault => throw (wrap fault)

def outcome {α : Type} (computation : Reporting α) : Except Failure α × List Event :=
  (ExceptT.run computation).run []

end Reporting

end Licensing
