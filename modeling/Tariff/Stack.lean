/-!
# The call stack

Calls can be nested only so deep. A function whose name ends in `Within` is told how many levels are
left to it, its own call among them, and comes to a halt where it would need more. The same function
without a limit is the one on a stack that is high enough.
-/

namespace Tariff

/-- How many levels are left where nothing else is said. There are a thousand of them, and whoever
starts a computation stands on some. -/
def defaultLevels : Nat := 980

/-- Why a computation on a stack of limited height has no result. -/
inductive Halt (ε : Type) where
  /-- It has failed. -/
  | fault (fault : ε)
  /-- It needs more levels than are left. -/
  | stack
  deriving DecidableEq, Repr

/-- The words for a stack that has no level left. -/
def stackMessage : String :=
  "maximum recursion depth exceeded"

/-- The halt of a part as the halt of the whole. -/
def Halt.map {ε δ : Type} (f : ε → δ) : Halt ε → Halt δ
  | fault e => fault (f e)
  | stack => stack

end Tariff
