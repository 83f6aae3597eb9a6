-- Names of the containers that a benchmark makes. A sweep over what is left removes
-- everything that carries the mark, and nothing else.
import EngineBench.Text.Blank

namespace EngineBench.Name

/-- Every container of a benchmark has a name that starts with this mark. -/
def mark : String := "cb-ctr"

/-- The container of one iteration of one worker. -/
def ofIteration (thread iteration : Nat) : String :=
  mark ++ "-" ++ toString thread ++ "-" ++ toString iteration

/-- The container of the trial run before a bench. -/
def trial : String := mark ++ "-validate"

/-- The pod around a container. -/
def pod (container : String) : String := container ++ "-pod"

/-- Engines may list a name with slashes in front of it. -/
def isMarked (name : List Char) : Bool :=
  (Text.after mark.toList (name.dropWhile (· == '/'))).isSome

def isBenchmark (name : String) : Bool := isMarked name.toList

end EngineBench.Name
