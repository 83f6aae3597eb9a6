-- Lists of containers as runtimes print them, and the sweep that removes what a benchmark has
-- left behind.
import EngineBench.Engine.Command
import EngineBench.Text.Lowercase

namespace EngineBench

/-- A container of a benchmark in a list. -/
structure ListedContainer where
  name : String
  state : String
  deriving DecidableEq, Repr

namespace ListedContainer

/-- Reads one line: name, process and state stand in front, and at least one column follows. -/
def ofLine? (line : List Char) : Option ListedContainer :=
  if (Text.after "ID ".toList line).isSome then none
  else
    match Text.columns line with
    | name :: _ :: state :: _ :: _ =>
      if Name.isMarked name then
        some ⟨String.ofList name, String.ofList (Text.lowercase state)⟩
      else none
    | _ => none

def ofText (output : String) : List ListedContainer :=
  (Text.lines output.toList).filterMap ofLine?

end ListedContainer

/-- What a runtime can do to a container in a list. -/
structure Removal where
  list : Work String
  stop : String → Work String
  remove : String → Work String
  unpause : String → Work String

namespace Removal

/-- Removes one container as its state asks for; an unknown state is left alone. Failures are
expected of half removed containers and change nothing. -/
def tearDown (r : Removal) (c : ListedContainer) : Work Unit := do
  if c.state == "running" || c.state == "created" then
    (r.stop c.name).ignore
    Work.settle
    (r.remove c.name).ignore
  else if c.state == "paused" then
    (r.unpause c.name).ignore
    (r.stop c.name).ignore
    Work.settle
    (r.remove c.name).ignore
  else if c.state == "stopped" then
    (r.remove c.name).ignore

/-- Removes what is listed and lists again, as long as something is listed and passes are left. -/
def passes (r : Removal) : Nat → List ListedContainer → Work Unit
  | 0, _ => return ()
  | _ + 1, [] => return ()
  | n + 1, c :: rest => do
    (c :: rest).forM r.tearDown
    passes r n (ListedContainer.ofText (← r.list))

def passLimit : Nat := 3

def clean (r : Removal) : Work Unit := do
  r.passes passLimit (ListedContainer.ofText (← r.list))

end Removal

end EngineBench
