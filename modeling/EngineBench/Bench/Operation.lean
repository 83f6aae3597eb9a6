-- The operations that a benchmark can ask of a container, and the words for them.
import EngineBench.Text.Lowercase

namespace EngineBench

inductive Operation where
  | run
  | stop
  | remove
  | pause
  | unpause
  | wait
  | stats
  deriving DecidableEq, Repr

namespace Operation

/-- The plain word for an operation. -/
def word : Operation → String
  | run => "run"
  | stop => "stop"
  | remove => "remove"
  | pause => "pause"
  | unpause => "unpause"
  | wait => "wait"
  | stats => "stats"

/-- The words of a benchmark's command list, in lowercase. -/
def words : List (String × Operation) :=
  [("run", run), ("start", run), ("stop", stop), ("kill", stop), ("remove", remove),
   ("erase", remove), ("delete", remove), ("pause", pause), ("unpause", unpause),
   ("resume", unpause), ("wait", wait), ("stats", stats)]

/-- The operation that a word stands for, letter case aside. -/
def parse? (word : String) : Option Operation :=
  words.lookup (String.ofList (Text.lowercase word.toList))

/-- The words of a command list that stand for an operation, in order and as written. -/
def recognised (words : List String) : List (String × Operation) :=
  words.filterMap fun w => (parse? w).map (w, ·)

end Operation

end EngineBench
