-- Running programs: what their ending and their output come to.
import EngineBench.Engine.Exchange
import EngineBench.Text.Blank

namespace EngineBench.Command

/-- A program and its arguments as one line. -/
def line (program : String) (args : List String) : String :=
  program ++ " " ++ String.intercalate " " args

/-- The output of a program, what it wrote to standard output first. An ending other than success
is an error that holds the output. -/
def output (program : String) (args : List String) :
    Except OsError Outcome → Except EngineError String
  | .error cause => .error (.spawn (line program args) cause)
  | .ok o =>
    let text := Text.Utf8.decodeLossy o.out ++ Text.Utf8.decodeLossy o.err
    if o.status.isSuccess then .ok text else .error (.exec (line program args) o.status text)

def silentOutput (program : String) (args : List String) :
    Except OsError WaitStatus → Except EngineError String
  | .error cause => .error (.spawn (line program args) cause)
  | .ok status =>
    if status.isSuccess then .ok "" else .error (.exec (line program args) status "")

def exec (program : String) (args : List String) : Work String := do
  Work.ofExcept (output program args (← Work.ask (.exec program args)))

def execSilent (program : String) (args : List String) : Work String := do
  Work.ofExcept (silentOutput program args (← Work.ask (.execSilent program args)))

/-! ## Line by line -/

/-- Cuts behind every line feed. Nothing behind the last line feed is no piece. -/
def cutLines : List UInt8 → List (List UInt8)
  | [] => []
  | b :: bs =>
    if b = 0x0A then [b] :: cutLines bs
    else
      match cutLines bs with
      | [] => [[b]]
      | piece :: rest => (b :: piece) :: rest

/-- A line without the line feed at its end and a carriage return before that. -/
def dropEnd (line : List Char) : List Char :=
  match line.getLast? with
  | some '\n' => Text.dropReturn line.dropLast
  | _ => line

/-- A line as text. A line that is none is an error of its own, and the next line is read after
it. -/
def lineItem (bytes : List UInt8) : Except EngineError String :=
  match Text.Utf8.decode bytes with
  | .ok text => .ok (String.ofList (dropEnd text.toList))
  | .error fault => .error (.io (.badLine fault))

/-- A stream of documents: the work of opening it, and what is read from it. -/
abbrev Stream := Work (Exchange (List (Except EngineError String)))

def stream (program : String) (args : List String) : Stream := do
  match ← Work.ask (.stream program args) with
  | .ok bytes => return .done ((cutLines bytes).map lineItem)
  | .error cause => throw (.spawn (line program args) cause)

end EngineBench.Command
