-- What the program says about its own command line.
import EngineBench.Cli.Arguments
import EngineBench.Report.Paint

namespace EngineBench.Cli

def programName : String := "ctrbench"

def programVersion : String := "0.1.0"

def versionLine (colour : Bool) : String :=
  Report.Paint.green.apply colour programName ++ " " ++ programVersion ++ "\n"

/-! ## Help -/

def about : Level → String
  | .top => "Drives container lifecycle workloads against container engines and reports latencies."
  | .run => "Run the benchmark against the selected container engine components"
  | .version => "Print version information"
  | .help => "Print this message or the help of the given subcommand(s)"

def Switch.about : Switch → String
  | logLevel => "Log level (error, warn, info, debug, trace) [default: warn]"
  | benchmark => "Benchmark definition (YAML, or TOML when the file ends in .toml)"
  | trace => "Ask runtimes which support it to write a trace per container"
  | skipLimit => "Skip the driverless process spawn baseline"
  | overhead => "Sample daemon memory and CPU while each benchmark runs"
  | help => "Print help"
  | version => "Print version"

/-- The spellings of a switch, and a name for its value if it takes one. -/
def Switch.spelling (s : Switch) : String :=
  let short := match s.short? with
    | some c => String.ofList ['-', c, ',', ' ']
    | none => "    "
  short ++ "--" ++ s.long ++ (if s.takesValue then " <VALUE>" else "")

def usage : Level → String
  | .top => programName ++ " [OPTIONS] <COMMAND>"
  | .run => programName ++ " run [OPTIONS] --benchmark <VALUE>"
  | .version => programName ++ " version [OPTIONS]"
  | .help => programName ++ " help [COMMAND]..."

/-- Lines of two columns, the first one as wide as its widest cell. -/
def twoColumns (rows : List (String × String)) : String :=
  let width := (rows.map fun (a, _) => a.length).foldl max 0
  String.join (rows.map fun (a, b) =>
    "  " ++ a ++ String.ofList (List.replicate (width - a.length + 2) ' ') ++ b ++ "\n")

def helpText (l : Level) : String :=
  let commands := match l.commands with
    | [] => ""
    | found => "\nCommands:\n" ++ twoColumns (found.map fun (word, below) => (word, about below))
  let options := match l.switches with
    | [] => ""
    | found => "\nOptions:\n" ++ twoColumns (found.map fun s => (s.spelling, s.about))
  about l ++ "\n\nUsage: " ++ usage l ++ "\n" ++ commands ++ options

/-! ## Refusals -/

def Refusal.message : Refusal → String
  | helpWanted l => helpText l
  | versionWanted => versionLine false
  | nothingAsked => helpText .top
  | noCommand => "a command is required"
  | missing s => "--" ++ s.long ++ " is required"
  | badValue s => "--" ++ s.long ++ " needs a value"
  | repeated s => "--" ++ s.long ++ " is given more than once"
  | surplusValue s => "--" ++ s.long ++ " takes no value"
  | unknownCommand word => "unknown command " ++ word
  | unknownArgument word => "unexpected argument " ++ word

end EngineBench.Cli
