-- The commands of the program, the switches of each command, and how they are spelled.
namespace EngineBench.Cli

/-- Where switches are looked up: before any command, or after one. -/
inductive Level where
  | top
  | run
  | version
  | help
  deriving DecidableEq, Repr

/-- The commands that can be named at a level. -/
def Level.commands : Level → List (String × Level)
  | top => [("run", run), ("version", version), ("help", help)]
  | _ => []

inductive Switch where
  | logLevel
  | benchmark
  | trace
  | skipLimit
  | overhead
  | help
  | version
  deriving DecidableEq, Repr

namespace Switch

def takesValue : Switch → Bool
  | logLevel => true
  | benchmark => true
  | _ => false

/-- The long spelling, without its dashes. -/
def long : Switch → String
  | logLevel => "log-level"
  | benchmark => "benchmark"
  | trace => "trace"
  | skipLimit => "skip-limit"
  | overhead => "overhead"
  | help => "help"
  | version => "version"

def short? : Switch → Option Char
  | logLevel => some 'l'
  | benchmark => some 'b'
  | help => some 'h'
  | version => some 'V'
  | _ => none

/-- A file has a name, so the name of a benchmark file is not empty. -/
def accepts (value : String) : Switch → Bool
  | benchmark => !value.isEmpty
  | _ => true

end Switch

namespace Level

/-- The switches of a level. The log level can be given at every level. -/
def switches : Level → List Switch
  | top => [.logLevel, .help, .version]
  | run => [.benchmark, .trace, .skipLimit, .overhead, .logLevel, .help]
  | version => [.logLevel, .help]
  | help => []

def long? (l : Level) (name : String) : Option Switch := l.switches.find? (·.long == name)

def short? (l : Level) (c : Char) : Option Switch := l.switches.find? (·.short? == some c)

def command? (l : Level) (word : String) : Option Level := l.commands.lookup word

end Level

end EngineBench.Cli
