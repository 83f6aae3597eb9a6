-- Definitions of benchmarks in files.
import EngineBench.Definition.Reading
import EngineBench.Host.Files

namespace EngineBench.Definition

/-- The text behind the last dot of a name, unless that dot is the first character. -/
def extension? (name : List Char) : Option (List Char) :=
  let last := name.reverse.takeWhile (· ≠ '.')
  if last.length + 1 < name.length then some last.reverse else none

/-- Files whose name ends in `.toml` hold TOML, and all others YAML. -/
def languageOf (path : String) : Language :=
  match ((Host.names path.toList).filter (· ≠ ".")).getLast? with
  | some name =>
    if name ≠ ".." && extension? name.toList == some "toml".toList then .toml else .yaml
  | none => .yaml

/-- The definition in the bytes of a file, which must be text. -/
def Benchmark.ofBytes (path : String) (bytes : Except OsError (List UInt8)) : Attempt Benchmark :=
  match bytes.bind Host.textOf with
  | .error cause => .error ((Failure.ofCause (.os cause)).during (.reading path))
  | .ok text => Attempt.during (.loading path) (Benchmark.ofText (languageOf path) text)

def Benchmark.ofFile (files : Host.Files) (path : String) : Attempt Benchmark :=
  ofBytes path (files.read path)

end EngineBench.Definition
