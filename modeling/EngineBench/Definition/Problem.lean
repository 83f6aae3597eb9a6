-- What can be wrong with the definition of a benchmark.
import EngineBench.Data.Mismatch

namespace EngineBench.Definition

/-- The formats that a definition can be written in. -/
inductive Language where
  | yaml
  | toml
  deriving DecidableEq, Repr

def Language.name : Language → String
  | .yaml => "YAML"
  | .toml => "TOML"

inductive Problem where
  | unreadable (language : Language) (fault : Data.Fault)
  | noImage
  | noCommands (benchmark : String)
  /-- The engine runs a bundle, and the benchmark has none. -/
  | noBundle (engine : String)
  | noWork (engine : String)
  /-- A workload is asked for with an engine that runs a bundle, and the benchmark has none. -/
  | noBundleToRun (engine : String)
  deriving DecidableEq, Repr

def Problem.message : Problem → String
  | .unreadable language fault => language.name ++ " parsing error" ++ fault.note
  | .noImage => "Please provide an 'image:' entry in your benchmark"
  | .noCommands benchmark => "Benchmark " ++ benchmark ++ " has no commands to run"
  | .noBundle engine =>
    "No rootfs defined in the benchmark; driver " ++ engine ++ " requires a root FS path"
  | .noWork engine => "Driver " ++ engine ++ " needs at least one thread and one iteration"
  | .noBundleToRun engine => "Driver " ++ engine ++ " requires a root FS path"

end EngineBench.Definition
