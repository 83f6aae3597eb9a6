-- The command line. It reads the benchmark file, and rehearses the sweep on a host without engines.
import EngineBench.Cli.Program

open EngineBench

/-- Why the system refuses to hand out a file. -/
def refusalOf : IO.Error → OsError
  | .noFileOrDirectory .. => .notFound
  | .permissionDenied .. => .permissionDenied
  | .inappropriateType .. => .isDirectory
  | e => .other (toString e)

def bytesOf (file : String) : IO (Except OsError (List UInt8)) := do
  try return .ok (← IO.FS.readBinFile file).toList
  catch e => return .error (refusalOf e)

def main (words : List String) : IO UInt32 := do
  let colour := (← (← IO.getStdout).isTty) && (← IO.getEnv "NO_COLOR").isNone
  let script := Host.Script.empty ⟨"", []⟩ []
  let ending ← match Cli.Arguments.read words with
    | .ok ⟨_, .run file options⟩ =>
      pure (Cli.runBenchmark colour script options
        (Definition.Benchmark.ofBytes file (← bytesOf file)))
    | _ => pure (Cli.run colour script words)
  IO.print ending.out
  IO.eprint ending.err
  return ending.code.toUInt32
