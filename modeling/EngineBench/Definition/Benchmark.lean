-- The definition of a benchmark, the checks that need no engine, and what each of its entries
-- asks for.
import EngineBench.Bench.Workload
import EngineBench.Engine.Container
import EngineBench.Failure
import EngineBench.Sampler.Interval

namespace EngineBench.Definition

/-- An engine to measure, and how hard. -/
structure Entry where
  /-- The kind of engine as the user wrote it. -/
  engine : String
  clientPath : Option String
  threads : Nat
  iterations : Nat
  logDriver : Option String
  logOptions : List (String × String)
  cgroupPath : Option String
  streamStats : Bool
  statsSeconds : Option Nat
  sandboxFile : Option String
  containerFile : Option String
  deriving DecidableEq, Repr

structure Benchmark where
  name : String
  image : String
  /-- The unpacked bundle that some engines run in place of the image. -/
  rootfs : Option String
  command : Option String
  detached : Bool
  entries : List Entry
  commands : List String
  deriving DecidableEq, Repr

namespace Entry

/-- The kind of engine that the entry names. -/
def kind (e : Entry) : Attempt Kind :=
  match Kind.parse? e.engine with
  | some k => .ok k
  | none => .error ((Failure.ofEngine (.config (.unknownKind e.engine))).during .choosingEngine)

/-- How often the daemon is sampled; nothing given, and zero, stand for the standard. -/
def sampleInterval (e : Entry) : Duration :=
  Sampler.interval (Duration.ofSeconds (e.statsSeconds.getD 0))

def engineConfig (e : Entry) : Attempt EngineConfig := do
  let kind ← e.kind
  return {
    kind := kind
    path := e.clientPath
    logDriver := e.logDriver
    logOptions := e.logOptions
    streamStats := e.streamStats
    sandboxFile := e.sandboxFile
    containerFile := e.containerFile }

end Entry

namespace Benchmark

/-- What is wrong with one entry, if anything: an unknown engine before a missing bundle, and that
before an entry without work. -/
def checkEntry (b : Benchmark) (e : Entry) : Attempt Unit := do
  let kind ← e.kind
  if kind.needsBundle && b.rootfs.isNone then throw (.ofProblem (.noBundle e.engine))
  if e.threads = 0 || e.iterations = 0 then throw (.ofProblem (.noWork e.engine))

/-- The first thing that is wrong: the image, the commands, then the entries in order. -/
def check (b : Benchmark) : Attempt Unit := do
  if b.image.isEmpty then throw (.ofProblem .noImage)
  if b.commands.isEmpty then throw (.ofProblem (.noCommands b.name))
  b.entries.forM b.checkEntry

/-- The workload for one entry. Engines that need a bundle run it in place of the image. -/
def workload (b : Benchmark) (e : Entry) (trace : Bool) : Attempt Workload := do
  let kind ← e.kind
  let image ←
    if kind.needsBundle then
      match b.rootfs with
      | some bundle => pure bundle
      | none => throw (.ofProblem (.noBundleToRun e.engine))
    else pure b.image
  return {
    name := b.name
    image := image
    command := b.command
    detached := b.detached
    trace := trace
    commands := b.commands }

end Benchmark

end EngineBench.Definition
