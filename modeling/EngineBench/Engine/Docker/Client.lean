-- The command line client of Docker.
import EngineBench.Engine.Command
import EngineBench.Engine.Container
import EngineBench.Engine.Override
import EngineBench.Host.Search

namespace EngineBench

structure DockerClient where
  program : String
  logDriver : Option String
  logOptions : List (String × String)
  streamStats : Bool
  deriving DecidableEq, Repr

namespace DockerClient

/-! ## Reading its output -/

/-- The client's and the server's part of a description, as far as they are read. -/
structure Description where
  client : List Char
  server : List Char
  sawClientApi : Bool

/-- A line of the form `key: value`, without the blanks around both. -/
def setting? (line : List Char) : Option (String × List Char) :=
  (Text.cutAt (· == ':') line).map fun (key, value) =>
    (String.ofList (Text.trim key), Text.trim value)

/-- The first version is the client's and all others are the server's, and so for the versions of
the interface. -/
def Description.addVersion (d : Description) (line : List Char) : Description :=
  match setting? line with
  | some ("Version", value) =>
    if d.client.isEmpty then { d with client := value }
    else { d with server := d.server ++ value }
  | some ("API version", value) =>
    if d.sawClientApi then { d with server := d.server ++ "|API:".toList ++ value }
    else { d with client := d.client ++ "|API:".toList ++ value, sawClientApi := true }
  | _ => d

def Description.addInfo (d : Description) (line : List Char) : Description :=
  match setting? line with
  | some ("Kernel Version", value) => { d with server := d.server ++ "|Kernel:".toList ++ value }
  | some ("Storage Driver", value) => { d with server := d.server ++ "|Storage:".toList ++ value }
  | some ("Backing Filesystem", value) =>
    { d with server := d.server ++ "|BackingFS:".toList ++ value }
  | _ => d

/-- The client and the server in short, from what they say about themselves. -/
def describe (version info : String) : String :=
  let d := (Text.lines version.toList).foldl Description.addVersion ⟨[], [], false⟩
  let d := (Text.lines info.toList).foldl Description.addInfo d
  "[CLIENT:" ++ String.ofList d.client ++ "][SERVER:" ++ String.ofList d.server ++ "]"

/-- The id in front of a line, if the name behind it is one of a benchmark. -/
def idOfLine? (line : List Char) : Option String := do
  let (id, name) ← Text.cutAt Text.isBlank line
  if Name.isMarked (Text.trim name) then some (String.ofList id) else none

/-- The ids of the containers of benchmarks in a list. -/
def benchmarkIds (output : String) : List String := (Text.lines output.toList).filterMap idOfLine?

/-! ## Operations -/

def make (host : Host.Surroundings) (config : EngineConfig) : Except EngineError DockerClient := do
  let program ← host.resolveProgram (config.path.getD "docker")
  return ⟨program, config.logDriver, config.logOptions, config.streamStats⟩

def exec (e : DockerClient) (args : List String) : Work String := Command.exec e.program args

/-- Options for a log driver count only where a log driver is named. -/
def logArgs (e : DockerClient) : List String :=
  match e.logDriver with
  | none => []
  | some driver =>
    ["--log-driver", driver] ++ e.logOptions.flatMap fun (k, v) => ["--log-opt", k ++ "=" ++ v]

/-- The arguments that start a container: its command, if it has one, stands behind the image. -/
def runArgs (e : DockerClient) (c : Container) : Except EngineError (List String) := do
  let words ← Override.words? c.command
  return ["run"] ++ (if c.detached then ["-d"] else []) ++ e.logArgs ++
    ["--name", c.name, c.image] ++ words.getD []

def info (e : DockerClient) : Work String := do
  let version ← e.exec ["version"]
  let info ← e.exec ["info"]
  return "docker driver (binary: " ++ e.program ++ ")\n" ++ describe version info

def create (w : Wanted) : Work Container :=
  return ⟨w.name, w.image, w.command, w.detached, w.trace, none⟩

def listArgs : List String :=
  ["ps", "-a", "--filter", "name=" ++ Name.mark, "--format",
   "\x7b\x7b.ID\x7d\x7d \x7b\x7b.Names\x7d\x7d"]

/-- Removes all containers of benchmarks at once. -/
def clean (e : DockerClient) : Work Unit := do
  let ids := benchmarkIds (← e.exec listArgs)
  if ids.isEmpty then return ()
  let _ ← e.exec (["rm", "-f"] ++ ids)
  return ()

def run (e : DockerClient) (c : Container) : Work String := do
  e.exec (← Work.ofExcept (e.runArgs c))

def stop (e : DockerClient) (name : String) : Work String := e.exec ["stop", name]

def remove (e : DockerClient) (name : String) : Work String := e.exec ["rm", name]

def pause (e : DockerClient) (name : String) : Work String := e.exec ["pause", name]

def unpause (e : DockerClient) (name : String) : Work String := e.exec ["unpause", name]

def wait (e : DockerClient) (name : String) : Work String := e.exec ["wait", name]

def stats (e : DockerClient) (name : String) : Command.Stream :=
  Command.stream e.program
    (["stats"] ++ (if e.streamStats then [] else ["--no-stream"]) ++ [name])

end DockerClient

end EngineBench
