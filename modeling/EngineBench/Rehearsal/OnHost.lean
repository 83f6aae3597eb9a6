-- The cast of a rehearsal on a scripted host: the engines are real, and their programs and daemons
-- follow the script.
import EngineBench.Engine.Engine
import EngineBench.Host.Script
import EngineBench.Rehearsal.World

namespace EngineBench.Rehearsal

structure HostStage where
  script : Host.Script
  engine : Engine
  processes : ProcessTable

namespace HostStage

def start (script : Host.Script) (processes : ProcessTable) : HostStage :=
  ⟨script, .null, processes⟩

/-- Calls the engine. The call takes as long as the engine rests. -/
def call (c : EngineCall) : StateM HostStage (Fate c.Answer) := fun s =>
  let (answer, script) := (Host.Script.run (s.engine.perform s.script.host c)).run s.script
  let took := Duration.mk (script.clock.nanos - s.script.clock.nanos)
  (.answered took answer, { s with script := script })

def spawn (program : String) (args : List String) :
    StateM HostStage (Except OsError WaitStatus) := fun s =>
  let (outcome, script) := (Host.Script.start program args).run s.script
  (outcome.map Outcome.status, { s with script := script })

def make (config : EngineConfig) : StateM HostStage (Except EngineError Unit) := fun s =>
  match Engine.make s.script.host config with
  | .ok e => (.ok (), { s with engine := e })
  | .error e => (.error e, s)

def watchGroup (now : Duration) (path : String) : StateM HostStage (Attempt ControlGroup) := do
  let files := (← get).script.host.files
  return ControlGroup.watch files now.nanos ControlGroup.mountPoint path

def findDaemon : StateM HostStage (Except EngineError DaemonProcess) := do
  let s ← get
  return (s.engine.daemonPid s.processes).map fun pid => ⟨pid, s.engine.processNames⟩

/-- A query of a control group or of the process table. -/
def query (now : Duration) (source : SamplerSource) : StateM HostStage (Query × SamplerSource) := do
  let s ← get
  match source with
  | .given => return (.failed, source)
  | .group g =>
    match g.read s.script.host.files now.nanos with
    | (.ok r, g) => return (.measured ⟨now.wholeSeconds, r.usage⟩, .group g)
    | (.error _, g) => return (.failed, .group g)
  | .processes d =>
    match ProcessTable.usageOf d.pid d.names s.processes with
    | .ok u => return (.measured ⟨now.wholeSeconds, u⟩, source)
    | .error _ => return (.failed, source)

end HostStage

def onHost : Cast HostStage where
  call := HostStage.call
  spawn := HostStage.spawn
  make := HostStage.make
  watchGroup := HostStage.watchGroup
  findDaemon := HostStage.findDaemon
  query := HostStage.query

end EngineBench.Rehearsal
