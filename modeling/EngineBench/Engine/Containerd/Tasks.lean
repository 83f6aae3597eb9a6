-- Containerd over its services: containers that are kept, and tasks that run in them.
import EngineBench.Engine.Containerd.Spec
import EngineBench.Engine.Exchange

namespace EngineBench

structure ContainerdEngine where
  socket : String
  deriving DecidableEq, Repr

namespace ContainerdEngine

open Containerd (Mount NewContainer)

def standardSocket : String := "/run/containerd/containerd.sock"

def make (host : Host.Surroundings) (config : EngineConfig) :
    Except EngineError ContainerdEngine :=
  let socket := config.path.getD standardSocket
  if host.files.isSocket socket then .ok ⟨socket⟩
  else .error (.connect socket "transport error")

def info (e : ContainerdEngine) : Work String := do
  let v ← Work.containerd .version
  return "containerd driver (socket: " ++ e.socket ++ ")[version: " ++ v.version ++
    "][revision: " ++ v.revision ++ "]"

/-- Containers are always detached. -/
def create (host : Host.Surroundings) (w : Wanted) : Work Container :=
  Work.ofExcept (Bundle.create host.files w w.command true)

/-! ## Single requests -/

def killSignal : Nat := 9

def kill (id : String) : Work Unit := Work.containerd (.killTask id killSignal true)

def awaitExit (id : String) : Work Nat := Work.containerd (.waitTask id)

/-- A task that is not there counts as deleted. -/
def deleteTask (id : String) : Work Unit := do
  match ← Work.ask (.containerd (.deleteTask id)) with
  | .ok _ => return ()
  | .error fault =>
    if fault.code = .notFound then return () else throw (.rpc fault.code fault.message)

def deleteContainer (id : String) : Work Unit := Work.containerd (.deleteContainer id)

/-! ## Operations -/

/-- Kills and deletes one container; nothing that fails keeps the rest from being tried. -/
def tearDown (id : String) : Work Unit := do
  (kill id).ignore
  Work.settle
  (deleteTask id).ignore
  (deleteContainer id).ignore

def clean : Work Unit := do
  let ids ← Work.containerd .listContainers
  (ids.filter Name.isBenchmark).forM tearDown

def runtime : String := "io.containerd.runc.v2"

def specType : String := "types.containerd.io/opencontainers/runtime-spec/1/Spec"

def newContainer (id : String) (spec : JsonValue) : NewContainer :=
  ⟨id, runtime, specType, spec.text⟩

/-- The root file system of a bundle, writable and with all that is mounted in it. -/
def rootfs (bundle : String) : Mount := ⟨"bind", Bundle.rootfsPath bundle, ["rbind", "rw"]⟩

def run (host : Host.Surroundings) (c : Container) : Work String := do
  let spec ← Work.ofExcept (Containerd.spec host.files c.image c.command)
  Work.containerd (.createContainer (newContainer c.name spec))
  Work.containerd (.createTask c.name [rootfs c.image])
  let pid ← Work.containerd (.startTask c.name)
  return "pid " ++ toString pid

def exitText (status : Nat) : String := "exit status " ++ toString status

def stop (name : String) : Work String := do
  kill name
  exitText <$> awaitExit name

def remove (name : String) : Work String := do
  deleteTask name
  deleteContainer name
  return ""

def pause (name : String) : Work String := do
  Work.containerd (.pauseTask name)
  return ""

def unpause (name : String) : Work String := do
  Work.containerd (.resumeTask name)
  return ""

def wait (name : String) : Work String := exitText <$> awaitExit name

end ContainerdEngine

end EngineBench
