-- Engines with the container runtime interface: every container lives in a pod of its own.
import EngineBench.Engine.Exchange
import EngineBench.Host.Search

namespace EngineBench

structure CriEngine where
  socket : String
  templates : Cri.Templates
  deriving DecidableEq, Repr

namespace CriEngine

open Cri (ContainerTemplate Listed SandboxTemplate Templates)

/-! ## Making the engine -/

/-- Reads a template from a file, or takes the standard one where no file is named. -/
def readTemplate {α : Type} (files : Host.Files) (read : List Char → Except Data.Fault α)
    (standard : α) : Option String → Except EngineError α
  | none => .ok standard
  | some path =>
    match files.readText path with
    | .error cause => .error (.io cause)
    | .ok text =>
      match read text.toList with
      | .ok a => .ok a
      | .error fault => .error (.config (.badTemplate path fault))

def loadTemplates (files : Host.Files) (sandbox container : Option String) :
    Except EngineError Templates := do
  let sandbox ← readTemplate files SandboxTemplate.read .standard sandbox
  let container ← readTemplate files ContainerTemplate.read .standard container
  return ⟨sandbox, container⟩

def standardSocket : String := "/run/containerd/containerd.sock"

/-- The templates are read before the socket is opened. -/
def make (host : Host.Surroundings) (config : EngineConfig) : Except EngineError CriEngine := do
  let socket := config.path.getD standardSocket
  let templates ← loadTemplates host.files config.sandboxFile config.containerFile
  if host.files.isSocket socket then return ⟨socket, templates⟩
  else throw (.connect socket "transport error")

/-! ## Operations -/

def info : Work String := do
  let v ← Work.cri .version
  return "CRI client driver (Version: " ++ v.version ++ ", API Version: " ++
    v.runtimeApiVersion ++ ", Runtime: " ++ v.runtimeName ++ " " ++ v.runtimeVersion ++ ")"

/-- Pulls an image unless the engine says that it has it. -/
def ensureImage (image : String) : Work Unit := do
  match ← Work.ask (.cri (.imageStatus image)) with
  | .ok true => return ()
  | _ => Work.cri (.pullImage image)

/-- Makes the pod of a container; the container itself is made when it is run. -/
def create (e : CriEngine) (w : Wanted) : Work Container := do
  ensureImage w.image
  ensureImage e.templates.sandbox.podImage
  let pod ← Work.cri (.runPod (e.templates.sandboxConfig w.name))
  return ⟨w.name, w.image, w.command, true, w.trace, some pod⟩

/-- The pod of a container; without one, making the container has failed. -/
def podOf (c : Container) : Work String :=
  match c.podId with
  | some pod => return pod
  | none => throw (.noContainer c.name)

def isBenchmark (l : Listed) : Bool :=
  match l.name with
  | some name => Name.isBenchmark name
  | none => false

def tearDownContainer (l : Listed) : Work Unit := do
  (Work.cri (.stopContainer l.id)).ignore
  (Work.cri (.removeContainer l.id)).ignore

def tearDownPod (l : Listed) : Work Unit := do
  (Work.cri (.stopPod l.id)).ignore
  (Work.cri (.removePod l.id)).ignore

/-- Removes the containers of benchmarks, then their pods. Only a list that cannot be had is a
failure. -/
def clean : Work Unit := do
  let containers ← Work.cri (.listContainers none)
  (containers.filter isBenchmark).forM tearDownContainer
  let pods ← Work.cri .listPods
  (pods.filter isBenchmark).forM tearDownPod

def run (e : CriEngine) (c : Container) : Work String := do
  let pod ← podOf c
  let config ← Work.ofExcept (e.templates.containerConfig c)
  let id ← Work.cri (.createContainer pod config (e.templates.sandboxConfig c.name))
  Work.cri (.startContainer id)
  return id

/-- Does something to each container of a pod, then to the pod. -/
def throughPod (c : Container) (onContainer onPod : String → Work Unit) : Work String := do
  let pod ← podOf c
  let containers ← Work.cri (.listContainers (some pod))
  containers.forM fun l => onContainer l.id
  onPod pod
  return ""

def stop (c : Container) : Work String :=
  throughPod c (fun id => Work.cri (.stopContainer id)) fun pod => Work.cri (.stopPod pod)

def remove (c : Container) : Work String :=
  throughPod c (fun id => Work.cri (.removeContainer id)) fun pod => Work.cri (.removePod pod)

end CriEngine

end EngineBench
