-- Requests to the services of the container runtime interface, and the replies to each of them.
import EngineBench.Engine.Cri.Template

namespace EngineBench.Cri

structure Version where
  version : String
  runtimeName : String
  runtimeVersion : String
  runtimeApiVersion : String
  deriving DecidableEq, Repr

/-- A container or a pod in a list, and its name if it has one. -/
structure Listed where
  id : String
  name : Option String
  deriving DecidableEq, Repr

inductive Request where
  | version
  | imageStatus (image : String)
  | pullImage (image : String)
  | runPod (config : SandboxConfig)
  | stopPod (pod : String)
  | removePod (pod : String)
  | listPods
  | createContainer (pod : String) (config : ContainerConfig) (sandbox : SandboxConfig)
  | startContainer (id : String)
  | stopContainer (id : String)
  | removeContainer (id : String)
  /-- All containers, or those of one pod. -/
  | listContainers (pod : Option String)
  deriving DecidableEq, Repr

namespace Request

/-- What a request that succeeds is answered with. -/
@[reducible] def Reply : Request → Type
  | version => Version
  | imageStatus _ => Bool
  | runPod _ => String
  | listPods => List Listed
  | createContainer _ _ _ => String
  | listContainers _ => List Listed
  | _ => Unit

/-- The service and the method that a request goes to. -/
def method : Request → String
  | version => "RuntimeService/Version"
  | imageStatus _ => "ImageService/ImageStatus"
  | pullImage _ => "ImageService/PullImage"
  | runPod _ => "RuntimeService/RunPodSandbox"
  | stopPod _ => "RuntimeService/StopPodSandbox"
  | removePod _ => "RuntimeService/RemovePodSandbox"
  | listPods => "RuntimeService/ListPodSandbox"
  | createContainer _ _ _ => "RuntimeService/CreateContainer"
  | startContainer _ => "RuntimeService/StartContainer"
  | stopContainer _ => "RuntimeService/StopContainer"
  | removeContainer _ => "RuntimeService/RemoveContainer"
  | listContainers _ => "RuntimeService/ListContainers"

/-- The container, pod or image that a request is about. -/
def target? : Request → Option String
  | version => none
  | imageStatus image => some image
  | pullImage image => some image
  | runPod _ => none
  | stopPod pod => some pod
  | removePod pod => some pod
  | listPods => none
  | createContainer pod _ _ => some pod
  | startContainer id => some id
  | stopContainer id => some id
  | removeContainer id => some id
  | listContainers _ => none

end Request

end EngineBench.Cri
