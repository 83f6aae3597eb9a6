-- All engines as one: how an engine is made from its settings, and what it does for each call.
import EngineBench.Engine.Call
import EngineBench.Engine.Containerd.Tasks
import EngineBench.Engine.Cri.Pods
import EngineBench.Engine.Docker.Api
import EngineBench.Engine.Docker.Client
import EngineBench.Engine.Runtime.Ctr
import EngineBench.Engine.Runtime.Oci
import EngineBench.Sampler.ProcessTree

namespace EngineBench

inductive Engine where
  | dockerCli (e : DockerClient)
  | docker (e : DockerApi)
  | oci (e : OciRuntime)
  | ctr (e : CtrClient)
  | containerd (e : ContainerdEngine)
  | cri (e : CriEngine)
  /-- Does nothing, and always succeeds. -/
  | null
  deriving DecidableEq, Repr

namespace Engine

open Host (Surroundings)

/-! ## What an engine is -/

def make (host : Surroundings) (config : EngineConfig) : Except EngineError Engine :=
  match config.kind with
  | .dockerCli => dockerCli <$> DockerClient.make host config
  | .docker => docker <$> DockerApi.make host config
  | .runc => oci <$> OciRuntime.make host config
  | .crun => oci <$> OciRuntime.make host config
  | .youki => oci <$> OciRuntime.make host config
  | .ctr => ctr <$> CtrClient.make host config
  | .containerd => containerd <$> ContainerdEngine.make host config
  | .cri => cri <$> CriEngine.make host config
  | .null => .ok null

def kind : Engine → Kind
  | dockerCli _ => .dockerCli
  | docker _ => .docker
  | oci e => e.flavour.kind
  | ctr _ => .ctr
  | containerd _ => .containerd
  | cri _ => .cri
  | null => .null

/-- The program or the socket that the engine is reached through. -/
def path : Engine → String
  | dockerCli e => e.program
  | docker e => e.endpoint
  | oci e => e.program
  | ctr e => e.program
  | containerd e => e.socket
  | cri e => e.socket
  | null => ""

/-- The name of the daemon behind an engine. -/
def daemon? : Engine → Option String
  | dockerCli _ => some "dockerd"
  | docker _ => some "dockerd"
  | ctr _ => some "containerd"
  | containerd _ => some "containerd"
  | _ => none

/-- The names of the processes whose usage counts to the daemon. -/
def processNames : Engine → List String
  | dockerCli _ => dockerNames
  | docker _ => dockerNames
  | ctr _ => containerdNames
  | containerd _ => containerdNames
  | _ => []
where
  dockerNames : List String :=
    ["dockerd", "docker-containerd", "docker-containerd-shim", "containerd-shim-runc-v2",
     "docker-proxy"]
  containerdNames : List String :=
    ["containerd", "containerd-shim", "containerd-shim-runc-v2"]

/-- The process of the daemon, if the engine has one and it runs. -/
def daemonPid (table : ProcessTable) (e : Engine) : Except EngineError UInt32 :=
  match e.daemon? with
  | none => .error (.notImplemented "pid" e.kind)
  | some name =>
    match table.find? (·.name == name) with
    | some p => .ok p.pid
    | none => .error (.config (.noDaemon [name]))

/-! ## What an engine does -/

def info : Engine → Work String
  | dockerCli e => e.info
  | docker _ => DockerApi.info
  | oci e => e.info
  | ctr e => e.info
  | containerd e => e.info
  | cri _ => CriEngine.info
  | null => return "null driver"

def create (host : Surroundings) (w : Wanted) : Engine → Work Container
  | dockerCli _ => DockerClient.create w
  | docker e => e.create w
  | oci _ => OciRuntime.create host w
  | ctr _ => CtrClient.create host w
  | containerd _ => ContainerdEngine.create host w
  | cri e => e.create w
  | null => return ⟨w.name, w.image, w.command, w.detached, w.trace, none⟩

/-- Removes all containers of benchmarks, whoever made them. -/
def clean : Engine → Work Unit
  | dockerCli e => e.clean
  | docker _ => DockerApi.clean
  | oci e => e.clean
  | ctr e => e.clean
  | containerd _ => ContainerdEngine.clean
  | cri _ => CriEngine.clean
  | null => return ()

def run (host : Surroundings) (c : Container) : Engine → Work String
  | dockerCli e => e.run c
  | docker _ => DockerApi.run c
  | oci e => e.run c
  | ctr e => e.run c
  | containerd _ => ContainerdEngine.run host c
  | cri e => e.run c
  | null => return ""

def stop (c : Container) : Engine → Work String
  | dockerCli e => e.stop c.name
  | docker _ => DockerApi.stop c.name
  | oci e => e.stop c.name
  | ctr e => e.stop c.name
  | containerd _ => ContainerdEngine.stop c.name
  | cri _ => CriEngine.stop c
  | null => return ""

def remove (c : Container) : Engine → Work String
  | dockerCli e => e.remove c.name
  | docker _ => DockerApi.remove c.name
  | oci e => e.remove c.name
  | ctr e => e.remove c.name
  | containerd _ => ContainerdEngine.remove c.name
  | cri _ => CriEngine.remove c
  | null => return ""

/-- Pods cannot be paused, and asking for it does nothing. -/
def pause (c : Container) : Engine → Work String
  | dockerCli e => e.pause c.name
  | docker _ => DockerApi.pause c.name
  | oci e => e.pause c.name
  | ctr e => e.pause c.name
  | containerd _ => ContainerdEngine.pause c.name
  | cri _ => return ""
  | null => return ""

def unpause (c : Container) : Engine → Work String
  | dockerCli e => e.unpause c.name
  | docker _ => DockerApi.unpause c.name
  | oci e => e.unpause c.name
  | ctr e => e.unpause c.name
  | containerd _ => ContainerdEngine.unpause c.name
  | cri _ => return ""
  | null => return ""

def wait (c : Container) : Engine → Work String
  | dockerCli e => e.wait c.name
  | docker _ => DockerApi.wait c.name
  | containerd _ => ContainerdEngine.wait c.name
  | null => return ""
  | e => throw (.notImplemented "wait" e.kind)

/-- The documents in which an engine reports what a container uses. -/
def stats (c : Container) : Engine → Command.Stream
  | dockerCli e => e.stats c.name
  | docker e => e.stats c.name
  | e => throw (.notImplemented "stats" e.kind)

/-- The first document of a stream; none at all is a silent success. -/
def firstDocument (s : Command.Stream) : Work String := do
  let read ← s
  match ← (ExceptT.lift read : Work _) with
  | [] => return ""
  | item :: _ => Work.ofExcept item

def operate (host : Surroundings) (e : Engine) (c : Container) : Operation → Work String
  | .run => e.run host c
  | .stop => e.stop c
  | .remove => e.remove c
  | .pause => e.pause c
  | .unpause => e.unpause c
  | .wait => e.wait c
  | .stats => firstDocument (e.stats c)

/-- Does what a call asks for. How long it took is for the host to say. -/
def perform (host : Surroundings) (e : Engine) : (call : EngineCall) → Work call.Answer
  | .info => e.info
  | .clean => e.clean
  | .create w => e.create host w
  | .operate op c => (⟨·, Duration.zero⟩) <$> e.operate host c op
  | .close => return ()

end Engine

end EngineBench
