-- Requests to containerd's services, and the replies to each of them.
namespace EngineBench.Containerd

/-- The namespace that all containers of the benchmarks live in. -/
def space : String := "ctrbench"

/-- A container for containerd to keep: its runtime, and its specification as JSON. -/
structure NewContainer where
  id : String
  runtime : String
  specType : String
  spec : String
  deriving DecidableEq, Repr

structure Mount where
  type : String
  source : String
  options : List String
  deriving DecidableEq, Repr

inductive Request where
  | version
  | listContainers
  | createContainer (c : NewContainer)
  | deleteContainer (id : String)
  | createTask (id : String) (rootfs : List Mount)
  | startTask (id : String)
  | killTask (id : String) (signal : Nat) (all : Bool)
  | waitTask (id : String)
  | deleteTask (id : String)
  | pauseTask (id : String)
  | resumeTask (id : String)
  deriving DecidableEq, Repr

structure Version where
  version : String
  revision : String
  deriving DecidableEq, Repr

namespace Request

/-- What a request that succeeds is answered with. -/
@[reducible] def Reply : Request → Type
  | version => Version
  | listContainers => List String
  | startTask _ => Nat
  | waitTask _ => Nat
  | _ => Unit

/-- The service and the method that a request goes to. -/
def method : Request → String
  | version => "Version/Version"
  | listContainers => "Containers/List"
  | createContainer _ => "Containers/Create"
  | deleteContainer _ => "Containers/Delete"
  | createTask _ _ => "Tasks/Create"
  | startTask _ => "Tasks/Start"
  | killTask _ _ _ => "Tasks/Kill"
  | waitTask _ => "Tasks/Wait"
  | deleteTask _ => "Tasks/Delete"
  | pauseTask _ => "Tasks/Pause"
  | resumeTask _ => "Tasks/Resume"

/-- The container that a request is about. -/
def target? : Request → Option String
  | version => none
  | listContainers => none
  | createContainer c => some c.id
  | deleteContainer id => some id
  | createTask id _ => some id
  | startTask id => some id
  | killTask id _ _ => some id
  | waitTask id => some id
  | deleteTask id => some id
  | pauseTask id => some id
  | resumeTask id => some id

/-- The namespace that a request names; the version is not asked for in any. -/
def space? : Request → Option String
  | version => none
  | _ => some space

end Request

end EngineBench.Containerd
