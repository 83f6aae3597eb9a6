-- Settings for pods and containers that a CRI engine takes from two files, and the messages
-- that are made from them.
import EngineBench.Engine.Container
import EngineBench.Engine.Error
import EngineBench.Engine.Name
import EngineBench.Engine.Override
import EngineBench.Json.Format

namespace EngineBench.Cri

/-! ## Templates -/

/-- The settings that all pods share. -/
structure SandboxTemplate where
  space : String
  attempt : Nat
  hostname : String
  logDirectory : String
  labels : List (String × String)
  annotations : List (String × String)
  podImage : String
  deriving DecidableEq, Repr

/-- The settings that all containers share. -/
structure ContainerTemplate where
  command : List String
  args : List String
  workingDir : String
  envs : List (String × String)
  labels : List (String × String)
  annotations : List (String × String)
  logPath : String
  deriving DecidableEq, Repr

structure Templates where
  sandbox : SandboxTemplate
  container : ContainerTemplate
  deriving DecidableEq, Repr

def SandboxTemplate.standard : SandboxTemplate where
  space := "ctrbench"
  attempt := 1
  hostname := ""
  logDirectory := "/tmp"
  labels := []
  annotations := []
  podImage := "registry.k8s.io/pause:3.9"

def ContainerTemplate.standard : ContainerTemplate := ⟨[], [], "", [], [], [], ""⟩

def Templates.standard : Templates := ⟨.standard, .standard⟩

/-! ## Reading the files -/

open Data (Decode Document Datum)
open Data.Decode (Draft Field field)
open Json (Scalar format)

def readText (d : Document Scalar) : Datum Scalar → Decode String := Decode.text format d "a string"

def readTexts (d : Document Scalar) : Datum Scalar → Decode (List String) :=
  Decode.sequence format d (readText d)

def sandboxFields (d : Document Scalar) : List (Field Scalar (Draft SandboxTemplate)) :=
  [field "namespace" true (readText d) fun v t => { t with space := v },
   field "attempt" true (Decode.natural format d (UInt32.size - 1) "u32")
    fun v t => { t with attempt := v },
   field "hostname" true (readText d) fun v t => { t with hostname := v },
   field "logDirectory" true (readText d) fun v t => { t with logDirectory := v },
   field "labels" true (Decode.table format d) fun v t => { t with labels := v },
   field "annotations" true (Decode.table format d) fun v t => { t with annotations := v },
   field "podImage" true (readText d) fun v t => { t with podImage := v }]

def containerFields (d : Document Scalar) : List (Field Scalar (Draft ContainerTemplate)) :=
  [field "command" true (readTexts d) fun v t => { t with command := v },
   field "args" true (readTexts d) fun v t => { t with args := v },
   field "workingDir" true (readText d) fun v t => { t with workingDir := v },
   field "envs" true (Decode.table format d) fun v t => { t with envs := v },
   field "labels" true (Decode.table format d) fun v t => { t with labels := v },
   field "annotations" true (Decode.table format d) fun v t => { t with annotations := v },
   field "logPath" true (readText d) fun v t => { t with logPath := v }]

def SandboxTemplate.read (s : List Char) : Except Data.Fault SandboxTemplate :=
  Json.decode (fun d => Decode.record format d "struct SandboxTemplate" (sandboxFields d) []
    .standard) s

def ContainerTemplate.read (s : List Char) : Except Data.Fault ContainerTemplate :=
  Json.decode (fun d => Decode.record format d "struct ContainerTemplate" (containerFields d) []
    .standard) s

/-! ## Messages -/

structure SandboxConfig where
  podName : String
  space : String
  attempt : Nat
  hostname : String
  logDirectory : String
  labels : List (String × String)
  annotations : List (String × String)
  deriving DecidableEq, Repr

structure ContainerConfig where
  name : String
  attempt : Nat
  image : String
  command : List String
  args : List String
  workingDir : String
  envs : List (String × String)
  labels : List (String × String)
  annotations : List (String × String)
  logPath : String
  deriving DecidableEq, Repr

namespace Templates

/-- The pod around a container. A pod without a host name of its own takes the pod's name. -/
def sandboxConfig (t : Templates) (container : String) : SandboxConfig where
  podName := Name.pod container
  space := t.sandbox.space
  attempt := t.sandbox.attempt
  hostname := if t.sandbox.hostname.isEmpty then Name.pod container else t.sandbox.hostname
  logDirectory := t.sandbox.logDirectory
  labels := t.sandbox.labels
  annotations := t.sandbox.annotations

/-- A command override takes the place of the template's command; its arguments stay. -/
def containerConfig (t : Templates) (c : Container) : Except EngineError ContainerConfig := do
  let command ← match c.command with
    | some command => Override.words command
    | none => pure t.container.command
  return {
    name := c.name
    attempt := t.sandbox.attempt
    image := c.image
    command := command
    args := t.container.args
    workingDir := t.container.workingDir
    envs := t.container.envs
    labels := t.container.labels
    annotations := t.container.annotations
    logPath := if t.container.logPath.isEmpty then c.name ++ ".log" else t.container.logPath }

end Templates

end EngineBench.Cri
