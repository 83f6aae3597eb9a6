-- The low-level runtimes: one program each, which unpacks nothing and runs a bundle.
import EngineBench.Engine.Runtime.Bundle
import EngineBench.Engine.Runtime.Listing

namespace EngineBench

inductive Flavour where
  | runc
  | crun
  | youki
  deriving DecidableEq, Repr

namespace Flavour

def ofKind? : Kind → Option Flavour
  | .runc => some runc
  | .crun => some crun
  | .youki => some youki
  | _ => none

def kind : Flavour → Kind
  | runc => .runc
  | crun => .crun
  | youki => .youki

/-- The name of the runtime's program. -/
def program : Flavour → String
  | runc => "runc"
  | crun => "crun"
  | youki => "youki"

end Flavour

structure OciRuntime where
  flavour : Flavour
  program : String
  deriving DecidableEq, Repr

namespace OciRuntime

def make (host : Host.Surroundings) (config : EngineConfig) : Except EngineError OciRuntime :=
  match Flavour.ofKind? config.kind with
  | some flavour => do
    return ⟨flavour, ← host.resolveProgram (config.path.getD flavour.program)⟩
  | none => .error (.config (.notARuntime config.kind))

def exec (e : OciRuntime) (args : List String) : Work String := Command.exec e.program args

/-- Youki has no trace and no foreground mode that could be measured. -/
def runArgs (e : OciRuntime) (c : Container) : List String :=
  (if c.trace && e.flavour ≠ .youki then ["--trace", "/tmp/" ++ c.name ++ ".trace"] else []) ++
    ["run"] ++ (if c.detached || e.flavour = .youki then ["--detach"] else []) ++
    ["--bundle", c.image, c.name]

def info (e : OciRuntime) : Work String := do
  let version ← e.exec ["--version"]
  return e.flavour.program ++ " driver (binary: " ++ e.program ++ ")\n" ++
    String.ofList (Text.trim version.toList)

/-- A bundle brings its own command, and any other is dropped. -/
def create (host : Host.Surroundings) (w : Wanted) : Work Container :=
  Work.ofExcept (Bundle.create host.files w none w.detached)

def run (e : OciRuntime) (c : Container) : Work String := Command.execSilent e.program (e.runArgs c)

def stop (e : OciRuntime) (name : String) : Work String := e.exec ["kill", name, "KILL"]

def remove (e : OciRuntime) (name : String) : Work String := e.exec ["delete", name]

def pause (e : OciRuntime) (name : String) : Work String := e.exec ["pause", name]

def unpause (e : OciRuntime) (name : String) : Work String := e.exec ["resume", name]

def removal (e : OciRuntime) : Removal := ⟨e.exec ["list"], e.stop, e.remove, e.unpause⟩

def clean (e : OciRuntime) : Work Unit := e.removal.clean

end OciRuntime

end EngineBench
