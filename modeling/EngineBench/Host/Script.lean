-- A host that answers from a script: its programs and its daemon follow rules, and remember what
-- they were asked. A benchmark can be rehearsed on it without an engine.
import EngineBench.Engine.Exchange
import EngineBench.Host.Rule
import EngineBench.Host.Search

namespace EngineBench.Host

/-! ## Programs -/

/-- What a program does when its arguments start with the given ones. -/
structure ProgramRule where
  args : List String
  outcome : Outcome

structure Program where
  path : String
  rules : List (Rule ProgramRule)
  /-- The arguments of every call, the first call in front. -/
  calls : List (List String)

/-- Without a rule a program succeeds and writes nothing. -/
def Program.call (p : Program) (args : List String) : Outcome × Program :=
  let (found, rules) := Rule.use (fun r => r.args.isPrefixOf args) p.rules
  let outcome := match found with
    | some r => r.outcome
    | none => ⟨.exited 0, [], []⟩
  (outcome, { p with rules := rules, calls := p.calls ++ [args] })

/-! ## The daemon -/

/-- Everything that a remote call can be answered with. -/
structure Fields where
  version : String
  revision : String
  runtimeName : String
  runtimeVersion : String
  runtimeApiVersion : String
  id : String
  ids : List String
  pid : Nat
  exitStatus : Nat
  items : List Cri.Listed
  present : Bool

def Fields.blank : Fields := ⟨"", "", "", "", "", "", [], 0, 0, [], false⟩

inductive DaemonReply where
  | http (r : Docker.Reply)
  | fault (f : RpcFault)
  | fields (f : Fields)

structure DaemonRule where
  method : String
  target : Option String
  reply : DaemonReply

structure Daemon where
  socket : String
  rules : List (Rule DaemonRule)
  /-- Every request, the first in front. -/
  requests : List Ask

def Daemon.call (d : Daemon) (method : String) (target : Option String) (q : Ask) :
    Option DaemonReply × Daemon :=
  let applies (r : DaemonRule) : Bool :=
    r.method == method && (r.target.isNone || r.target == target)
  let (found, rules) := Rule.use applies d.rules
  (found.map DaemonRule.reply, { d with rules := rules, requests := d.requests ++ [q] })

def notScripted : Docker.Reply := ⟨404, [.object [("message", .string "nothing scripted")]]⟩

def containerdReply (f : Fields) : (r : Containerd.Request) → r.Reply
  | .version => ⟨f.version, f.revision⟩
  | .listContainers => f.ids
  | .startTask _ => f.pid
  | .waitTask _ => f.exitStatus
  | .createContainer _ => ()
  | .deleteContainer _ => ()
  | .createTask _ _ => ()
  | .killTask _ _ _ => ()
  | .deleteTask _ => ()
  | .pauseTask _ => ()
  | .resumeTask _ => ()

def criReply (f : Fields) : (r : Cri.Request) → r.Reply
  | .version => ⟨f.version, f.runtimeName, f.runtimeVersion, f.runtimeApiVersion⟩
  | .imageStatus _ => f.present
  | .runPod _ => f.id
  | .createContainer _ _ _ => f.id
  | .listPods => f.items
  | .listContainers _ => f.items
  | .pullImage _ => ()
  | .stopPod _ => ()
  | .removePod _ => ()
  | .startContainer _ => ()
  | .stopContainer _ => ()
  | .removeContainer _ => ()

/-- A remote call answers with its fields, or fails as the rule says. -/
def rpcReply {α : Type} (read : Fields → α) : Option DaemonReply → Except RpcFault α
  | some (.fault f) => .error f
  | some (.fields f) => .ok (read f)
  | _ => .ok (read .blank)

def httpReply : Option DaemonReply → Docker.Reply
  | some (.http r) => r
  | _ => notScripted

/-! ## The host -/

structure Script where
  host : Surroundings
  programs : List (Location × Program)
  daemon : Option Daemon
  /-- How much time has passed. -/
  clock : Duration

namespace Script

def setProgram (l : Location) (p : Program) : List (Location × Program) → List (Location × Program)
  | [] => []
  | (m, q) :: rest => if m = l then (m, p) :: rest else (m, q) :: setProgram l p rest

def hasNul (program : String) (args : List String) : Bool :=
  program.contains '\x00' || args.any (·.contains '\x00')

/-- Runs a program. A file that is none of the programs has no format that could be run. -/
def start (program : String) (args : List String) : StateM Script (Except OsError Outcome) := do
  let s ← get
  if hasNul program args then return .error .nulInArgument
  match s.host.findProgram program with
  | .error e => return .error e
  | .ok l =>
    match s.programs.lookup l with
    | none => return .error .badFormat
    | some p =>
      let (outcome, p) := p.call args
      set { s with programs := setProgram l p s.programs }
      return .ok outcome

/-- Passes a request on to the daemon. -/
def send (method : String) (target : Option String) (q : Ask) :
    StateM Script (Option (Option DaemonReply)) := do
  let s ← get
  match s.daemon with
  | none => return none
  | some d =>
    let (reply, d) := d.call method target q
    set { s with daemon := some d }
    return some reply

def unavailable : RpcFault := ⟨.unavailable, "transport error"⟩

def respond : (q : Ask) → StateM Script q.Answer
  | .exec program args => start program args
  | .execSilent program args => do return (← start program args).map Outcome.status
  | .stream program args => do return (← start program args).map Outcome.out
  | .docker r => do
    match ← send r.method none (.docker r) with
    | some reply => return .ok (httpReply reply)
    | none => return .error .unreachable
  | .containerd r => do
    match ← send r.method r.target? (.containerd r) with
    | some reply => return rpcReply (containerdReply · r) reply
    | none => return .error unavailable
  | .cri r => do
    match ← send r.method r.target? (.cri r) with
    | some reply => return rpcReply (criReply · r) reply
    | none => return .error unavailable
  | .rest d => modify fun s => { s with clock := ⟨s.clock.nanos + d.nanos⟩ }

/-- Does some work on the host. -/
def run {α : Type} (w : Work α) : StateM Script (Except EngineError α) := Dialogue.run respond w.run

/-! ## Making a host -/

def empty (files : Files) (searchPath : List String) : Script :=
  ⟨⟨files, searchPath⟩, [], none, Duration.zero⟩

/-- Puts a program on the host. -/
def addProgram (s : Script) (p : Program) : Script :=
  let files := s.host.files.put p.path (.file [] 0o755)
  let l := match files.find p.path with
    | .ok l => l
    | .error _ => .above []
  { s with host := { s.host with files := files }, programs := s.programs ++ [(l, p)] }

def addDaemon (s : Script) (d : Daemon) : Script :=
  { s with
    host := { s.host with files := s.host.files.put d.socket .socket }
    daemon := some d }

end Script

end EngineBench.Host
