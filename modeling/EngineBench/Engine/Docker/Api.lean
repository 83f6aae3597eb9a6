-- The Docker daemon over its own interface, without a client program.
import EngineBench.Engine.Command
import EngineBench.Engine.Docker.Usage
import EngineBench.Engine.Override
import EngineBench.Host.Search

namespace EngineBench

structure DockerApi where
  /-- The socket of the daemon, as it was given. -/
  endpoint : String
  logDriver : Option String
  logOptions : List (String × String)
  streamStats : Bool
  deriving DecidableEq, Repr

namespace DockerApi

open Docker (Reply Request Shape Verb)

/-! ## Reading replies -/

/-- The reply itself if it tells of success. Any other is an error with the message that the daemon
gives, or with the whole document if that holds none. -/
def accept (r : Reply) : Except ApiError Reply :=
  if r.isSuccess then .ok r
  else
    .error (.refused r.status (match r.documents with
      | [] => ""
      | v :: _ =>
        match v.member? "message" with
        | some (.string text) => text
        | _ => v.text))

/-- The one document of a reply. -/
def document (r : Reply) : Except ApiError JsonValue :=
  match r.documents with
  | [] => .error .noDocument
  | [v] => .ok v
  | _ => .error (.badDocument "trailing characters")

/-- A text that an object may or may not have. -/
def textMember (name : String) (v : JsonValue) : Except ApiError (Option String) :=
  match v with
  | .object members =>
    match members.lookup name with
    | none => .ok none
    | some .null => .ok none
    | some (.string s) => .ok (some s)
    | some _ => Shape.misfit "a string"
  | _ => Shape.misfit "a map"

def textsMember (name : String) (v : JsonValue) : Except ApiError (List String) :=
  match v.member? name with
  | none => .ok []
  | some .null => .ok []
  | some (.list items) => items.mapM fun item =>
    match item with
    | .string s => .ok s
    | _ => Shape.misfit "a string"
  | some _ => Shape.misfit "a sequence"

/-- What the daemon says about one step of pulling an image. -/
def pullStep (v : JsonValue) : Except ApiError Unit := do
  match ← textMember "error" v with
  | some text => throw (.stream text)
  | none => return ()

/-- The exit code in a document of a wait. A code above zero is a failure, unless the document has
an error without a message. -/
def exitCode (v : JsonValue) : Except ApiError Int := do
  let code ← match v with
    | .object members =>
      match members.lookup "StatusCode" with
      | some (.number (.natural n)) => pure (n : Int)
      | some (.number (.negative n)) => pure n
      | some _ => Shape.misfit "i64"
      | none => Shape.absent "StatusCode" members
    | _ => Shape.misfit "a map"
  if code ≤ 0 then return code
  match v.member? "Error" with
  | none => throw (.waitFailed "" code)
  | some .null => throw (.waitFailed "" code)
  | some e =>
    match ← textMember "Message" e with
    | some text => throw (.waitFailed text code)
    | none => return code

/-- The id of a new container. Warnings come with it, be it as an empty list. -/
def newId (v : JsonValue) : Except ApiError String :=
  match v with
  | .object members => do
    let id ← match members.lookup "Id" with
      | some (.string id) => pure id
      | some _ => Shape.misfit "a string"
      | none => Shape.absent "Id" members
    let _ ← textsMember "Warnings" v
    if (members.lookup "Warnings").isNone then Shape.absent "Warnings" members else return id
  | _ => Shape.misfit "a map"

/-- A container in the daemon's list: its id, if it has one, and its names. -/
structure Listed where
  id : Option String
  names : List String
  deriving DecidableEq, Repr

def listed (v : JsonValue) : Except ApiError (List Listed) :=
  match v with
  | .list items => items.mapM fun item => do
    return ⟨← textMember "Id" item, ← textsMember "Names" item⟩
  | _ => Shape.misfit "a sequence"

/-- The id of a container that a sweep removes. -/
def Listed.victim? (c : Listed) : Option String :=
  if c.names.any Name.isBenchmark then c.id else none

/-! ## Requests -/

/-- An error of the interface as an error of the engine. -/
def raise {α : Type} (r : Except ApiError α) : Work α :=
  match r with
  | .ok a => return a
  | .error cause => throw (.docker cause)

def request (verb : Verb) (path : String) (query : List (String × String))
    (body : Option JsonValue) : Work Reply := do
  let reply ← raise (← Work.ask (.docker ⟨verb, path, query, body⟩))
  raise (accept reply)

def get (path : String) (query : List (String × String)) : Work Reply :=
  request .get path query none

def post (path : String) (query : List (String × String)) : Work Reply :=
  request .post path query none

def getDocument (path : String) (query : List (String × String)) : Work JsonValue := do
  raise (document (← get path query))

/-! ## Operations -/

def standardSocket : String := "/var/run/docker.sock"

/-- The socket behind a path that may name its scheme. -/
def socketPath (path : String) : String :=
  match Text.after "unix://".toList path.toList with
  | some rest => String.ofList rest
  | none => path

def make (host : Host.Surroundings) (config : EngineConfig) : Except EngineError DockerApi :=
  let socket := socketPath (config.path.getD standardSocket)
  if host.files.exists? socket then
    .ok ⟨config.path.getD "local default", config.logDriver, config.logOptions,
      config.streamStats⟩
  else .error (.docker (.noSocket socket))

def info : Work String := do
  let version ← getDocument "/version" []
  let server ← raise (textMember "Version" version)
  let api ← raise (textMember "ApiVersion" version)
  let info ← getDocument "/info" []
  let kernel ← raise (textMember "KernelVersion" info)
  let storage ← raise (textMember "Driver" info)
  return "docker API driver [SERVER:" ++ server.getD "" ++ "|API:" ++ api.getD "" ++ "|Kernel:" ++
    kernel.getD "" ++ "|Storage:" ++ storage.getD "" ++ "]"

/-- Pulls an image unless the daemon can describe it. -/
def ensureImage (image : String) : Work Unit := do
  match ← Work.attempt (getDocument ("/images/" ++ image ++ "/json") []) with
  | .ok (.object _) => return ()
  | _ =>
    let reply ← post "/images/create" [("fromImage", image)]
    raise (reply.documents.forM pullStep)

def logConfig (e : DockerApi) : JsonValue :=
  match e.logDriver with
  | none => .object []
  | some driver =>
    .object [("LogConfig", .object
      [("Config", .object (e.logOptions.map fun (k, v) => (k, .string v))),
       ("Type", .string driver)])]

/-- What the daemon is told about a new container. -/
def newContainer (e : DockerApi) (image : String) (command : Option (List String)) : JsonValue :=
  let command := match command with
    | some words => [("Cmd", JsonValue.list (words.map JsonValue.string))]
    | none => []
  .object (command ++ [("HostConfig", e.logConfig), ("Image", .string image)])

def create (e : DockerApi) (w : Wanted) : Work Container := do
  ensureImage w.image
  let command ← Work.ofExcept (Override.words? w.command)
  let reply ← request .post "/containers/create" [("name", w.name)]
    (some (e.newContainer w.image command))
  let _ ← raise (newId (← raise (document reply)))
  return ⟨w.name, w.image, w.command, w.detached, w.trace, none⟩

def removeById (id : String) : Work Unit := do
  let _ ← request .delete ("/containers/" ++ id)
    [("force", "true"), ("link", "false"), ("v", "false")] none
  return ()

def filters : String :=
  (JsonValue.object [("name", .list [.string Name.mark])]).text

/-- Removes the containers of benchmarks one by one; the first that cannot be removed ends the
sweep. -/
def clean : Work Unit := do
  let all ← raise (listed (← getDocument "/containers/json"
    [("all", "true"), ("filters", filters), ("size", "false")]))
  (all.filterMap Listed.victim?).forM removeById

/-- Something that is done to a container and has no output. -/
def act (name verb : String) (query : List (String × String)) : Work String := do
  let _ ← post ("/containers/" ++ name ++ "/" ++ verb) query
  return ""

def run (c : Container) : Work String := act c.name "start" []

/-- Seconds that a container has to stop before it is killed. -/
def stopSeconds : Nat := 10

def stop (name : String) : Work String := act name "stop" [("t", toString stopSeconds)]

def remove (name : String) : Work String := do
  removeById name
  return ""

def pause (name : String) : Work String := act name "pause" []

def unpause (name : String) : Work String := act name "unpause" []

/-- The exit code in the last document, or nothing if there is none. -/
def wait (name : String) : Work String := do
  let reply ← post ("/containers/" ++ name ++ "/wait") []
  let codes ← raise (reply.documents.mapM exitCode)
  return match codes.getLast? with
    | some code => "exit code " ++ toString code
    | none => ""

/-- A document of the usage stream as text. -/
def usageItem (v : JsonValue) : Except EngineError String :=
  match Shape.usage.fit v with
  | .ok v => .ok v.text
  | .error cause => .error (.docker cause)

/-- The daemon is asked once the stream is read. -/
def stats (e : DockerApi) (name : String) : Command.Stream :=
  let read : Work (List (Except EngineError String)) := do
    let reply ← get ("/containers/" ++ name ++ "/stats")
      [("one-shot", toString (!e.streamStats)), ("stream", toString e.streamStats)]
    return reply.documents.map usageItem
  return (do
    match ← read.run with
    | .ok items => return items
    | .error e => return [.error e])

end DockerApi

end EngineBench
