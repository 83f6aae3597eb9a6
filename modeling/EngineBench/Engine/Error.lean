-- What can go wrong between the program and an engine, by cause, and the words for it.
import EngineBench.Data.Mismatch
import EngineBench.Engine.Kind
import EngineBench.Text.Utf8

namespace EngineBench

/-! ## Causes from the operating system -/

inductive OsError where
  | notFound
  | isDirectory
  | notADirectory
  | permissionDenied
  | linkLoop
  | nameTooLong
  | badFormat
  | nulInPath
  | nulInArgument
  | noDevice
  | notText
  | badLine (fault : Text.Utf8.Fault)
  | other (text : String)
  deriving DecidableEq, Repr

def OsError.message : OsError → String
  | .notFound => "No such file or directory (os error 2)"
  | .isDirectory => "Is a directory (os error 21)"
  | .notADirectory => "Not a directory (os error 20)"
  | .permissionDenied => "Permission denied (os error 13)"
  | .linkLoop => "Too many levels of symbolic links (os error 40)"
  | .nameTooLong => "File name too long (os error 36)"
  | .badFormat => "Exec format error (os error 8)"
  | .nulInPath => "file name contained an unexpected NUL byte"
  | .nulInArgument => "nul byte found in provided data"
  | .noDevice => "No such device or address (os error 6)"
  | .notText => "stream did not contain valid UTF-8"
  | .badLine fault => fault.message
  | .other text => text

/-! ## How a process ended -/

/-- The status word that waiting for a process gives. -/
structure WaitStatus where
  word : UInt32
  deriving DecidableEq, Repr

namespace WaitStatus

def exited (code : Nat) : WaitStatus := ⟨UInt32.ofNat (code % 256 * 256)⟩

def killed (signal : Nat) : WaitStatus := ⟨UInt32.ofNat (signal % 128)⟩

def isSuccess (s : WaitStatus) : Bool := s.word == 0

def signalNames : List (Nat × String) :=
  [(1, "SIGHUP"), (2, "SIGINT"), (3, "SIGQUIT"), (4, "SIGILL"), (5, "SIGTRAP"), (6, "SIGABRT"),
   (7, "SIGBUS"), (8, "SIGFPE"), (9, "SIGKILL"), (10, "SIGUSR1"), (11, "SIGSEGV"),
   (12, "SIGUSR2"), (13, "SIGPIPE"), (14, "SIGALRM"), (15, "SIGTERM"), (16, "SIGSTKFLT"),
   (17, "SIGCHLD"), (18, "SIGCONT"), (19, "SIGSTOP"), (20, "SIGTSTP"), (21, "SIGTTIN"),
   (22, "SIGTTOU"), (23, "SIGURG"), (24, "SIGXCPU"), (25, "SIGXFSZ"), (26, "SIGVTALRM"),
   (27, "SIGPROF"), (28, "SIGWINCH"), (29, "SIGIO"), (30, "SIGPWR"), (31, "SIGSYS")]

def signalText (n : Nat) : String :=
  toString n ++ match signalNames.lookup n with
    | some name => " (" ++ name ++ ")"
    | none => ""

/-- The low seven bits tell how the process ended, the next bit whether it left a core. -/
def text (s : WaitStatus) : String :=
  let n := s.word.toNat
  let low := n % 128
  let high := n / 256 % 256
  if low = 0 then "exit status: " ++ toString high
  else if n % 256 = 127 then "stopped (not terminated) by signal: " ++ signalText high
  else if n = 0xFFFF then "continued (WIFCONTINUED)"
  else if low = 127 then
    "unrecognised wait status: " ++ toString (Int32.ofBitVec s.word.toBitVec).toInt ++ " " ++
      "0x" ++ String.ofList (Nat.toDigits 16 n)
  else
    "signal: " ++ signalText low ++ (if n / 128 % 2 = 1 then " (core dumped)" else "")

end WaitStatus

/-! ## Answers of a daemon -/

/-- The status codes of a remote call, in the order of their numbers. -/
inductive RpcCode where
  | ok | cancelled | unknown | invalidArgument | deadlineExceeded | notFound | alreadyExists
  | permissionDenied | resourceExhausted | failedPrecondition | aborted | outOfRange
  | unimplemented | internal | unavailable | dataLoss | unauthenticated
  deriving DecidableEq, Repr

namespace RpcCode

def all : List RpcCode :=
  [ok, cancelled, unknown, invalidArgument, deadlineExceeded, notFound, alreadyExists,
   permissionDenied, resourceExhausted, failedPrecondition, aborted, outOfRange,
   unimplemented, internal, unavailable, dataLoss, unauthenticated]

/-- A number outside the list is an unknown code. -/
def ofNumber (n : Nat) : RpcCode := all.getD n unknown

def name : RpcCode → String
  | ok => "Ok"
  | cancelled => "Cancelled"
  | unknown => "Unknown"
  | invalidArgument => "InvalidArgument"
  | deadlineExceeded => "DeadlineExceeded"
  | notFound => "NotFound"
  | alreadyExists => "AlreadyExists"
  | permissionDenied => "PermissionDenied"
  | resourceExhausted => "ResourceExhausted"
  | failedPrecondition => "FailedPrecondition"
  | aborted => "Aborted"
  | outOfRange => "OutOfRange"
  | unimplemented => "Unimplemented"
  | internal => "Internal"
  | unavailable => "Unavailable"
  | dataLoss => "DataLoss"
  | unauthenticated => "Unauthenticated"

end RpcCode

/-- A failed call on the HTTP interface of the Docker daemon. -/
inductive ApiError where
  | refused (status : Nat) (message : String)
  | stream (message : String)
  | waitFailed (message : String) (code : Int)
  | noSocket (path : String)
  | badDocument (reason : String)
  | noDocument
  | unreachable
  deriving DecidableEq, Repr

def ApiError.message : ApiError → String
  | .refused status message =>
    "Docker responded with status code " ++ toString status ++ ": " ++ message
  | .stream _ => "Docker stream error"
  | .waitFailed _ _ => "Docker container wait error"
  | .noSocket path => "Socket not found: " ++ path
  | .badDocument reason => "Failed to deserialize JSON: " ++ reason
  | .noDocument => "EOF while parsing a value at line 1 column 0"
  | .unreachable => "client error (Connect)"

/-! ## Settings that cannot work -/

inductive SettingError where
  | unknownKind (text : String)
  | notARuntime (kind : Kind)
  | unresolvedBinary (name : String) (cause : OsError)
  | notOnSearchPath (name : String)
  | notABundle (bundle config : String)
  | unsplittable (command : String)
  | badSpec (bundle : String) (fault : Data.Fault)
  | specWithoutProcess (bundle : String)
  | badTemplate (file : String) (fault : Data.Fault)
  | noDaemon (names : List String)
  | stated (message : String)
  deriving DecidableEq, Repr

def SettingError.message : SettingError → String
  | .unknownKind text => "no such driver type: " ++ text
  | .notARuntime kind => kind.name ++ " is not an OCI runtime driver"
  | .unresolvedBinary name cause => "unable to resolve binary " ++ name ++ ": " ++ cause.message
  | .notOnSearchPath name => "unable to find binary " ++ name ++ " on PATH"
  | .notABundle bundle config => bundle ++ " is not an OCI bundle (missing " ++ config ++ ")"
  | .unsplittable command => "command override is not POSIX compliant: " ++ command
  | .badSpec bundle fault => "invalid runtime spec in " ++ bundle ++ fault.note
  | .specWithoutProcess bundle => "runtime spec in " ++ bundle ++ " has no process"
  | .badTemplate file fault => "invalid CRI template " ++ file ++ fault.note
  | .noDaemon names => "no running process named " ++ String.intercalate "|" names
  | .stated message => message

/-! ## Errors of an engine -/

inductive EngineError where
  | notImplemented (operation : String) (kind : Kind)
  | cancelled
  | noContainer (name : String)
  | spawn (command : String) (cause : OsError)
  | exec (command : String) (status : WaitStatus) (output : String)
  | docker (cause : ApiError)
  | rpc (code : RpcCode) (message : String)
  | connect (endpoint reason : String)
  | config (cause : SettingError)
  | io (cause : OsError)
  deriving DecidableEq, Repr

namespace EngineError

def message : EngineError → String
  | .notImplemented operation kind =>
    operation ++ " is not implemented by the " ++ kind.name ++ " driver"
  | .cancelled => "operation cancelled"
  | .noContainer name => "no container handle for " ++ name ++ ", create failed"
  | .spawn command _ => "failed to spawn `" ++ command ++ "`"
  | .exec command status output =>
    "`" ++ command ++ "` exited with " ++ status.text ++ ": " ++ output
  | .docker cause => "docker api error: " ++ cause.message
  | .rpc code message => "rpc failed with " ++ code.name ++ ": " ++ message
  | .connect endpoint reason => "unable to connect to " ++ endpoint ++ ": " ++ reason
  | .config cause => cause.message
  | .io cause => cause.message

/-- The message and, after it, the messages of the causes that the error keeps apart from it. -/
def chain : EngineError → List String
  | .spawn command cause => [message (.spawn command cause), OsError.message cause]
  | .docker cause => [message (.docker cause), ApiError.message cause]
  | e => [e.message]

end EngineError

end EngineBench
