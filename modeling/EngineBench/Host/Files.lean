-- The files of a host below one directory: where a path leads, through links and past dots, and
-- what is found there. Paths without a leading slash start in that directory.
import EngineBench.Engine.Error
import EngineBench.Text.Blank

namespace EngineBench.Host

/-- The names on the way from the top directory to a file. -/
abbrev Place := List String

inductive Node where
  | file (bytes : List UInt8) (mode : Nat)
  | dir
  | link (target : String)
  | socket
  deriving DecidableEq, Repr

structure Files where
  /-- The path of the top directory, or nothing if there is none above it. Nothing but the top
  directory is below the directories above it. -/
  base : String
  nodes : List (Place × Node)

/-! ## Paths -/

/-- The names of a path. Repeated slashes count once, and a slash at the end stands for the
directory itself. -/
def names (path : List Char) : List String :=
  let pieces := cut path
  let found := pieces.filter (· ≠ [])
  let found := if !found.isEmpty && pieces.getLast? == some [] then found ++ [['.']] else found
  found.map String.ofList
where
  cut : List Char → List (List Char)
    | [] => [[]]
    | c :: s => if c = '/' then [] :: cut s else Text.openColumn c (cut s)

/-- A path and a name in it. A name with a leading slash is a path of its own. -/
def join (path name : String) : String :=
  if name.toList.head? == some '/' || path.isEmpty then name
  else if path.toList.getLast? == some '/' then path ++ name
  else path ++ "/" ++ name

/-- How many parts a path has once its superfluous slashes and dots are gone: the leading slash or
dot, and the names. -/
def partCount (path : String) : Nat :=
  let s := path.toList
  let steps := (names s).filter (· ≠ ".")
  let start := match s with
    | '/' :: _ => 1
    | ['.'] => 1
    | '.' :: '/' :: _ => 1
    | _ => 0
  start + steps.length

/-! ## Where a path leads -/

/-- A place that was reached: below the top directory, or a directory above it. -/
inductive Location where
  | inside (p : Place)
  | above (p : Place)
  deriving DecidableEq, Repr

/-- The text that bytes encode, if they do. -/
def textOf (bytes : List UInt8) : Except OsError String :=
  match Text.Utf8.decode bytes with
  | .ok text => .ok text
  | .error _ => .error .notText

namespace Files

def node? (f : Files) : Location → Option Node
  | .inside [] => some .dir
  | .inside p => f.nodes.lookup p
  | .above _ => some .dir

def isDirectory (f : Files) (l : Location) : Bool := f.node? l == some .dir

/-- The names on the way to the top directory. -/
def top (f : Files) : Place := names f.base.toList

def parent (f : Files) : Location → Location
  | .inside [] => if f.base.isEmpty then .inside [] else .above f.top.dropLast
  | .inside p => .inside p.dropLast
  | .above p => .above p.dropLast

/-- Where a path starts, and the names behind that. -/
def start (f : Files) (from_ : Location) (path : List Char) : Location × List String :=
  match Text.after (f.base.toList ++ ['/']) path with
  | some rest => (.inside [], names rest)
  | none =>
    if path.head? == some '/' then (.above [], names path)
    else (from_, names path)

def nameLimit : Nat := 255

/-- Walks along names. Every name but the last leads through a directory; at a link, `follow` takes
over with the names that are left. -/
def step (f : Files) (follow : Location → List String → Except OsError Location) :
    Location → List String → Except OsError Location
  | l, [] => .ok l
  | l, name :: rest =>
    if !f.isDirectory l then .error .notADirectory
    else if name == "." then step f follow l rest
    else if name == ".." then step f follow (f.parent l) rest
    else if nameLimit < name.utf8ByteSize then .error .nameTooLong
    else
      match l with
      | .above p =>
        if p ++ [name] = f.top then step f follow (.inside []) rest
        else if (p ++ [name]).isPrefixOf f.top then step f follow (.above (p ++ [name])) rest
        else .error .notFound
      | .inside p =>
        match f.nodes.lookup (p ++ [name]) with
        | none => .error .notFound
        | some (.link target) =>
          if target.isEmpty then .error .notFound
          else
            let (l, way) := f.start l target.toList
            follow l (way ++ rest)
        | some _ => step f follow (.inside (p ++ [name])) rest

/-- Walks along names and through at most `links` links. -/
def walk (f : Files) : Nat → Location → List String → Except OsError Location
  | 0 => step f fun _ _ => .error .linkLoop
  | links + 1 => step f (walk f links)

def linkLimit : Nat := 40

/-- The place at the end of a path. -/
def find (f : Files) (path : String) : Except OsError Location :=
  if path.isEmpty then .error .notFound
  else if path.contains '\x00' then .error .nulInPath
  else
    let (l, way) := f.start (.inside []) path.toList
    f.walk linkLimit l way

def findNode (f : Files) (path : String) : Except OsError Node := do
  match f.node? (← f.find path) with
  | some n => return n
  | none => throw .notFound

def exists? (f : Files) (path : String) : Bool := (f.find path).isOk

def isFile (f : Files) (path : String) : Bool :=
  match f.findNode path with
  | .ok (.file _ _) => true
  | _ => false

def isSocket (f : Files) (path : String) : Bool :=
  match f.findNode path with
  | .ok .socket => true
  | _ => false

/-- The path of a place without links and dots. -/
def pathOf (f : Files) : Location → String
  | .inside [] => if f.base.isEmpty then "/" else f.base
  | .inside p => String.intercalate "/" (f.base :: p)
  | .above p => "/" ++ String.intercalate "/" p

def canonical (f : Files) (path : String) : Except OsError String := f.pathOf <$> f.find path

/-! ## Contents -/

def read (f : Files) (path : String) : Except OsError (List UInt8) := do
  match ← f.findNode path with
  | .file bytes _ => return bytes
  | .dir => throw .isDirectory
  | .link _ => throw .linkLoop
  | .socket => throw .noDevice

def readText (f : Files) (path : String) : Except OsError String := (f.read path).bind textOf

/-! ## Changes -/

def setNode (p : Place) (n : Node) : List (Place × Node) → List (Place × Node)
  | [] => [(p, n)]
  | (q, m) :: rest => if q = p then (q, n) :: rest else (q, m) :: setNode p n rest

/-- The places above a place, the outermost first. -/
def above (p : Place) : List Place := (List.range p.length).tail.map p.take

/-- Puts a node at a path, and directories above it where nothing is. -/
def put (f : Files) (path : String) (n : Node) : Files :=
  let p := (names path.toList).filter (· ≠ ".")
  let nodes := (above p).foldl
    (fun nodes q => if (nodes.lookup q).isNone then setNode q .dir nodes else nodes) f.nodes
  { f with nodes := if p.isEmpty then nodes else setNode p n nodes }

/-- Removes what is at a path and below it. -/
def remove (f : Files) (path : String) : Files :=
  let p := (names path.toList).filter (· ≠ ".")
  { f with nodes := f.nodes.filter fun e => !p.isPrefixOf e.1 }

end Files

end EngineBench.Host
