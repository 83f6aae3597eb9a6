-- Finding the program for a name.
import EngineBench.Host.Files

namespace EngineBench.Host

/-- What a program on the host can see: its files, and the directories in which programs are
looked for. -/
structure Surroundings where
  files : Files
  searchPath : List String

namespace Surroundings

/-- The directories of the search path. An empty search path is the directory one is in. -/
def directories (h : Surroundings) : List String :=
  if h.searchPath.isEmpty then [""] else h.searchPath

/-- The path of the program for a name, without links and dots. A name of more than one part is a
path; any other is looked for along the search path, and the first file counts. -/
def resolveProgram (h : Surroundings) (name : String) : Except EngineError String :=
  if 1 < partCount name then
    match h.files.canonical name with
    | .ok path => .ok path
    | .error cause => .error (.config (.unresolvedBinary name cause))
  else
    match (h.directories.map fun d => join d name).find? h.files.isFile with
    | some path =>
      match h.files.canonical path with
      | .ok path => .ok path
      | .error _ => .error (.config (.notOnSearchPath name))
    | none => .error (.config (.notOnSearchPath name))

/-- The place of the program that is started for a name. A name with a slash is a path; for any
other the first directory that has a program of that name counts, and a directory that has something
else of that name is remembered. -/
def findProgram (h : Surroundings) (name : String) : Except OsError Location :=
  if name.isEmpty then .error .notFound
  else if name.contains '/' then startable name
  else search .notFound h.directories
where
  startable (path : String) : Except OsError Location := do
    let l ← h.files.find path
    match h.files.node? l with
    | some (.file _ mode) => if mode &&& 0o111 = 0 then throw .permissionDenied else return l
    | _ => throw .permissionDenied
  search (failure : OsError) : List String → Except OsError Location
    | [] => .error failure
    | d :: rest =>
      match startable (join d name) with
      | .ok l => .ok l
      | .error .notFound => search failure rest
      | .error .notADirectory => search failure rest
      | .error .permissionDenied => search .permissionDenied rest
      | .error e => .error e

end Surroundings

end EngineBench.Host
