-- The handle of one container, and what is needed to make an engine.
import EngineBench.Engine.Kind

namespace EngineBench

/-- The handle of the container of one iteration. No two workers share one. -/
structure Container where
  name : String
  /-- A reference to an image, or the path of a bundle. -/
  image : String
  command : Option String
  detached : Bool
  trace : Bool
  podId : Option String
  deriving DecidableEq, Repr

/-- A container that is asked for. -/
structure Wanted where
  name : String
  image : String
  command : Option String
  detached : Bool
  trace : Bool
  deriving DecidableEq, Repr

/-- Everything that is needed to make an engine. `path` is a client program or a socket, and each
kind of engine has a path of its own if none is given. -/
structure EngineConfig where
  kind : Kind
  path : Option String
  logDriver : Option String
  logOptions : List (String × String)
  streamStats : Bool
  sandboxFile : Option String
  containerFile : Option String
  deriving DecidableEq, Repr

def EngineConfig.plain (kind : Kind) : EngineConfig := ⟨kind, none, none, [], false, none, none⟩

end EngineBench
