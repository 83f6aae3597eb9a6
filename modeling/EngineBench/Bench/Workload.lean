-- What a bench does with its containers.
namespace EngineBench

/-- The containers of a bench and the commands for each of them. -/
structure Workload where
  name : String
  /-- A reference to an image, or the path of a bundle. -/
  image : String
  command : Option String
  detached : Bool
  trace : Bool
  commands : List String
  deriving DecidableEq, Repr

end EngineBench
