-- Requests to the HTTP interface of the Docker daemon, and its replies.
import EngineBench.Json.Value

namespace EngineBench.Docker

inductive Verb where
  | get
  | post
  | delete
  deriving DecidableEq, Repr

def Verb.name : Verb → String
  | .get => "GET"
  | .post => "POST"
  | .delete => "DELETE"

structure Request where
  verb : Verb
  path : String
  query : List (String × String)
  body : Option JsonValue

/-- The verb and the path of a request. -/
def Request.method (r : Request) : String := r.verb.name ++ " " ++ r.path

/-- A status, and the JSON documents that follow it. -/
structure Reply where
  status : Nat
  documents : List JsonValue

/-- Statuses of success, of an upgraded connection, and of nothing left to do. -/
def Reply.isSuccess (r : Reply) : Bool :=
  (200 ≤ r.status && r.status < 300) || r.status == 101 || r.status == 304

end EngineBench.Docker
