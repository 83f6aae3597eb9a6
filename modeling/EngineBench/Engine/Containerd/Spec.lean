-- The runtime specification of a bundle, with the command that a benchmark asks for.
import EngineBench.Engine.Override
import EngineBench.Engine.Runtime.Bundle
import EngineBench.Json.Value

namespace EngineBench.Containerd

/-- Puts a command into a specification. One without a process has no place for it. -/
def setArgs (words : List String) (spec : JsonValue) : Option JsonValue :=
  match spec.member? "process" with
  | some process =>
    if process.isObject then
      some (spec.setMember "process" (process.setMember "args" (.list (words.map .string))))
    else none
  | none => none

/-- The specification of a bundle. A command takes the place of its own. -/
def spec (files : Host.Files) (bundle : String) (command : Option String) :
    Except EngineError JsonValue := do
  let bytes ← match files.read (Bundle.configPath bundle) with
    | .ok bytes => pure bytes
    | .error cause => throw (.io cause)
  let value ← match Text.Utf8.decode bytes with
    | .ok text =>
      match JsonValue.parse? text.toList with
      | some value => pure value
      | none => throw (.config (.badSpec bundle .malformed))
    | .error _ => throw (.config (.badSpec bundle .malformed))
  match command with
  | none => return value
  | some command =>
    let words ← Override.words command
    match setArgs words value with
    | some value => return value
    | none => throw (.config (.specWithoutProcess bundle))

/-- The specification of a bundle in the bytes that are handed on. -/
def encoded (files : Host.Files) (bundle : String) (command : Option String) :
    Except EngineError (List UInt8) :=
  (fun value => Text.Utf8.encode value.text) <$> spec files bundle command

end EngineBench.Containerd
