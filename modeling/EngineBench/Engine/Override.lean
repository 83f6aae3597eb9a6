-- The command that a benchmark gives its containers in place of their own.
import EngineBench.Engine.Error
import EngineBench.Text.Words

namespace EngineBench.Override

/-- The words of a command. -/
def words (command : String) : Except EngineError (List String) :=
  match Text.Words.split command with
  | some words => .ok words
  | none => .error (.config (.unsplittable command))

/-- The words of a command, if there is one. -/
def words? : Option String → Except EngineError (Option (List String))
  | none => .ok none
  | some command => some <$> words command

end EngineBench.Override
