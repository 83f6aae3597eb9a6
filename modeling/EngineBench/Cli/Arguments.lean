-- Reads the arguments of the program. A switch with its value beside it is settled at once; one
-- whose value is the next word is settled when the next switch comes, or the end. Mistakes show in
-- that order.
import EngineBench.Bench.Sweep
import EngineBench.Cli.Switch

namespace EngineBench.Cli

/-! ## What is asked for -/

inductive Command where
  | version
  | run (benchmark : String) (options : SweepOptions)
  deriving DecidableEq, Repr

structure Arguments where
  logLevel : String
  command : Command
  deriving DecidableEq, Repr

def standardLogLevel : String := "warn"

/-- Why the arguments do not lead to a command. -/
inductive Refusal where
  | helpWanted (l : Level)
  | versionWanted
  /-- Nothing at all is asked for. -/
  | nothingAsked
  | noCommand
  | missing (s : Switch)
  | badValue (s : Switch)
  | repeated (s : Switch)
  | surplusValue (s : Switch)
  | unknownCommand (word : String)
  | unknownArgument (word : String)
  deriving DecidableEq, Repr

/-! ## The shape of one word -/

inductive Word where
  /-- Two dashes: no switch comes after them. -/
  | escape
  | long (name : String) (value : Option String)
  | short (letters : List Char)
  | plain
  deriving DecidableEq, Repr

def Word.ofText (text : String) : Word :=
  match text.toList with
  | ['-', '-'] => .escape
  | '-' :: '-' :: rest =>
    let name := rest.takeWhile (· ≠ '=')
    let value := match rest.dropWhile (· ≠ '=') with
      | _ :: v => some (String.ofList v)
      | [] => none
    .long (String.ofList name) value
  | '-' :: c :: rest => .short (c :: rest)
  | _ => .plain

/-! ## Switches and their values -/

/-- What was read at one level so far. -/
structure Progress where
  values : List (Switch × String)
  /-- A switch that is not settled, and the value that it was given. -/
  pending : Option (Switch × Option String)
  deriving DecidableEq, Repr

namespace Progress

def start : Progress := ⟨[], none⟩

/-- Whether the next word is the value of a switch, unless it is a switch itself. -/
def isWaiting (p : Progress) : Bool :=
  match p.pending with
  | some (_, none) => true
  | _ => false

/-- Gives a switch its value. A switch is given once, and a value that was repeated is refused
before a bad one. -/
def give (p : Progress) (s : Switch) (value : String) : Except Refusal Progress :=
  if (p.values.lookup s).isSome then .error (.repeated s)
  else if s.accepts value then .ok { p with values := p.values ++ [(s, value)] }
  else .error (.badValue s)

/-- Settles the switch that is pending. -/
def settle (p : Progress) : Except Refusal Progress :=
  match p.pending with
  | none => .ok p
  | some (s, none) => .error (.badValue s)
  | some (s, some value) => { p with pending := none }.give s value

/-- A switch without a value. Help and version end the reading. -/
def raise (l : Level) (p : Progress) (s : Switch) : Except Refusal Progress := do
  let p ← p.settle
  match s with
  | .help => throw (.helpWanted l)
  | .version => throw .versionWanted
  | s => p.give s ""

/-- A switch that takes a value, with the value beside it or without. -/
def take (p : Progress) (s : Switch) (value : Option String) : Except Refusal Progress := do
  let p ← p.settle
  match value with
  | some v => p.give s v
  | none => return { p with pending := some (s, none) }

def long (l : Level) (p : Progress) (name : String) (value : Option String) :
    Except Refusal Progress :=
  match l.long? name with
  | none => .error (.unknownArgument ("--" ++ name))
  | some s =>
    if s.takesValue then p.take s value
    else if value.isSome then .error (.surplusValue s)
    else p.raise l s

/-- The value beside a short switch, with an equals sign in front or without. -/
def valueBeside : List Char → Option String
  | [] => none
  | '=' :: rest => some (String.ofList rest)
  | rest => some (String.ofList rest)

/-- Several short switches in one word. The first one that takes a value takes the rest of it. -/
def short (l : Level) (p : Progress) : List Char → Except Refusal Progress
  | [] => .ok p
  | c :: rest =>
    match l.short? c with
    | none => .error (.unknownArgument (String.ofList ['-', c]))
    | some s =>
      if s.takesValue then p.take s (valueBeside rest)
      else do (← p.raise l s).short l rest

end Progress

/-! ## All words -/

/-- A word that no switch takes. After two dashes the name of a command is only out of place. -/
def stray (l : Level) (isEscaped : Bool) (word : String) : Refusal :=
  if isEscaped && (l.command? word).isSome then .unknownArgument word
  else if l.commands.isEmpty then .unknownArgument word
  else .unknownCommand word

/-- Help about a command. -/
def helpAbout (l : Level) : List String → Refusal
  | [] => .helpWanted l
  | word :: rest =>
    match l.command? word with
    | some below => helpAbout below rest
    | none => .unknownCommand word

/-- What has to be there when no command follows. -/
def check (l : Level) (p : Progress) : Except Refusal Unit :=
  match l with
  | .top => if p.values.isEmpty then .error .nothingAsked else .error .noCommand
  | .run => if (p.values.lookup .benchmark).isSome then .ok () else .error (.missing .benchmark)
  | _ => .ok ()

/-- The values of each level, from the outermost in. Mistakes after a command show before those
that are still pending in front of it. -/
def read (l : Level) (p : Progress) (isEscaped : Bool) :
    List String → Except Refusal (List (Level × List (Switch × String)))
  | [] => do
    let p ← p.settle
    check l p
    return [(l, p.values)]
  | word :: rest =>
    if isEscaped then .error (stray l true word)
    else
      let below := if p.isWaiting then none else l.command? word
      match below with
      | some .help => .error (helpAbout l rest)
      | some inner => do
        let found ← read inner .start false rest
        let p ← p.settle
        return (l, p.values) :: found
      | none =>
        match Word.ofText word with
        | .escape => read l p true rest
        | .long name value => do read l (← p.long l name value) false rest
        | .short letters => do read l (← p.short l letters) false rest
        | .plain =>
          match p.pending with
          | some (s, none) => read l { p with pending := some (s, some word) } false rest
          | _ => .error (stray l false word)

/-- The value of a switch at the innermost level that gives it. -/
def valueOf (levels : List (Level × List (Switch × String))) (s : Switch) : Option String :=
  levels.reverse.findSome? fun (_, values) => values.lookup s

/-- Reads the arguments that stand after the name of the program. -/
def Arguments.read (words : List String) : Except Refusal Arguments := do
  let levels ← Cli.read .top .start false words
  let given (s : Switch) : Bool := (valueOf levels s).isSome
  let options : SweepOptions := ⟨given .trace, given .skipLimit, given .overhead⟩
  let command := match valueOf levels .benchmark with
    | some file => .run file options
    | none => .version
  return ⟨(valueOf levels .logLevel).getD standardLogLevel, command⟩

end EngineBench.Cli
