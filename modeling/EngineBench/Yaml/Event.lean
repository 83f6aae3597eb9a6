-- The structure of a YAML text as a row of events: documents, lists, maps, scalars and aliases.
-- A machine with a stack of states reads it off the tokens.
import EngineBench.Yaml.Lexer

namespace EngineBench.Yaml

/-- What may stand in front of a node. -/
structure Properties where
  anchor : Option String
  tag : Option String
  deriving DecidableEq, Repr

def Properties.none : Properties := ⟨.none, .none⟩

inductive Event where
  | documentStart
  | documentEnd
  | streamEnd
  | alias (name : String)
  | scalar (p : Properties) (text : String) (style : Style)
  | sequenceStart (p : Properties)
  | sequenceEnd
  | mappingStart (p : Properties)
  | mappingEnd
  deriving DecidableEq, Repr

/-- What the machine expects next. -/
inductive State where
  | firstDocument
  | document
  | documentContent
  | documentEnd
  | blockNode
  | blockSequenceFirst
  | blockSequence
  | indentlessSequence
  | blockMappingFirst
  | blockMapping
  | blockMappingValue
  | flowSequenceFirst
  | flowSequence
  | flowPairKey
  | flowPairValue
  | flowPairEnd
  | flowMappingFirst
  | flowMapping
  | flowMappingValue
  | flowMappingEmptyValue
  | finished
  deriving DecidableEq, Repr

structure Machine where
  lexer : Lexer
  state : State
  stack : List State
  handles : List (String × String)

namespace Machine

def start (text : List Char) : Machine := ⟨Lexer.start text, .firstDocument, [], []⟩

/-- One step: the event and the machine behind it, or nothing if the text is wrong. -/
abbrev Step := Option (Event × Machine)

def peek (m : Machine) : Option (Token × Machine) :=
  m.lexer.peek.map fun (t, l) => (t, { m with lexer := l })

/-- Takes the token at the head of the queue. -/
def drop (m : Machine) : Machine := { m with lexer := m.lexer.drop }

def goto (m : Machine) (s : State) : Machine := { m with state := s }

def pushState (m : Machine) (s : State) : Machine := { m with stack := s :: m.stack }

/-- Goes on with the state that waits on the stack. -/
def pop (m : Machine) : Machine :=
  match m.stack with
  | s :: rest => { m with state := s, stack := rest }
  | [] => m.goto .finished

/-- An empty scalar where nothing is written. -/
def emptyScalar (m : Machine) (s : State) : Step :=
  some (.scalar .none "" .plain, m.goto s)

/-! ## Directives -/

def standardHandles : List (String × String) := [("!", "!"), ("!!", "tag:yaml.org,2002:")]

/-- Reads the directives in front of a document. A version may be given once and must be 1.1 or
1.2, and no handle may be declared twice. -/
def directives : Nat → Machine → Bool → List (String × String) → Option Machine
  | 0, _, _, _ => none
  | fuel + 1, m, versionSeen, declared => do
    let (t, m) ← m.peek
    match t with
    | .version major minor =>
      if versionSeen || major ≠ 1 || (minor ≠ 1 && minor ≠ 2) then none
      else directives fuel m.drop true declared
    | .tagDirective handle content =>
      if (declared.lookup handle).isSome then none
      else directives fuel m.drop versionSeen ((handle, content) :: declared)
    | _ => some { m with handles := declared ++ standardHandles }

def readDirectives (m : Machine) : Option Machine :=
  directives (m.lexer.cursor.rest.length + m.lexer.queue.length + 2) m false []

/-! ## Nodes -/

def resolveTag (m : Machine) (handle suffix : String) : Option String :=
  if handle.isEmpty then some suffix
  else (m.handles.lookup handle).map (· ++ suffix)

/-- Reads an anchor and a tag, each at most once, in either order. -/
def properties (m : Machine) : Option (Properties × Machine) := do
  let (t, m) ← m.peek
  match t with
  | .anchor name =>
    let (t', m') ← m.drop.peek
    match t' with
    | .tag handle suffix =>
      let tag ← m'.resolveTag handle suffix
      -- the token behind the properties is looked at before the tag is
      let (_, m'') ← m'.drop.peek
      return (⟨some name, some tag⟩, m'')
    | _ => return (⟨some name, none⟩, m')
  | .tag handle suffix =>
    let (t', m') ← m.drop.peek
    match t' with
    | .anchor name =>
      let (_, m'') ← m'.drop.peek
      let tag ← m''.resolveTag handle suffix
      return (⟨some name, some tag⟩, m'')
    | _ =>
      let tag ← m'.resolveTag handle suffix
      return (⟨none, some tag⟩, m')
  | _ => return (Properties.none, m)

/-- Reads a node, or the start of one. A list without indentation may stand as the value of a
block mapping. -/
def node (m : Machine) (block indentless : Bool) : Step := do
  let (t, m) ← m.peek
  match t with
  | .alias name => some (.alias name, m.pop.drop)
  | _ =>
    let (p, m) ← m.properties
    let (t, m) ← m.peek
    -- a tag that is a lone mark says nothing
    let shown : Properties := if p.tag == some "!" then { p with tag := none } else p
    match t with
    | .blockEntry =>
      if indentless then some (.sequenceStart p, m.goto .indentlessSequence)
      else if p == Properties.none then none
      else some (.scalar p "" .plain, m.pop)
    | .scalar text style => some (.scalar shown text style, m.pop.drop)
    | .flowSequence => some (.sequenceStart p, m.goto .flowSequenceFirst)
    | .flowMapping => some (.mappingStart p, m.goto .flowMappingFirst)
    | .blockSequence =>
      if block then some (.sequenceStart p, m.goto .blockSequenceFirst)
      else if p == Properties.none then none
      else some (.scalar p "" .plain, m.pop)
    | .blockMapping =>
      if block then some (.mappingStart p, m.goto .blockMappingFirst)
      else if p == Properties.none then none
      else some (.scalar p "" .plain, m.pop)
    | _ =>
      if p == Properties.none then none
      else some (.scalar p "" .plain, m.pop)

/-- Reads a node and comes back to a state behind it. -/
def nodeThen (m : Machine) (back : State) (block indentless : Bool) : Step :=
  (m.pushState back).node block indentless

/-! ## The steps -/

def dropDocumentEnds : Nat → Machine → Option Machine
  | 0, _ => none
  | fuel + 1, m => do
    let (t, m) ← m.peek
    if t = .documentEnd then dropDocumentEnds fuel m.drop else some m

/-- The start of a document. Only the first may go without a mark. -/
def documentStep (m : Machine) (first : Bool) : Step := do
  let (t, m) ← m.peek
  let (t, m) ←
    if first then some (t, m)
    else do
      let m ← dropDocumentEnds (m.lexer.cursor.rest.length + m.lexer.queue.length + 2) m
      m.peek
  let isDirective := match t with
    | .version .. => true
    | .tagDirective .. => true
    | _ => false
  if t = .streamEnd then some (.streamEnd, m.drop.goto .finished)
  else if first && !isDirective && t ≠ .documentStart then
    let m := { m with handles := standardHandles }
    some (.documentStart, (m.pushState .documentEnd).goto .blockNode)
  else
    let m ← m.readDirectives
    let (t, m) ← m.peek
    if t = .documentStart then
      some (.documentStart, (m.pushState .documentEnd).goto .documentContent |>.drop)
    else none

def documentContentStep (m : Machine) : Step := do
  let (t, m) ← m.peek
  match t with
  | .version .. | .tagDirective .. | .documentStart | .documentEnd | .streamEnd =>
    some (.scalar .none "" .plain, m.pop)
  | _ => m.node true false

def documentEndStep (m : Machine) : Step := do
  let (t, m) ← m.peek
  let m := if t = .documentEnd then m.drop else m
  some (.documentEnd, { m with handles := [] }.goto .document)

def blockSequenceStep (m : Machine) (first : Bool) : Step := do
  let m ← if first then m.peek.map (·.2.drop) else some m
  let (t, m) ← m.peek
  match t with
  | .blockEntry =>
    let (t, m) ← m.drop.peek
    match t with
    | .blockEntry | .blockEnd => m.emptyScalar .blockSequence
    | _ => m.nodeThen .blockSequence true false
  | .blockEnd => some (.sequenceEnd, m.pop.drop)
  | _ => none

def indentlessSequenceStep (m : Machine) : Step := do
  let (t, m) ← m.peek
  match t with
  | .blockEntry =>
    let (t, m) ← m.drop.peek
    match t with
    | .blockEntry | .key | .value | .blockEnd => m.emptyScalar .indentlessSequence
    | _ => m.nodeThen .indentlessSequence true false
  | _ => some (.sequenceEnd, m.pop)

def blockMappingStep (m : Machine) (first : Bool) : Step := do
  let m ← if first then m.peek.map (·.2.drop) else some m
  let (t, m) ← m.peek
  match t with
  | .key =>
    let (t, m) ← m.drop.peek
    match t with
    | .key | .value | .blockEnd => m.emptyScalar .blockMappingValue
    | _ => m.nodeThen .blockMappingValue true true
  | .blockEnd => some (.mappingEnd, m.pop.drop)
  | _ => none

def blockMappingValueStep (m : Machine) : Step := do
  let (t, m) ← m.peek
  match t with
  | .value =>
    let (t, m) ← m.drop.peek
    match t with
    | .key | .value | .blockEnd => m.emptyScalar .blockMapping
    | _ => m.nodeThen .blockMapping true true
  | _ => m.emptyScalar .blockMapping

/-- An entry of a flow sequence may be a mapping of one pair without braces. -/
def flowSequenceStep (m : Machine) (first : Bool) : Step := do
  let m ← if first then m.peek.map (·.2.drop) else some m
  let (t, m) ← m.peek
  let (t, m) ←
    if t = .flowSequenceEnd || first then some (t, m)
    else if t = .flowEntry then m.drop.peek
    else none
  match t with
  | .flowSequenceEnd => some (.sequenceEnd, m.pop.drop)
  | .key => some (.mappingStart .none, m.drop.goto .flowPairKey)
  | _ => m.nodeThen .flowSequence false false

def flowPairKeyStep (m : Machine) : Step := do
  let (t, m) ← m.peek
  match t with
  | .value | .flowEntry | .flowSequenceEnd => m.drop.emptyScalar .flowPairValue
  | _ => m.nodeThen .flowPairValue false false

def flowPairValueStep (m : Machine) : Step := do
  let (t, m) ← m.peek
  match t with
  | .value =>
    let (t, m) ← m.drop.peek
    match t with
    | .flowEntry | .flowSequenceEnd => m.emptyScalar .flowPairEnd
    | _ => m.nodeThen .flowPairEnd false false
  | _ => m.emptyScalar .flowPairEnd

def flowMappingStep (m : Machine) (first : Bool) : Step := do
  let m ← if first then m.peek.map (·.2.drop) else some m
  let (t, m) ← m.peek
  let (t, m) ←
    if t = .flowMappingEnd || first then some (t, m)
    else if t = .flowEntry then m.drop.peek
    else none
  match t with
  | .flowMappingEnd => some (.mappingEnd, m.pop.drop)
  | .key =>
    let (t, m) ← m.drop.peek
    match t with
    | .value | .flowEntry | .flowMappingEnd => m.emptyScalar .flowMappingValue
    | _ => m.nodeThen .flowMappingValue false false
  | _ => m.nodeThen .flowMappingEmptyValue false false

def flowMappingValueStep (m : Machine) (empty : Bool) : Step := do
  let (t, m) ← m.peek
  if empty then m.emptyScalar .flowMapping
  else
    match t with
    | .value =>
      let (t, m) ← m.drop.peek
      match t with
      | .flowEntry | .flowMappingEnd => m.emptyScalar .flowMapping
      | _ => m.nodeThen .flowMapping false false
    | _ => m.emptyScalar .flowMapping

def step (m : Machine) : Step :=
  match m.state with
  | .firstDocument => m.documentStep true
  | .document => m.documentStep false
  | .documentContent => m.documentContentStep
  | .documentEnd => m.documentEndStep
  | .blockNode => m.node true false
  | .blockSequenceFirst => m.blockSequenceStep true
  | .blockSequence => m.blockSequenceStep false
  | .indentlessSequence => m.indentlessSequenceStep
  | .blockMappingFirst => m.blockMappingStep true
  | .blockMapping => m.blockMappingStep false
  | .blockMappingValue => m.blockMappingValueStep
  | .flowSequenceFirst => m.flowSequenceStep true
  | .flowSequence => m.flowSequenceStep false
  | .flowPairKey => m.flowPairKeyStep
  | .flowPairValue => m.flowPairValueStep
  | .flowPairEnd => some (.mappingEnd, m.goto .flowSequence)
  | .flowMappingFirst => m.flowMappingStep true
  | .flowMapping => m.flowMappingStep false
  | .flowMappingValue => m.flowMappingValueStep false
  | .flowMappingEmptyValue => m.flowMappingValueStep true
  | .finished => none

/-- The events from here on, up to the end of the text or the place where it goes wrong. -/
def events : Nat → Machine → List Event
  | 0, _ => []
  | fuel + 1, m =>
    match m.step with
    | some (.streamEnd, _) => [.streamEnd]
    | some (e, m) => e :: events fuel m
    | none => []

end Machine

/-- The events of a text. They end with the end of the stream if nothing in the text is wrong. A
character starts at most three tokens, and a token leads to at most two events. -/
def events (text : List Char) : List Event :=
  if text.all isAllowed then Machine.events (8 * text.length + 64) (Machine.start text) else []

end EngineBench.Yaml
