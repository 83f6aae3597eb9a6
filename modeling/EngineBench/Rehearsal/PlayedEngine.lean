-- An engine that is played from a list of rules for each of its operations, with delays, failures
-- and calls that never return, and a sampler that is played from a list of answers. Both remember
-- what they were asked.
import EngineBench.Host.Rule
import EngineBench.Rehearsal.World

namespace EngineBench.Rehearsal

/-! ## The engine -/

/-- How a call goes on the containers of the given names, or on every container. -/
structure CallRule where
  names : Option (List String)
  blocks : Bool
  delay : Duration
  dies : Bool
  failure : Option String
  out : String
  elapsed : Duration

/-- A call that succeeds at once and in silence. -/
def CallRule.silent : CallRule := ⟨none, false, Duration.zero, false, none, "", Duration.zero⟩

structure PlayedEngine where
  kind : Kind
  /-- A bare engine has no wait, no statistics, no process and nothing to close. -/
  isBare : Bool
  /-- The rules of each operation. -/
  rules : List (String × List (Host.Rule CallRule))
  /-- Every call, the first in front. -/
  calls : List EngineCall

/-! ## The sampler -/

inductive PlayedQuery where
  | usage (u : Usage)
  | fails
  | dies

/-- Answers one query with each of its replies, and all further queries with the last. Without
replies it measures nothing. -/
structure PlayedSampler where
  replies : List PlayedQuery

def PlayedSampler.query (now : Duration) (s : PlayedSampler) : Query × PlayedSampler :=
  let reply := s.replies.headD (.usage Usage.zero)
  let q := match reply with
    | .usage u => Query.measured ⟨now.wholeSeconds, u⟩
    | .fails => .failed
    | .dies => .fatal
  (q, ⟨if s.replies.length ≤ 1 then s.replies else s.replies.tail⟩)

structure Played where
  engine : PlayedEngine
  sampler : PlayedSampler

/-! ## Playing -/

namespace PlayedEngine

/-- The word under which the rules for a call stand. -/
def word : EngineCall → String
  | .info => "info"
  | .clean => "clean"
  | .create _ => "create"
  | .operate op _ => op.word
  | .close => "close"

/-- Whether a bare engine lacks the operation. -/
def isMissing (e : PlayedEngine) : EngineCall → Bool
  | .operate .wait _ => e.isBare
  | .operate .stats _ => e.isBare
  | .close => e.isBare
  | _ => false

/-- What a bare engine does about an operation that it lacks. -/
def missing (e : PlayedEngine) : (c : EngineCall) → Except EngineError c.Answer
  | .info => .ok ""
  | .clean => .ok ()
  | .create w => .ok ⟨w.name, w.image, w.command, w.detached, w.trace, none⟩
  | .operate op _ => .error (.notImplemented op.word e.kind)
  | .close => .ok ()

/-- The first document among lines of output, where a mark in front makes a line a failure. -/
def firstDocument (out : String) : Except EngineError String :=
  match Text.lines out.toList with
  | [] => .ok ""
  | ('!' :: text) :: _ => .error (.config (.stated (String.ofList text)))
  | line :: _ => .ok (String.ofList line)

/-- The answer of a call that succeeds. -/
def success (r : CallRule) : (c : EngineCall) → Except EngineError c.Answer
  | .info => .ok r.out
  | .clean => .ok ()
  | .create w => .ok ⟨w.name, w.image, w.command, w.detached, w.trace, none⟩
  | .operate .stats _ => (⟨·, r.elapsed⟩) <$> firstDocument r.out
  | .operate _ _ => .ok ⟨r.out, r.elapsed⟩
  | .close => .ok ()

def fate (r : CallRule) (c : EngineCall) : Fate c.Answer :=
  if r.blocks then .never
  else if r.dies then .died r.delay
  else match r.failure with
    | some text => .answered r.delay (.error (.config (.stated text)))
    | none => .answered r.delay (success r c)

/-- The rule for a call, used once more. -/
def use (e : PlayedEngine) (c : EngineCall) : CallRule × PlayedEngine :=
  let target := c.target?.getD ""
  let applies (r : CallRule) : Bool :=
    match r.names with
    | some names => names.contains target
    | none => true
  let key := word c
  let (found, rules) := Host.Rule.use applies ((e.rules.lookup key).getD [])
  (found.getD .silent, { e with rules := put key rules e.rules, calls := e.calls ++ [c] })

def call (e : PlayedEngine) (c : EngineCall) : Fate c.Answer × PlayedEngine :=
  if e.isMissing c then (.answered Duration.zero (e.missing c), e)
  else
    let (r, e) := e.use c
    (fate r c, e)

/-- No engine that is played has a process. -/
def process (e : PlayedEngine) : Except EngineError DaemonProcess :=
  if e.isBare then .error (.notImplemented "pid" e.kind) else .error (.config (.stated "no daemon"))

end PlayedEngine

/-- The cast of a rehearsal without a host. -/
def played : Cast Played where
  call c := fun s => let (fate, e) := s.engine.call c; (fate, { s with engine := e })
  spawn _ _ := return .error .notFound
  make _ := return .ok ()
  watchGroup _ path := return .error ((Failure.ofCause (.os .notFound)).during (.reading path))
  findDaemon := return (← get).engine.process
  query now source := fun s =>
    let (q, sampler) := s.sampler.query now
    ((q, source), { s with sampler := sampler })

end EngineBench.Rehearsal
