-- A pool on a timeline. Whatever can happen at once happens first, the first worker's business
-- before the second one's. Time moves only when every worker waits, straight to the next moment at
-- which a call is answered or the run is cancelled.
import EngineBench.Bench.Pool

namespace EngineBench.Rehearsal

/-- What becomes of a call. -/
inductive Fate (α : Type) where
  | answered (after : Duration) (answer : Except EngineError α)
  /-- Whoever made the call dies of it. -/
  | died (after : Duration)
  | never

/-- What answers the workers, from a state of its own. A process has ended as soon as it is
started. -/
structure Service (σ : Type) where
  call : (c : EngineCall) → StateM σ (Fate c.Answer)
  spawn : (program : String) → (args : List String) → StateM σ (Except OsError WaitStatus)

/-- A question that was put and is not answered yet. -/
structure Waiting where
  worker : Nat
  since : Duration
  /-- The moment of the answer, if there will be one, and what happens then. -/
  due : Option (Duration × Pool.Event)

structure Scene (σ : Type) where
  clock : Duration
  cancelAt : Option Duration
  pool : Pool
  waiting : List Waiting
  state : σ

variable {σ : Type}

namespace Waiting

/-- What waits for a call with a known fate. -/
def ofCall (t : Nat) (now : Duration) (c : EngineCall) : Fate c.Answer → Waiting
  | .answered after a => ⟨t, now, some (⟨now.nanos + after.nanos⟩, .answer t (.call c) ⟨a, after⟩)⟩
  | .died after => ⟨t, now, some (⟨now.nanos + after.nanos⟩, .die t)⟩
  | .never => ⟨t, now, none⟩

def dueBy (now : Duration) (w : Waiting) : Option Pool.Event :=
  match w.due with
  | some (moment, event) => if moment.nanos ≤ now.nanos then some event else none
  | none => none

end Waiting

namespace Scene

inductive Move where
  | event (e : Pool.Event)
  | put (worker : Nat) (q : WorkerAsk)

/-- What a worker that has put a question, or is about to, can do now. A call is given up as soon as
the run is cancelled, and then it is not put any more. -/
def answering (s : Scene σ) (t : Nat) (q : WorkerAsk) (isCall : Bool) : Option Move :=
  match s.waiting.find? (·.worker == t) with
  | none =>
    if s.pool.cancelled && isCall then some (.event (.abandon t Duration.zero))
    else some (.put t q)
  | some w =>
    if s.pool.cancelled && isCall then
      some (.event (.abandon t ⟨s.clock.nanos - w.since.nanos⟩))
    else (w.dueBy s.clock).map .event

/-- What a worker can do now, if it does not wait. -/
def moveOf (s : Scene σ) (t : Nat) (m : Pool.Member) : Option Move :=
  if m.dead then none
  else match m.program with
    | .done _ => none
    | .ask .look _ => some (.event (.look t))
    | .ask (.send _) _ => some (.event (.send t))
    | .ask (.call c) _ => s.answering t (.call c) true
    | .ask (.spawn program args) _ => s.answering t (.spawn program args) false

def nextMove (s : Scene σ) : Option Move :=
  s.pool.members.zipIdx.findSome? fun (m, t) => s.moveOf t m

/-- The next moment at which something happens by itself. -/
def nextMoment (s : Scene σ) : Option Duration :=
  let cancel := if s.pool.cancelled then none else s.cancelAt
  let moments := cancel.toList ++ s.waiting.filterMap fun w => w.due.map Prod.fst
  (moments.map Duration.nanos).min?.map Duration.mk

/-- Puts a question, and notes when it will be answered. -/
def put (service : Service σ) (s : Scene σ) (t : Nat) : WorkerAsk → Scene σ
  | .call c =>
    let (fate, state) := (service.call c).run s.state
    { s with state := state, waiting := .ofCall t s.clock c fate :: s.waiting }
  | .spawn program args =>
    let (result, state) := (service.spawn program args).run s.state
    let event := Pool.Event.answer t (.spawn program args) ⟨result, Duration.zero⟩
    { s with state := state, waiting := ⟨t, s.clock, some (s.clock, event)⟩ :: s.waiting }
  | _ => s

/-- The worker that an event is about. -/
def workerOf : Pool.Event → Option Nat
  | .look t => some t
  | .answer t _ _ => some t
  | .abandon t _ => some t
  | .die t => some t
  | .send t => some t
  | .cancel => none

/-- Lets an event happen that the pool admits. Its worker no longer waits. -/
def happen (s : Scene σ) (e : Pool.Event) : Option (Scene σ) :=
  (s.pool.step e).map fun pool =>
    { s with pool := pool, waiting := s.waiting.filter fun w => some w.worker != workerOf e }

/-- Moves the clock, and cancels the run if that is what the moment is for. -/
def moveTo (s : Scene σ) (moment : Duration) : Option (Scene σ) :=
  let s := { s with clock := moment }
  match s.cancelAt with
  | some c => if !s.pool.cancelled && c.nanos ≤ moment.nanos then s.happen .cancel else some s
  | none => some s

/-- The scene after the next thing has happened. -/
def advance (service : Service σ) (s : Scene σ) : Option (Scene σ) :=
  match s.nextMove with
  | some (.event e) => s.happen e
  | some (.put t q) => some (s.put service t q)
  | none => if s.pool.hasEnded then none else s.nextMoment.bind s.moveTo

/-- Goes on until every worker has ended, or waits for ever. -/
def play (service : Service σ) : Nat → Scene σ → Scene σ
  | 0, s => s
  | fuel + 1, s =>
    match s.advance service with
    | some s => play service fuel s
    | none => s

/-- How often a scene can advance: each question is put, waited for and answered, and the run is
cancelled once. -/
def patience (threads iterations : Nat) (job : Job) : Nat :=
  threads * (job.effort iterations * 3) + 1

end Scene

end EngineBench.Rehearsal
