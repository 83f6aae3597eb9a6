-- Workers that run side by side, each with a queue for its records. The queues are read only when
-- every worker has ended, so a queue has to hold all that its worker sends. What happens in a pool
-- is a list of events in any order that the pool admits, and a law about a pool holds for every
-- such list.
import EngineBench.Bench.Worker

namespace EngineBench

namespace Pool

structure Member where
  /-- What the worker still has to do. -/
  program : Worker Unit
  /-- Whether the worker has died before its end. -/
  dead : Bool
  queue : List Iteration

def Member.hasEnded (m : Member) : Bool :=
  m.dead || match m.program with
    | .done _ => true
    | .ask _ _ => false

/-- What can happen in a pool. Workers are numbered from zero. -/
inductive Event where
  /-- A worker learns whether the run is cancelled. -/
  | look (worker : Nat)
  /-- A worker gets the answer to a call or a spawned process. -/
  | answer (worker : Nat) (q : WorkerAsk) (a : q.Answer)
  /-- A worker gives up a call because the run is cancelled. -/
  | abandon (worker : Nat) (took : Duration)
  /-- A call takes its worker down. -/
  | die (worker : Nat)
  | send (worker : Nat)
  | cancel

end Pool

structure Pool where
  /-- How many records a queue holds. -/
  capacity : Nat
  cancelled : Bool
  members : List Pool.Member

namespace Pool

/-- The room that a queue needs for `iterations` records. -/
def capacityFor (iterations : Nat) : Nat := max iterations 1

/-- A pool in which nothing has happened yet. -/
def start (threads iterations : Nat) (job : Job) (cancelled : Bool) : Pool where
  capacity := capacityFor iterations
  cancelled := cancelled
  members := (List.range threads).map fun t => ⟨job.worker iterations t, false, []⟩

namespace Member

def look (cancelled : Bool) (m : Member) : Option Member :=
  match m.program with
  | .ask .look next => some { m with program := next cancelled }
  | _ => none

/-- Only a call and a spawned process are answered from outside. -/
def isOutside : WorkerAsk → Bool
  | .call _ => true
  | .spawn _ _ => true
  | _ => false

def answer (q : WorkerAsk) (a : q.Answer) (m : Member) : Option Member :=
  match m.program with
  | .done _ => none
  | .ask q' next =>
    if isOutside q then
      if h : q = q' then some { m with program := next (h ▸ a) } else none
    else none

def abandon (took : Duration) (m : Member) : Option Member :=
  match m.program with
  | .ask (.call _) next => some { m with program := next ⟨.error .cancelled, took⟩ }
  | _ => none

def die (m : Member) : Option Member :=
  match m.program with
  | .ask (.call _) _ => some { m with dead := true }
  | _ => none

/-- Puts a record into the queue, if there is room. -/
def send (capacity : Nat) (m : Member) : Option Member :=
  match m.program with
  | .ask (.send i) next =>
    if m.queue.length < capacity then
      some { m with program := next (), queue := m.queue ++ [i] }
    else none
  | _ => none

end Member

/-- Changes one worker that lives. -/
def change (p : Pool) (t : Nat) (f : Member → Option Member) : Option Pool :=
  match p.members[t]? with
  | none => none
  | some m =>
    if m.dead then none
    else (f m).map fun m => { p with members := p.members.set t m }

/-- One event, if the pool admits it. -/
def step (p : Pool) : Event → Option Pool
  | .look t => p.change t (Member.look p.cancelled)
  | .answer t q a => p.change t (Member.answer q a)
  | .abandon t took => if p.cancelled then p.change t (Member.abandon took) else none
  | .die t => p.change t Member.die
  | .send t => p.change t (Member.send p.capacity)
  | .cancel => some { p with cancelled := true }

def steps (p : Pool) (events : List Event) : Option Pool := events.foldlM step p

/-- Whether every worker has ended. Only then are the queues read. -/
def hasEnded (p : Pool) : Bool := p.members.all Member.hasEnded

/-- The records of all queues, in the order of the workers. -/
def records (p : Pool) : List Record := p.members.flatMap fun m => m.queue.map Record.iteration

end Pool

end EngineBench
