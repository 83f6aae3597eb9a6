-- A world to rehearse benches and sweeps in: a clock of its own, an engine that is played, and
-- sampling tasks that run while the clock moves.
import EngineBench.Bench.Sweep
import EngineBench.Rehearsal.Timeline

namespace EngineBench.Rehearsal

structure SamplingTask where
  source : SamplerSource
  interval : Duration
  since : Duration

structure World (σ : Type) where
  clock : Duration
  /-- The moment at which the run is cancelled, if it ever is. -/
  cancelAt : Option Duration
  tasks : List SamplingTask
  state : σ

/-- Everything around a bench, played from a state. -/
structure Cast (σ : Type) extends Service σ where
  make : EngineConfig → StateM σ (Except EngineError Unit)
  watchGroup : (now : Duration) → (path : String) → StateM σ (Attempt ControlGroup)
  findDaemon : StateM σ (Except EngineError DaemonProcess)
  /-- One query of a sampler, and the sampler for the next one. -/
  query : (now : Duration) → SamplerSource → StateM σ (Query × SamplerSource)

variable {σ : Type}

namespace World

def start (state : σ) : World σ := ⟨Duration.zero, none, [], state⟩

def isCancelled (w : World σ) : Bool :=
  match w.cancelAt with
  | some moment => moment.nanos ≤ w.clock.nanos
  | none => false

def wait (d : Duration) (w : World σ) : World σ := { w with clock := ⟨w.clock.nanos + d.nanos⟩ }

/-- Does something with the state of the cast. -/
def play {α : Type} (m : StateM σ α) : StateM (World σ) α := fun w =>
  let (a, state) := m.run w.state
  (a, { w with state := state })

/-- Waits for a call. One that is never answered, or kills whoever makes it, is given up. -/
def settle {α : Type} : Fate α → StateM (World σ) (Except EngineError α)
  | .answered after a => do
    modify (wait after)
    return a
  | .died after => do
    modify (wait after)
    return .error .cancelled
  | .never => return .error .cancelled

/-- Lets workers do a job. However fast they are, some time passes. -/
def work (cast : Cast σ) (threads iterations : Nat) (job : Job) :
    StateM (World σ) (List Record × Duration) := do
  let w ← get
  let scene : Scene σ := {
    clock := w.clock
    cancelAt := w.cancelAt
    pool := Pool.start threads iterations job w.isCancelled
    waiting := []
    state := w.state }
  let scene := scene.play cast.toService (Scene.patience threads iterations job)
  set { w with clock := scene.clock, state := scene.state }
  return (scene.pool.records, Duration.mk (max 1 (scene.clock.nanos - w.clock.nanos)))

/-- Makes the queries of a task whose ticks are due at the given moments. -/
def queries (cast : Cast σ) : List Duration → SamplerSource → StateM σ (List Query)
  | [], _ => return []
  | moment :: rest, source => do
    let (q, source) ← cast.query moment source
    return q :: (← queries cast rest source)

/-- Stops a task: all its queries up to now are made. -/
def stop (cast : Cast σ) (t : SamplingTask) : StateM (World σ) (Attempt (List Sample)) := do
  let now := (← get).clock
  let ticks := Sampling.tickTimes (Sampler.interval t.interval) ⟨now.nanos - t.since.nanos⟩
  let moments := ticks.map fun d => Duration.mk (t.since.nanos + d.nanos)
  return Sampling.collect (← play (queries cast moments t.source))

def act (cast : Cast σ) : (a : Act) → StateM (World σ) a.Answer
  | .call c => do settle (← play (cast.call c))
  | .rest d => modify (wait d)
  | .work threads iterations job => work cast threads iterations job
  | .watchGroup path => do play (cast.watchGroup (← get).clock path)
  | .findDaemon => play cast.findDaemon
  | .startSampling source interval => do
    let w ← get
    let task : SamplingTask := ⟨source, interval, w.clock⟩
    set { w with tasks := w.tasks ++ [task] }
    return w.tasks.length
  | .stopSampling task => do
    match (← get).tasks[task]? with
    | some t => stop cast t
    | none => return .ok []

def answer (cast : Cast σ) : (q : SweepAsk) → StateM (World σ) q.Answer
  | .look => return (← get).isCancelled
  | .make config => play (cast.make config)
  | .act a => act cast a

/-- Runs a program of a bench from a state of the bench. -/
def bench {α : Type} (cast : Cast σ) (s : BenchState) (w : BenchWork α) :
    StateM (World σ) (α × BenchState) := (BenchWork.attend s w).run (act cast)

def sweep {α : Type} (cast : Cast σ) (w : SweepWork α) : StateM (World σ) (Attempt α) :=
  Dialogue.run (answer cast) w.run

end World

end EngineBench.Rehearsal
