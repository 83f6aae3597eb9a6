-- Workers of any kind, which may break down anywhere. The queues are read only when every worker
-- has ended, so a worker that finds its queue full would wait for ever, and all others with it.
-- This cannot happen as long as no worker hands in more than its queue holds: each queue holds just
-- what its worker has handed in, so there is room for the next record, and the pool comes to its
-- end.
import EngineBench.Proofs.Progress
import EngineBench.Proofs.Rates
import Mathlib.Data.Finset.Lattice.Fold
import Mathlib.Data.Nat.Find
import Mathlib.Order.WellFounded

namespace EngineBench

open Dialogue Worker

/-! ## Programs get shorter -/

namespace Dialogue

variable {Q : Type} {A : Q → Type} {α : Type}

end Dialogue

namespace Pool

/-- What can happen in a pool whose workers may break down anywhere. -/
inductive Incident where
  | event (e : Event)
  /-- A worker breaks down, whatever it is about to do. -/
  | panic (worker : Nat)

/-- The worker that an incident is about. -/
def Incident.worker? : Incident → Option Nat
  | event e => e.worker?
  | panic t => some t

/-- A worker that has not ended yet can break down. -/
def Member.panic (m : Member) : Option Member :=
  if m.hasEnded then none else some { m with dead := true }

/-- What worker `t` hears by an incident. -/
def told (p : Pool) (t : Nat) : Incident → List WorkerTurn
  | .event e => p.heard t e
  | .panic _ => []

variable {p p' : Pool} {i : Incident}

variable {incidents : List Incident}

section

variable {iterations : Nat} {cancelled : Bool} {workers : List (Worker Unit)}

end

/-! ## The pools of a bench -/

end Pool

/-! ## The bench that spawns processes -/

namespace SpawningBench

/-- The program of a run on a bench that has not run yet. -/
def program (threads iterations : Nat) :
    Dialogue SweepAsk SweepAsk.Answer (Attempt Unit × BenchState) :=
  SweepWork.acts (BenchWork.attend (.start false) (run threads iterations).run)

variable {threads iterations : Nat}

/-- Whatever becomes of its processes, a run can come to its end. -/
theorem exists_course (threads iterations : Nat) (answers : Pool.Answers) :
    ∃ (s : Shift) (after : BenchState), answers.Lead [] s.events ∧
      Course false (program threads iterations) [.shift s] false (.ok (), after) := by
  have hstart : (Pool.start threads iterations .spawning false).steps [] =
      some (Pool.start threads iterations .spawning false) := rfl
  obtain ⟨events, p, hsteps, hended, hlead⟩ := Pool.exists_end_of_answers answers hstart
  have hcalm : p.cancelled = false := by
    rw [(Pool.steps_shape hsteps).2.2]
    exact hlead.calm.1
  let s : Shift := ⟨threads, iterations, .spawning, false, events, p, Duration.zero, hsteps, hended⟩
  have hcourse : Course s.pool.cancelled
      (.done (.ok (), ⟨⟨.completed, s.pool.records, s.took⟩, false, none⟩)) [] false
      ((.ok (), ⟨⟨.completed, s.pool.records, s.took⟩, false, none⟩) :
        Attempt Unit × BenchState) := by
    rw [show s.pool.cancelled = false from hcalm]
    exact .done
  exact ⟨s, _, hlead, Course.shift s hcourse⟩

end SpawningBench

/-! ## All of it -/

namespace Pool

end Pool

end EngineBench
