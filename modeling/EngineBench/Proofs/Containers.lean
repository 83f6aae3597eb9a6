-- The containers that an engine is asked for. A worker asks for one container in each pass that it
-- begins, and for it before anything else, so that the containers of a shift are those of the
-- passes begun in it. A step asks for the container of its trial besides, and for no other one.
import EngineBench.Proofs.Calls
import EngineBench.Proofs.Closings
import Mathlib.Data.List.Nodup

namespace EngineBench

open Dialogue Worker

/-! ## Calls for a container -/

/-- The container that a call asks for. -/
def EngineCall.wanted? : EngineCall → Option Wanted
  | create w => some w
  | _ => none

def WorkerAsk.wanted? : WorkerAsk → Option Wanted
  | call c => c.wanted?
  | _ => none

/-- The container that a workload asks for under some name. -/
def Workload.containerNamed (w : Workload) (name : String) : Wanted :=
  ⟨name, w.image, w.command, w.detached, w.trace⟩

/-- The container of a trial. It leaves no trace files. -/
def Workload.trial (w : Workload) : Wanted := ⟨Name.trial, w.image, w.command, w.detached, false⟩

/-! ## The containers of one worker -/

namespace Worker

variable {α : Type}

/-- The containers that a worker asks for and is answered. -/
def wanted (turns : List WorkerTurn) : List Wanted := turns.filterMap fun x => x.1.wanted?

/-- The container that a program asks for next. -/
def awaited : Worker α → List Wanted
  | .done _ => []
  | .ask q _ => q.wanted?.toList

theorem wanted_append (xs ys : List WorkerTurn) : wanted (xs ++ ys) = wanted xs ++ wanted ys :=
  List.filterMap_append

/-- A question that asks for no container. -/
def AsksForNone (q : WorkerAsk) : Prop := q.wanted? = none

theorem wanted_of_none {turns : List WorkerTurn} (h : ∀ x ∈ turns, AsksForNone x.1) :
    wanted turns = [] := List.filterMap_eq_nil_iff.mpr h

theorem awaited_of_only {m : Worker α} (h : m.Only AsksForNone) : awaited m = [] := by
  cases m with
  | done a => rfl
  | ask q next => simp [awaited, show q.wanted? = none from h.1]

/-- A pass asks for its container, and once it is answered it asks for no other. -/
theorem wanted_of_pass {w : Workload} {name : String} {turns : List WorkerTurn}
    {m : Worker Iteration} (h : After (iterate w name) turns m) :
    wanted turns ++ awaited m = [w.containerNamed name] := by
  rcases after_ask h with ⟨rfl, rfl⟩ | ⟨reply, rest, rfl, hrest⟩
  · rfl
  · have honly := tryAll_only (P := AsksForNone) reply.answer.toOption (fun _ _ _ => rfl)
    obtain ⟨hturns, hleft⟩ := hrest.only (honly _ _)
    have hnone : wanted rest = [] := wanted_of_none hturns
    show w.containerNamed name :: wanted rest ++ awaited m = _
    rw [hnone, awaited_of_only hleft]
    rfl

section

variable {w : Workload} {t i k : Nat} {turns : List WorkerTurn}

/-- The containers of some passes one after the other. -/
def containers (w : Workload) (t i n : Nat) : List Wanted :=
  (List.range' i n).map fun j => w.containerNamed (Name.ofIteration t j)

theorem containers_append (w : Workload) (t i m n : Nat) :
    containers w t i m ++ containers w t (i + m) n = containers w t i (m + n) := by
  rw [containers, containers, containers, ← List.map_append, List.range'_append_1]

theorem Rounds.wanted_eq {rs : List Iteration}
    (h : Rounds (fun i => (Job.lifecycle w).iteration t i) i turns rs) :
    wanted turns = containers w t i rs.length := by
  induction h with
  | nil => rfl
  | @cons i xs rest r rs hpass _ ih =>
    have hfirst := wanted_of_pass hpass
    have hdone : awaited (done r : Worker Iteration) = [] := rfl
    rw [hdone, List.append_nil] at hfirst
    calc wanted (lookTurn false :: (xs ++ sendTurn r :: rest))
        = wanted xs ++ wanted rest := wanted_append xs (sendTurn r :: rest)
      _ = containers w t i 1 ++ containers w t (i + 1) rs.length := by rw [hfirst, ih]; rfl
      _ = containers w t i (r :: rs).length := by
        rw [containers_append, List.length_cons, Nat.add_comm]

/-- A worker in the middle of a pass has asked for the container of that pass, or is about to. -/
theorem Stage.wanted_eq {m : Worker Unit}
    (h : Stage (fun i => (Job.lifecycle w).iteration t i) i k turns m) :
    wanted turns ++ awaited m = containers w t i (begun turns) := by
  cases h with
  | between => cases k <;> rfl
  | stopped => rfl
  | @inside left xs m hpass =>
    have hbegun : begun xs = 0 := begun_outside (hpass.only ((Job.lifecycle w).inward t i)).1
    have hone : begun (lookTurn false :: xs) = 1 := by
      rw [show begun (lookTurn false :: xs) = begun xs + 1 from List.countP_cons_of_pos rfl, hbegun]
    have hnext : awaited (m.bind fun r => ask (.send r) fun _ =>
        repeated (fun i => (Job.lifecycle w).iteration t i) (i + 1) left) = awaited m := by
      cases m <;> rfl
    have hwanted : wanted xs ++ awaited m = [w.containerNamed (Name.ofIteration t i)] :=
      wanted_of_pass hpass
    rw [hone, hnext]
    exact hwanted

end

end Worker

/-! ## The containers of a shift -/

namespace Shift

variable (s : Shift)

/-- The containers that a worker of a shift asks for, whether it has its answer or dies of it. -/
def wantedBy (t : Nat) : List Wanted :=
  Worker.wanted (s.journal t) ++ (s.pool.members[t]?.toList.flatMap fun m => awaited m.program)

def wanted : List Wanted := (List.range s.threads).flatMap s.wantedBy

variable {s} {t : Nat}

theorem begun_le (ht : t < s.threads) : begun (s.journal t) ≤ s.iterations := by
  obtain ⟨m, hm, -⟩ := Pool.worker_stands s.goes ht
  have hended := List.all_eq_true.mp s.ended m (List.mem_of_getElem? hm)
  have hend := Pool.worker_ended s.goes ht hm hended
  change Pool.Ending s.iterations m.queue.length (s.journal t) (.die t ∈ s.events) at hend
  cases hend <;> omega

/-- The containers that a worker asks for are those of the passes that it begins. -/
theorem wantedBy_eq {w : Workload} (hjob : s.job = .lifecycle w) (ht : t < s.threads) :
    s.wantedBy t = containers w t 0 (begun (s.journal t)) := by
  obtain ⟨m, hm, -, -, xs, ys, k, hturns, hrounds, -, hstage⟩ := Pool.worker_stands s.goes ht
  change s.journal t = xs ++ ys at hturns
  rw [hjob] at hrounds hstage
  have hbegun : begun (s.journal t) = m.queue.length + begun ys := by
    rw [hturns, begun_append, hrounds.begun_eq ((Job.lifecycle w).inward t)]
  rw [wantedBy, hm, hbegun, hturns, wanted_append, hrounds.wanted_eq]
  calc containers w t 0 m.queue.length ++ Worker.wanted ys ++
          ((some m).toList.flatMap fun m => awaited m.program)
      = containers w t 0 m.queue.length ++ (Worker.wanted ys ++ awaited m.program) := by simp
    _ = containers w t 0 (m.queue.length + begun ys) := by
        rw [hstage.wanted_eq]
        simpa using containers_append w t 0 m.queue.length (begun ys)

/-- The passes that are begun in a shift, each one with its worker. -/
def passes (s : Shift) : List (Nat × Nat) :=
  (List.range s.threads).flatMap fun t => (List.range (begun (s.journal t))).map (t, ·)

theorem wanted_eq {w : Workload} (hjob : s.job = .lifecycle w) :
    s.wanted = s.passes.map fun p => w.containerNamed (Name.ofIteration p.1 p.2) := by
  unfold wanted passes
  rw [List.map_flatMap]
  apply List.flatMap_congr
  intro t ht
  rw [wantedBy_eq hjob (List.mem_range.mp ht), containers, List.map_map, List.range_eq_range']
  rfl

theorem nodup_passes (s : Shift) : s.passes.Nodup := by
  unfold passes
  rw [List.nodup_flatMap]
  constructor
  · intro t _
    exact List.nodup_range.map fun i j h => (Prod.mk.inj h).2
  · apply List.nodup_range.pairwise_of_forall_ne
    intro t _ t' _ hne p hp hp'
    obtain ⟨i, -, rfl⟩ := List.mem_map.mp hp
    obtain ⟨j, -, h⟩ := List.mem_map.mp hp'
    exact hne (Prod.mk.inj h).1.symm

theorem mem_passes {p : Nat × Nat} :
    p ∈ s.passes ↔ p.1 < s.threads ∧ p.2 < begun (s.journal p.1) := by
  simp only [passes, List.mem_flatMap, List.mem_range, List.mem_map]
  constructor
  · rintro ⟨t, ht, i, hi, rfl⟩
    exact ⟨ht, hi⟩
  · rintro ⟨ht, hi⟩
    exact ⟨p.1, ht, p.2, hi, rfl⟩

end Shift

/-! ## The containers of a course -/

def Happening.wanted : Happening → List Wanted
  | .turn ⟨.act (.call c), _⟩ => c.wanted?.toList
  | .turn _ => []
  | .shift s => s.wanted

/-- The containers that are asked for in a course. -/
def wantedIn (tr : List Happening) : List Wanted := tr.flatMap Happening.wanted

theorem wantedIn_append (xs ys : List Happening) :
    wantedIn (xs ++ ys) = wantedIn xs ++ wantedIn ys := List.flatMap_append

/-- What happens in a course as a turn of the program, whose shifts have an answer as well. -/
def Happening.asTurn : Happening → Turn SweepAsk SweepAsk.Answer
  | .turn x => x
  | .shift s => ⟨.act (.work s.threads s.iterations s.job), (s.pool.records, s.took)⟩

variable {α : Type} {c c' : Bool} {tr : List Happening} {x : α}

/-- A course takes its program to its end. -/
theorem after_of_course {m : Dialogue SweepAsk SweepAsk.Answer α} (h : Course c m tr c' x) :
    After m (tr.map Happening.asTurn) (done x) := by
  induction h with
  | done => exact .nil
  | cancel _ ih => exact ih
  | look _ ih => exact .cons ih
  | outside _ _ ih => exact .cons ih
  | shift s _ ih => exact .cons ih

/-- A question after which no engine is asked for a container. -/
def SweepAsk.IsBare : SweepAsk → Prop
  | act (.call c) => c.wanted? = none
  | act (.work _ _ _) => False
  | _ => True

def BenchAsk.IsBare : BenchAsk → Prop
  | act a => (SweepAsk.act a).IsBare
  | within _ => True

theorem wantedIn_of_bare {m : Dialogue SweepAsk SweepAsk.Answer α} (h : Course c m tr c' x)
    (hm : m.Only SweepAsk.IsBare) : wantedIn tr = [] := by
  have hbare := ((after_of_course h).only hm).1
  refine List.flatMap_eq_nil_iff.mpr fun y hy => ?_
  have hturn := hbare _ (List.mem_map_of_mem hy)
  cases y with
  | shift s => exact hturn.elim
  | turn y =>
    obtain ⟨q, a⟩ := y
    cases q with
    | look => rfl
    | make config => rfl
    | act b =>
      cases b with
      | call call =>
        have hnone : call.wanted? = none := hturn
        simp [Happening.wanted, hnone]
      | _ => rfl

theorem BenchAttempt.Does.wantedIn_of_bare {w : BenchAttempt α} {r : Attempt α} (h : w.Does tr r)
    (hw : w.run.Only BenchAsk.IsBare) : wantedIn tr = [] := by
  obtain ⟨_, _, _, hcourse⟩ := h
  exact EngineBench.wantedIn_of_bare hcourse (acts_attend_only (fun _ ha => ha) hw)

/-! ## The containers of a step -/

namespace LifecycleBench

variable (b : LifecycleBench)

theorem prepare_bare : b.prepare.run.Only BenchAsk.IsBare :=
  .bind_attempt (BenchAttempt.call_only _ rfl) fun _ => BenchAttempt.call_only _ rfl

/-- What a trial does with its container. -/
def useUp (c : Container) : BenchAttempt Unit := do
  let _ ← BenchAttempt.call (.trying "run") (.operate .run c)
  let _ ← BenchAttempt.call (.trying "stop") (.operate .stop c)
  BenchAttempt.act (.rest EngineCall.quiescence)
  let _ ← BenchAttempt.call (.trying "remove") (.operate .remove c)

/-- What is left of a trial once its container is made, or not made. -/
def tryOut (made : Except EngineError Container) : BenchAttempt Unit := do
  useUp (← BenchAttempt.ofAttempt ((Attempt.ofEngine made).during (.trying "create")))

theorem validate_eq : b.validate.run =
    .ask (.act (.call (.create b.workload.trial))) fun made => (tryOut made).run := by
  show (ask (BenchAsk.act (.call (.create b.workload.trial))) _ : BenchWork _) = _
  congr

theorem useUp_only {P : BenchAsk → Prop} {c : Container}
    (hop : ∀ op, P (.act (.call (.operate op c))))
    (hrest : P (.act (.rest EngineCall.quiescence))) : (useUp c).run.Only P := by
  refine .bind_attempt (BenchAttempt.call_only _ (hop _)) fun _ => ?_
  refine .bind_attempt (BenchAttempt.call_only _ (hop _)) fun _ => ?_
  refine .bind_attempt (BenchAttempt.act_only hrest) fun _ => ?_
  exact .bind_attempt (BenchAttempt.call_only _ (hop _)) fun _ => trivial

theorem tryOut_bare (made : Except EngineError Container) :
    (tryOut made).run.Only BenchAsk.IsBare :=
  .bind_attempt (BenchAttempt.ofAttempt_only _) fun _ => useUp_only (fun _ => rfl) trivial

theorem wantedIn_of_validate {r : Attempt Unit} (h : b.validate.Does tr r) :
    wantedIn tr = [b.workload.trial] := by
  obtain ⟨_, _, after, hcourse⟩ := h
  rw [validate_eq] at hcourse
  obtain ⟨_, made, rest, rfl, hrest⟩ := course_outside (by trivial) hcourse
  have hnone := wantedIn_of_bare hrest (acts_attend_only (fun _ ha => ha) (tryOut_bare made))
  show b.workload.trial :: wantedIn rest = _
  rw [hnone]

/-- A run asks for the containers of its one shift. -/
theorem wantedIn_of_run {threads iterations : Nat} {before after : BenchState}
    {r : Attempt Unit} (hbefore : before.run.phase = .created)
    (h : Course c (SweepWork.acts (BenchWork.attend before (b.run threads iterations).run)) tr c'
      (r, after)) :
    ∃ s : Shift, s.threads = threads ∧ s.iterations = iterations ∧
      s.job = .lifecycle b.workload ∧ wantedIn tr = s.wanted := by
  obtain ⟨s, cleaned, hthreads, hiterations, hjob, rfl, -, -⟩ := b.course_of_run hbefore h
  exact ⟨s, hthreads, hiterations, hjob, List.append_nil _⟩

end LifecycleBench

theorem WatchedBench.Obtains.wantedIn_eq {b : WatchedBench} {hasSampler : Bool}
    {found : Attempt SamplerSource} (h : b.Obtains hasSampler tr found) : wantedIn tr = [] := by
  cases h <;> rfl

namespace Sweep

/-- What a step asks for: nothing if it has failed before its trial, then the container of the
trial, and after the trial those of its workers. -/
inductive Wants (w : Workload) (threads iterations : Nat) : List Wanted → Prop
  | nothing : Wants w threads iterations []
  | trial : Wants w threads iterations [w.trial]
  | shift (s : Shift) : s.threads = threads → s.iterations = iterations → s.job = .lifecycle w →
      Wants w threads iterations (w.trial :: s.wanted)

variable {inner : LifecycleBench} {e : Definition.Entry} {options : SweepOptions}
  {threads iterations : Nat}

theorem wantedIn_of_trial {r : Attempt Unit}
    (h : (benchFor e options inner).validate.Does tr r) : wantedIn tr = [inner.workload.trial] := by
  unfold benchFor at h
  split at h <;> exact inner.wantedIn_of_validate h

theorem wantedIn_of_bench {r : Attempt Unit}
    (h : ((benchFor e options inner).run threads iterations).Does tr r) :
    wantedIn tr = [] ∨ ∃ s : Shift, s.threads = threads ∧ s.iterations = iterations ∧
      s.job = .lifecycle inner.workload ∧ wantedIn tr = s.wanted := by
  obtain ⟨_, _, after, hcourse⟩ := h
  unfold benchFor at hcourse
  split at hcourse
  · obtain ⟨_, hlook, -⟩ | ⟨look, source, task, during, found, _, _, _, hlook, rfl, hinner, -⟩ :=
      WatchedBench.course_of_run rfl hcourse
    · exact Or.inl hlook.wantedIn_eq
    · obtain ⟨s, hthreads, hiterations, hjob, hwanted⟩ := inner.wantedIn_of_run rfl hinner
      refine Or.inr ⟨s, hthreads, hiterations, hjob, ?_⟩
      rw [wantedIn_append, hlook.wantedIn_eq, List.nil_append, ← hwanted]
      exact (wantedIn_append during _).trans (List.append_nil _)
  · exact Or.inr (inner.wantedIn_of_run rfl hcourse)

theorem refuse_bare : SweepWork.refuseIfCancelled.run.Only SweepAsk.IsBare := by
  refine ⟨trivial, fun cancelled => ?_⟩
  cases cancelled <;> trivial

theorem wantedIn_of_finish {b : Bench} (hb : b.close = inner.close) {s : BenchState}
    {result : Attempt Unit} {r : Attempt Step}
    (h : Course c (finish b threads iterations result s).run tr c' r) : wantedIn tr = [] := by
  obtain ⟨closed, rfl, -⟩ := ends_of_finish hb h
  rfl

/-- A step whose engine is made asks for the container of its trial, unless it has failed before. -/
theorem wants_of_proceed {r : Attempt Step}
    (h : Course c (proceed inner (benchFor e options inner) threads iterations).run tr c' r) :
    Wants inner.workload threads iterations (wantedIn tr) := by
  obtain ⟨_, _, hprepare, -⟩ | ⟨prepared, _, _, _, rfl, hprepare, h1⟩ := course_attempt h
  · rw [(does_of_stage hprepare).wantedIn_of_bare inner.prepare_bare]
    exact .nothing
  obtain ⟨tried, _, verdict, _, _, rfl, htried, h2⟩ := course_of_bench h1
  rw [wantedIn_append, (does_of_stage hprepare).wantedIn_of_bare inner.prepare_bare,
    List.nil_append, wantedIn_append, wantedIn_of_trial htried]
  cases verdict with
  | error _ =>
    obtain ⟨rfl, -⟩ := course_done h2
    exact .trial
  | ok =>
    change Course _ (perform _ threads iterations).run _ _ _ at h2
    obtain ⟨during, _, _, _, _, rfl, hran, hfinish⟩ := course_of_bench h2
    rw [wantedIn_append, wantedIn_of_finish (close_benchFor e options inner) hfinish,
      List.append_nil]
    rcases wantedIn_of_bench hran with hnone | ⟨s, hthreads, hiterations, hjob, hwanted⟩
    · rw [hnone]
      exact .trial
    · rw [hwanted]
      exact .shift s hthreads hiterations hjob

/-- Whatever becomes of a step, it asks for the container of its trial before those of its workers,
and for no other one. -/
theorem wants_of_step {config : EngineConfig} {r : Attempt Step}
    (h : Course c (step config inner (benchFor e options inner) threads iterations).run tr c' r) :
    Wants inner.workload threads iterations (wantedIn tr) := by
  rw [step_eq] at h
  obtain ⟨_, _, hrefuse, -⟩ | ⟨front, _, _, _, rfl, hrefuse, h1⟩ := course_attempt h
  · rw [wantedIn_of_bare hrefuse refuse_bare]
    exact .nothing
  rw [wantedIn_append, wantedIn_of_bare hrefuse refuse_bare, List.nil_append]
  obtain ⟨_, _, hmake, -⟩ | ⟨_, _, made, rest, rfl, hmake, h2⟩ := course_attempt h1
  · obtain ⟨_, -, he⟩ := course_of_asking (by trivial) hmake
    cases he
  obtain ⟨_, rfl, ⟨⟩⟩ := course_of_asking (by trivial) hmake
  have hmaking : ∀ a, wantedIn [.turn ⟨.make config, a⟩] = [] := fun _ => rfl
  rw [wantedIn_append, hmaking, List.nil_append]
  cases made with
  | error _ =>
    obtain ⟨rfl, -⟩ := course_done h2
    exact .nothing
  | ok => exact wants_of_proceed h2

end Sweep

end EngineBench
