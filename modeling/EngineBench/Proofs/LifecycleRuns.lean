-- The run of a life cycle bench, whatever the engine replies and whenever the run is cancelled.
-- Its records are those of whole passes, first to last, and each of them times the recognised
-- words. The engine is cleaned once, after the last worker has ended, and that decides whether the
-- run succeeds.
import EngineBench.Proofs.Courses

namespace EngineBench

open Dialogue Worker

/-! ## The run as a program -/

namespace LifecycleBench

variable (b : LifecycleBench)

/-- How a run ends that has cleaned up like this. -/
def verdict (cleaned : Except EngineError Unit) : Attempt Unit :=
  (Attempt.ofEngine cleaned).during (.cleaningAfter b.name)

/-- The run that gets the bench lets its workers work, cleans up, and keeps the records. Any other
run is refused. -/
theorem run_eq (threads iterations : Nat) : (b.run threads iterations).run =
    .ask (.within .begin) fun mine =>
      if mine then
        .ask (.act (.work threads iterations (.lifecycle b.workload))) fun found =>
          .ask (.act (.call .clean)) fun cleaned =>
            .ask (.within (.complete found.1 found.2)) fun _ => .done (b.verdict cleaned)
      else .done (.error (.ofCause (.alreadyRun b.name))) := by
  show (ask (BenchAsk.within .begin) _ : BenchWork _) = _
  congr

/-- A run keeps no samples and leaves the engine open. -/
theorem run_only (threads iterations : Nat) {P : BenchAsk → Prop}
    (hP : ∀ q, (∀ xs, q ≠ .within (.keepSamples xs)) → q ≠ .act (.call .close) → P q) :
    (b.run threads iterations).run.Only P := by
  rw [run_eq]
  refine ⟨hP _ (by simp) (by simp), fun mine => ?_⟩
  cases mine with
  | false => trivial
  | true =>
    refine ⟨hP _ (by simp) (by simp), fun found => ⟨hP _ (by simp) (by simp), fun cleaned => ?_⟩⟩
    exact ⟨hP _ (by simp) (by simp), fun _ => trivial⟩

theorem attend_run (threads iterations : Nat) {s : BenchState} (hs : s.run.phase = .created) :
    BenchWork.attend s (b.run threads iterations).run =
      .ask (.work threads iterations (.lifecycle b.workload)) fun found =>
        .ask (.call .clean) fun cleaned =>
          .done (b.verdict cleaned, { s with run := ⟨.completed, found.1, found.2⟩ }) := by
  rw [run_eq]
  simp only [BenchWork.attend, Section.perform, RunState.begin?_of_created hs]
  rfl

end LifecycleBench

/-! ## The records of one worker -/

/-- What a worker of a shift has heard, and what it has handed in. -/
structure Shift.Accounts (s : Shift) (w : Workload) (t : Nat) (queue : List Iteration) : Prop where
  atMost : queue.length ≤ s.iterations
  /-- The records are those of the passes 0, 1, 2 and so on, one for each pass. -/
  passes : ∃ xs rest, s.journal t = xs ++ rest ∧
    Rounds (fun i => iterate w (Name.ofIteration t i)) 0 xs queue ∧ sent rest = []
  /-- A worker that lives has handed in a record for each pass that it has begun. -/
  begun : .die t ∉ s.events → begun (s.journal t) = queue.length
  /-- A worker that has died of a call has not, for the pass of that call. -/
  died : .die t ∈ s.events → Worker.begun (s.journal t) = queue.length + 1
  /-- No pass begins in a run that is cancelled beforehand. -/
  late : s.cancelled = true → queue = []
  /-- At the moment of cancellation at most one pass is unfinished, and none begins after it. -/
  cancelled : ∀ before rest, s.events = before ++ .cancel :: rest →
    ∃ p m more, (Pool.start s.threads s.iterations s.job s.cancelled).steps before = some p ∧
      p.members[t]? = some m ∧ queue = m.queue ++ more ∧ more.length ≤ 1 ∧
      Worker.begun (s.journal t) =
        Worker.begun ((Pool.start s.threads s.iterations s.job s.cancelled).journal t before)

/-- Of a run that is cancelled in its middle: what the worker had handed in by then, and how many
passes it had begun. -/
theorem Shift.at_cancel (s : Shift) {t : Nat} (ht : t < s.threads) {m : Pool.Member}
    (hm : s.pool.members[t]? = some m) {before rest : List Pool.Event}
    (hevents : s.events = before ++ .cancel :: rest) :
    ∃ p m1 more, (Pool.start s.threads s.iterations s.job s.cancelled).steps before = some p ∧
      p.members[t]? = some m1 ∧ m.queue = m1.queue ++ more ∧ more.length ≤ 1 ∧
      Worker.begun (s.journal t) =
        Worker.begun ((Pool.start s.threads s.iterations s.job s.cancelled).journal t before) := by
  have hgoes := s.goes
  rw [hevents, Pool.steps_append, Option.bind_eq_some_iff] at hgoes
  obtain ⟨p, hbefore, hafter⟩ := hgoes
  obtain ⟨m1, hm1, -⟩ := Pool.worker_stands hbefore ht
  obtain ⟨m2, hm2, htakes, -⟩ := Pool.steps_member hafter hm1
  rw [hm] at hm2
  cases hm2
  obtain ⟨p1, hcancel, hrest⟩ := Pool.steps_cons hafter
  have hp1 : p1.cancelled = true := by
    rw [(Pool.step_shape hcancel).2.2]
    simp [Pool.Event.isCancel]
  -- nobody hears of the cancellation itself, and nobody begins a pass after it
  have hnone : Worker.begun (p.journal t (.cancel :: rest)) = 0 := by
    have hheard : p.heard t .cancel = [] := by simp [Pool.heard, Pool.Event.worker?]
    simp only [Pool.journal, hcancel, hheard, List.nil_append]
    exact Pool.begun_of_cancelled hrest hp1 t
  have hbegun : Worker.begun (s.journal t) =
      Worker.begun ((Pool.start s.threads s.iterations s.job s.cancelled).journal t before) := by
    rw [journal, hevents, Pool.journal_append t hbefore, begun_append, hnone, Nat.add_zero]
  refine ⟨p, m1, sent (p.journal t (.cancel :: rest)), hbefore, hm1, htakes.queue, ?_, hbegun⟩
  have hlast := (Pool.begun_of_worker s.goes ht hm).2.1
  have hfirst := (Pool.begun_of_worker hbefore ht hm1).2.2
  change m.queue.length ≤ Worker.begun (s.journal t) at hlast
  rw [hbegun, htakes.queue, List.length_append] at hlast
  omega

theorem Shift.accounts (s : Shift) {w : Workload} (hjob : s.job = .lifecycle w) {t : Nat}
    (ht : t < s.threads) {m : Pool.Member} (hm : s.pool.members[t]? = some m) :
    s.Accounts w t m.queue := by
  obtain ⟨m', hm', -, -, xs, ys, k, hturns, hrounds, hk, hstage⟩ := Pool.worker_stands s.goes ht
  rw [hm] at hm'
  cases hm'
  have hended := List.all_eq_true.mp s.ended m (List.mem_of_getElem? hm)
  have hend := Pool.worker_ended s.goes ht hm hended
  change Pool.Ending s.iterations m.queue.length (s.journal t) (.die t ∈ s.events) at hend
  refine ⟨by omega, ⟨xs, ys, hturns, ?_, hstage.sent_eq (s.job.inward t)⟩, ?_, ?_, ?_, ?_⟩
  · rw [hjob] at hrounds
    exact hrounds
  · intro halive
    cases hend with
    | whole _ hbegun => exact hbegun
    | stopped _ hbegun => exact hbegun
    | died _ _ _ hdied => exact absurd hdied halive
  · intro hdied
    cases hend with
    | whole _ _ _ halive => exact absurd hdied halive
    | stopped _ _ _ halive => exact absurd hdied halive
    | died _ hbegun => exact hbegun
  · intro hc
    have hnone : Worker.begun (s.journal t) = 0 := Pool.begun_of_cancelled s.goes hc t
    have hle := (Pool.begun_of_worker s.goes ht hm).2.1
    change m.queue.length ≤ Worker.begun (s.journal t) at hle
    rw [hnone, Nat.le_zero, List.length_eq_zero_iff] at hle
    exact hle
  · intro before rest hevents
    exact s.at_cancel ht hm hevents

/-! ## One record -/

/-- Every record of a shift is that of a pass that tried the recognised words. -/
theorem Shift.exists_tries (s : Shift) {w : Workload} (hjob : s.job = .lifecycle w) {r : Iteration}
    (hr : r ∈ s.pool.members.flatMap Pool.Member.queue) :
    ∃ tries, tries.map Try.word = (Operation.recognised w.commands).map Prod.fst ∧
      r = .ofTries tries := by
  obtain ⟨m, hm, hr⟩ := List.mem_flatMap.mp hr
  obtain ⟨t, ht, hget⟩ := List.getElem_of_mem hm
  have hmember : s.pool.members[t]? = some m := by rw [List.getElem?_eq_getElem ht, hget]
  have haccounts := s.accounts hjob (Pool.members_length s.goes ▸ ht) hmember
  obtain ⟨xs, rest, -, hrounds, -⟩ := haccounts.passes
  obtain ⟨i, turns, hpass⟩ := hrounds.exists_pass hr
  exact exists_tries_of_after_iterate w _ hpass

/-! ## The whole run -/

/-- A worker calls the engine for its containers and for nothing else. -/
theorem Shift.target_of_call (s : Shift) {t : Nat} (ht : t < s.threads) {x : WorkerTurn}
    (hx : x ∈ s.journal t) {call : EngineCall} (hcall : x.1 = .call call) :
    call.target?.isSome = true := by
  have honly : (s.job.worker s.iterations t).Only fun q =>
      ∀ call, q = .call call → call.target?.isSome = true := by
    apply repeated_only
    · intro i
      cases s.job with
      | lifecycle w =>
        apply iterate_only
        · rintro _ ⟨⟩
          rfl
        · rintro op c _ ⟨⟩
          rfl
      | spawning =>
        rw [Job.iteration, spawnOnce_eq]
        exact ⟨by simp, fun _ => trivial⟩
    · simp
    · simp
  obtain ⟨m, -, htakes, -⟩ := Pool.steps_member s.goes (Pool.start_member ht)
  exact (htakes.program.only honly).1 x hx call hcall

namespace LifecycleBench

variable (b : LifecycleBench)

theorem course_of_run {threads iterations : Nat} {c c' : Bool} {tr : List Happening}
    {before after : BenchState} {result : Attempt Unit} (hbefore : before.run.phase = .created)
    (h : Course c (SweepWork.acts (BenchWork.attend before (b.run threads iterations).run)) tr c'
      (result, after)) :
    ∃ (s : Shift) (cleaned : Except EngineError Unit), s.threads = threads ∧
      s.iterations = iterations ∧ s.job = .lifecycle b.workload ∧
      tr = [.shift s, .turn ⟨.act (.call .clean), cleaned⟩] ∧ result = b.verdict cleaned ∧
      after = { before with run := ⟨.completed, s.pool.records, s.took⟩ } := by
  rw [b.attend_run threads iterations hbefore] at h
  obtain ⟨s, rest, hthreads, hiterations, hjob, rfl, hclean⟩ := course_work h
  obtain ⟨_, cleaned, rest, rfl, hdone⟩ := course_outside (by trivial) hclean
  obtain ⟨rfl, hresult⟩ := course_done hdone
  cases hresult
  exact ⟨s, cleaned, hthreads, hiterations, hjob, rfl, rfl, rfl⟩

/-- The program of a run on a bench that has not run yet. -/
def program (threads iterations : Nat) :
    Dialogue SweepAsk SweepAsk.Answer (Attempt Unit × BenchState) :=
  SweepWork.acts (BenchWork.attend (.start false) (b.run threads iterations).run)

/-- A bench with two commands. -/
def twoCommands : LifecycleBench :=
  ⟨⟨"two", "busybox", none, false, false, ["run", "stop"]⟩, .null⟩

/-- Its only worker has two passes to make and is cancelled in the first one: `run` is given up,
`stop` is answered first, and the second pass does not begin. -/
def twoCommandsCancelled : Shift where
  threads := 1
  iterations := 2
  job := .lifecycle twoCommands.workload
  cancelled := false
  events :=
    let ctr : Container := ⟨Name.ofIteration 0 0, "busybox", none, false, false, none⟩
    [.look 0, .answer 0 (.call (createCall twoCommands.workload ctr.name)) ⟨.ok ctr, ⟨5⟩⟩, .cancel,
      .abandon 0 ⟨6⟩, .answer 0 (.call (.operate .stop ctr)) ⟨.ok ⟨"", ⟨7⟩⟩, ⟨8⟩⟩, .send 0, .look 0]
  pool := ⟨2, true, [⟨.done (), false,
    [⟨[("run", ⟨6⟩), ("stop", ⟨7⟩)], [("run", 1)]⟩]⟩]⟩
  took := ⟨19⟩
  goes := by rfl
  ended := by rfl

end LifecycleBench

end EngineBench
