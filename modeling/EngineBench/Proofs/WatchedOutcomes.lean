-- One run of a watched bench that has not run yet, whatever becomes of the inner run, of the
-- sampling task and of the search for the daemon. The samples come home behind the records and
-- never in their place.
import EngineBench.Proofs.Progress
import EngineBench.Proofs.Samples
import EngineBench.Proofs.WatchedCalls

namespace EngineBench

open Dialogue

/-! ## What a bench has to show -/

/-- A caller who comes alone is told this phase and these records. -/
structure Bench.Shows (b : Bench) (s : BenchState) (p : RunPhase) (records : List Record) :
    Prop where
  phase : BenchWork.attend s b.phase = .done (p, s)
  stats : BenchWork.attend s b.stats = .done (records, s)

/-! ## Shifts that could take place -/

/-- However a job is given out, some shift does it. -/
theorem Shift.exists_shift (threads iterations : Nat) (job : Job) (cancelled : Bool) :
    ∃ s : Shift, s.threads = threads ∧ s.iterations = iterations ∧ s.job = job ∧
      s.cancelled = cancelled := by
  have hstart : (Pool.start threads iterations job cancelled).steps [] =
    some (Pool.start threads iterations job cancelled) := rfl
  obtain ⟨events, pool, hgoes, hended⟩ := Pool.exists_end hstart
  exact ⟨⟨threads, iterations, job, cancelled, events, pool, Duration.zero, hgoes, hended⟩,
    rfl, rfl, rfl, rfl⟩

namespace WatchedBench

variable (b : WatchedBench)

/-- The program of a run on a bench that has not run yet, handed a sampler or not. -/
def program (hasSampler : Bool) (threads iterations : Nat) :
    Dialogue SweepAsk SweepAsk.Answer (Attempt Unit × BenchState) :=
  SweepWork.acts (BenchWork.attend (.start hasSampler) (b.run threads iterations).run)

theorem Obtains.callsMade_eq {b : WatchedBench} {hasSampler : Bool} {tr : List Happening}
    {found : Attempt SamplerSource} (h : b.Obtains hasSampler tr found) : callsMade tr = [] := by
  cases h <;> rfl

/-- A run can succeed on any bench that has not run, with its own search for the daemon. -/
theorem exists_course_ok (threads iterations : Nat) (c : Bool) : ∃ tr c' after,
    Course c (b.program false threads iterations) tr c' (.ok (), after) := by
  obtain ⟨s, rfl, rfl, hjob, rfl⟩ :=
    Shift.exists_shift threads iterations (.lifecycle b.inner.workload) c
  obtain ⟨inner, group, interval⟩ := b
  have hrest : ∀ source, Course s.cancelled (SweepWork.acts (BenchWork.attend (.start false)
      (runFrom ⟨inner, group, interval⟩ s.threads s.iterations (.ok source))))
      [.turn ⟨.act (.startSampling source interval), (0 : Nat)⟩, .shift s,
        .turn ⟨.act (.call .clean), (.ok () : Except EngineError Unit)⟩,
        .turn ⟨.act (.stopSampling 0), (.ok [] : Attempt (List Sample))⟩] s.pool.cancelled
      (.ok (), ⟨⟨.completed, s.pool.records, s.took⟩, false, some []⟩) := by
    intro source
    refine .outside trivial ?_
    beta_reduce
    rw [attend_bind, acts_bind, inner.attend_run _ _ rfl, ← hjob]
    exact .shift s (.outside trivial (.outside trivial .done))
  cases group with
  | some path =>
    let found : Attempt ControlGroup := .ok ⟨.unified path, 0, 0⟩
    exact ⟨.turn ⟨.act (.watchGroup path), found⟩ :: _, _, _, .outside trivial (hrest _)⟩
  | none =>
    let found : Except EngineError DaemonProcess := .ok ⟨1, []⟩
    exact ⟨.turn ⟨.act .findDaemon, found⟩ :: _, _, _, .outside trivial (hrest _)⟩

open Sample (SortsByTime)

/-- A run on a bench that has not run yet goes one of two ways. Without a source of samples it fails
before it has called the engine or let anyone work, the bench is as it was, and a later run can
succeed. With one it contains a run of the inner bench and ends like that; afterwards the records of
the inner bench stand first, as they are, and the samples that the task has collected follow by
their times. -/
theorem a_run_keeps_the_records_and_puts_the_samples_behind {hasSampler : Bool}
    {threads iterations : Nat} {c c' : Bool} {tr : List Happening} {result : Attempt Unit}
    {after : BenchState}
    (h : Course c (b.program hasSampler threads iterations) tr c' (result, after)) :
    (∃ e, b.Obtains hasSampler tr (.error e) ∧ result = .error e ∧ shifts tr = [] ∧
      callsMade tr = [] ∧ (Bench.watched b).Shows after .created [] ∧
      ∀ threads iterations c, ∃ tr' c' last, Course c (SweepWork.acts (BenchWork.attend after
        (b.run threads iterations).run)) tr' c' (.ok (), last)) ∨
    ∃ look source task during found b1 b2 inner records ordered,
      b.Obtains hasSampler look (.ok source) ∧
      tr = look ++ .turn ⟨.act (.startSampling source b.interval), task⟩ ::
        (during ++ [.turn ⟨.act (.stopSampling task), found⟩]) ∧
      Course b1 (b.inner.program threads iterations) during b2 (result, inner) ∧
      (Bench.lifecycle b.inner).Shows inner .completed records ∧
      (Bench.watched b).Shows after .completed (records ++ ordered.map .sample) ∧
      SortsByTime (found.toOption.getD []) ordered ∧
      ∀ events t, Sampling.Task.start.steps events = some t → t.result? = some found →
        SortsByTime (Sampling.collected events) ordered := by
  obtain ⟨e, hlook, hresult, rfl⟩ | ⟨look, source, task, during, found, b1, b2, inner, hlook, htr,
    hinner, rfl⟩ := course_of_run rfl h
  · refine Or.inl ⟨e, hlook, hresult, hlook.shifts_eq, hlook.callsMade_eq,
      ⟨attend_phase _, attend_stats _⟩, ?_⟩
    exact b.exists_course_ok
  · obtain ⟨s, cleaned, -, -, -, -, -, rfl⟩ := b.inner.course_of_run rfl hinner
    have hstats := inTimeOrder_append s.pool.isSample_of_mem_records (found.toOption.getD [])
    refine Or.inr ⟨look, source, task, during, found, b1, b2, _, s.pool.records,
      (found.toOption.getD []).mergeSort Sample.noLater, hlook, htr, hinner, ⟨rfl, rfl⟩,
      ⟨attend_phase _, hstats ▸ attend_stats _⟩, Sample.sortsByTime_mergeSort _, ?_⟩
    intro events t hsteps hfound
    rw [← Sampling.Task.result_of_steps hsteps hfound]
    exact Sample.sortsByTime_mergeSort _

/-- The bench with two commands, with its daemon watched. -/
def twoCommandsWatched : WatchedBench :=
  ⟨LifecycleBench.twoCommands, none, Sampler.standardInterval⟩

/-- Two queries of its daemon with one that fails between them; the clock goes back meanwhile. -/
def backwardsClock : List Sampling.Event :=
  [.tick (.measured ⟨7, .zero⟩), .tick .failed, .tick (.measured ⟨5, .zero⟩), .stop, .leave]

/-- Its engine cannot be cleaned, so the run fails. Its sampling task hands back two samples, and
the second one comes home first. -/
theorem a_run_that_fails_keeps_its_samples :
    (∃ task, Sampling.Task.start.steps backwardsClock = some task ∧
      task.result? = some (.ok [⟨7, .zero⟩, ⟨5, .zero⟩])) ∧
    ∃ tr e after records ordered,
      Course false (twoCommandsWatched.program true 1 2) tr true
        (LifecycleBench.twoCommands.verdict (.error e), after) ∧
      .turn ⟨.act (.stopSampling 0), .ok [⟨7, .zero⟩, ⟨5, .zero⟩]⟩ ∈ tr ∧
      (Bench.watched twoCommandsWatched).Shows after .completed (records ++ ordered.map .sample) ∧
      SortsByTime [⟨7, .zero⟩, ⟨5, .zero⟩] ordered := by
  let task : Sampling.Task := ⟨.left, true, [⟨7, .zero⟩, ⟨5, .zero⟩]⟩
  have hevents : Sampling.Task.start.steps backwardsClock = some task := rfl
  have hcourse : Course false (twoCommandsWatched.program true 1 2)
      [.turn ⟨.act (.startSampling .given Sampler.standardInterval), (0 : Nat)⟩,
        .shift LifecycleBench.twoCommandsCancelled,
        .turn ⟨.act (.call .clean), (.error (.io .permissionDenied) : Except EngineError Unit)⟩,
        .turn ⟨.act (.stopSampling 0), (.ok task.samples : Attempt (List Sample))⟩] true
      (LifecycleBench.twoCommands.verdict (.error (.io .permissionDenied)),
        ⟨⟨.completed, LifecycleBench.twoCommandsCancelled.pool.records, ⟨19⟩⟩, false,
          some task.samples⟩) := by
    refine .outside trivial ?_
    exact .shift LifecycleBench.twoCommandsCancelled (.outside trivial (.outside trivial .done))
  obtain ⟨_, hlook, -⟩ | ⟨look, source, n, during, found, _, _, _, records, ordered, hlook, htr, -,
    -, hshows, -, hall⟩ :=
    a_run_keeps_the_records_and_puts_the_samples_behind twoCommandsWatched hcourse
  · cases hlook
  · cases hlook
    have hlast := congrArg List.getLast? htr
    rw [List.nil_append, ← List.cons_append, List.getLast?_concat] at hlast
    cases hlast
    exact ⟨⟨task, hevents, rfl⟩, _, _, _, records, ordered, hcourse, by simp [task], hshows,
      hall backwardsClock task hevents rfl⟩

end WatchedBench

end EngineBench
