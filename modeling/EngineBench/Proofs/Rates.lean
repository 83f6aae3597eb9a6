-- What the rates of a sweep count. Each rate counts the passes that its workers had to make. The
-- workers have made them all just if none of them was told to stop and none has died, and the
-- sweep does not ask: a step that was cancelled while its workers worked counts like a whole one,
-- unless another step comes after it.
import EngineBench.Proofs.LifecycleRuns
import EngineBench.Proofs.PlainCalls
import EngineBench.Proofs.Samples
import EngineBench.Proofs.WatchedRuns
import Mathlib.Data.List.Forall2

namespace EngineBench

open Dialogue

/-! ## One run of a bench -/

namespace Bench

/-- How many of these records are of passes. -/
def passes (records : List Record) : Nat := records.countP fun r => !r.isSample

theorem passes_of_pool (p : Pool) : passes p.records = p.records.length := by
  rw [passes, List.countP_eq_length]
  intro r hr
  rw [p.isSample_of_mem_records r hr]
  rfl

/-- Samples make no difference to the number of passes. -/
theorem passes_append_samples (records : List Record) (samples : List Sample) :
    passes (records ++ samples.map Record.sample) = passes records := by
  have hsamples : (samples.map Record.sample).countP (fun r => !r.isSample) = 0 := by
    rw [List.countP_eq_zero]
    intro r hr
    obtain ⟨s, -, rfl⟩ := List.mem_map.mp hr
    simp [Record.isSample]
  rw [passes, List.countP_append, hsamples]
  rfl

/-- What a bench remembers of a run with this one shift. -/
structure Remembers (b : Bench) (s : Shift) (after : BenchState) : Prop where
  run : after.run = ⟨.completed, s.pool.records, s.took⟩
  samples : ∀ w, b = .watched w → after.samples.isSome = true

theorem course_of_spawning {threads iterations : Nat} {c c' : Bool} {tr : List Happening}
    {after : BenchState} {result : Attempt Unit}
    (h : Course c (SweepWork.acts
      (BenchWork.attend (.start false) (SpawningBench.run threads iterations).run)) tr c'
      (result, after)) :
    ∃ s : Shift, tr = [.shift s] ∧ s.threads = threads ∧ s.iterations = iterations ∧
      s.job = .spawning ∧ result = .ok () ∧ after.run = ⟨.completed, s.pool.records, s.took⟩ := by
  obtain ⟨s, rest, hthreads, hiterations, hjob, rfl, hdone⟩ := course_work h
  obtain ⟨rfl, hresult⟩ := course_done hdone
  cases hresult
  exact ⟨s, rfl, hthreads, hiterations, hjob, rfl, rfl⟩

/-- Every run of a bench that succeeds is one shift, and the bench remembers it. -/
theorem course_of_run {b : Bench} {threads iterations : Nat} {c c' : Bool} {tr : List Happening}
    {after : BenchState}
    (h : Course c (SweepWork.acts
      (BenchWork.attend (.start false) (b.run threads iterations).run)) tr c' (.ok (), after)) :
    ∃ s : Shift, shifts tr = [s] ∧ s.threads = threads ∧ s.iterations = iterations ∧
      s.job = b.job ∧ b.Remembers s after := by
  cases b with
  | lifecycle b =>
    obtain ⟨s, cleaned, hthreads, hiterations, hjob, rfl, -, rfl⟩ := b.course_of_run rfl h
    exact ⟨s, rfl, hthreads, hiterations, hjob, rfl, by simp⟩
  | spawning =>
    obtain ⟨s, rfl, hthreads, hiterations, hjob, -, hrun⟩ := course_of_spawning h
    exact ⟨s, rfl, hthreads, hiterations, hjob, hrun, by simp⟩
  | watched b =>
    obtain ⟨s, hshifts, hthreads, hiterations, hjob, hrun, hsamples⟩ :=
      WatchedBench.course_of_run_ok (b := b) rfl h
    exact ⟨s, hshifts, hthreads, hiterations, hjob, hrun, fun _ _ => hsamples⟩

end Bench

/-! ## One step of a sweep -/

namespace Sweep

/-- What a step shows of its one shift. -/
structure Step.Reports (step : Step) (s : Shift) (threads iterations : Nat) : Prop where
  threads_eq : s.threads = threads
  iterations_eq : s.iterations = iterations
  rate_eq : step.rate = EngineBench.rate (UInt64.ofNat threads) (UInt64.ofNat iterations) s.took
  passes_eq : Bench.passes step.records = s.pool.records.length

/-- What a step of a bench shows of its one shift, and keeps of it: the records of its workers, and
behind them the samples if the bench is watched. -/
structure Step.Keeps (step : Step) (s : Shift) (b : Bench) (threads iterations : Nat) : Prop
    extends step.Reports s threads iterations where
  job_eq : s.job = b.job
  records_eq : ∃ samples : List Sample, step.records = s.pool.records ++ samples.map .sample
  unwatched : (∀ w, b ≠ .watched w) → step.records = s.pool.records

variable {threads iterations : Nat} {c c' : Bool} {tr : List Happening}

theorem course_of_stats {b : Bench} {s : Shift} {after after' : BenchState} {records : List Record}
    (hb : b.Remembers s after)
    (h : Course c (SweepWork.acts (BenchWork.attend after b.stats)) tr c' (records, after')) :
    shifts tr = [] ∧ (∃ samples : List Sample, records = s.pool.records ++ samples.map .sample) ∧
      ((∀ w, b ≠ .watched w) → records = s.pool.records) := by
  have hresult : after.run.result = s.pool.records := by
    rw [hb.run]
    rfl
  rw [← hresult]
  cases b with
  | lifecycle b =>
    obtain ⟨rfl, hrecords⟩ := course_done h
    cases hrecords
    exact ⟨rfl, ⟨[], (List.append_nil _).symm⟩, fun _ => rfl⟩
  | spawning =>
    obtain ⟨rfl, hrecords⟩ := course_done h
    cases hrecords
    exact ⟨rfl, ⟨[], (List.append_nil _).symm⟩, fun _ => rfl⟩
  | watched w =>
    obtain ⟨samples, hsamples⟩ := Option.isSome_iff_exists.mp (hb.samples w rfl)
    change Course c (SweepWork.acts (BenchWork.attend after WatchedBench.stats)) tr c' _ at h
    rw [WatchedBench.stats_eq] at h
    simp only [BenchWork.attend, Section.perform, hsamples] at h
    obtain ⟨rfl, hrecords⟩ := course_done h
    cases hrecords
    refine ⟨rfl, ⟨_, inTimeOrder_append ?_ samples⟩, fun hw => absurd rfl (hw w)⟩
    rw [hresult]
    exact s.pool.isSample_of_mem_records

theorem course_of_outcome {b : Bench} {s : Shift} {after : BenchState} {step : Step}
    (hthreads : s.threads = threads) (hiterations : s.iterations = iterations)
    (hjob : s.job = b.job) (hb : b.Remembers s after)
    (h : Course c (outcome b after threads iterations).run tr c' (.ok step)) :
    shifts tr = [] ∧ step.Keeps s b threads iterations := by
  obtain ⟨tr1, _, ⟨elapsed, s1⟩, tr2, rfl, h1, h2⟩ := course_ok_bind h
  obtain ⟨tr3, _, ⟨records, s2⟩, tr4, rfl, h3, h4⟩ := course_ok_bind h2
  obtain ⟨_, _, ⟨⟩, helapsed⟩ := course_bench h1
  obtain ⟨_, _, ⟨⟩, hstats⟩ := course_bench h3
  obtain ⟨rfl, he⟩ := course_done helapsed
  cases he
  obtain ⟨rfl, hstep⟩ := course_done h4
  cases hstep
  obtain ⟨hquiet, ⟨samples, rfl⟩, hunwatched⟩ := course_of_stats hb hstats
  refine ⟨by simpa using hquiet, ⟨hthreads, hiterations, ?_, ?_⟩, hjob, ⟨samples, rfl⟩, hunwatched⟩
  · show EngineBench.rate _ _ after.run.elapsed = _
    rw [hb.run]
  · exact (Bench.passes_append_samples _ samples).trans (Bench.passes_of_pool s.pool)

theorem course_of_limitStep {step : Step}
    (h : Course c (limitStep iterations threads).run tr c' (.ok step)) :
    ∃ s, shifts tr = [s] ∧ step.Keeps s .spawning threads iterations := by
  obtain ⟨tr1, _, ⟨result, after⟩, tr2, rfl, h1, h2⟩ := course_ok_bind h
  obtain ⟨tr3, _, _, tr4, rfl, h3, h4⟩ := course_ok_bind h2
  obtain ⟨rfl, hresult⟩ := course_ofAttempt h3
  subst hresult
  obtain ⟨_, _, ⟨⟩, hrun⟩ := course_bench h1
  obtain ⟨s, hshifts, hthreads, hiterations, hjob, hremembers⟩ := Bench.course_of_run hrun
  obtain ⟨hquiet, hkeeps⟩ := course_of_outcome hthreads hiterations hjob hremembers h4
  exact ⟨s, by simp [shifts_append, hshifts, hquiet], hkeeps⟩

theorem course_of_question {q : SweepAsk} (hq : q.IsQuiet) {a : q.Answer}
    (h : Course c (SweepWork.question q).run tr c' (.ok a)) : shifts tr = [] :=
  shifts_of_quiet h ⟨hq, fun _ => trivial⟩

theorem course_of_refuse {x : Unit} (h : Course c SweepWork.refuseIfCancelled.run tr c' (.ok x)) :
    shifts tr = [] := by
  obtain ⟨tr1, _, cancelled, tr2, rfl, h1, h2⟩ := course_ok_bind h
  cases cancelled with
  | true =>
    obtain ⟨-, he⟩ := course_done h2
    cases he
  | false =>
    obtain ⟨rfl, -⟩ := course_done h2
    have hquiet : SweepAsk.look.IsQuiet := trivial
    rw [List.append_nil]
    exact course_of_question hquiet h1

theorem course_of_stage {α : Type} {w : BenchAttempt α} {x : α} (hw : w.run.Only BenchAsk.IsQuiet)
    (h : Course c (SweepWork.stage w).run tr c' (.ok x)) : shifts tr = [] := by
  obtain ⟨tr1, _, ⟨r, after⟩, tr2, rfl, h1, h2⟩ := course_ok_bind h
  obtain ⟨_, _, ⟨⟩, hcourse⟩ := course_bench h1
  obtain ⟨rfl, -⟩ := course_ofAttempt h2
  rw [List.append_nil]
  exact (course_of_quiet hw hcourse).1

theorem course_of_step {config : EngineConfig} {inner : LifecycleBench} {b : Bench} {step : Step}
    (h : Course c (Sweep.step config inner b threads iterations).run tr c' (.ok step)) :
    ∃ s, shifts tr = [s] ∧ step.Keeps s b threads iterations := by
  obtain ⟨tr1, _, _, _, rfl, hrefuse, h1⟩ := course_ok_bind h
  obtain ⟨tr2, _, made, _, rfl, hmake, h2⟩ := course_ok_bind h1
  obtain ⟨tr3, _, _, _, rfl, hmade, h3⟩ := course_ok_bind h2
  obtain ⟨tr4, _, _, _, rfl, hprepare, h4⟩ := course_ok_bind h3
  obtain ⟨tr5, _, ⟨tried, _⟩, _, rfl, hvalidate, h5⟩ := course_ok_bind h4
  obtain ⟨tr6, _, _, _, rfl, htried, h6⟩ := course_ok_bind h5
  obtain ⟨tr7, _, ⟨result, after⟩, _, rfl, hrun, h7⟩ := course_ok_bind h6
  obtain ⟨tr8, _, _, _, rfl, hclose, h8⟩ := course_ok_bind h7
  obtain ⟨tr9, _, _, tr10, rfl, hresult, houtcome⟩ := course_ok_bind h8
  obtain ⟨rfl, -⟩ := course_ofAttempt hmade
  obtain ⟨rfl, -⟩ := course_ofAttempt htried
  obtain ⟨rfl, hok⟩ := course_ofAttempt hresult
  -- nothing but the run of the bench lets workers work
  have hmakeQuiet : (SweepAsk.make config).IsQuiet := trivial
  have hshifts2 := course_of_question hmakeQuiet hmake
  obtain ⟨_, _, ⟨⟩, hvalidated⟩ := course_bench hvalidate
  have hshifts5 := (course_of_quiet b.validate_quiet hvalidated).1
  have hshifts8 := course_of_stage b.close_quiet hclose
  have hok : result = .ok () := by
    cases result with
    | ok => rfl
    | error e => cases hok
  subst hok
  obtain ⟨_, _, ⟨⟩, hran⟩ := course_bench hrun
  obtain ⟨s, hshifts7, hthreads, hiterations, hjob, hremembers⟩ := Bench.course_of_run hran
  obtain ⟨hshifts10, hkeeps⟩ := course_of_outcome hthreads hiterations hjob hremembers houtcome
  refine ⟨s, ?_, hkeeps⟩
  simp only [shifts_append, course_of_refuse hrefuse, hshifts2,
    course_of_stage inner.prepare_quiet hprepare, hshifts5, hshifts7, hshifts8, hshifts10]
  rfl

/-- Steps that are taken one after the other, each of which shows its one shift. -/
theorem course_of_steps {b : Bench} {f : Nat → SweepWork Step} {n : Nat} {steps : List Step}
    (hf : ∀ {k : Nat} {d d' : Bool} {part : List Happening} {step : Step},
      Course d (f k).run part d' (.ok step) →
        ∃ s, shifts part = [s] ∧ step.Keeps s b (k + 1) iterations)
    (h : Course c ((List.range n).mapM f).run tr c' (.ok steps)) :
    steps.length = n ∧ (shifts tr).length = n ∧ ∀ (k : Nat) (s : Shift), (shifts tr)[k]? = some s →
      ∃ step, steps[k]? = some step ∧ step.Keeps s b (k + 1) iterations := by
  obtain ⟨parts, rfl, hn, hsteps, hall⟩ := course_ok_mapM h
  rw [List.length_range] at hn
  have hone : ∀ (k : Nat) (part : List Happening), parts[k]? = some part → ∃ s step,
      shifts part = [s] ∧ steps[k]? = some step ∧ step.Keeps s b (k + 1) iterations := by
    intro k part hpart
    obtain ⟨y, step, _, _, hy, hstep, hcourse⟩ := hall k part hpart
    have hy : y = k := by
      obtain ⟨_, hy⟩ := List.getElem?_eq_some_iff.mp hy
      rw [← hy, List.getElem_range]
    subst hy
    obtain ⟨s, hs, hkeeps⟩ := hf hcourse
    exact ⟨s, step, hs, hstep, hkeeps⟩
  have hlen : ∀ part ∈ parts, (shifts part).length = 1 := by
    intro part hmem
    obtain ⟨k, hk, rfl⟩ := List.getElem_of_mem hmem
    obtain ⟨s, step, hs, -⟩ := hone k _ (List.getElem?_eq_getElem hk)
    rw [hs]
    rfl
  have hflat : shifts parts.flatten = parts.flatMap shifts := by
    rw [shifts, List.filterMap_flatten, List.flatMap_def]
    rfl
  rw [hflat]
  refine ⟨by rw [hsteps, hn], ?_, ?_⟩
  · rw [Pool.length_flatMap_of_length hlen, hn, Nat.mul_one]
  · intro k s hs
    have hat := Pool.getElem?_flatMap_of_length hlen Nat.one_pos k
    rw [Nat.mul_one, Nat.add_zero, hs, eq_comm, Option.bind_eq_some_iff] at hat
    obtain ⟨part, hpart, hs⟩ := hat
    obtain ⟨s', step, hs', hstep, hkeeps⟩ := hone k part hpart
    rw [hs'] at hs
    cases hs
    exact ⟨step, hstep, hkeeps⟩

end Sweep

/-! ## The results of a sweep -/

/-- What a result counts, given the shifts of its steps: each rate counts the passes that all
workers of the step had to make, and that is how many records they brought home just if none of
them was cut short. -/
structure Result.Counts (r : Result) (group : List Shift) : Prop where
  length : r.rates.length = group.length
  rates : ∀ (k : Nat) (s : Shift), group[k]? = some s →
    s.threads = k + 1 ∧ r.iterations = UInt64.ofNat s.iterations ∧
      r.rates[k]? = some (rate (UInt64.ofNat (k + 1)) (UInt64.ofNat s.iterations) s.took) ∧
      ((k + 1) * s.iterations = s.pool.records.length ↔ ¬s.CutShort)
  records : r.isLimit = false → ∀ (k : Nat) (s : Shift), group[k]? = some s →
    ∃ records, r.steps[k]? = some records ∧ Bench.passes records = s.pool.records.length

namespace Sweep

variable {threads iterations : Nat} {c c' : Bool} {tr : List Happening} {r : Result}

/-- Steps with one worker, with two, and so on, each of which keeps its one shift of a group. -/
structure KeepInOrder (steps : List Step) (group : List Shift) (b : Bench) (iterations : Nat) :
    Prop where
  length : steps.length = group.length
  keeps : ∀ (k : Nat) (s : Shift), group[k]? = some s →
    ∃ step, steps[k]? = some step ∧ step.Keeps s b (k + 1) iterations

theorem counts_of_steps {steps : List Step} {group : List Shift} {b : Bench}
    (hrates : r.rates = steps.map Step.rate)
    (hsteps : r.isLimit = false → r.steps = steps.map Step.records)
    (hiterations : r.iterations = UInt64.ofNat iterations)
    (hall : KeepInOrder steps group b iterations) : r.Counts group := by
  refine ⟨by rw [hrates, List.length_map, hall.length], ?_, ?_⟩
  · intro k s hs
    obtain ⟨step, hstep, hkeeps⟩ := hall.keeps k s hs
    have hwhole := s.length_records_eq_iff
    rw [hkeeps.threads_eq, eq_comm] at hwhole
    refine ⟨hkeeps.threads_eq, by rw [hiterations, hkeeps.iterations_eq], ?_, hwhole⟩
    rw [hrates, List.getElem?_map, hstep, Option.map_some, hkeeps.rate_eq, hkeeps.iterations_eq]
  · intro hlimit k s hs
    obtain ⟨step, hstep, hkeeps⟩ := hall.keeps k s hs
    exact ⟨step.records, by rw [hsteps hlimit, List.getElem?_map, hstep, Option.map_some],
      hkeeps.passes_eq⟩

theorem steps_of_limit (h : Course c (limit threads iterations).run tr c' (.ok r)) :
    ∃ steps, r = ⟨limitName, UInt64.ofNat threads, UInt64.ofNat iterations, steps.map Step.rate,
        [], [], true⟩ ∧
      steps.length = threads ∧ KeepInOrder steps (shifts tr) .spawning iterations := by
  obtain ⟨tr1, _, steps, tr2, rfl, h1, h2⟩ := course_ok_bind h
  obtain ⟨rfl, hr⟩ := course_done h2
  cases hr
  obtain ⟨hlen, hlen', hall⟩ := course_of_steps course_of_limitStep h1
  rw [List.append_nil]
  exact ⟨steps, rfl, hlen, hlen.trans hlen'.symm, hall⟩

theorem steps_of_entry {b : Definition.Benchmark} {e : Definition.Entry} {options : SweepOptions}
    (h : Course c (entry b e options).run tr c' (.ok r)) :
    ∃ config w steps, b.workload e options.trace = .ok w ∧
      let bench := benchFor e options ⟨w, config⟩
      r = ⟨bench.name, UInt64.ofNat e.threads, UInt64.ofNat e.iterations, steps.map Step.rate,
        steps.map Step.records, b.commands, false⟩ ∧
      steps.length = e.threads ∧ KeepInOrder steps (shifts tr) bench e.iterations := by
  obtain ⟨tr1, _, config, _, rfl, h1, h2⟩ := course_ok_bind h
  obtain ⟨tr2, _, w, _, rfl, h3, h4⟩ := course_ok_bind h2
  obtain ⟨tr3, _, steps, tr4, rfl, h5, h6⟩ := course_ok_bind h4
  obtain ⟨rfl, -⟩ := course_ofAttempt h1
  obtain ⟨rfl, hw⟩ := course_ofAttempt h3
  obtain ⟨rfl, hr⟩ := course_done h6
  cases hr
  obtain ⟨hlen, hlen', hall⟩ := course_of_steps course_of_step h5
  rw [List.nil_append, List.nil_append, List.append_nil]
  exact ⟨config.kind, w, steps, hw.symm, rfl, hlen, hlen.trans hlen'.symm, hall⟩

theorem course_of_limit (h : Course c (limit threads iterations).run tr c' (.ok r)) :
    r.rates.length = threads ∧ r.Counts (shifts tr) := by
  obtain ⟨steps, rfl, hlen, hall⟩ := steps_of_limit h
  refine ⟨by rw [List.length_map, hlen], counts_of_steps rfl ?_ rfl hall⟩
  intro hlimit
  cases hlimit

theorem course_of_entry {b : Definition.Benchmark} {e : Definition.Entry} {options : SweepOptions}
    (h : Course c (entry b e options).run tr c' (.ok r)) : r.Counts (shifts tr) := by
  obtain ⟨_, w, steps, -, rfl, -, hall⟩ := steps_of_entry h
  exact counts_of_steps rfl (fun _ => rfl) rfl hall

/-- The result of the limit run, unless it is skipped. -/
def bound (options : SweepOptions) : SweepWork (List Result) :=
  if options.skipLimit then pure [] else (fun r => [r]) <$> limit limitThreads limitIterations

theorem run_eq (b : Definition.Benchmark) (options : SweepOptions) :
    run b options = bound options >>= fun front => do
      let results ← b.entries.mapM fun e => do
        SweepWork.refuseIfCancelled
        entry b e options
      return front ++ results := by
  unfold run bound
  split <;> rfl

section

variable {P : Result → List Shift → Prop} {b : Definition.Benchmark} {options : SweepOptions}

/-- What is said of the limit run, given its shifts, is said of the front of the results. -/
theorem groups_of_bound {front : List Result}
    (hlimit : ∀ {d d' : Bool} {part : List Happening} {r : Result},
      Course d (limit limitThreads limitIterations).run part d' (.ok r) → P r (shifts part))
    (h : Course c (bound options).run tr c' (.ok front)) :
    ∃ groups : List (List Shift), shifts tr = groups.flatten ∧ List.Forall₂ P front groups := by
  unfold bound at h
  by_cases hskip : options.skipLimit = true
  · rw [if_pos hskip] at h
    obtain ⟨rfl, hfront⟩ := course_done h
    cases hfront
    exact ⟨[], rfl, .nil⟩
  · rw [if_neg hskip, ← bind_pure_comp] at h
    obtain ⟨tr1, _, r, tr2, rfl, h1, h2⟩ := course_ok_bind h
    obtain ⟨rfl, hfront⟩ := course_done h2
    cases hfront
    exact ⟨[shifts tr1], by simp, .cons (hlimit h1) .nil⟩

/-- What is said of each entry, given its shifts, is said of the results one after the other. -/
theorem groups_of_entries {entries : List Definition.Entry} {results : List Result}
    (hentry : ∀ e ∈ entries, ∀ {d d' : Bool} {part : List Happening} {r : Result},
      Course d (entry b e options).run part d' (.ok r) → P r (shifts part))
    (h : Course c (entries.mapM fun e => do
      SweepWork.refuseIfCancelled
      entry b e options : SweepWork (List Result)).run tr c' (.ok results)) :
    ∃ groups : List (List Shift), shifts tr = groups.flatten ∧
      List.Forall₂ P results groups := by
  obtain ⟨parts, rfl, -, hlen, hall⟩ := course_ok_mapM h
  refine ⟨parts.map shifts, by rw [shifts, List.filterMap_flatten]; rfl, ?_⟩
  rw [List.forall₂_iff_get]
  refine ⟨by rw [List.length_map, hlen], ?_⟩
  intro k h1 h2
  have hk : k < parts.length := by simpa using h2
  obtain ⟨e, r, _, _, he, hr, hcourse⟩ := hall k _ (List.getElem?_eq_getElem hk)
  obtain ⟨tr1, _, _, tr2, hpart, hrefuse, hran⟩ := course_ok_bind hcourse
  have hr : results[k] = r := by
    rw [List.getElem?_eq_getElem h1] at hr
    exact Option.some.inj hr
  simp only [List.get_eq_getElem, List.getElem_map, hr, hpart, shifts_append,
    course_of_refuse hrefuse, List.nil_append]
  exact hentry e (List.mem_of_getElem? he) hran

theorem course_of_bound {front : List Result}
    (h : Course c (bound options).run tr c' (.ok front)) :
    ∃ groups : List (List Shift), shifts tr = groups.flatten ∧
      List.Forall₂ Result.Counts front groups :=
  groups_of_bound (fun hlimit => (course_of_limit hlimit).2) h

theorem course_of_entries {entries : List Definition.Entry} {results : List Result}
    (h : Course c (entries.mapM fun e => do
      SweepWork.refuseIfCancelled
      entry b e options : SweepWork (List Result)).run tr c' (.ok results)) :
    ∃ groups : List (List Shift), shifts tr = groups.flatten ∧
      List.Forall₂ Result.Counts results groups :=
  groups_of_entries (fun _ _ => course_of_entry) h

end

/-- Whenever a limit run or a sweep succeeds, each rate that it reports counts the passes that the
workers of one step had to make, and the records of that step are as many just if no worker of it
was told to stop and none has died. -/
theorem a_rate_counts_the_records_unless_a_worker_was_cut_short (c c' : Bool)
    (tr : List Happening) :
    (∀ threads iterations r, Course c (limit threads iterations).run tr c' (.ok r) →
      r.rates.length = threads ∧ r.Counts (shifts tr)) ∧
    ∀ b options results, Course c (run b options).run tr c' (.ok results) →
      ∃ groups : List (List Shift), shifts tr = groups.flatten ∧
        List.Forall₂ Result.Counts results groups := by
  refine ⟨fun _ _ _ => course_of_limit, ?_⟩
  intro b options results h
  rw [run_eq] at h
  obtain ⟨tr1, _, front, _, rfl, h1, h2⟩ := course_ok_bind h
  obtain ⟨tr2, _, rest, tr3, rfl, h3, h4⟩ := course_ok_bind h2
  obtain ⟨rfl, hresults⟩ := course_done h4
  cases hresults
  obtain ⟨groups, hgroups, hfront⟩ := course_of_bound h1
  obtain ⟨groups', hgroups', hrest⟩ := course_of_entries h3
  refine ⟨groups ++ groups', ?_, List.rel_append hfront hrest⟩
  rw [List.append_nil, shifts_append, hgroups, hgroups', List.flatten_append]

/-- The only shift of a limit run that is not cancelled. The process cannot be spawned, and the
worker hands in a record all the same. -/
def wholeLimit : Shift where
  threads := 1
  iterations := 1
  job := .spawning
  cancelled := false
  events := [.look 0, .answer 0 (.spawn Worker.spawnProgram Worker.spawnArguments)
    ⟨.error .notFound, ⟨2⟩⟩, .send 0]
  pool := ⟨1, false, [⟨.done (), false, [⟨[], [("run", 1)]⟩]⟩]⟩
  took := ⟨3⟩
  goes := by rfl
  ended := by rfl

/-- Its rate counts the record, for its worker was not cut short. -/
theorem a_limit_run_that_ends_counts_its_record : ∃ (tr : List Happening) (r : Result) (s : Shift),
    Course false (limit 1 1).run tr false (.ok r) ∧ shifts tr = [s] ∧
      r.rates = [rate (UInt64.ofNat 1) (UInt64.ofNat s.iterations) s.took] ∧
      1 * s.iterations = s.pool.records.length ∧ ¬s.CutShort := by
  have hcourse : Course false (limit 1 1).run [.shift wholeLimit] false
      (.ok ⟨limitName, UInt64.ofNat 1, UInt64.ofNat 1,
        [rate (UInt64.ofNat 1) (UInt64.ofNat 1) wholeLimit.took], [], [], true⟩) :=
    .shift wholeLimit .done
  have hlaw :=
    a_rate_counts_the_records_unless_a_worker_was_cut_short false false [.shift wholeLimit]
  obtain ⟨-, hcounts⟩ := hlaw.1 1 1 _ hcourse
  exact ⟨_, _, wholeLimit, hcourse, rfl, rfl, rfl, (hcounts.rates 0 wholeLimit rfl).2.2.2.mp rfl⟩

/-- A benchmark with one entry: one worker with two passes. -/
def twoPasses : Definition.Benchmark where
  name := "sweep"
  image := "busybox"
  rootfs := none
  command := none
  detached := false
  entries := [⟨"null", none, 1, 2, none, [], none, false, none, none, none⟩]
  commands := ["run", "stop", "remove"]

/-- Its only shift, which begins when the sweep is cancelled already: the worker looks once and
stops. -/
def cancelledShift : Shift where
  threads := 1
  iterations := 2
  job := .lifecycle ⟨"sweep", "busybox", none, false, false, ["run", "stop", "remove"]⟩
  cancelled := true
  events := [.look 0]
  pool := ⟨2, true, [⟨.done (), false, []⟩]⟩
  took := ⟨1⟩
  goes := by rfl
  ended := by rfl

/-- A course of the sweep that is cancelled while its one container is tried out. -/
def cancelledTrace : List Happening :=
  let c : Container := ⟨Name.trial, "busybox", none, false, false, none⟩
  let calls (xs : List ((c : EngineCall) × Except EngineError c.Answer)) : List Happening :=
    xs.map fun x => .turn ⟨.act (.call x.1), x.2⟩
  [.turn ⟨.look, false⟩, .turn ⟨.look, false⟩, .turn ⟨.make (.plain .null), .ok ()⟩] ++
    calls [⟨.info, .ok ""⟩, ⟨.clean, .ok ()⟩,
      ⟨.create ⟨Name.trial, "busybox", none, false, false⟩, .ok c⟩, ⟨.operate .run c, .ok .silent⟩,
      ⟨.operate .stop c, .ok .silent⟩] ++
    [.turn ⟨.act (.rest EngineCall.quiescence), ()⟩] ++
    calls [⟨.operate .remove c, .ok .silent⟩] ++
    [.shift cancelledShift] ++ calls [⟨.clean, .ok ()⟩, ⟨.close, .ok ()⟩]

theorem course_cancelled :
    Course false (run twoPasses ⟨false, true, false⟩).run cancelledTrace true
      (.ok [⟨"sweep:Null", UInt64.ofNat 1, UInt64.ofNat 2,
        [rate (UInt64.ofNat 1) (UInt64.ofNat 2) cancelledShift.took], [[]],
        ["run", "stop", "remove"], false⟩]) := by
  refine .look (.look (.outside trivial (.outside trivial (.outside trivial ?_))))
  refine .outside trivial (.outside trivial (.outside trivial (.outside trivial ?_)))
  refine .cancel (.outside trivial ?_)
  refine .shift cancelledShift (.outside trivial (.outside trivial ?_))
  exact .done

/-- The only shift of a limit run that is cancelled before it begins. -/
def cancelledLimit : Shift where
  threads := 1
  iterations := 1
  job := .spawning
  cancelled := true
  events := [.look 0]
  pool := ⟨1, true, [⟨.done (), false, []⟩]⟩
  took := ⟨1⟩
  goes := by rfl
  ended := by rfl

/-- A sweep that is cancelled in its last step, and a limit run that is cancelled at all, succeed
with rates that count records which nobody has brought home. -/
theorem a_cancelled_step_is_counted_whole :
    (∃ (r : Result) (s : Shift), twoPasses.check = .ok () ∧
      Course false (run twoPasses ⟨false, true, false⟩).run cancelledTrace true (.ok [r]) ∧
      shifts cancelledTrace = [s] ∧
      r.rates = [rate (UInt64.ofNat s.threads) (UInt64.ofNat s.iterations) s.took] ∧
      s.threads * s.iterations = 2 ∧ s.pool.records.length = 0) ∧
    ∃ (tr : List Happening) (r : Result) (s : Shift),
      Course true (limit 1 1).run tr true (.ok r) ∧ shifts tr = [s] ∧
      r.rates = [rate (UInt64.ofNat s.threads) (UInt64.ofNat s.iterations) s.took] ∧
      s.threads * s.iterations = 1 ∧ s.pool.records.length = 0 := by
  constructor
  · exact ⟨_, cancelledShift, rfl, course_cancelled, rfl, rfl, rfl, rfl⟩
  · have hcourse : Course true (limit 1 1).run [.shift cancelledLimit] true
        (.ok ⟨limitName, UInt64.ofNat 1, UInt64.ofNat 1,
          [rate (UInt64.ofNat 1) (UInt64.ofNat 1) cancelledLimit.took], [], [], true⟩) :=
      .shift cancelledLimit .done
    exact ⟨_, _, cancelledLimit, hcourse, rfl, rfl, rfl, rfl⟩

end Sweep

end EngineBench
