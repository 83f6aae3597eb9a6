-- The run of a watched bench, taken apart into what it asks: it reads the phase, finds out where
-- its samples come from, and runs the inner bench between the start and the end of a sampling
-- task.
import EngineBench.Proofs.LifecycleRuns

namespace EngineBench

open Dialogue

/-! ## Programs that leave the state of the bench alone -/

theorem BenchAttempt.act_only {P : BenchAsk → Prop} {a : Act} (ha : P (.act a)) :
    (BenchAttempt.act a).run.Only P := ⟨ha, fun _ => trivial⟩

theorem BenchAttempt.ofAttempt_only {P : BenchAsk → Prop} {α : Type} (r : Attempt α) :
    (BenchAttempt.ofAttempt r).run.Only P := trivial

theorem BenchAttempt.call_only {P : BenchAsk → Prop} (activity : Activity) {c : EngineCall}
    (hc : P (.act (.call c))) : (BenchAttempt.call activity c).run.Only P :=
  .bind_attempt (act_only hc) fun _ => ofAttempt_only _

namespace LifecycleBench

variable (b : LifecycleBench) {P : BenchAsk → Prop}

theorem prepare_only (hP : ∀ a : Act, a.IsQuiet → a ≠ .call .close → P (.act a)) :
    b.prepare.run.Only P :=
  .bind_attempt (BenchAttempt.call_only _ (hP _ trivial (by simp))) fun _ =>
    BenchAttempt.call_only _ (hP _ trivial (by simp))

theorem validate_only (hP : ∀ a : Act, a.IsQuiet → a ≠ .call .close → P (.act a)) :
    b.validate.run.Only P := by
  unfold validate
  refine .bind_attempt (BenchAttempt.call_only _ (hP _ trivial (by simp))) fun c => ?_
  refine .bind_attempt (BenchAttempt.call_only _ (hP _ trivial (by simp))) fun _ => ?_
  refine .bind_attempt (BenchAttempt.call_only _ (hP _ trivial (by simp))) fun _ => ?_
  refine .bind_attempt (BenchAttempt.act_only (hP _ trivial (by simp))) fun _ => ?_
  exact .bind_attempt (BenchAttempt.call_only _ (hP _ trivial (by simp))) fun _ => trivial

theorem prepare_quiet : b.prepare.run.Only BenchAsk.IsQuiet := b.prepare_only fun _ ha _ => ha

end LifecycleBench

namespace Bench

variable (b : Bench)

theorem validate_only {P : BenchAsk → Prop}
    (hP : ∀ a : Act, a.IsQuiet → a ≠ .call .close → P (.act a)) : b.validate.run.Only P := by
  cases b with
  | lifecycle b => exact b.validate_only hP
  | spawning => trivial
  | watched b => exact b.inner.validate_only hP

theorem validate_quiet : b.validate.run.Only BenchAsk.IsQuiet := b.validate_only fun _ ha _ => ha

theorem close_quiet : b.close.run.Only BenchAsk.IsQuiet := by
  cases b with
  | lifecycle b => exact BenchAttempt.call_only _ trivial
  | spawning => trivial
  | watched b => exact BenchAttempt.call_only _ trivial

end Bench

/-! ## The run of a watched bench -/

namespace WatchedBench

variable (b : WatchedBench)

/-- To find a source no engine is called. -/
theorem findSource_only {P : BenchAsk → Prop}
    (hP : ∀ a : Act, a.IsQuiet → (∀ call, a ≠ .call call) → P (.act a)) :
    b.findSource.run.Only P := by
  unfold findSource
  cases b.group with
  | some path =>
    refine .bind_attempt (BenchAttempt.act_only (hP _ trivial (by simp))) fun found => ?_
    exact .bind_attempt (BenchAttempt.ofAttempt_only _) fun _ => trivial
  | none =>
    refine .bind_attempt (BenchAttempt.act_only (hP _ trivial (by simp))) fun found => ?_
    exact .bind_attempt (BenchAttempt.ofAttempt_only _) fun _ => trivial

theorem findSource_quiet : b.findSource.run.Only BenchAsk.IsQuiet :=
  b.findSource_only fun _ ha _ => ha

theorem stats_eq : stats = .ask (.within .samples) fun
    | none => .done []
    | some samples => .ask (.within .result) fun records =>
      .done (inTimeOrder (records ++ samples.map Record.sample)) := by
  show (ask (BenchAsk.within .samples) _ : BenchWork _) = _
  congr

theorem phase_eq : phase = .ask (.within .phase) fun p =>
    if p = .completed then
      .ask (.within .samples) fun found => .done (if found.isSome then .completed else .running)
    else .done p := by
  show (ask (BenchAsk.within .phase) _ : BenchWork _) = _
  congr
  funext p
  cases p with
  | created => rfl
  | running => rfl
  | completed =>
    show (ask (BenchAsk.within .samples) _ : BenchWork _) = _
    congr
    funext found
    cases found <;> rfl

/-- A bench that was handed a sampler takes it, and any other one looks for its daemon. -/
theorem source_eq : b.source.run =
    .ask (.within .takeSampler) fun has =>
      if has then .done (.ok .given)
      else b.findSource.run.bind fun found =>
        .done (Attempt.during (.watchingDaemon b.inner.name) found) := by
  show (ask (BenchAsk.within .takeSampler) _ : BenchWork _) = _
  congr
  funext has
  cases has with
  | true => rfl
  | false =>
    show (Dialogue.bind (Dialogue.bind b.findSource.run _) _ : BenchWork _) = _
    exact Dialogue.bind_assoc _ _ _

/-- What is left of a run once it is known where the samples come from. -/
def runFrom (threads iterations : Nat) : Attempt SamplerSource → BenchWork (Attempt Unit)
  | .error e => .done (.error e)
  | .ok source => .ask (.act (.startSampling source b.interval)) fun task =>
    (b.inner.run threads iterations).run.bind fun result =>
      .ask (.act (.stopSampling task)) fun samples =>
        .ask (.within (.keepSamples (samples.toOption.getD []))) fun _ => .done result

/-- A bench that is not as it was created refuses to run, and every other one goes on to run. -/
theorem run_eq (threads iterations : Nat) : (b.run threads iterations).run =
    .ask (.within .phase) fun p =>
      if p ≠ .created then .done (.error (.ofCause (.alreadyRun b.inner.name)))
      else b.source.run.bind (b.runFrom threads iterations) := by
  show (ask (BenchAsk.within .phase) _ : BenchWork _) = _
  congr
  funext p
  by_cases hp : p = .created
  · subst hp
    show b.source.run.bind _ = b.source.run.bind _
    congr
    funext found
    cases found with
    | error e => rfl
    | ok source =>
      show (ask (BenchAsk.act (.startSampling source b.interval)) _ : BenchWork _) = _
      congr
      funext task
      show (Dialogue.bind (Dialogue.bind (b.inner.run threads iterations).run _) _ :
        BenchWork _) = _
      exact Dialogue.bind_assoc _ _ _
  · rw [if_pos hp]
    show (ite (p ≠ .created) _ _ : BenchAttempt Unit).run = _
    rw [if_pos hp]
    rfl

/-- How a bench comes by its samples: it was handed a sampler, or looks for its daemon once. -/
inductive Obtains (b : WatchedBench) : (hasSampler : Bool) → List Happening →
    Attempt SamplerSource → Prop
  | given : Obtains b true [] (.ok .given)
  | group {path : String} (found : Attempt ControlGroup) : b.group = some path →
      Obtains b false [.turn ⟨.act (.watchGroup path), found⟩] (Attempt.during
        (.watchingDaemon b.inner.name) ((found.during (.watchingGroup path)).map .group))
  | process (found : Except EngineError DaemonProcess) : b.group = none →
      Obtains b false [.turn ⟨.act .findDaemon, found⟩] (Attempt.during
        (.watchingDaemon b.inner.name) (((Attempt.ofEngine found).during
          (.findingDaemon b.inner.kind)).map .processes))

variable {b} {threads iterations : Nat} {c c' : Bool} {tr : List Happening}
  {before after : BenchState}

theorem Obtains.shifts_eq {hasSampler : Bool} {found : Attempt SamplerSource}
    (h : b.Obtains hasSampler tr found) : shifts tr = [] := by
  cases h <;> rfl

/-- Finding out where the samples come from only takes the sampler that was handed to the bench. -/
theorem course_of_source {found : Attempt SamplerSource}
    (h : Course c (SweepWork.acts (BenchWork.attend before b.source.run)) tr c' (found, after)) :
    b.Obtains before.hasSampler tr found ∧ after = { before with hasSampler := false } := by
  rw [source_eq] at h
  change Course c (SweepWork.acts (BenchWork.attend { before with hasSampler := false }
    (if before.hasSampler then _ else _))) tr c' (found, after) at h
  by_cases hhas : before.hasSampler = true
  · rw [if_pos hhas] at h
    obtain ⟨rfl, hfound⟩ := course_done h
    cases hfound
    exact ⟨hhas ▸ .given, rfl⟩
  · rw [if_neg hhas] at h
    rw [Bool.not_eq_true] at hhas
    unfold findSource at h
    cases hgroup : b.group with
    | some path =>
      rw [hgroup] at h
      obtain ⟨_, answer, rest, rfl, hdone⟩ := course_outside (by trivial) h
      cases answer <;>
      · obtain ⟨rfl, hfound⟩ := course_done hdone
        cases hfound
        exact ⟨hhas ▸ .group _ hgroup, rfl⟩
    | none =>
      rw [hgroup] at h
      obtain ⟨_, answer, rest, rfl, hdone⟩ := course_outside (by trivial) h
      cases answer <;>
      · obtain ⟨rfl, hfound⟩ := course_done hdone
        cases hfound
        exact ⟨hhas ▸ .process _ hgroup, rfl⟩

/-- A run without a source of samples ends there. Any other one is a run of the inner bench between
the start and the end of a sampling task, whose samples it keeps. -/
theorem course_of_run {result : Attempt Unit} (hbefore : before.run.phase = .created)
    (h : Course c (SweepWork.acts (BenchWork.attend before (b.run threads iterations).run)) tr c'
      (result, after)) :
    (∃ e, b.Obtains before.hasSampler tr (.error e) ∧ result = .error e ∧
      after = { before with hasSampler := false }) ∨
    ∃ look source task during found b1 b2 inner,
      b.Obtains before.hasSampler look (.ok source) ∧
      tr = look ++ .turn ⟨.act (.startSampling source b.interval), task⟩ ::
        (during ++ [.turn ⟨.act (.stopSampling task), found⟩]) ∧
      Course b1 (SweepWork.acts (BenchWork.attend { before with hasSampler := false }
        (b.inner.run threads iterations).run)) during b2 (result, inner) ∧
      after = { inner with samples := some (found.toOption.getD []) } := by
  rw [run_eq] at h
  change Course c (SweepWork.acts (BenchWork.attend before
    (if before.run.phase ≠ .created then _ else _))) tr c' _ at h
  rw [if_neg (not_not_intro hbefore), attend_bind, acts_bind] at h
  obtain ⟨look, _, ⟨found, s1⟩, tr2, rfl, h1, h2⟩ := course_bind h
  obtain ⟨hlook, rfl⟩ := course_of_source h1
  cases found with
  | error e =>
    obtain ⟨rfl, hdone⟩ := course_done h2
    cases hdone
    rw [List.append_nil]
    exact Or.inl ⟨e, hlook, rfl, rfl⟩
  | ok source =>
    obtain ⟨_, task, rest, rfl, hrun⟩ := course_outside (by trivial) h2
    beta_reduce at hrun
    rw [attend_bind, acts_bind] at hrun
    obtain ⟨during, _, ⟨result', inner⟩, tr4, rfl, h3, h4⟩ := course_bind hrun
    obtain ⟨_, samples, rest, rfl, hdone⟩ := course_outside (by trivial) h4
    obtain ⟨rfl, hresult⟩ := course_done hdone
    cases hresult
    exact Or.inr ⟨look, source, task, during, samples, _, _, inner, hlook, rfl, h3, rfl⟩

/-- A run that succeeds is one shift of the inner bench, whose records and samples are kept. -/
theorem course_of_run_ok (hbefore : before.run.phase = .created)
    (h : Course c (SweepWork.acts (BenchWork.attend before (b.run threads iterations).run)) tr c'
      (.ok (), after)) :
    ∃ s : Shift, shifts tr = [s] ∧ s.threads = threads ∧ s.iterations = iterations ∧
      s.job = .lifecycle b.inner.workload ∧ after.run = ⟨.completed, s.pool.records, s.took⟩ ∧
      after.samples.isSome = true := by
  obtain ⟨e, -, he, -⟩ | ⟨look, source, task, during, found, _, _, inner, hlook, rfl, hinner,
    rfl⟩ := course_of_run hbefore h
  · cases he
  · have hcreated : ({ before with hasSampler := false } : BenchState).run.phase = .created :=
      hbefore
    obtain ⟨s, cleaned, hthreads, hiterations, hjob, rfl, -, rfl⟩ :=
      b.inner.course_of_run hcreated hinner
    refine ⟨s, ?_, hthreads, hiterations, hjob, rfl, rfl⟩
    rw [shifts_append, hlook.shifts_eq]
    rfl

end WatchedBench

end EngineBench
