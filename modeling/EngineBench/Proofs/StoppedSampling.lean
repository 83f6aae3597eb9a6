-- A sampling task from its start to its end. Told to stop, it may still take a tick that is due
-- before it leaves, but a query leaves nothing behind except its sample, a failed one nothing at
-- all, and once the task is over nothing happens to it any more. So what it hands back is known
-- from what has happened, in whatever order that was.
import EngineBench.Proofs.Samples

namespace EngineBench.Sampling

def Event.isFailed : Event → Bool
  | .tick .failed => true
  | _ => false

namespace Task

variable {t t' : Task} {e : Event} {before events : List Event}

/-! ## One event -/

/-- While a task is running any query can come, and after each but a fatal one it still is. -/
theorem tick_of_running (h : t.phase = .running) (q : Query) : ∃ t', t.step (.tick q) = some t' ∧
    (t'.phase = .running ↔ (Event.tick q).isFatal = false) := by
  cases q with
  | measured s => exact ⟨_, by rw [step, if_pos h], by simpa [Event.isFatal] using h⟩
  | failed => exact ⟨t, by rw [step, if_pos h], by simpa [Event.isFatal] using h⟩
  | fatal => exact ⟨_, by rw [step, if_pos h], by simp [Event.isFatal]⟩

theorem steps_append {rest : List Event} (h : t.steps (events ++ rest) = some t') :
    ∃ t1, t.steps events = some t1 ∧ t1.steps rest = some t' := by
  simpa [steps, List.foldlM_append, Option.bind_eq_some_iff] using h

/-! ## What a task knows of its end -/

/-- A task has left just if it has done so by an event, and was told to before. -/
structure Knows (events : List Event) (t : Task) : Prop where
  stopping : t.stopping = true ↔ .stop ∈ events
  left : t.phase = .left ↔ .leave ∈ events
  told : .leave ∈ events → .stop ∈ events

theorem Knows.step (h : Knows before t) (hstep : t.step e = some t') :
    Knows (before ++ [e]) t' := by
  obtain ⟨hstopping, hleft, htold⟩ := h
  rcases step_cases hstep with ⟨rfl, rfl⟩ | ⟨hrunning, hcase⟩
  · exact ⟨by simp, by simpa using hleft, by simp⟩
  · have hnot : .leave ∉ before := fun hmem => by
      rw [hleft.mpr hmem] at hrunning
      cases hrunning
    rcases hcase with ⟨s, rfl, rfl⟩ | ⟨rfl, rfl⟩ | ⟨rfl, rfl⟩ | ⟨rfl, hstop, rfl⟩
    · exact ⟨by simpa using hstopping, by simpa using hleft, by simpa using htold⟩
    · exact ⟨by simpa using hstopping, by simpa using hleft, by simpa using htold⟩
    · exact ⟨by simpa using hstopping, by simpa using hnot, by simpa using htold⟩
    · exact ⟨by simpa using hstopping, by simp, fun _ => by simpa using hstopping.mp hstop⟩

theorem knows_of_steps (h : start.steps events = some t) : Knows events t :=
  kept_of_steps Knows.step ⟨by simp [start], by simp [start], by simp⟩ h

/-- A task goes on until it leaves or a query takes it down. -/
theorem running_iff (h : start.steps events = some t) :
    t.phase = .running ↔ .leave ∉ events ∧ events.any Event.isFatal = false := by
  rw [← (knows_of_steps h).left, ← Bool.not_eq_true, ← (holds_of_steps h).dead]
  cases t.phase <;> simp

theorem result_eq_none_iff : t.result? = none ↔ t.phase = .running := by
  unfold result?
  cases t.phase <;> simp

/-- Nothing happens to a task that is over, except that it may be told to stop once more. -/
theorem steps_of_over (hover : t.phase ≠ .running) (h : t.steps events = some t') :
    (∀ e ∈ events, e = .stop) ∧ t'.phase = t.phase ∧ t'.samples = t.samples := by
  induction events generalizing t with
  | nil =>
    cases h
    simp
  | cons e rest ih =>
    obtain ⟨t1, hstep, hrest⟩ := steps_cons h
    rcases step_cases hstep with ⟨rfl, rfl⟩ | ⟨hrunning, -⟩
    · obtain ⟨hall, hphase, hsamples⟩ := ih (t := { t with stopping := true }) hover hrest
      exact ⟨by simpa using hall, hphase, hsamples⟩
    · exact absurd hrunning hover

/-- Failed queries leave no trace. -/
theorem steps_filter_failed (h : t.steps events = some t') :
    t.steps (events.filter fun e => !e.isFailed) = some t' := by
  induction events generalizing t with
  | nil => exact h
  | cons e rest ih =>
    obtain ⟨t1, hstep, hrest⟩ := steps_cons h
    have hkept : e.isFailed = false →
        t.steps ((e :: rest).filter fun e => !e.isFailed) = some t' := by
      intro hf
      rw [List.filter_cons_of_pos (by simp [hf]), steps, List.foldlM_cons, hstep]
      exact ih hrest
    rcases step_cases hstep with ⟨rfl, rfl⟩ |
      ⟨-, ⟨s, rfl, rfl⟩ | ⟨rfl, rfl⟩ | ⟨rfl, rfl⟩ | ⟨rfl, -, rfl⟩⟩
    · exact hkept rfl
    · exact hkept rfl
    · rw [List.filter_cons_of_neg (by simp [Event.isFailed])]
      exact ih hrest
    · exact hkept rfl
    · exact hkept rfl

end Task

/-! ## The whole run -/

/-- A sampling task goes on until it is told to stop and leaves, or a query takes it down. Told to
stop it can leave at once, and can still take a tick before that. What it hands back are the samples
of all its queries that have succeeded, in their order, whether or not others have failed; if a
query has taken it down it is an error. Once it is over it makes no query, and its result stays. -/
theorem a_stopped_task_hands_back_each_measurement_once {events : List Event} {t : Task}
    (h : Task.start.steps events = some t) :
    (t.result? = none ↔ .leave ∉ events ∧ events.any Event.isFatal = false) ∧
    (∀ found, t.result? = some found →
      found = (if events.any Event.isFatal then .error (.ofCause .samplingDied)
        else .ok (events.filterMap Event.sample?)) ∧
      ∀ more t', t.steps more = some t' → (∀ q, .tick q ∉ more) ∧ t'.result? = some found) ∧
    (t.result? = none →
      (∀ q, ∃ t', t.step (.tick q) = some t' ∧
        (t'.result? = none ↔ (Event.tick q).isFatal = false)) ∧
      (.stop ∈ events → ∃ t', t.step .leave = some t' ∧
        t'.result? = some (.ok (events.filterMap Event.sample?)))) ∧
    (∀ before after, events = before ++ .leave :: after → .stop ∈ before) ∧
    Task.start.steps (events.filter fun e => !e.isFailed) = some t := by
  refine ⟨?_, ?_, ?_, ?_, Task.steps_filter_failed h⟩
  · rw [Task.result_eq_none_iff]
    exact Task.running_iff h
  · intro found hfound
    have hover : t.phase ≠ .running := fun hrunning => by
      rw [Task.result_eq_none_iff.mpr hrunning] at hfound
      cases hfound
    refine ⟨Task.result_eq h hfound, fun more t' hmore => ?_⟩
    obtain ⟨hall, hphase, hsamples⟩ := Task.steps_of_over hover hmore
    refine ⟨fun q hq => (by cases hall _ hq), ?_⟩
    rw [← hfound, Task.result?, Task.result?, hphase, hsamples]
  · intro hnone
    have hrunning := Task.result_eq_none_iff.mp hnone
    constructor
    · intro q
      obtain ⟨t', hstep, hphase⟩ := Task.tick_of_running hrunning q
      exact ⟨t', hstep, Task.result_eq_none_iff.trans hphase⟩
    · intro hstop
      have hstopping := (Task.knows_of_steps h).stopping.mpr hstop
      refine ⟨{ t with phase := .left }, by simp [Task.step, hrunning, hstopping], ?_⟩
      have hsamples := (Task.holds_of_steps h).samples (by simp [hrunning])
      simp [Task.result?, hsamples]
  · rintro before after rfl
    obtain ⟨t1, hbefore, hafter⟩ := Task.steps_append h
    obtain ⟨t2, hleave, -⟩ := Task.steps_cons hafter
    rcases Task.step_cases hleave with ⟨he, -⟩ | ⟨-, ⟨s, he, -⟩ | ⟨he, -⟩ | ⟨he, -⟩ | ⟨-, hstop, -⟩⟩
    · cases he
    · cases he
    · cases he
    · cases he
    · exact (Task.knows_of_steps hbefore).stopping.mp hstop

/-- A task that is told to stop between two measurements, and takes the tick that is due first, has
both of them; a failure in between does not matter. One that dies of that last query has none. -/
theorem a_tick_before_the_end_still_counts :
    ∃ t, Task.start.steps [.tick (.measured ⟨7, .zero⟩), .tick .failed, .stop,
        .tick (.measured ⟨5, .zero⟩), .leave] = some t ∧
      t.result? = some (.ok [⟨7, .zero⟩, ⟨5, .zero⟩]) ∧
      (∀ more t', t.steps more = some t' → ∀ q, .tick q ∉ more) ∧
      ∃ d, Task.start.steps [.tick (.measured ⟨7, .zero⟩), .stop, .tick .fatal] = some d ∧
        d.result? = some (.error (.ofCause .samplingDied)) := by
  have hleft : Task.start.steps [.tick (.measured ⟨7, .zero⟩), .tick .failed, .stop,
      .tick (.measured ⟨5, .zero⟩), .leave] =
        some ⟨.left, true, [⟨7, .zero⟩, ⟨5, .zero⟩]⟩ := rfl
  have hdied : Task.start.steps [.tick (.measured ⟨7, .zero⟩), .stop, .tick .fatal] =
      some ⟨.dead, true, [⟨7, .zero⟩]⟩ := rfl
  obtain ⟨hsamples, hnone⟩ :=
    (a_stopped_task_hands_back_each_measurement_once hleft).2.1 _ rfl
  obtain ⟨herror, -⟩ := (a_stopped_task_hands_back_each_measurement_once hdied).2.1 _ rfl
  exact ⟨_, hleft, congrArg some hsamples, fun more t' hmore => (hnone more t' hmore).1, _, hdied,
    congrArg some herror⟩

/-! ## Queries that are made one after the other -/

/-- The query of a tick. -/
def Event.query? : Event → Option Query
  | .tick q => some q
  | _ => none

theorem collect_eq (events : List Event) :
    collect (events.filterMap Event.query?) =
      if events.any Event.isFatal then .error (.ofCause .samplingDied)
      else .ok (events.filterMap Event.sample?) := by
  induction events with
  | nil => rfl
  | cons e rest ih =>
    cases e with
    | tick q =>
      cases q with
      | measured s =>
        simp only [List.filterMap_cons, Event.query?, collect, ih, List.any_cons, Event.isFatal,
          Event.sample?, Bool.false_or]
        split <;> rfl
      | failed => exact ih
      | fatal => simp [Event.query?, Event.isFatal, collect]
    | stop => exact ih
    | leave => exact ih

/-- A task that makes some queries until it is told to stop, or until one of them takes it down. -/
theorem Task.exists_steps_of_collect {t : Task} (hrunning : t.phase = .running)
    (queries : List Query) : ∃ events t', t.steps events = some t' ∧
      events.filterMap Event.query? <+: queries ∧
      t'.result? = some ((collect queries).map (t.samples ++ ·)) := by
  induction queries generalizing t with
  | nil =>
    refine ⟨[.stop, .leave], { t with phase := .left, stopping := true }, ?_,
      by simp [Event.query?], by simp [result?, collect, Except.map]⟩
    simp [steps, step, hrunning]
  | cons q rest ih =>
    cases q with
    | measured s =>
      obtain ⟨events, t', hsteps, hqueries, hresult⟩ :=
        ih (t := { t with samples := t.samples ++ [s] }) hrunning
      refine ⟨.tick (.measured s) :: events, t', ?_, by simpa [Event.query?] using hqueries, ?_⟩
      · rw [steps, List.foldlM_cons, step, if_pos hrunning]
        exact hsteps
      · rw [hresult, collect]
        cases collect rest <;> simp [Except.map]
    | failed =>
      obtain ⟨events, t', hsteps, hqueries, hresult⟩ := ih hrunning
      refine ⟨.tick .failed :: events, t', ?_, by simpa [Event.query?] using hqueries, hresult⟩
      rw [steps, List.foldlM_cons, step, if_pos hrunning]
      exact hsteps
    | fatal =>
      refine ⟨[.tick .fatal], { t with phase := .dead }, ?_, by simp [Event.query?], rfl⟩
      simp [steps, step, hrunning]

/-- To collect what queries come to is to run a task: one that is over hands back what its own
queries come to, and some task that makes these queries, and no more once it is down, ends so. -/
theorem collecting_is_running_a_task (queries : List Query) :
    (∀ events t found, Task.start.steps events = some t → t.result? = some found →
      events.filterMap Event.query? = queries → found = collect queries) ∧
    ∃ events t, Task.start.steps events = some t ∧ events.filterMap Event.query? <+: queries ∧
      t.result? = some (collect queries) := by
  constructor
  · rintro events t found hsteps hfound rfl
    rw [Task.result_eq hsteps hfound, collect_eq]
  · obtain ⟨events, t, hsteps, hqueries, hresult⟩ :=
      Task.exists_steps_of_collect (t := Task.start) rfl queries
    refine ⟨events, t, hsteps, hqueries, hresult.trans (congrArg some ?_)⟩
    cases collect queries <;> rfl

end EngineBench.Sampling
