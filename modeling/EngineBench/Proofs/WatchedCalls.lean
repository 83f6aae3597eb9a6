-- One call of a watched bench: what it does before anything else, how long it takes, and what its
-- response goes back to. Nothing is said here of the other calls that may come in between.
import EngineBench.Proofs.CallerLogs
import EngineBench.Proofs.WatchedRuns

namespace EngineBench

open Dialogue

/-! ## What a call does first -/

/-- A question that neither lets workers work nor hands in records. -/
def BenchAsk.IsIdle : BenchAsk → Prop
  | act a => a.IsQuiet
  | within (.complete _ _) => False
  | within _ => True

/-- A question that only looks at the state of the bench. -/
def BenchAsk.IsLook : BenchAsk → Prop
  | within .phase | within .result | within .elapsed | within .samples => True
  | _ => False

theorem BenchAsk.IsQuiet.idle {q : BenchAsk} (h : q.IsQuiet) : q.IsIdle := by
  cases q with
  | act a => exact h
  | within q => exact h.elim

theorem BenchAsk.IsLook.idle {q : BenchAsk} (h : q.IsLook) : q.IsIdle := by
  cases q with
  | act a => exact h.elim
  | within q => cases q <;> trivial

/-- Whatever is stored, it is not stored by a question that leaves the state alone. -/
theorem BenchAsk.IsQuiet.ne_keep {q : BenchAsk} (h : q.IsQuiet) (xs : List Sample) :
    q ≠ .within (.keepSamples xs) := by
  rintro rfl
  exact h

theorem BenchAsk.IsLook.ne_keep {q : BenchAsk} (h : q.IsLook) (xs : List Sample) :
    q ≠ .within (.keepSamples xs) := by
  rintro rfl
  exact h

/-- The inner bench is given to a run. -/
def BenchTurn.Begins (x : BenchTurn) : Prop := x = ⟨.within .begin, true⟩

/-- The inner bench is refused to a run, or a run has ended that had it. -/
def BenchTurn.Ends (x : BenchTurn) : Prop :=
  x = ⟨.within .begin, false⟩ ∨ ∃ records elapsed, x = ⟨.within (.complete records elapsed), ()⟩

/-- A sampling task is over, and these are the samples that are left of it. -/
def BenchTurn.HandsBack (xs : List Sample) (x : BenchTurn) : Prop :=
  ∃ task found, x = ⟨.act (.stopSampling task), found⟩ ∧ found.toOption.getD [] = xs

namespace LifecycleBench

variable (b : LifecycleBench) (threads iterations : Nat)

theorem run_until_begins : (b.run threads iterations).run.Until BenchTurn.Begins
    (fun x => x.1.IsIdle) fun r => ∃ e, r = .error e := by
  rw [run_eq]
  intro mine
  cases mine with
  | true => exact Or.inl rfl
  | false => exact Or.inr ⟨trivial, _, rfl⟩

/-- The inner bench knows nothing of samples. -/
theorem run_keeps_none :
    (b.run threads iterations).run.Only fun q => ∀ xs, q ≠ .within (.keepSamples xs) :=
  b.run_only threads iterations fun _ hq _ => hq

/-- A run of the inner bench does not come to its end otherwise. -/
theorem run_until_ends : (b.run threads iterations).run.Until BenchTurn.Ends
    (fun x => ∀ xs, x.1 ≠ .within (.keepSamples xs)) fun _ => False := by
  rw [run_eq]
  intro mine
  cases mine with
  | false => exact Or.inl (Or.inl rfl)
  | true =>
    refine Or.inr ⟨by simp, fun found => Or.inr ⟨by simp, fun cleaned => Or.inr ⟨by simp, ?_⟩⟩⟩
    intro _
    exact Or.inl (Or.inr ⟨_, _, rfl⟩)

end LifecycleBench

namespace WatchedBench

variable (b : WatchedBench) (threads iterations : Nat)

/-- What holds of every run until some turn, if it holds of its parts. -/
theorem run_until {G P : BenchTurn → Prop} {R : Attempt Unit → Prop}
    (hquiet : ∀ q a, q.IsQuiet → P ⟨q, a⟩) (hphase : ∀ p, P ⟨.within .phase, p⟩)
    (htake : ∀ has, P ⟨.within .takeSampler, has⟩) (herror : ∀ e, R (.error e))
    (hrun : ∀ source, (b.runFrom threads iterations (.ok source)).Until G P R) :
    (b.run threads iterations).run.Until G P R := by
  rw [run_eq]
  refine fun p => Or.inr ⟨hphase p, ?_⟩
  beta_reduce
  split
  · exact herror _
  · refine Until.bind (R := fun _ => True) ?_ ?_
    · rw [source_eq]
      refine fun has => Or.inr ⟨htake has, ?_⟩
      cases has with
      | true => trivial
      | false => exact (b.findSource_quiet.until hquiet fun _ => trivial).bind fun _ _ => trivial
    · rintro (e | source) -
      · exact herror e
      · exact hrun source

/-- A run that does not get the inner bench fails. -/
theorem run_until_begins : (b.run threads iterations).run.Until BenchTurn.Begins
    (fun x => x.1.IsIdle) fun r => ∃ e, r = .error e := by
  refine b.run_until threads iterations (fun q a hq => hq.idle) (fun _ => trivial)
    (fun _ => trivial) (fun e => ⟨e, rfl⟩) fun source => ?_
  refine fun task => Or.inr ⟨trivial, (b.inner.run_until_begins threads iterations).bind ?_⟩
  rintro _ ⟨e, rfl⟩
  exact fun samples => Or.inr ⟨trivial, fun _ => Or.inr ⟨trivial, e, rfl⟩⟩

/-- A run stores its samples only after the inner bench is done with it. -/
theorem run_until_ends : (b.run threads iterations).run.Until BenchTurn.Ends
    (fun x => ∀ xs, x.1 ≠ .within (.keepSamples xs)) fun _ => True := by
  refine b.run_until threads iterations (fun q a hq => hq.ne_keep) (fun _ => by simp)
    (fun _ => by simp) (fun _ => trivial) fun source => ?_
  refine fun task => Or.inr ⟨by simp, (b.inner.run_until_ends threads iterations).bind ?_⟩
  exact fun _ h => h.elim

/-- A run stores only samples that its sampling task has handed back. -/
theorem run_until_handsBack (xs : List Sample) :
    (b.run threads iterations).run.Until (BenchTurn.HandsBack xs)
      (fun x => x.1 ≠ .within (.keepSamples xs)) fun _ => True := by
  refine b.run_until threads iterations (fun q a hq => hq.ne_keep xs) (fun _ => by simp)
    (fun _ => by simp) (fun _ => trivial) fun source => ?_
  refine fun task => Or.inr ⟨by simp, ?_⟩
  refine ((b.inner.run_keeps_none threads iterations).until (fun q _ hq => hq xs) fun _ =>
    trivial).bind (R := fun _ => True) fun _ _ samples => ?_
  by_cases hxs : samples.toOption.getD [] = xs
  · exact Or.inl ⟨task, samples, rfl, hxs⟩
  · exact Or.inr ⟨by simp, fun _ => Or.inr ⟨by simpa using hxs, trivial⟩⟩

end WatchedBench

namespace Bench

variable (b : WatchedBench) (request : Request)

/-- Only a run does more to the bench than to look at it. -/
theorem serve_looks (h : ∀ threads iterations, request ≠ .run threads iterations) :
    ((Bench.watched b).serve request).Only BenchAsk.IsLook := by
  cases request with
  | run threads iterations => exact (h threads iterations rfl).elim
  | stats =>
    show (Dialogue.bind WatchedBench.stats _).Only _
    rw [WatchedBench.stats_eq]
    refine ⟨trivial, fun found => ?_⟩
    cases found with
    | none => trivial
    | some xs => exact ⟨trivial, fun _ => trivial⟩
  | phase =>
    show (Dialogue.bind WatchedBench.phase _).Only _
    rw [WatchedBench.phase_eq]
    refine Only.bind ⟨trivial, fun p => ?_⟩ fun _ => trivial
    by_cases hp : p = .completed
    · simp only [if_pos hp]
      exact ⟨trivial, fun _ => trivial⟩
    · simp only [if_neg hp]
      trivial
  | elapsed => exact ⟨trivial, fun _ => trivial⟩

/-- What holds of every call until some turn, if it holds of looks at the bench and of its runs. -/
theorem serve_until {G P : BenchTurn → Prop} {R : Response → Prop} {R' : Attempt Unit → Prop}
    (hlook : ∀ q a, q.IsLook → P ⟨q, a⟩)
    (hR : (∀ threads iterations, request ≠ .run threads iterations) → ∀ r, R r)
    (hR' : ∀ result, R' result → R (.run result))
    (hrun : ∀ threads iterations, (b.run threads iterations).run.Until G P R') :
    ((Bench.watched b).serve request).Until G P R := by
  by_cases h : ∃ threads iterations, request = .run threads iterations
  · obtain ⟨threads, iterations, rfl⟩ := h
    exact (hrun threads iterations).bind hR'
  · have hlooks : ∀ threads iterations, request ≠ .run threads iterations :=
      fun threads iterations hrequest => h ⟨threads, iterations, hrequest⟩
    exact (serve_looks b request hlooks).until hlook (hR hlooks)

end Bench

/-! ## How long a call takes -/

namespace WatchedBench

variable (b : WatchedBench)

theorem source_atMost : b.source.run.AtMost 2 := by
  rw [source_eq]
  refine ⟨by decide, fun has => ?_⟩
  cases has with
  | true => trivial
  | false =>
    refine AtMost.bind (n := 1) (k := 0) ?_ fun _ => trivial
    show (findSource b).run.AtMost 1
    unfold findSource
    cases b.group with
    | some path =>
      refine ⟨by decide, fun found => ?_⟩
      cases found <;> trivial
    | none =>
      refine ⟨by decide, fun found => ?_⟩
      cases found <;> trivial

theorem run_atMost (threads iterations : Nat) :
    (b.run threads iterations).run.AtMost 10 := by
  have hinner : (b.inner.run threads iterations).run.AtMost 4 := by
    rw [LifecycleBench.run_eq]
    refine ⟨by decide, fun mine => ?_⟩
    cases mine with
    | false => trivial
    | true => exact ⟨by decide, fun _ => ⟨by decide, fun _ => ⟨by decide, fun _ => trivial⟩⟩⟩
  rw [run_eq]
  refine ⟨by decide, fun p => ?_⟩
  beta_reduce
  split
  · trivial
  · refine AtMost.bind (n := 2) (k := 7) b.source_atMost fun found => ?_
    cases found with
    | error e => trivial
    | ok source =>
      refine ⟨by decide, fun task => AtMost.bind (n := 4) (k := 2) hinner fun result => ?_⟩
      exact ⟨by decide, fun _ => ⟨by decide, fun _ => trivial⟩⟩

end WatchedBench

theorem Bench.serve_atMost (b : WatchedBench) (request : Request) :
    ((Bench.watched b).serve request).AtMost 10 := by
  cases request with
  | run threads iterations =>
    exact AtMost.bind (n := 10) (k := 0) (b.run_atMost threads iterations) fun _ => trivial
  | stats =>
    show (Dialogue.bind WatchedBench.stats _).AtMost 10
    rw [WatchedBench.stats_eq]
    refine ⟨by decide, fun found => ?_⟩
    cases found with
    | none => trivial
    | some xs => exact ⟨by decide, fun _ => trivial⟩
  | phase =>
    show (Dialogue.bind WatchedBench.phase _).AtMost 10
    rw [WatchedBench.phase_eq]
    refine AtMost.bind (n := 10) (k := 0) ⟨by decide, fun p => ?_⟩ fun _ => trivial
    by_cases hp : p = .completed
    · simp only [if_pos hp]
      exact ⟨by decide, fun _ => trivial⟩
    · simp only [if_neg hp]
      trivial
  | elapsed => exact ⟨by decide, fun _ => trivial⟩

/-! ## What the bench reports -/

namespace WatchedBench

/-- The phase that the bench has in this state. -/
def phaseIn (s : BenchState) : RunPhase :=
  if s.run.phase = .completed ∧ s.samples.isNone then .running else s.run.phase

/-- The records that the bench has in this state. -/
def statsIn (s : BenchState) : List Record :=
  match s.samples with
  | none => []
  | some xs => inTimeOrder (s.run.result ++ xs.map Record.sample)

theorem phaseIn_eq_completed {s : BenchState} :
    phaseIn s = .completed ↔ s.run.phase = .completed ∧ s.samples.isSome := by
  unfold phaseIn
  cases s.samples with
  | none => by_cases hs : s.run.phase = .completed <;> simp [hs]
  | some xs => simp

/-- An undisturbed call for the phase reports it. -/
theorem attend_phase (s : BenchState) : BenchWork.attend s phase = .done (phaseIn s, s) := by
  obtain ⟨⟨p, records, elapsed⟩, hasSampler, samples⟩ := s
  cases p with
  | created => rfl
  | running => rfl
  | completed => cases samples <;> rfl

/-- An undisturbed call for the records reports them. -/
theorem attend_stats (s : BenchState) : BenchWork.attend s stats = .done (statsIn s, s) := by
  obtain ⟨run, hasSampler, samples⟩ := s
  rw [stats_eq]
  cases samples <;> rfl

end WatchedBench

namespace Bench

variable {b : WatchedBench} {request : Request} {turns : List BenchTurn}

/-- A phase that is reported goes back to one look at the run, or at the run and its samples. -/
theorem after_serve_phase {p : RunPhase}
    (h : After ((Bench.watched b).serve request) turns (.done (.phase p))) :
    p ≠ .completed ∧ turns = [⟨.within .phase, p⟩] ∨ ∃ found,
      turns = [⟨.within .phase, .completed⟩, ⟨.within .samples, found⟩] ∧
        p = if found.isSome then .completed else .running := by
  cases request with
  | run threads iterations =>
    obtain ⟨result, -, hp⟩ := after_map h
    cases hp
  | stats =>
    obtain ⟨records, -, hp⟩ := after_map h
    cases hp
  | elapsed =>
    obtain ⟨d, -, hp⟩ := after_map h
    cases hp
  | phase =>
    obtain ⟨p', hphase, hp⟩ := after_map h
    cases hp
    change After WatchedBench.phase turns _ at hphase
    rw [WatchedBench.phase_eq] at hphase
    obtain ⟨q, rest, rfl, hrest⟩ := after_ask_done hphase
    by_cases hq : q = .completed
    · subst hq
      obtain ⟨found, rest, rfl, hdone⟩ := after_ask_done hrest
      obtain ⟨rfl, hp⟩ := after_done hdone
      cases hp
      exact Or.inr ⟨found, rfl, rfl⟩
    · simp only [if_neg hq] at hrest
      obtain ⟨rfl, hp⟩ := after_done hrest
      cases hp
      exact Or.inl ⟨hq, rfl⟩

/-- Records are reported only after a look at samples. -/
theorem after_serve_stats {records : List Record}
    (h : After ((Bench.watched b).serve request) turns (.done (.stats records)))
    (hrecords : records ≠ []) : ∃ xs, ⟨.within .samples, some xs⟩ ∈ turns := by
  cases request with
  | run threads iterations =>
    obtain ⟨result, -, hr⟩ := after_map h
    cases hr
  | phase =>
    obtain ⟨p, -, hr⟩ := after_map h
    cases hr
  | elapsed =>
    obtain ⟨d, -, hr⟩ := after_map h
    cases hr
  | stats =>
    obtain ⟨records', hstats, hr⟩ := after_map h
    cases hr
    change After WatchedBench.stats turns _ at hstats
    rw [WatchedBench.stats_eq] at hstats
    obtain ⟨found, rest, rfl, hrest⟩ := after_ask_done hstats
    cases found with
    | none =>
      obtain ⟨-, hr⟩ := after_done hrest
      cases hr
      exact (hrecords rfl).elim
    | some xs => exact ⟨xs, List.mem_cons_self⟩

end Bench

end EngineBench
