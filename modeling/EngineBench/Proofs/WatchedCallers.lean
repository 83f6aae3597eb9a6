-- Callers of one watched bench, in any order of their turns. Only one of them gets the inner
-- bench, and only that one makes the bench report anything: its records and samples appear
-- together, once both are there. The exception is a call that comes too late for the inner bench
-- but has looked at it before it ran. Such a call is refused after it has begun to sample, and
-- stores what it has sampled.
import EngineBench.Proofs.CallerLogs
import EngineBench.Proofs.WatchedCalls

namespace EngineBench

open Dialogue

/-! ## What the log says about a call -/

namespace Callers

variable {b : WatchedBench} {hasSampler : Bool} {requests : List Bench.Request} {s : Callers}
  {log : List (Nat × BenchTurn)} {i : Nat}

/-- A call that has not got the inner bench neither works nor hands in records, and is no run that
succeeds. -/
theorem Reached.until_begun (h : Reached (Callers.start (.watched b) hasSampler requests) s log)
    {request : Bench.Request} (hi : requests[i]? = some request) (hbegan : ¬ Began log i) :
    (∀ x, (i, x) ∈ log → x.1.IsIdle) ∧ ∀ threads iterations, request = .run threads iterations →
      ∀ r, s.response? i = some r → ∃ e, r = .run (.error e) := by
  have huntil := Bench.serve_until b request (G := BenchTurn.Begins) (P := fun x => x.1.IsIdle)
    (R := fun r => ∀ threads iterations, request = .run threads iterations →
      ∃ e, r = .run (.error e)) (fun q _ hq => hq.idle)
    (fun hlooks _ threads iterations hrequest => (hlooks threads iterations hrequest).elim)
    (by rintro _ ⟨e, rfl⟩; exact fun _ _ _ => ⟨e, rfl⟩)
    fun threads iterations => b.run_until_begins threads iterations
  rcases h.until (start_program hi) huntil with ⟨x, hx, rfl⟩ | ⟨hidle, hend⟩
  · exact (hbegan hx).elim
  · exact ⟨hidle, fun threads iterations hrequest r hr => hend r hr threads iterations hrequest⟩

theorem Reached.began_of_busy (h : Reached (Callers.start (.watched b) hasSampler requests) s log)
    {x : BenchTurn} (hx : (i, x) ∈ log) (hbusy : ¬ x.1.IsIdle) : Began log i := by
  obtain ⟨request, hi⟩ := h.request hx
  by_contra hbegan
  exact hbusy ((h.until_begun hi hbegan).1 x hx)

/-- A call stores its samples after it has been refused the inner bench, or is done with it. -/
theorem Reached.ended_of_kept (h : Reached (Callers.start (.watched b) hasSampler requests) s log)
    {xs : List Sample} (hkept : Kept log i xs) : Refused log i ∨ Completed log i := by
  obtain ⟨request, hi⟩ := h.request hkept
  have huntil := Bench.serve_until b request (G := BenchTurn.Ends)
    (P := fun x => ∀ xs, x.1 ≠ .within (.keepSamples xs)) (R := fun _ => True)
    (fun q _ hq => hq.ne_keep) (fun _ _ => trivial) (fun _ _ => trivial)
    fun threads iterations => b.run_until_ends threads iterations
  rcases h.until (start_program hi) huntil with ⟨x, hx, rfl | ⟨records, elapsed, rfl⟩⟩ | ⟨hnone, -⟩
  · exact Or.inl hx
  · exact Or.inr ⟨records, elapsed, hx⟩
  · exact (hnone _ hkept xs rfl).elim

/-- The samples that a call stores are what its sampling task has handed back. -/
theorem Reached.handed_of_kept (h : Reached (Callers.start (.watched b) hasSampler requests) s log)
    {xs : List Sample} (hkept : Kept log i xs) : ∃ task found,
      (i, ⟨.act (.stopSampling task), found⟩) ∈ log ∧ found.toOption.getD [] = xs := by
  obtain ⟨request, hi⟩ := h.request hkept
  have huntil := Bench.serve_until b request (G := BenchTurn.HandsBack xs)
    (P := fun x => x.1 ≠ .within (.keepSamples xs)) (R := fun _ => True)
    (fun q _ hq => hq.ne_keep xs) (fun _ _ => trivial) (fun _ _ => trivial)
    fun threads iterations => b.run_until_handsBack threads iterations xs
  rcases h.until (start_program hi) huntil with ⟨x, hx, task, found, rfl, hxs⟩ | ⟨hnone, -⟩
  · exact ⟨task, found, hx, hxs⟩
  · exact (hnone _ hkept rfl).elim

/-! ## What other calls leave alone -/

/-- A call that has not got the inner bench leaves the run alone. It stores samples only if it has
been refused. -/
theorem Reached.frame (h : Reached (Callers.start (.watched b) hasSampler requests) s log)
    {s' : Callers} {x : BenchTurn} (htakes : s.Takes i x s')
    (hbegan : ¬ Began (log ++ [(i, x)]) i) :
    s'.state.run = s.state.run ∧ (Refused log i ∨ s'.state.samples = s.state.samples) := by
  have h' := h.turn htakes
  have hlast : (i, x) ∈ log ++ [(i, x)] := by simp
  rw [htakes.state]
  refine ⟨?_, ?_⟩
  · rcases s.state.after_run x htakes.allowed with hsame | ⟨rfl, -⟩ | ⟨records, elapsed, rfl, -⟩
    · exact hsame
    · exact (hbegan hlast).elim
    · exact (hbegan (h'.began_of_busy hlast id)).elim
  · rcases s.state.after_samples x with hsame | ⟨xs, rfl, -⟩
    · exact Or.inr hsame
    · rcases h'.ended_of_kept hlast with hrefused | ⟨records, elapsed, hcompleted⟩
      · refine Or.inl ?_
        rcases List.mem_append.mp hrefused with hrefused | hrefused
        · exact hrefused
        · cases List.mem_singleton.mp hrefused
      · exact (hbegan (h'.began_of_busy hcompleted id)).elim

/-! ## What is reported -/

/-- A call for the phase reports the phase of the moment at which it ends. -/
theorem Reached.phase_at_end (h : Reached (Callers.start (.watched b) hasSampler requests) s log)
    {s' : Callers} {x : BenchTurn} (htakes : s.Takes i x s') {p : RunPhase}
    (hr : s'.response? i = some (.phase p)) : p = WatchedBench.phaseIn s'.state := by
  obtain ⟨request, -, hafter⟩ := (h.turn htakes).served hr
  have hturns : turnsOf i (log ++ [(i, x)]) = turnsOf i log ++ [x] := by simp [turnsOf]
  rw [hturns] at hafter
  have hallowed := htakes.allowed
  rw [htakes.state]
  rcases Bench.after_serve_phase hafter with ⟨hp, hlook⟩ | ⟨found, hlooks, hp⟩
  · have hsplit : turnsOf i log ++ [x] = [] ++ [⟨.within .phase, p⟩] := hlook
    obtain ⟨-, hx⟩ := List.append_inj' hsplit rfl
    cases hx
    have hphase : p = s.state.run.phase := hallowed
    show p = WatchedBench.phaseIn s.state
    rw [WatchedBench.phaseIn, if_neg (fun hc => hp (hphase.trans hc.1)), hphase]
  · have hsplit : turnsOf i log ++ [x] =
        [⟨.within .phase, .completed⟩] ++ [⟨.within .samples, found⟩] := hlooks
    obtain ⟨hbefore, hx⟩ := List.append_inj' hsplit rfl
    cases hx
    have hphase : s.state.run.phase = .completed :=
      (h.ledger rfl).seenPhase i (mem_turnsOf.mp (hbefore ▸ List.mem_cons_self))
    have hfound : found = s.state.samples := hallowed
    show p = WatchedBench.phaseIn s.state
    rw [hp, hfound, WatchedBench.phaseIn, hphase]
    cases s.state.samples <;> simp

/-- The samples are those of the call that has got the inner bench, unless a refused call has stored
its own. -/
theorem Reached.stored (h : Reached (Callers.start (.watched b) hasSampler requests) s log)
    (hcalm : ∀ i xs, Refused log i → ¬ Kept log i xs) {xs : List Sample}
    (hxs : s.state.samples = some xs) : s.state.run.phase = .completed ∧ ∃ i task found,
      Began log i ∧ (i, ⟨.act (.stopSampling task), found⟩) ∈ log ∧
        found.toOption.getD [] = xs := by
  have hledger := h.ledger rfl
  obtain ⟨i, hkept⟩ := hledger.samples xs hxs
  obtain ⟨task, found, hhanded, hfound⟩ := h.handed_of_kept hkept
  rcases h.ended_of_kept hkept with hrefused | hcompleted
  · exact (hcalm i xs hrefused hkept).elim
  · obtain ⟨records, elapsed, hmem⟩ := hcompleted
    exact ⟨hledger.completed.mp ⟨i, records, elapsed, hmem⟩, i, task, found,
      h.began_of_busy hmem id, hhanded, hfound⟩

/-- Whoever is given records has seen samples. -/
theorem Reached.samples_of_stats
    (h : Reached (Callers.start (.watched b) hasSampler requests) s log)
    {records : List Record} (hr : s.response? i = some (.stats records)) (hrecords : records ≠ []) :
    s.state.samples.isSome := by
  obtain ⟨request, -, hafter⟩ := h.served hr
  obtain ⟨xs, hxs⟩ := Bench.after_serve_stats hafter hrecords
  exact (h.ledger rfl).seenSamples i xs (mem_turnsOf.mp hxs)

/-! ## The law of the callers -/

/-- What holds of calls of one watched bench at any moment. -/
structure OneRun (requests : List Bench.Request) (s : Callers) (log : List (Nat × BenchTurn)) :
    Prop where
  /-- Only one call gets the inner bench. -/
  one : ∀ i j, Began log i → Began log j → i = j
  /-- Workers work, and records are handed in, only for the call that has got it. -/
  busy : ∀ i x, (i, x) ∈ log → ¬ x.1.IsIdle → Began log i
  /-- Every other run that ends fails. -/
  fails : ∀ i threads iterations r, requests[i]? = some (.run threads iterations) →
    ¬ Began log i → s.response? i = some r → ∃ e, r = .run (.error e)
  /-- Every call ends: it takes ten turns at most, and until then it can take the next one. -/
  ends : ∀ i < requests.length, (turnsOf i log).length ≤ 10 ∧ ∀ world,
    (s.response? i).isSome ∨ (s.step (.within i)).isSome ∨ (s.step (.act i world)).isSome
  /-- A turn of any other call changes nothing that is reported, unless that call has been refused
  the inner bench after it had started to sample. Such a call leaves the run alone. -/
  frame : ∀ e s' i x, s.step e = some s' → s.turn? e = some (i, x) →
    ¬ Began (log ++ [(i, x)]) i → s'.state.run = s.state.run ∧
      (Refused log i ∨ s'.state.samples = s.state.samples ∧
        WatchedBench.phaseIn s'.state = WatchedBench.phaseIn s.state ∧
        WatchedBench.statsIn s'.state = WatchedBench.statsIn s.state)
  /-- A call for the phase reports the phase of the moment at which it ends. -/
  phase : ∀ e s' i x p, s.step e = some s' → s.turn? e = some (i, x) →
    s'.response? i = some (.phase p) → p = WatchedBench.phaseIn s'.state
  /-- There are no records before the bench is completed, if no refused call has stored samples. -/
  stats : (∀ i xs, Refused log i → ¬ Kept log i xs) →
    WatchedBench.phaseIn s.state ≠ .completed → WatchedBench.statsIn s.state = [] ∧
      ∀ i records, s.response? i = some (.stats records) → records = []
  /-- The bench is completed only once the call that has got the inner bench has stored what its
  sampling task has handed back, if no refused call has stored samples. -/
  stored : (∀ i xs, Refused log i → ¬ Kept log i xs) →
    WatchedBench.phaseIn s.state = .completed → ∃ i task found, Began log i ∧
      (i, ⟨.act (.stopSampling task), found⟩) ∈ log ∧
      s.state.samples = some (found.toOption.getD [])

/-- In whatever order the callers of a watched bench take their turns, one run at most takes place,
and the bench is completed, and has records, only once the samples of that run are stored. -/
theorem one_run_takes_place_and_its_samples_complete_it (b : WatchedBench) (hasSampler : Bool)
    (requests : List Bench.Request) (events : List Event) (s : Callers)
    (h : (start (.watched b) hasSampler requests).steps events = some s) :
    s.OneRun requests ((start (.watched b) hasSampler requests).log events) := by
  have hreached := reached_of_steps h
  generalize (start (.watched b) hasSampler requests).log events = log at hreached
  have hledger := hreached.ledger rfl
  refine ⟨hledger.one, fun i x hx hbusy => hreached.began_of_busy hx hbusy, ?_, ?_, ?_, ?_, ?_, ?_⟩
  · intro i threads iterations r hi hbegan hr
    exact (hreached.until_begun hi hbegan).2 threads iterations rfl r hr
  · intro i hi
    have hrequest : requests[i]? = some requests[i] := List.getElem?_eq_getElem hi
    obtain ⟨m, hm, hafter⟩ := hreached.program (start_program hrequest)
    exact ⟨hafter.length_le (Bench.serve_atMost b _),
      exists_step (List.getElem?_eq_some_iff.mp hm).1⟩
  · intro e s' i x hstep hturn hbegan
    have htakes := takes_of_turn hstep hturn
    obtain ⟨hrun, hrefused | hsamples⟩ := hreached.frame htakes hbegan
    · exact ⟨hrun, Or.inl hrefused⟩
    · refine ⟨hrun, Or.inr ⟨hsamples, ?_, ?_⟩⟩
      · rw [WatchedBench.phaseIn, WatchedBench.phaseIn, hrun, hsamples]
      · rw [WatchedBench.statsIn, WatchedBench.statsIn, hrun, hsamples]
  · intro e s' i x p hstep hturn hr
    exact hreached.phase_at_end (takes_of_turn hstep hturn) hr
  · intro hcalm hphase
    have hnone : s.state.samples = none := by
      cases hxs : s.state.samples with
      | none => rfl
      | some xs =>
        refine (hphase (WatchedBench.phaseIn_eq_completed.mpr ⟨?_, by simp [hxs]⟩)).elim
        exact (hreached.stored hcalm hxs).1
    refine ⟨by simp [WatchedBench.statsIn, hnone], fun i records hr => ?_⟩
    by_cases hrecords : records = []
    · exact hrecords
    · have := hreached.samples_of_stats hr hrecords
      simp [hnone] at this
  · intro hcalm hphase
    obtain ⟨-, hsamples⟩ := WatchedBench.phaseIn_eq_completed.mp hphase
    obtain ⟨xs, hxs⟩ := Option.isSome_iff_exists.mp hsamples
    obtain ⟨-, i, task, found, hbegan, hhanded, rfl⟩ := hreached.stored hcalm hxs
    exact ⟨i, task, found, hbegan, hhanded, hxs⟩

/-- A world in which the daemon is found, the engine can be cleaned and nothing else, and a sampling
task that is stopped hands this back. -/
def worldWith (handed : List Sample) : (a : Act) → a.Answer
  | .call c =>
    match c with
    | .clean => .ok ()
    | _ => .error (.io .notFound)
  | .rest _ => ()
  | .work _ _ _ => ([.iteration .empty], ⟨7⟩)
  | .watchGroup _ => .error (.ofCause (.os .notFound))
  | .findDaemon => .ok ⟨1, []⟩
  | .startSampling _ _ => 0
  | .stopSampling _ => .ok handed

/-- Two runs of one bench that was handed a sampler. A further one looks for the daemon. -/
def twoRuns : Callers :=
  start (.watched ⟨LifecycleBench.twoCommands, none, ⟨5⟩⟩) true [.run 1 1, .run 1 1]

/-- The second run begins when the first one has ended. -/
def oneAfterTheOther : List Event :=
  let world := worldWith [⟨3, .zero⟩]
  [.within 0, .within 0, .act 0 world, .within 0, .act 0 world, .act 0 world, .within 0,
    .act 0 world, .within 0, .within 1]

/-- There the second run fails, and the bench is completed by the samples of the first one. -/
theorem a_run_after_another_fails : ∃ s, twoRuns.steps oneAfterTheOther = some s ∧
    (∃ e, s.response? 1 = some (.run (.error e))) ∧
      ∃ i task found, Began (twoRuns.log oneAfterTheOther) i ∧
        (i, ⟨.act (.stopSampling task), found⟩) ∈ twoRuns.log oneAfterTheOther ∧
        s.state.samples = some (found.toOption.getD []) := by
  refine ⟨_, rfl, ?_⟩
  have hlaw := one_run_takes_place_and_its_samples_complete_it
    ⟨LifecycleBench.twoCommands, none, ⟨5⟩⟩ true [.run 1 1, .run 1 1] oneAfterTheOther _ rfl
  have hlog : twoRuns.log oneAfterTheOther =
      [(0, ⟨.within .phase, .created⟩), (0, ⟨.within .takeSampler, true⟩),
        (0, ⟨.act (.startSampling .given ⟨5⟩), 0⟩), (0, ⟨.within .begin, true⟩),
        (0, ⟨.act (.work 1 1 (.lifecycle LifecycleBench.twoCommands.workload)),
          ([.iteration .empty], ⟨7⟩)⟩), (0, ⟨.act (.call .clean), .ok ()⟩),
        (0, ⟨.within (.complete [.iteration .empty] ⟨7⟩), ()⟩),
        (0, ⟨.act (.stopSampling 0), .ok [⟨3, .zero⟩]⟩),
        (0, ⟨.within (.keepSamples [⟨3, .zero⟩]), ()⟩), (1, ⟨.within .phase, .completed⟩)] := rfl
  have hbegan : ¬ Began (twoRuns.log oneAfterTheOther) 1 := by simp [Began, hlog]
  refine ⟨?_, hlaw.stored (fun i xs hrefused => ?_) rfl⟩
  · obtain ⟨e, he⟩ := hlaw.fails 1 1 1 _ rfl hbegan rfl
    exact ⟨e, congrArg some he⟩
  · change Refused (twoRuns.log oneAfterTheOther) i at hrefused
    simp [Refused, hlog] at hrefused

/-- Both runs look at the bench before either of them has begun, and both start to sample. Then the
first one gets the inner bench, and the second one is refused, and stores its samples. -/
def overtaking : List Event :=
  let world := worldWith [⟨3, .zero⟩]
  [.within 0, .within 1, .within 0, .within 1, .act 1 world, .act 0 world, .act 1 world, .within 0,
    .within 1, .act 1 world, .within 1]

/-- The first run ends its work, and its sampling task is not stopped yet. -/
def catchingUp : List Event :=
  let world := worldWith [⟨4, .zero⟩]
  [.act 0 world, .act 0 world, .within 0]

/-- A refused run can store samples and have them reported while the other run is under way, and the
bench is then completed before the samples of that run are stored. -/
theorem a_bench_can_be_completed_without_the_samples_of_its_run :
    (∃ s, twoRuns.steps overtaking = some s ∧ (∃ e, s.response? 1 = some (.run (.error e))) ∧
      s.state.samples = some [⟨3, .zero⟩] ∧ WatchedBench.phaseIn s.state = .running ∧
      WatchedBench.statsIn s.state = [.sample ⟨3, .zero⟩]) ∧
    ∃ s, twoRuns.steps (overtaking ++ catchingUp) = some s ∧ s.response? 0 = none ∧
      WatchedBench.phaseIn s.state = .completed ∧ s.state.samples = some [⟨3, .zero⟩] := by
  refine ⟨⟨_, rfl, ⟨_, rfl⟩, rfl, rfl, ?_⟩, _, rfl, rfl, rfl, rfl⟩
  show inTimeOrder [.sample ⟨3, .zero⟩] = _
  simp [inTimeOrder]

end Callers

end EngineBench
