-- Callers of a bench whose daemon is not watched, in any order of their turns. The log of the turns
-- tells in which phase the bench is and whose records it has. The first run that asks for the bench
-- gets it, and since no other call changes anything, what that run hands in is what everybody sees
-- from then on.
import EngineBench.Proofs.PlainCalls

namespace EngineBench

open Dialogue

/-! ## The order of the phases -/

/-- A phase that comes later has a greater number. -/
def RunPhase.number : RunPhase → Nat
  | created => 0
  | running => 1
  | completed => 2

theorem RunPhase.number_le (p : RunPhase) : p.number ≤ RunPhase.completed.number := by
  cases p <;> decide

/-- No turn takes a bench back to an earlier phase. -/
theorem BenchState.number_le_after {s : BenchState} {x : BenchTurn} (hx : s.Allows x) :
    s.run.phase.number ≤ (s.after x).run.phase.number := by
  rcases s.after_run x hx with hrun | ⟨-, hcreated, -⟩ | ⟨_, _, -, hcompleted⟩
  · rw [hrun]
  · rw [hcreated]
    exact Nat.zero_le _
  · rw [hcompleted]
    exact RunPhase.number_le _

/-- A section that only looks leaves the bench as it is. -/
theorem Bench.Request.look_perform {request : Bench.Request} {q : Section}
    {f : q.Answer → Bench.Response} (h : request.look? = some ⟨q, f⟩) (s : BenchState) :
    (q.perform s).2 = s := by
  cases request <;> cases h <;> rfl

namespace Callers

theorem Reached.number_le {s s' : Callers} {log : List (Nat × BenchTurn)} (h : Reached s s' log) :
    s.state.run.phase.number ≤ s'.state.run.phase.number := by
  induction h with
  | start => exact Nat.le_refl _
  | turn _ htakes ih =>
    rw [htakes.state]
    exact Nat.le_trans ih (BenchState.number_le_after htakes.allowed)

/-! ## What the log says about a call -/

variable {b : Bench} {hasSampler : Bool} {requests : List Bench.Request} {s : Callers}
  {log : List (Nat × BenchTurn)} {i : Nat}

theorem response?_eq {m : BenchWork Bench.Response} (hm : s.programs[i]? = some m) :
    s.response? i = m.ended? := by
  rw [response?, hm]
  cases m <;> rfl

theorem Reached.runStage (h : Reached (Callers.start b hasSampler requests) s log) (hb : b.IsPlain)
    {threads iterations : Nat} (hi : requests[i]? = some (.run threads iterations)) :
    b.RunStage threads iterations (turnsOf i log) (s.response? i) := by
  obtain ⟨m, hm, hafter⟩ := h.program (start_program hi)
  rw [response?_eq hm]
  exact Bench.after_serve_run hb hafter

theorem Reached.lookStage (h : Reached (Callers.start b hasSampler requests) s log) (hb : b.IsPlain)
    {request : Bench.Request} (hi : requests[i]? = some request) {q : Section}
    {f : q.Answer → Bench.Response} (hlook : request.look? = some ⟨q, f⟩) :
    turnsOf i log = [] ∧ s.response? i = none ∨
      ∃ answer, turnsOf i log = [⟨.within q, answer⟩] ∧ s.response? i = some (f answer) := by
  obtain ⟨m, hm, hafter⟩ := h.program (start_program hi)
  rw [response?_eq hm]
  exact Bench.after_serve_look hb hlook hafter

/-- A turn is one of a run, or it is the only turn of a call that looks at the bench. -/
theorem Reached.turn_cases (h : Reached (Callers.start b hasSampler requests) s log)
    (hb : b.IsPlain) {x : BenchTurn} (hx : (i, x) ∈ log) :
    (∃ threads iterations, requests[i]? = some (.run threads iterations)) ∨
      ∃ request q f answer, requests[i]? = some request ∧
        request.look? = some (⟨q, f⟩ : (q : Section) × (q.Answer → Bench.Response)) ∧
          x = ⟨.within q, answer⟩ ∧ turnsOf i log = [x] ∧ s.response? i = some (f answer) := by
  obtain ⟨request, hi⟩ := h.request hx
  cases hlook : request.look? with
  | none =>
    cases request with
    | run threads iterations => exact Or.inl ⟨threads, iterations, hi⟩
    | stats => cases hlook
    | phase => cases hlook
    | elapsed => cases hlook
  | some look =>
    obtain ⟨q, f⟩ := look
    have hmem := mem_turnsOf.mpr hx
    rcases h.lookStage hb hi hlook with ⟨hnone, -⟩ | ⟨answer, hturns, hr⟩
    · rw [hnone] at hmem
      cases hmem
    · rw [hturns] at hmem
      obtain rfl := List.mem_singleton.mp hmem
      exact Or.inr ⟨request, q, f, answer, hi, hlook, rfl, hturns, hr⟩

/-- Whoever does more than to look at the bench, or to be refused, has got it. -/
theorem Reached.began_of_more (h : Reached (Callers.start b hasSampler requests) s log)
    (hb : b.IsPlain) {x : BenchTurn} (hx : (i, x) ∈ log) (hne : x ≠ ⟨.within .begin, false⟩)
    (hlook : ∀ (request : Bench.Request) (q : Section) (f : q.Answer → Bench.Response),
      request.look? = some ⟨q, f⟩ → x.1 ≠ .within q) :
    Began log i ∧ ∃ threads iterations, requests[i]? = some (.run threads iterations) := by
  rcases h.turn_cases hb hx with ⟨threads, iterations, hi⟩ | ⟨request, q, f, answer, -, hq, rfl, -⟩
  · exact ⟨mem_turnsOf.mp ((h.runStage hb hi).begins (mem_turnsOf.mpr hx) hne), _, _, hi⟩
  · exact (hlook request q f hq rfl).elim

theorem Reached.began_of_complete (h : Reached (Callers.start b hasSampler requests) s log)
    (hb : b.IsPlain) {records : List Record} {elapsed : Duration}
    (hx : (i, ⟨.within (.complete records elapsed), ()⟩) ∈ log) :
    Began log i ∧ ∃ threads iterations, requests[i]? = some (.run threads iterations) := by
  refine h.began_of_more hb hx (by simp) ?_
  intro request q f hlook hsame
  cases hsame
  exact (Bench.Request.look_ne hlook).2 records elapsed rfl

theorem Reached.began_of_act (h : Reached (Callers.start b hasSampler requests) s log)
    (hb : b.IsPlain) {a : Act} {answer : a.Answer} (hx : (i, ⟨.act a, answer⟩) ∈ log) :
    Began log i :=
  (h.began_of_more hb hx (by simp) (by simp)).1

/-! ## What the log says about the state -/

/-- The log tells the phase, and whose records there are. -/
structure Tells (s : BenchState) (log : List (Nat × BenchTurn)) : Prop where
  created : s.run.phase = .created → ∀ i mine, (i, ⟨.within .begin, mine⟩) ∉ log
  begun : s.run.phase ≠ .created → ∃ i, Began log i
  completed : s.run.phase = .completed →
    ∃ i, (i, ⟨.within (.complete s.run.records s.run.elapsed), ()⟩) ∈ log

theorem Tells.start (hasSampler : Bool) : Tells (.start hasSampler) [] where
  created := by simp
  begun h := (h rfl).elim
  completed h := by cases h

theorem Tells.turn {s : BenchState} {x : BenchTurn} (h : Tells s log) (hx : s.Allows x)
    (hcomplete : ∀ records elapsed, x = ⟨.within (.complete records elapsed), ()⟩ → Began log i) :
    Tells (s.after x) (log ++ [(i, x)]) where
  created := by
    intro hphase j mine hj
    obtain ⟨hs, hne⟩ := s.created_before hx hphase
    rcases List.mem_append.mp hj with hj | hj
    · exact h.created hs j mine hj
    · cases List.mem_singleton.mp hj
      have hmine : mine = true := by
        simpa [BenchState.Allows, Section.perform, RunState.begin?_of_created hs] using hx
      exact hne (by rw [hmine])
  begun := by
    intro hphase
    rcases s.after_run x hx with hrun | ⟨rfl, -, -⟩ | ⟨records, elapsed, hx', -⟩
    · rw [hrun] at hphase
      obtain ⟨j, hj⟩ := h.begun hphase
      exact ⟨j, List.mem_append_left _ hj⟩
    · exact ⟨i, by simp [Began]⟩
    · exact ⟨i, List.mem_append_left _ (hcomplete records elapsed hx')⟩
  completed := by
    intro hphase
    rcases s.after_run x hx with hrun | ⟨-, -, hrun⟩ | ⟨records, elapsed, rfl, -⟩
    · rw [hrun] at hphase ⊢
      obtain ⟨j, hj⟩ := h.completed hphase
      exact ⟨j, List.mem_append_left _ hj⟩
    · rw [hrun] at hphase
      cases hphase
    · exact ⟨i, List.mem_append_right _ List.mem_cons_self⟩

theorem Reached.tells (h : Reached (Callers.start b hasSampler requests) s log) (hb : b.IsPlain) :
    Tells s.state log := by
  induction h with
  | start => exact .start hasSampler
  | @turn s1 s2 log i x h htakes ih =>
    rw [htakes.state]
    refine ih.turn htakes.allowed ?_
    rintro records elapsed rfl
    have hlast : (i, ⟨.within (.complete records elapsed), ()⟩) ∈
        log ++ [(i, (⟨.within (.complete records elapsed), ()⟩ : BenchTurn))] := by simp
    have hbegan := ((h.turn htakes).began_of_complete hb hlast).1
    simpa [Began] using hbegan

/-- The run that gets the bench is the first one that asks for it. -/
theorem Reached.first (hb : b.IsPlain) {before after : List (Nat × BenchTurn)} {mine : Bool}
    (h : Reached (Callers.start b hasSampler requests) s
      (before ++ (i, ⟨.within .begin, mine⟩) :: after)) :
    mine = true ↔ ∀ j theirs, (j, ⟨.within .begin, theirs⟩) ∉ before := by
  obtain ⟨s1, s2, h1, htakes, -⟩ := h.turn_at
  have htells := h1.tells hb
  have hmine := htakes.allowed
  by_cases hs : s1.state.run.phase = .created
  · have hmine : mine = true := by
      simpa [BenchState.Allows, Section.perform, RunState.begin?_of_created hs] using hmine
    exact ⟨fun _ => htells.created hs, fun _ => hmine⟩
  · have hmine : mine = false := by
      simpa [BenchState.Allows, Section.perform, RunState.begin?_of_begun hs] using hmine
    obtain ⟨j, hj⟩ := htells.begun hs
    exact ⟨fun h => by simp [hmine] at h, fun h => (h j true hj).elim⟩

/-! ## What a turn shows and what it leaves alone -/

/-- A turn of a call that has not got the bench changes nothing. -/
theorem Reached.frame_of_plain (h : Reached (Callers.start b hasSampler requests) s log)
    (hb : b.IsPlain) {s' : Callers} {x : BenchTurn} (htakes : s.Takes i x s')
    (hbegan : ¬ Began (log ++ [(i, x)]) i) : s'.state = s.state := by
  have h' := h.turn htakes
  have hlast : (i, x) ∈ log ++ [(i, x)] := by simp
  rw [htakes.state]
  rcases h'.turn_cases hb hlast with ⟨_, _, hi⟩ | ⟨request, q, f, answer, -, hlook, rfl, -⟩
  · by_cases hx : x = ⟨.within .begin, false⟩
    · subst hx
      by_cases hs : s.state.run.phase = .created
      · have hallowed := htakes.allowed
        simp [BenchState.Allows, Section.perform, RunState.begin?_of_created hs] at hallowed
      · simp [BenchState.after, Section.perform, RunState.begin?_of_begun hs]
    · exact (hbegan (mem_turnsOf.mp ((h'.runStage hb hi).begins (mem_turnsOf.mpr hlast) hx))).elim
  · exact Bench.Request.look_perform hlook s.state

end Callers

/-- What a response says of the bench is so in this state. Records are shown only of a run that is
over. -/
def Bench.Response.HoldsIn (s : BenchState) : Bench.Response → Prop
  | run _ => True
  | stats records => records = if s.run.phase = .completed then s.run.records else []
  | phase p => p = s.run.phase
  | elapsed d => d = s.run.elapsed

theorem Bench.Request.look_holds {request : Bench.Request} {q : Section}
    {f : q.Answer → Bench.Response} (h : request.look? = some ⟨q, f⟩) (s : BenchState) :
    (f (q.perform s).1).HoldsIn s := by
  cases request <;> cases h <;> rfl

namespace Callers

variable {b : Bench} {hasSampler : Bool} {requests : List Bench.Request} {s : Callers}
  {log : List (Nat × BenchTurn)} {i : Nat}

/-- A call is told how the bench is at the moment at which it ends. -/
theorem Reached.holds_at_end (h : Reached (Callers.start b hasSampler requests) s log)
    (hb : b.IsPlain) {s' : Callers} {x : BenchTurn} (htakes : s.Takes i x s')
    {r : Bench.Response} (hr : s'.response? i = some r) : r.HoldsIn s'.state := by
  have h' := h.turn htakes
  have hlast : (i, x) ∈ log ++ [(i, x)] := by simp
  rw [htakes.state]
  rcases h'.turn_cases hb hlast with ⟨_, _, hi⟩ | ⟨request, q, f, answer, -, hlook, rfl, -, hend⟩
  · have hstage := h'.runStage hb hi
    rw [hr] at hstage
    obtain ⟨result, rfl⟩ := hstage.response_run
    trivial
  · rw [hr] at hend
    cases hend
    have hanswer : answer = (q.perform s.state).1 := htakes.allowed
    have hsame : s.state.after ⟨.within q, answer⟩ = s.state :=
      Bench.Request.look_perform hlook s.state
    rw [hsame, hanswer]
    exact Bench.Request.look_holds hlook s.state

/-! ## What becomes of the records -/

/-- The records of a completed bench are those that the workers of its run have brought home. -/
theorem Reached.full (h : Reached (Callers.start b hasSampler requests) s log) (hb : b.IsPlain)
    (hphase : s.state.run.phase = .completed) : ∃ i threads iterations records elapsed,
      requests[i]? = some (.run threads iterations) ∧ Began log i ∧
        (i, ⟨.act (.work threads iterations b.job), (records, elapsed)⟩) ∈ log ∧
          s.state.run = ⟨.completed, records, elapsed⟩ := by
  obtain ⟨i, hi⟩ := (h.tells hb).completed hphase
  obtain ⟨hbegan, threads, iterations, hrequest⟩ := h.began_of_complete hb hi
  obtain ⟨acts, result, -, -, hturns⟩ := (h.runStage hb hrequest).completes (mem_turnsOf.mpr hi)
  refine ⟨i, threads, iterations, s.state.run.records, s.state.run.elapsed, hrequest, hbegan,
    mem_turnsOf.mp ?_, ?_⟩
  · rw [hturns]
    exact List.mem_cons_of_mem _ List.mem_cons_self
  · rw [← hphase]

/-- All records that are handed in are the same, for only one run hands in any, and it does so
once. -/
theorem Reached.complete_unique (h : Reached (Callers.start b hasSampler requests) s log)
    (hb : b.IsPlain) {i j : Nat} {records records' : List Record} {elapsed elapsed' : Duration}
    (hi : (i, ⟨.within (.complete records elapsed), ()⟩) ∈ log)
    (hj : (j, ⟨.within (.complete records' elapsed'), ()⟩) ∈ log) :
    records = records' ∧ elapsed = elapsed' := by
  obtain ⟨hbegan, threads, iterations, hrequest⟩ := h.began_of_complete hb hi
  have hij := (h.ledger rfl).one i j hbegan (h.began_of_complete hb hj).1
  subst hij
  have hstage := h.runStage hb hrequest
  obtain ⟨_, _, -, -, hturns⟩ := hstage.completes (mem_turnsOf.mpr hi)
  obtain ⟨_, _, -, -, hturns'⟩ := hstage.completes (mem_turnsOf.mpr hj)
  -- the workers of the run have ended once, with these records
  rw [hturns] at hturns'
  simpa using (List.cons.inj (List.cons.inj hturns').2).1

/-- A bench that is completed stays as it is. -/
theorem Reached.lasting (h : Reached (Callers.start b hasSampler requests) s log)
    (hb : b.IsPlain) {s' : Callers} {events : List Event} (hsteps : s.steps events = some s')
    (hphase : s.state.run.phase = .completed) : s'.state.run = s.state.run := by
  have hphase' : s'.state.run.phase = .completed := by
    have hle := (reached_of_steps hsteps).number_le
    rw [hphase] at hle
    cases hp : s'.state.run.phase with
    | completed => rfl
    | created => simp [hp, RunPhase.number] at hle
    | running => simp [hp, RunPhase.number] at hle
  have h' := h.steps hsteps
  obtain ⟨i, hi⟩ := (h.tells hb).completed hphase
  obtain ⟨j, hj⟩ := (h'.tells hb).completed hphase'
  obtain ⟨hrecords, helapsed⟩ := h'.complete_unique hb hj (List.mem_append_left _ hi)
  rw [show s'.state.run = ⟨_, s'.state.run.records, s'.state.run.elapsed⟩ from rfl, hphase',
    hrecords, helapsed, ← hphase]

end Callers

/-! ## The law of the callers -/

namespace Callers

/-- What holds of calls of one plain bench at any moment. -/
structure SoleRun (b : Bench) (requests : List Bench.Request) (s : Callers)
    (log : List (Nat × BenchTurn)) : Prop where
  /-- The run that gets the bench is the first one that asks for it. -/
  first : ∀ before i mine after, log = before ++ (i, ⟨.within .begin, mine⟩) :: after →
    (mine = true ↔ ∀ j theirs, (j, ⟨.within .begin, theirs⟩) ∉ before)
  /-- As soon as a run has asked, just one run has got the bench. -/
  one : ∀ i mine, (i, ⟨.within .begin, mine⟩) ∈ log → ∃! j, Began log j
  /-- Any other run that has begun at all has failed, and has done nothing but ask. -/
  others : ∀ i threads iterations, requests[i]? = some (.run threads iterations) →
    ¬ Began log i → turnsOf i log = [] ∧ s.response? i = none ∨
      turnsOf i log = [⟨.within .begin, false⟩] ∧ s.response? i = some b.tooLate
  /-- Workers work, and the engine is called, only for the run that has got the bench. -/
  acts : ∀ i a answer, (i, ⟨.act a, answer⟩) ∈ log → Began log i
  /-- Any other call leaves the bench as it is. -/
  frame : ∀ e s' i x, s.step e = some s' → s.turn? e = some (i, x) →
    ¬ Began (log ++ [(i, x)]) i → s'.state = s.state
  /-- A call is told how the bench is at the moment at which it ends. -/
  told : ∀ e s' i x r, s.step e = some s' → s.turn? e = some (i, x) →
    s'.response? i = some r → r.HoldsIn s'.state
  /-- The bench goes on to later phases only, and stays as it is once it is completed. -/
  later : ∀ events s', s.steps events = some s' →
    s.state.run.phase.number ≤ s'.state.run.phase.number ∧
      (s.state.run.phase = .completed → s'.state.run = s.state.run)
  /-- A completed bench has all the records that the workers of its run have brought home. -/
  full : s.state.run.phase = .completed → ∃ i threads iterations records elapsed,
    requests[i]? = some (.run threads iterations) ∧ Began log i ∧
      (i, ⟨.act (.work threads iterations b.job), (records, elapsed)⟩) ∈ log ∧
        s.state.run = ⟨.completed, records, elapsed⟩
  /-- The run that has got the bench completes it before it ends, and ends as its winding up has
  ended, be it in a failure. -/
  ended : ∀ i r, Began log i → s.response? i = some r → s.state.run.phase = .completed ∧
    ∃ acts result, After b.windUp acts (.done result) ∧ acts ⊆ turnsOf i log ∧ r = .run result
  /-- Every call ends: it takes four turns at most, and until then it can take the next one. -/
  ends : ∀ i < requests.length, (turnsOf i log).length ≤ 4 ∧ ∀ world,
    (s.response? i).isSome ∨ (s.step (.within i)).isSome ∨ (s.step (.act i world)).isSome

/-- In whatever order the callers of a bench that is not watched take their turns, the first run
that asks for the bench takes place and every other one fails and does nothing. The bench goes from
created to running and on to completed, and from then on it shows the records and the time of that
run for ever. -/
theorem only_the_first_run_takes_place_and_what_it_brings_home_stays (b : Bench) (hb : b.IsPlain)
    (hasSampler : Bool) (requests : List Bench.Request) (events : List Event) (s : Callers)
    (h : (start b hasSampler requests).steps events = some s) :
    s.SoleRun b requests ((start b hasSampler requests).log events) := by
  have hreached := reached_of_steps h
  generalize (start b hasSampler requests).log events = log at hreached
  have hledger := hreached.ledger rfl
  refine ⟨?_, ?_, ?_, fun i a answer => hreached.began_of_act hb, ?_, ?_, ?_,
    hreached.full hb, ?_, ?_⟩
  · rintro before i mine after rfl
    exact hreached.first hb
  · intro i mine hi
    have hphase : s.state.run.phase ≠ .created := fun hp =>
      (hreached.tells hb).created hp i mine hi
    obtain ⟨j, hj⟩ := (hreached.tells hb).begun hphase
    exact ⟨j, hj, fun k hk => hledger.one k j hk hj⟩
  · intro i threads iterations hi hbegan
    have hstage := hreached.runStage hb hi
    have hnot : ⟨.within .begin, true⟩ ∉ turnsOf i log := fun hx => hbegan (mem_turnsOf.mp hx)
    generalize turnsOf i log = turns, s.response? i = r at hstage hnot ⊢
    cases hstage with
    | waiting => exact Or.inl ⟨rfl, rfl⟩
    | refused => exact Or.inr ⟨rfl, rfl⟩
    | begun => exact (hnot List.mem_cons_self).elim
    | completed => exact (hnot List.mem_cons_self).elim
  · intro e s' i x hstep hturn hbegan
    exact hreached.frame_of_plain hb (takes_of_turn hstep hturn) hbegan
  · intro e s' i x r hstep hturn hr
    exact hreached.holds_at_end hb (takes_of_turn hstep hturn) hr
  · intro events s' hsteps
    exact ⟨(reached_of_steps hsteps).number_le, hreached.lasting hb hsteps⟩
  · intro i r hbegan hr
    obtain ⟨threads, iterations, hi⟩ : ∃ threads iterations,
        requests[i]? = some (.run threads iterations) := by
      rcases hreached.turn_cases hb hbegan with hrun | ⟨_, q, f, _, -, hlook, hx, -⟩
      · exact hrun
      · cases hx
        exact ((Bench.Request.look_ne hlook).1 rfl).elim
    have hstage := hreached.runStage hb hi
    rw [hr] at hstage
    obtain ⟨records, elapsed, hcomplete⟩ := hstage.responds (mem_turnsOf.mpr hbegan)
    obtain ⟨acts, result, hwound, hresult, hturns⟩ := hstage.completes hcomplete
    refine ⟨hledger.completed.mp ⟨i, records, elapsed, mem_turnsOf.mp hcomplete⟩, acts, result,
      hwound, ?_, Option.some.inj hresult⟩
    rw [hturns]
    exact fun x hx => by simp [hx]
  · intro i hi
    have hrequest : requests[i]? = some requests[i] := List.getElem?_eq_getElem hi
    obtain ⟨m, hm, hafter⟩ := hreached.program (start_program hrequest)
    exact ⟨hafter.length_le (Bench.serve_atMost_of_plain hb _),
      exists_step (List.getElem?_eq_some_iff.mp hm).1⟩

/-- Whoever calls the engine in this world gets an error, and workers bring home one record. -/
def worldWithoutEngine : (a : Act) → a.Answer
  | .call _ => .error (.io .notFound)
  | .rest _ => ()
  | .work _ _ _ => ([.iteration .empty], ⟨7⟩)
  | .watchGroup _ => .error (.ofCause (.os .notFound))
  | .findDaemon => .error (.io .notFound)
  | .startSampling _ _ => 0
  | .stopSampling _ => .error (.ofCause .samplingDied)

/-- Two runs of one bench, two calls for its records, and one for its time. -/
def fiveCalls : List Bench.Request := [.run 1 1, .run 2 2, .stats, .stats, .elapsed]

/-- The second run and the first call for records come while the first run is under way, and the
other calls come after it. -/
def fiveCallsTaken : List Event :=
  [.within 0, .within 1, .within 2, .act 0 worldWithoutEngine, .act 0 worldWithoutEngine,
    .within 0, .within 3, .within 4]

/-- There the second run fails at once. The first one completes the bench although its engine cannot
be cleaned, and its record is shown from then on. -/
theorem a_run_that_cannot_clean_up_completes_the_bench :
    (Bench.lifecycle .twoCommands).IsPlain ∧ ∃ s,
      (start (.lifecycle .twoCommands) false fiveCalls).steps fiveCallsTaken = some s ∧
        s.response? 1 = some (Bench.tooLate (.lifecycle .twoCommands)) ∧
        (∃ e, s.response? 0 = some (.run (.error e))) ∧ s.state.run.phase = .completed ∧
        s.response? 2 = some (.stats []) ∧ s.response? 3 = some (.stats [.iteration .empty]) ∧
        s.response? 4 = some (.elapsed ⟨7⟩) := by
  refine ⟨trivial, _, rfl, ?_⟩
  have hlaw := only_the_first_run_takes_place_and_what_it_brings_home_stays
    (.lifecycle .twoCommands) trivial false fiveCalls fiveCallsTaken _ rfl
  have hlog : (start (.lifecycle .twoCommands) false fiveCalls).log fiveCallsTaken =
      [(0, ⟨.within .begin, true⟩), (1, ⟨.within .begin, false⟩), (2, ⟨.within .result, []⟩),
        (0, ⟨.act (.work 1 1 (.lifecycle LifecycleBench.twoCommands.workload)),
          ([.iteration .empty], ⟨7⟩)⟩), (0, ⟨.act (.call .clean), .error (.io .notFound)⟩),
        (0, ⟨.within (.complete [.iteration .empty] ⟨7⟩), ()⟩),
        (3, ⟨.within .result, [.iteration .empty]⟩), (4, ⟨.within .elapsed, ⟨7⟩⟩)] := rfl
  refine ⟨?_, ⟨_, rfl⟩, (hlaw.ended 0 _ (by simp [Began, hlog]) rfl).1, rfl, rfl, rfl⟩
  rcases hlaw.others 1 2 2 rfl (by simp [Began, hlog]) with ⟨-, hnone⟩ | ⟨-, hlate⟩
  · cases hnone
  · exact hlate

end Callers

end EngineBench
