-- The turns that the callers of a bench take, in the order in which they take them. A turn of a
-- section is what the state of the bench says, and changes that state; a turn of an act is up to
-- the world. Each caller for itself goes through its own program, whatever the others do between
-- its turns, and the log of all turns accounts for what the bench remembers.
import EngineBench.Bench.Callers
import EngineBench.Proofs.Turns

namespace EngineBench

open Dialogue

/-- A question of a caller of a bench, with its answer. -/
abbrev BenchTurn : Type := Turn BenchAsk BenchAsk.Answer

namespace BenchState

/-- What a turn makes of the state of the bench. -/
def after (s : BenchState) : BenchTurn → BenchState
  | ⟨.within q, _⟩ => (q.perform s).2
  | ⟨.act _, _⟩ => s

/-- A section gives what the state says. An act may give anything. -/
def Allows (s : BenchState) : BenchTurn → Prop
  | ⟨.within q, a⟩ => a = (q.perform s).1
  | ⟨.act _, _⟩ => True

end BenchState

namespace Callers

/-! ## The log -/

/-- The turn that an event is, and whose it is. -/
def turn? (s : Callers) : Event → Option (Nat × BenchTurn)
  | .within i =>
    match s.programs[i]? with
    | some (.ask (.within q) _) => some (i, ⟨.within q, (q.perform s.state).1⟩)
    | _ => none
  | .act i world =>
    match s.programs[i]? with
    | some (.ask (.act a) _) => some (i, ⟨.act a, world a⟩)
    | _ => none

/-- The turns that are taken in the course of these events. -/
def log (s : Callers) : List Event → List (Nat × BenchTurn)
  | [] => []
  | e :: events =>
    match s.step e with
    | some s' => (s.turn? e).toList ++ s'.log events
    | none => []

/-- The turns of one caller. -/
def turnsOf (i : Nat) (log : List (Nat × BenchTurn)) : List BenchTurn :=
  log.filterMap fun x => if x.1 = i then some x.2 else none

theorem mem_turnsOf {i : Nat} {x : BenchTurn} {log : List (Nat × BenchTurn)} :
    x ∈ turnsOf i log ↔ (i, x) ∈ log := by
  simp only [turnsOf, List.mem_filterMap]
  constructor
  · rintro ⟨⟨j, y⟩, hmem, hy⟩
    obtain ⟨rfl, hyx⟩ := Option.ite_none_right_eq_some.mp hy
    cases hyx
    exact hmem
  · intro hmem
    exact ⟨(i, x), hmem, by simp⟩

/-! ## What an event does -/

/-- The caller takes this turn, and the others stay where they are. -/
structure Takes (s : Callers) (i : Nat) (x : BenchTurn) (s' : Callers) : Prop where
  allowed : s.state.Allows x
  state : s'.state = s.state.after x
  programs : ∃ m m', s.programs[i]? = some m ∧ After m [x] m' ∧ s'.programs = s.programs.set i m'

theorem step_takes {s s' : Callers} {e : Event} (h : s.step e = some s') :
    ∃ i x, s.turn? e = some (i, x) ∧ s.Takes i x s' := by
  cases e with
  | within i =>
    simp only [step] at h
    split at h
    · rename_i q next hprogram
      cases h
      refine ⟨i, ⟨.within q, (q.perform s.state).1⟩, ?_, rfl, rfl, _, _, hprogram, .cons .nil, rfl⟩
      simp only [turn?, hprogram]
    · cases h
  | act i world =>
    simp only [step] at h
    split at h
    · rename_i a next hprogram
      cases h
      refine ⟨i, ⟨.act a, world a⟩, ?_, trivial, rfl, _, _, hprogram, .cons .nil, rfl⟩
      simp only [turn?, hprogram]
    · cases h

theorem takes_of_turn {s s' : Callers} {e : Event} {i : Nat} {x : BenchTurn}
    (h : s.step e = some s') (hturn : s.turn? e = some (i, x)) : s.Takes i x s' := by
  obtain ⟨i', x', hturn', htakes⟩ := step_takes h
  rw [hturn] at hturn'
  cases hturn'
  exact htakes

/-- A caller that has not ended can take its next turn, whatever the world answers. -/
theorem exists_step {s : Callers} {i : Nat} (hi : i < s.programs.length)
    (world : (a : Act) → a.Answer) :
    (s.response? i).isSome ∨ (s.step (.within i)).isSome ∨ (s.step (.act i world)).isSome := by
  have hprogram : s.programs[i]? = some s.programs[i] := List.getElem?_eq_getElem hi
  cases hm : s.programs[i] with
  | done r => exact Or.inl (by simp [response?, hprogram, hm])
  | ask q next =>
    rw [hm] at hprogram
    cases q with
    | within q => exact Or.inr (Or.inl (by simp [step, hprogram]))
    | act a => exact Or.inr (Or.inr (by simp [step, hprogram]))

/-! ## What a whole log does -/

/-- From the first callers the second ones come about by the turns of the log. -/
inductive Reached (s : Callers) : Callers → List (Nat × BenchTurn) → Prop
  | start : Reached s s []
  | turn {s1 s2 : Callers} {log : List (Nat × BenchTurn)} {i : Nat} {x : BenchTurn} :
      Reached s s1 log → s1.Takes i x s2 → Reached s s2 (log ++ [(i, x)])

theorem Reached.steps {s s1 s2 : Callers} {log : List (Nat × BenchTurn)} {events : List Event}
    (h : Reached s s1 log) (hsteps : s1.steps events = some s2) :
    Reached s s2 (log ++ s1.log events) := by
  induction events generalizing s1 log with
  | nil =>
    cases hsteps
    rw [Callers.log, List.append_nil]
    exact h
  | cons e events ih =>
    obtain ⟨s', hstep, hrest⟩ : ∃ s', s1.step e = some s' ∧ s'.steps events = some s2 := by
      rw [Callers.steps, List.foldlM_cons] at hsteps
      exact Option.bind_eq_some_iff.mp hsteps
    obtain ⟨i, x, hturn, htakes⟩ := step_takes hstep
    have hlog : s1.log (e :: events) = (i, x) :: s'.log events := by
      simp [Callers.log, hstep, hturn]
    rw [hlog, List.append_cons]
    exact ih (h.turn htakes) hrest

theorem reached_of_steps {s s' : Callers} {events : List Event} (h : s.steps events = some s') :
    Reached s s' (s.log events) := Reached.start.steps h

/-- Each caller has gone through its own program by its own turns. -/
theorem Reached.program {s s' : Callers} {log : List (Nat × BenchTurn)} (h : Reached s s' log)
    {i : Nat} {m : BenchWork Bench.Response} (hm : s.programs[i]? = some m) :
    ∃ m', s'.programs[i]? = some m' ∧ After m (turnsOf i log) m' := by
  induction h with
  | start => exact ⟨m, hm, .nil⟩
  | @turn s1 s2 log j x _ htakes ih =>
    obtain ⟨m1, hm1, hafter⟩ := ih
    obtain ⟨m2, m3, hm2, hturn, hset⟩ := htakes.programs
    by_cases hij : j = i
    · subst hij
      rw [hm1] at hm2
      cases hm2
      have hj : j < s1.programs.length := (List.getElem?_eq_some_iff.mp hm1).1
      refine ⟨m3, by rw [hset, List.getElem?_set_self hj], ?_⟩
      simpa [turnsOf] using hafter.append hturn
    · refine ⟨m1, by rw [hset, List.getElem?_set_ne hij, hm1], ?_⟩
      simpa [turnsOf, hij] using hafter

theorem Reached.length {s s' : Callers} {log : List (Nat × BenchTurn)} (h : Reached s s' log) :
    s'.programs.length = s.programs.length := by
  induction h with
  | start => rfl
  | turn _ htakes ih =>
    obtain ⟨m, m', -, -, hset⟩ := htakes.programs
    rw [hset, List.length_set, ih]

/-- A caller that has got a response has gone through its program to the end. -/
theorem Reached.response {s s' : Callers} {log : List (Nat × BenchTurn)} (h : Reached s s' log)
    {i : Nat} {r : Bench.Response} (hr : s'.response? i = some r) :
    ∃ m, s.programs[i]? = some m ∧ After m (turnsOf i log) (.done r) := by
  unfold response? at hr
  split at hr
  · rename_i r' hprogram
    cases hr
    have hi : i < s.programs.length := h.length ▸ (List.getElem?_eq_some_iff.mp hprogram).1
    obtain ⟨m', hm', hafter⟩ := h.program (List.getElem?_eq_getElem hi)
    rw [hprogram] at hm'
    cases hm'
    exact ⟨_, List.getElem?_eq_getElem hi, hafter⟩
  · cases hr

/-- What a program does first, its caller does first. -/
theorem Reached.until {s s' : Callers} {log : List (Nat × BenchTurn)} (h : Reached s s' log)
    {i : Nat} {m : BenchWork Bench.Response} (hm : s.programs[i]? = some m)
    {G P : BenchTurn → Prop} {R : Bench.Response → Prop} (hu : m.Until G P R) :
    (∃ x, (i, x) ∈ log ∧ G x) ∨
      (∀ x, (i, x) ∈ log → P x) ∧ ∀ r, s'.response? i = some r → R r := by
  obtain ⟨m', hm', hafter⟩ := h.program hm
  rcases hafter.until hu with ⟨x, hx, hg⟩ | ⟨hturns, hend⟩
  · exact Or.inl ⟨x, mem_turnsOf.mp hx, hg⟩
  · refine Or.inr ⟨fun x hx => hturns x (mem_turnsOf.mpr hx), ?_⟩
    intro r hr
    cases m' with
    | ask q next => simp [response?, hm'] at hr
    | done r' =>
      have : r' = r := by simpa [response?, hm'] using hr
      exact this ▸ hend

/-- Only callers take turns. -/
theorem Reached.caller {s s' : Callers} {log : List (Nat × BenchTurn)} (h : Reached s s' log)
    {i : Nat} {x : BenchTurn} (hx : (i, x) ∈ log) : i < s.programs.length := by
  induction h with
  | start => simp at hx
  | turn h htakes ih =>
    rcases List.mem_append.mp hx with hx | hx
    · exact ih hx
    · cases List.mem_singleton.mp hx
      obtain ⟨m, m', hm, -, -⟩ := htakes.programs
      rw [← h.length]
      exact (List.getElem?_eq_some_iff.mp hm).1

/-- A turn of a log is taken from the callers that have come about by the turns before it. -/
theorem Reached.turn_at {s s' : Callers} {before after : List (Nat × BenchTurn)} {i : Nat}
    {x : BenchTurn} (h : Reached s s' (before ++ (i, x) :: after)) :
    ∃ s1 s2, Reached s s1 before ∧ s1.Takes i x s2 ∧ Reached s2 s' after := by
  generalize hl : before ++ (i, x) :: after = log at h
  induction h generalizing after with
  | start => simp at hl
  | @turn s1 s2 log j y h htakes ih =>
    rcases after.eq_nil_or_concat with rfl | ⟨after', z, rfl⟩
    · obtain ⟨rfl, hx⟩ := List.append_inj' hl rfl
      cases hx
      exact ⟨s1, s2, h, htakes, .start⟩
    · rw [List.concat_eq_append, ← List.cons_append, ← List.append_assoc] at hl
      obtain ⟨hfront, hz⟩ := List.append_inj' hl rfl
      obtain ⟨s3, s4, h1, h2, h3⟩ := ih hfront
      cases hz
      rw [List.concat_eq_append]
      exact ⟨s3, s4, h1, h2, h3.turn htakes⟩

/-! ## Callers from the start -/

section Start

variable {b : Bench} {hasSampler : Bool} {requests : List Bench.Request} {s : Callers}
  {log : List (Nat × BenchTurn)} {i : Nat}

theorem start_program {request : Bench.Request} (hi : requests[i]? = some request) :
    (start b hasSampler requests).programs[i]? = some (b.serve request) := by
  simp [start, hi]

/-- Whoever takes a turn has been asked for something. -/
theorem Reached.request (h : Reached (Callers.start b hasSampler requests) s log)
    {x : BenchTurn} (hx : (i, x) ∈ log) : ∃ request, requests[i]? = some request := by
  have hi : i < requests.length := by simpa [Callers.start] using h.caller hx
  exact ⟨_, List.getElem?_eq_getElem hi⟩

/-- Whoever has got a response has been served to the end. -/
theorem Reached.served (h : Reached (Callers.start b hasSampler requests) s log)
    {r : Bench.Response} (hr : s.response? i = some r) : ∃ request, requests[i]? = some request ∧
      After (b.serve request) (turnsOf i log) (.done r) := by
  obtain ⟨m, hm, hafter⟩ := h.response hr
  obtain ⟨request, hi, rfl⟩ : ∃ request, requests[i]? = some request ∧ b.serve request = m := by
    simpa [Callers.start] using hm
  exact ⟨request, hi, hafter⟩

end Start

end Callers

/-! ## What one turn changes -/

namespace BenchState

variable (s : BenchState) (x : BenchTurn)

/-- The state of the run changes when a call gets the bench and when it hands in its records. -/
theorem after_run (hx : s.Allows x) :
    (s.after x).run = s.run ∨
      (x = ⟨.within .begin, true⟩ ∧ s.run.phase = .created ∧ (s.after x).run.phase = .running) ∨
        ∃ records elapsed, x = ⟨.within (.complete records elapsed), ()⟩ ∧
          (s.after x).run.phase = .completed := by
  obtain ⟨q, a⟩ := x
  cases q with
  | act a => exact Or.inl rfl
  | within q =>
    cases q with
    | begin =>
      by_cases hs : s.run.phase = .created
      · have hbegin := RunState.begin?_of_created hs
        have ha : a = true := by simpa [Allows, Section.perform, hbegin] using hx
        exact Or.inr (Or.inl ⟨by rw [ha], hs, by simp [after, Section.perform, hbegin]⟩)
      · have hbegin := RunState.begin?_of_begun hs
        exact Or.inl (by simp [after, Section.perform, hbegin])
    | complete records elapsed => exact Or.inr (Or.inr ⟨records, elapsed, rfl, rfl⟩)
    | phase => exact Or.inl rfl
    | result => exact Or.inl rfl
    | elapsed => exact Or.inl rfl
    | takeSampler => exact Or.inl rfl
    | keepSamples xs => exact Or.inl rfl
    | samples => exact Or.inl rfl

/-- The samples change when a call stores its own. -/
theorem after_samples :
    (s.after x).samples = s.samples ∨
      ∃ xs, x = ⟨.within (.keepSamples xs), ()⟩ ∧ (s.after x).samples = some xs := by
  obtain ⟨q, a⟩ := x
  cases q with
  | act a => exact Or.inl rfl
  | within q =>
    cases q with
    | begin =>
      refine Or.inl ?_
      simp only [after, Section.perform]
      split
      · rfl
      · rfl
    | complete records elapsed => exact Or.inl rfl
    | phase => exact Or.inl rfl
    | result => exact Or.inl rfl
    | elapsed => exact Or.inl rfl
    | takeSampler => exact Or.inl rfl
    | keepSamples xs => exact Or.inr ⟨xs, rfl, rfl⟩
    | samples => exact Or.inl rfl

variable {x}

theorem completed_after (hx : s.Allows x) (h : s.run.phase = .completed) :
    (s.after x).run.phase = .completed := by
  rcases s.after_run x hx with hrun | ⟨-, hcreated, -⟩ | ⟨_, _, -, hrun⟩
  · rw [hrun, h]
  · rw [h] at hcreated
    cases hcreated
  · exact hrun

/-- A bench that is as it was created was so before, and nobody has got it since. -/
theorem created_before (hx : s.Allows x) (h : (s.after x).run.phase = .created) :
    s.run.phase = .created ∧ x ≠ ⟨.within .begin, true⟩ := by
  have hs : s.run.phase = .created := by
    rcases s.after_run x hx with hrun | ⟨-, hcreated, -⟩ | ⟨_, _, -, hrun⟩
    · rw [← hrun, h]
    · exact hcreated
    · rw [h] at hrun
      cases hrun
  refine ⟨hs, ?_⟩
  rintro rfl
  simp [after, Section.perform, RunState.begin?_of_created hs] at h

variable (x)

theorem samples_stay (h : s.samples.isSome) : (s.after x).samples.isSome := by
  rcases s.after_samples x with hsame | ⟨xs, -, hxs⟩
  · rw [hsame, h]
  · rw [hxs]
    rfl

end BenchState

/-! ## What the log says about the state -/

namespace Callers

variable {log : List (Nat × BenchTurn)} {i : Nat} {x : BenchTurn}

/-- The caller has got the inner bench. -/
def Began (log : List (Nat × BenchTurn)) (i : Nat) : Prop := (i, ⟨.within .begin, true⟩) ∈ log

/-- The caller has asked for the inner bench after another one had got it. -/
def Refused (log : List (Nat × BenchTurn)) (i : Nat) : Prop := (i, ⟨.within .begin, false⟩) ∈ log

/-- The caller has stored these samples. -/
def Kept (log : List (Nat × BenchTurn)) (i : Nat) (xs : List Sample) : Prop :=
  (i, ⟨.within (.keepSamples xs), ()⟩) ∈ log

/-- The caller has handed in the records of the inner bench. -/
def Completed (log : List (Nat × BenchTurn)) (i : Nat) : Prop :=
  ∃ records elapsed, (i, ⟨.within (.complete records elapsed), ()⟩) ∈ log

/-- The log accounts for the state of the bench. -/
structure Ledger (s : BenchState) (log : List (Nat × BenchTurn)) : Prop where
  fresh : s.run.phase = .created → ∀ i, ¬ Began log i
  one : ∀ i j, Began log i → Began log j → i = j
  completed : (∃ i, Completed log i) ↔ s.run.phase = .completed
  samples : ∀ xs, s.samples = some xs → ∃ i, Kept log i xs
  /-- Whoever has seen samples sees samples from then on. -/
  seenSamples : ∀ i xs, (i, ⟨.within .samples, some xs⟩) ∈ log → s.samples.isSome
  /-- Whoever has seen a run that is over sees one from then on. -/
  seenPhase : ∀ i, (i, ⟨.within .phase, .completed⟩) ∈ log → s.run.phase = .completed

theorem Ledger.start (hasSampler : Bool) : Ledger (.start hasSampler) [] where
  fresh := by simp [Began]
  one := by simp [Began]
  completed := by simp [Completed, BenchState.start, RunState.start]
  samples := by simp [BenchState.start]
  seenSamples := by simp
  seenPhase := by simp

variable {s : BenchState}

/-- A call gets the inner bench only as long as nobody has got it. -/
theorem Ledger.one_after (h : Ledger s log) (hx : s.Allows x) (j1 j2 : Nat)
    (h1 : Began (log ++ [(i, x)]) j1) (h2 : Began (log ++ [(i, x)]) j2) : j1 = j2 := by
  have hfresh : x = ⟨.within .begin, true⟩ → ∀ j, ¬ Began log j := by
    rintro rfl
    refine h.fresh ?_
    by_cases hs : s.run.phase = .created
    · exact hs
    · simp [BenchState.Allows, Section.perform, RunState.begin?_of_begun hs] at hx
  rcases List.mem_append.mp h1 with g1 | g1
  · rcases List.mem_append.mp h2 with g2 | g2
    · exact h.one j1 j2 g1 g2
    · cases List.mem_singleton.mp g2
      exact absurd g1 (hfresh rfl j1)
  · cases List.mem_singleton.mp g1
    rcases List.mem_append.mp h2 with g2 | g2
    · exact absurd g2 (hfresh rfl j2)
    · cases List.mem_singleton.mp g2
      rfl

/-- Every turn that the state allows is accounted for. -/
theorem Ledger.turn (h : Ledger s log) (hx : s.Allows x) :
    Ledger (s.after x) (log ++ [(i, x)]) where
  fresh := by
    intro hphase j hj
    obtain ⟨hs, hne⟩ := s.created_before hx hphase
    rcases List.mem_append.mp hj with hj | hj
    · exact h.fresh hs j hj
    · cases List.mem_singleton.mp hj
      exact hne rfl
  one := h.one_after hx
  completed := by
    constructor
    · rintro ⟨j, records, elapsed, hj⟩
      rcases List.mem_append.mp hj with hj | hj
      · exact s.completed_after hx (h.completed.mp ⟨j, records, elapsed, hj⟩)
      · cases List.mem_singleton.mp hj
        rfl
    · intro hphase
      rcases s.after_run x hx with hrun | ⟨-, -, hrun⟩ | ⟨records, elapsed, rfl, -⟩
      · rw [hrun] at hphase
        obtain ⟨j, records, elapsed, hj⟩ := h.completed.mpr hphase
        exact ⟨j, records, elapsed, List.mem_append_left _ hj⟩
      · rw [hrun] at hphase
        cases hphase
      · exact ⟨i, records, elapsed, by simp⟩
  samples := by
    intro xs hxs
    rcases s.after_samples x with hsame | ⟨ys, rfl, hys⟩
    · rw [hsame] at hxs
      obtain ⟨j, hj⟩ := h.samples xs hxs
      exact ⟨j, List.mem_append_left _ hj⟩
    · rw [hys] at hxs
      cases hxs
      exact ⟨i, by simp [Kept]⟩
  seenSamples := by
    intro j xs hj
    apply s.samples_stay x
    rcases List.mem_append.mp hj with hj | hj
    · exact h.seenSamples j xs hj
    · cases List.mem_singleton.mp hj
      have hsamples : some xs = s.samples := hx
      rw [← hsamples]
      rfl
  seenPhase := by
    intro j hj
    apply s.completed_after hx
    rcases List.mem_append.mp hj with hj | hj
    · exact h.seenPhase j hj
    · cases List.mem_singleton.mp hj
      exact hx.symm

theorem Reached.ledger {s0 s : Callers} {hasSampler : Bool} (h0 : s0.state = .start hasSampler)
    (h : Reached s0 s log) : Ledger s.state log := by
  induction h with
  | start =>
    rw [h0]
    exact .start hasSampler
  | turn _ htakes ih =>
    rw [htakes.state]
    exact ih.turn htakes.allowed

end Callers

end EngineBench
