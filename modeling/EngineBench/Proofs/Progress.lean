-- A pool comes to its end. As long as a worker has not ended something can happen in the pool,
-- however the surroundings answer, and every worker asks only so many questions, so no order of
-- the workers gets stuck and none goes on for ever.
import EngineBench.Proofs.Standing
import Mathlib.Algebra.BigOperators.Group.Finset.Basic
import Mathlib.Algebra.Order.BigOperators.Group.Finset

namespace EngineBench.Pool

open Dialogue Worker

variable {threads iterations : Nat} {job : Job} {c : Bool} {events : List Event} {p p' : Pool}

/-! ## No pool gets stuck -/

theorem change_some {t : Nat} {m m' : Member} {f : Member → Option Member}
    (hm : p.members[t]? = some m) (hd : m.dead = false) (hf : f m = some m') :
    p.change t f = some { p with members := p.members.set t m' } := by
  simp [change, hm, hd, hf]

/-- A worker that has not ended, and has room for what it hands in, can look, or hand in a record,
or be answered as it is to be answered. -/
theorem exists_step_of_member {t : Nat} {m : Member} (hm : p.members[t]? = some m)
    (hgoing : m.hasEnded = false)
    (hroom : ∀ r next, m.program = .ask (.send r) next → m.queue.length < p.capacity)
    (answer : (q : WorkerAsk) → q.Answer) :
    ∃ e p', p.step e = some p' ∧
      (e = .look t ∨ e = .send t ∨ ∃ q, e = .answer t q (answer q)) := by
  obtain ⟨hd, hprogram⟩ : m.dead = false ∧ ∃ q next, m.program = .ask q next := by
    unfold Member.hasEnded at hgoing
    cases hp : m.program with
    | done x => simp [hp] at hgoing
    | ask q next => exact ⟨by simpa [hp] using hgoing, q, next, rfl⟩
  obtain ⟨q, next, hprogram⟩ := hprogram
  cases q with
  | look =>
    have hlook : m.look p.cancelled = some { m with program := next p.cancelled } := by
      simp only [Member.look, hprogram]
    exact ⟨.look t, _, change_some hm hd hlook, Or.inl rfl⟩
  | call call =>
    have hanswer : m.answer (.call call) (answer (.call call)) =
        some { m with program := next (answer (.call call)) } := by
      simp [Member.answer, Member.isOutside, hprogram]
    exact ⟨.answer t _ _, _, change_some hm hd hanswer, Or.inr (Or.inr ⟨_, rfl⟩)⟩
  | spawn program args =>
    have hanswer : m.answer (.spawn program args) (answer (.spawn program args)) =
        some { m with program := next (answer (.spawn program args)) } := by
      simp [Member.answer, Member.isOutside, hprogram]
    exact ⟨.answer t _ _, _, change_some hm hd hanswer, Or.inr (Or.inr ⟨_, rfl⟩)⟩
  | send r =>
    have hsend : m.send p.capacity =
        some { m with program := next (), queue := m.queue ++ [r] } := by
      simp only [Member.send, hprogram, if_pos (hroom r next hprogram)]
    exact ⟨.send t, _, change_some hm hd hsend, Or.inr (Or.inl rfl)⟩

/-- In a pool that has not ended a worker can look, or hand in a record, or be answered as that
worker is to be answered. -/
theorem exists_step_of_worker (h : (start threads iterations job c).steps events = some p)
    (hended : p.hasEnded = false) (answer : Nat → (q : WorkerAsk) → q.Answer) :
    ∃ t e p', p.step e = some p' ∧
      (e = .look t ∨ e = .send t ∨ ∃ q, e = .answer t q (answer t q)) := by
  obtain ⟨m, hmem, hgoing⟩ : ∃ m ∈ p.members, m.hasEnded = false := by
    simpa [hasEnded] using hended
  obtain ⟨t, ht, rfl⟩ := List.getElem_of_mem hmem
  have hm : p.members[t]? = some p.members[t] := List.getElem?_eq_getElem ht
  have hthreads : t < threads := members_length h ▸ ht
  exact ⟨t, exists_step_of_member hm hgoing (fun _ _ => send_has_room h hthreads hm) (answer t)⟩

theorem exists_step (h : (start threads iterations job c).steps events = some p)
    (hended : p.hasEnded = false) (answer : (q : WorkerAsk) → q.Answer) :
    ∃ t e p', p.step e = some p' ∧
      (e = .look t ∨ e = .send t ∨ ∃ q, e = .answer t q (answer q)) :=
  exists_step_of_worker h hended fun _ => answer

/-! ## No pool goes on for ever -/

/-- Whether a worker takes a turn by an event. -/
def Event.isTurn (e : Event) : Bool := !e.isCancel && !e.isDeath

/-- An event is one turn of its worker, unless the worker dies of it. -/
theorem length_heard {e : Event} (h : p.step e = some p') (t : Nat) :
    (p.heard t e).length = if e.worker? = some t ∧ e.isTurn = true then 1 else 0 := by
  by_cases ht : e.worker? = some t
  · cases e with
    | cancel => cases ht
    | look s =>
      cases ht
      obtain ⟨m, m', hm, -, -, -⟩ := change_eq_some h
      simp [heard, Event.worker?, hm, Member.turns, Event.isTurn, Event.isCancel, Event.isDeath]
    | answer s q a =>
      cases ht
      obtain ⟨m, m', hm, -, -, -⟩ := change_eq_some h
      simp [heard, Event.worker?, hm, Member.turns, Event.isTurn, Event.isCancel, Event.isDeath]
    | abandon s took =>
      cases ht
      simp only [step] at h
      split at h
      · obtain ⟨m, m', hm, -, hf, -⟩ := change_eq_some h
        unfold Member.abandon at hf
        split at hf
        · rename_i hp
          simp [heard, Event.worker?, hm, Member.turns, hp, Event.isTurn, Event.isCancel,
            Event.isDeath]
        · cases hf
      · cases h
    | die s =>
      cases ht
      obtain ⟨m, m', hm, -, -, -⟩ := change_eq_some h
      simp [heard, Event.worker?, hm, Member.turns, Event.isTurn, Event.isCancel, Event.isDeath]
    | send s =>
      cases ht
      obtain ⟨m, m', hm, -, hf, -⟩ := change_eq_some h
      unfold Member.send at hf
      split at hf
      · rename_i hp
        simp [heard, Event.worker?, hm, Member.turns, hp, Event.isTurn, Event.isCancel,
          Event.isDeath]
      · cases hf
  · simp [heard, ht]

/-- The turns of a run are shared out among its workers. -/
theorem countP_isTurn_eq_sum (h : p.steps events = some p') :
    events.countP Event.isTurn =
      ∑ t ∈ Finset.range p.members.length, (p.journal t events).length := by
  induction events generalizing p with
  | nil => simp [journal]
  | cons e rest ih =>
    obtain ⟨p1, h1, h2⟩ := steps_cons h
    have hlen := (step_shape h1).2.1
    have hone : ∑ t ∈ Finset.range p.members.length, (p.heard t e).length =
        if e.isTurn = true then 1 else 0 := by
      simp only [length_heard h1]
      by_cases hturn : e.isTurn = true
      · obtain ⟨s, hs⟩ : ∃ s, e.worker? = some s := by
          cases e with
          | cancel => cases hturn
          | _ => exact ⟨_, rfl⟩
        have hlt := worker_lt h1 hs
        rw [Finset.sum_eq_single s]
        · simp [hs, hturn]
        · intro t _ hne
          simp [hs, hne.symm]
        · intro hnot
          exact absurd (Finset.mem_range.mpr hlt) hnot
      · simp [hturn]
    simp only [journal, h1, List.length_append, Finset.sum_add_distrib, hone]
    rw [List.countP_cons, ih h2, hlen, Nat.add_comm]

/-- However the workers of a run are answered, they take only so many turns. -/
theorem countP_isTurn_le (h : (start threads iterations job c).steps events = some p) :
    events.countP Event.isTurn ≤ threads * job.effort iterations := by
  have hlen : (start threads iterations job c).members.length = threads := by simp [start]
  rw [countP_isTurn_eq_sum h, hlen]
  have hle : ∀ t ∈ Finset.range threads,
      ((start threads iterations job c).journal t events).length ≤ job.effort iterations := by
    intro t ht
    obtain ⟨m, -, htakes, -⟩ := steps_member h (start_member (Finset.mem_range.mp ht))
    exact htakes.program.length_le (job.worker_atMost iterations t)
  calc ∑ t ∈ Finset.range threads, ((start threads iterations job c).journal t events).length
      ≤ (Finset.range threads).card • job.effort iterations :=
        Finset.sum_le_card_nsmul _ _ _ hle
    _ = threads * job.effort iterations := by
      rw [Finset.card_range]
      rfl

/-! ## Every pool comes to an end -/

/-- What the surroundings answer to a worker after the events so far. -/
abbrev Answers : Type := List Event → Nat → (q : WorkerAsk) → q.Answer

/-- These surroundings lead a run on through more events: nobody cancels it, no worker dies, and
each answer is the one that they give after all that has happened before. -/
def Answers.Lead (answers : Answers) : (past more : List Event) → Prop
  | _, [] => True
  | past, e :: more =>
    (match e with
      | .look _ => True
      | .send _ => True
      | .answer t q a => a = answers past t q
      | _ => False) ∧ answers.Lead (past ++ [e]) more

/-- Such a run stays as calm as it was. -/
theorem Answers.Lead.calm {answers : Answers} {past more : List Event}
    (h : answers.Lead past more) : more.any Event.isCancel = false ∧ ∀ t, .die t ∉ more := by
  induction more generalizing past with
  | nil => simp
  | cons e rest ih =>
    obtain ⟨hcancel, hdie⟩ := ih h.2
    cases e with
    | look t => exact ⟨hcancel, by simpa using hdie⟩
    | send t => exact ⟨hcancel, by simpa using hdie⟩
    | answer t q a => exact ⟨hcancel, by simpa using hdie⟩
    | abandon t took => exact h.1.elim
    | die t => exact h.1.elim
    | cancel => exact h.1.elim

/-- From wherever a run has got to, its surroundings can lead it to its end. -/
theorem exists_end_of_answers (answers : Answers) {events : List Event} {p : Pool}
    (h : (start threads iterations job c).steps events = some p) : ∃ more p',
      (start threads iterations job c).steps (events ++ more) = some p' ∧ p'.hasEnded = true ∧
        answers.Lead events more := by
  by_cases hended : p.hasEnded = true
  · exact ⟨[], p, by rwa [List.append_nil], hended, trivial⟩
  · obtain ⟨t, e, p1, hstep, he⟩ :=
      exists_step_of_worker h (by simpa using hended) (answers events)
    have hturn : e.isTurn = true := by
      rcases he with rfl | rfl | ⟨q, rfl⟩ <;> rfl
    have hsteps : (start threads iterations job c).steps (events ++ [e]) = some p1 := by
      rw [steps_append, h]
      simp [steps, hstep]
    have hle := countP_isTurn_le hsteps
    have hmore : (events ++ [e]).countP Event.isTurn = events.countP Event.isTurn + 1 := by
      rw [List.countP_append, List.countP_cons_of_pos hturn, List.countP_nil]
    obtain ⟨more, p', hrest, hend, hlead⟩ := exists_end_of_answers answers hsteps
    rw [List.append_assoc] at hrest
    refine ⟨[e] ++ more, p', hrest, hend, ?_, hlead⟩
    rcases he with rfl | rfl | ⟨q, rfl⟩
    · trivial
    · trivial
    · rfl
termination_by threads * job.effort iterations - events.countP Event.isTurn
decreasing_by omega

/-- The answers of surroundings that refuse whatever they are asked. -/
def refusal : (q : WorkerAsk) → q.Answer
  | .look => false
  | .call _ => ⟨.error (.io .notFound), Duration.zero⟩
  | .spawn _ _ => ⟨.error .notFound, Duration.zero⟩
  | .send _ => ()

theorem exists_end {events : List Event} {p : Pool}
    (h : (start threads iterations job c).steps events = some p) : ∃ more p',
      (start threads iterations job c).steps (events ++ more) = some p' ∧ p'.hasEnded = true := by
  obtain ⟨more, p', hsteps, hended, -⟩ := exists_end_of_answers (fun _ _ => refusal) h
  exact ⟨more, p', hsteps, hended⟩

end EngineBench.Pool
