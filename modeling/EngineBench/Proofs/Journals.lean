-- What each worker of a pool gets to hear while the workers go on in any order. The turns of a
-- worker are its journal. What a worker has become, and what lies in its queue, hangs on its own
-- journal and on nothing else, so a law of one worker holds in every order that the pool admits.
import EngineBench.Proofs.Rounds

namespace EngineBench.Pool

open Dialogue Worker

/-! ## One event and one worker -/

namespace Member

/-- The turns that a worker takes by an event of its own. -/
def turns (cancelled : Bool) (m : Member) : Event → List WorkerTurn
  | .look _ => [lookTurn cancelled]
  | .answer _ q a => [⟨q, a⟩]
  | .abandon _ took =>
    match m.program with
    | .ask (.call c) _ => [⟨.call c, ⟨.error .cancelled, took⟩⟩]
    | _ => []
  | .send _ =>
    match m.program with
    | .ask (.send r) _ => [sendTurn r]
    | _ => []
  | _ => []

/-- Some turns make the first member the second one. -/
structure Takes (m : Member) (turns : List WorkerTurn) (m' : Member) : Prop where
  program : After m.program turns m'.program
  queue : m'.queue = m.queue ++ sent turns

/-- A worker that waits for the answer to a call. -/
def IsCalling (m : Member) : Prop := ∃ c next, m.program = .ask (.call c) next

theorem Takes.refl (m : Member) : m.Takes [] m := ⟨.nil, by simp [sent]⟩

theorem Takes.trans {m m' m'' : Member} {xs ys : List WorkerTurn} (h : m.Takes xs m')
    (h' : m'.Takes ys m'') : m.Takes (xs ++ ys) m'' := by
  refine ⟨h.program.append h'.program, ?_⟩
  rw [h'.queue, h.queue, sent_append, List.append_assoc]

variable {m m' : Member}

theorem look_takes {cancelled : Bool} {t : Nat} (h : m.look cancelled = some m') :
    m.Takes (m.turns cancelled (.look t)) m' ∧ m'.dead = m.dead := by
  unfold look at h
  split at h
  · rename_i next hp
    cases h
    exact ⟨⟨by rw [hp]; exact .cons .nil, by simp [turns, sent, lookTurn]⟩, rfl⟩
  · cases h

theorem answer_takes {cancelled : Bool} {t : Nat} {q : WorkerAsk} {a : q.Answer}
    (h : m.answer q a = some m') :
    m.Takes (m.turns cancelled (.answer t q a)) m' ∧ m'.dead = m.dead := by
  unfold answer at h
  split at h
  · cases h
  · rename_i q' next hp
    split at h
    · rename_i hout
      split at h
      · rename_i hq
        subst hq
        cases h
        refine ⟨⟨by rw [hp]; exact .cons .nil, ?_⟩, rfl⟩
        have hsent : sent [(⟨q, a⟩ : WorkerTurn)] = [] := by
          apply sent_outside
          intro x hx
          rw [List.mem_singleton] at hx
          exact hx ▸ hout
        simp [turns, hsent]
      · cases h
    · cases h

theorem abandon_takes {cancelled : Bool} {t : Nat} {took : Duration}
    (h : m.abandon took = some m') :
    m.Takes (m.turns cancelled (.abandon t took)) m' ∧ m'.dead = m.dead := by
  unfold abandon at h
  split at h
  · rename_i c next hp
    cases h
    exact ⟨⟨by simp only [turns, hp]; exact .cons .nil, by simp [turns, sent, hp]⟩, rfl⟩
  · cases h

theorem send_takes {cancelled : Bool} {t capacity : Nat} (h : m.send capacity = some m') :
    m.Takes (m.turns cancelled (.send t)) m' ∧ m'.dead = m.dead := by
  unfold send at h
  split at h
  · rename_i r next hp
    split at h
    · cases h
      exact ⟨⟨by simp only [turns, hp]; exact .cons .nil, by simp [turns, sent, hp, sendTurn]⟩, rfl⟩
    · cases h
  · cases h

theorem die_takes {cancelled : Bool} {t : Nat} (h : m.die = some m') :
    m.Takes (m.turns cancelled (.die t)) m' ∧ m'.dead = true ∧ m'.IsCalling := by
  unfold die at h
  split at h
  · rename_i c next hp
    cases h
    exact ⟨⟨.nil, by simp [turns, sent]⟩, rfl, c, next, hp⟩
  · cases h

end Member

/-! ## One event and the whole pool -/

/-- The worker that an event is about. -/
def Event.worker? : Event → Option Nat
  | .look t => some t
  | .answer t _ _ => some t
  | .abandon t _ => some t
  | .die t => some t
  | .send t => some t
  | .cancel => none

def Event.isDeath : Event → Bool
  | .die _ => true
  | _ => false

def Event.isCancel : Event → Bool
  | .cancel => true
  | _ => false

variable {p p' : Pool}

theorem change_eq_some {t : Nat} {f : Member → Option Member} (h : p.change t f = some p') :
    ∃ m m', p.members[t]? = some m ∧ m.dead = false ∧ f m = some m' ∧
      p' = { p with members := p.members.set t m' } := by
  unfold change at h
  split at h
  · cases h
  · rename_i m hm
    split at h
    · cases h
    · rename_i hdead
      obtain ⟨m', hf, rfl⟩ := Option.map_eq_some_iff.mp h
      exact ⟨m, m', hm, by simpa using hdead, hf, rfl⟩

/-- All that an event can do: it cancels the run, or lets one living worker take its turns. -/
theorem step_cases {e : Event} (h : p.step e = some p') :
    (e = .cancel ∧ p' = { p with cancelled := true }) ∨
      ∃ t m m', e.worker? = some t ∧ p.members[t]? = some m ∧ m.dead = false ∧
        m.Takes (m.turns p.cancelled e) m' ∧ m'.dead = e.isDeath ∧ (m'.dead = true → m'.IsCalling) ∧
        p' = { p with members := p.members.set t m' } := by
  cases e with
  | cancel =>
    cases h
    exact Or.inl ⟨rfl, rfl⟩
  | look t =>
    obtain ⟨m, m', hm, hd, hf, rfl⟩ := change_eq_some h
    obtain ⟨htakes, hdead⟩ := Member.look_takes (t := t) hf
    rw [hd] at hdead
    exact Or.inr ⟨t, m, m', rfl, hm, hd, htakes, hdead, by simp [hdead], rfl⟩
  | answer t q a =>
    obtain ⟨m, m', hm, hd, hf, rfl⟩ := change_eq_some h
    obtain ⟨htakes, hdead⟩ := Member.answer_takes (t := t) hf
    rw [hd] at hdead
    exact Or.inr ⟨t, m, m', rfl, hm, hd, htakes, hdead, by simp [hdead], rfl⟩
  | abandon t took =>
    simp only [step] at h
    split at h
    · obtain ⟨m, m', hm, hd, hf, rfl⟩ := change_eq_some h
      obtain ⟨htakes, hdead⟩ := Member.abandon_takes (t := t) hf
      rw [hd] at hdead
      exact Or.inr ⟨t, m, m', rfl, hm, hd, htakes, hdead, by simp [hdead], rfl⟩
    · cases h
  | die t =>
    obtain ⟨m, m', hm, hd, hf, rfl⟩ := change_eq_some h
    obtain ⟨htakes, hdead, hcalling⟩ := Member.die_takes (t := t) hf
    exact Or.inr ⟨t, m, m', rfl, hm, hd, htakes, hdead, fun _ => hcalling, rfl⟩
  | send t =>
    obtain ⟨m, m', hm, hd, hf, rfl⟩ := change_eq_some h
    obtain ⟨htakes, hdead⟩ := Member.send_takes (t := t) hf
    rw [hd] at hdead
    exact Or.inr ⟨t, m, m', rfl, hm, hd, htakes, hdead, by simp [hdead], rfl⟩

/-- What worker `t` hears by an event. -/
def heard (p : Pool) (t : Nat) (e : Event) : List WorkerTurn :=
  if e.worker? = some t then
    match p.members[t]? with
    | some m => m.turns p.cancelled e
    | none => []
  else []

/-- An event lets a worker take just the turns that it hears. -/
theorem step_member {e : Event} (h : p.step e = some p') {t : Nat} {m : Member}
    (hm : p.members[t]? = some m) :
    ∃ m', p'.members[t]? = some m' ∧ m.Takes (p.heard t e) m' ∧
      (m'.dead = true ↔ m.dead = true ∨ e = .die t) ∧
      ((m.dead = true → m.IsCalling) → m'.dead = true → m'.IsCalling) := by
  rcases step_cases h with ⟨rfl, rfl⟩ | ⟨s, n, n', hs, hn, hd, htakes, hdead, hcalling, rfl⟩
  · exact ⟨m, hm, by simpa [heard, Event.worker?] using .refl m, by simp, id⟩
  · by_cases hst : s = t
    · subst hst
      rw [hm] at hn
      cases hn
      refine ⟨n', ?_, by simpa [heard, hs, hm] using htakes, ?_, fun _ => hcalling⟩
      · rw [List.getElem?_set_self (List.getElem?_eq_some_iff.mp hm).1]
      · rw [hdead, hd]
        cases e <;> simp_all [Event.isDeath, Event.worker?]
    · refine ⟨m, by rw [List.getElem?_set_ne hst]; exact hm, ?_, ?_, id⟩
      · simpa [heard, hs, hst] using .refl m
      · constructor
        · exact Or.inl
        · rintro (hd | rfl)
          · exact hd
          · cases hs
            exact absurd rfl hst

/-- A worker that looks learns whether the run is cancelled by then. -/
theorem look_heard {e : Event} (h : p.step e = some p') {t : Nat} {b : Bool}
    (hx : lookTurn b ∈ p.heard t e) : b = p.cancelled := by
  unfold heard at hx
  split at hx
  · split at hx
    · cases e with
      | look s => simpa [Member.turns, lookTurn] using hx
      | answer s q a =>
        obtain ⟨m, m', -, -, hf, -⟩ := change_eq_some h
        rw [Member.turns, List.mem_singleton] at hx
        cases hx
        cases hp : m.program <;> simp [Member.answer, Member.isOutside, hp] at hf
      | abandon s took =>
        simp only [Member.turns] at hx
        split at hx <;> simp [lookTurn] at hx
      | send s =>
        simp only [Member.turns] at hx
        split at hx <;> simp [lookTurn, sendTurn] at hx
      | die s => cases hx
      | cancel => cases hx
    · cases hx
  · cases hx

theorem step_shape {e : Event} (h : p.step e = some p') :
    p'.capacity = p.capacity ∧ p'.members.length = p.members.length ∧
      p'.cancelled = (p.cancelled || e.isCancel) := by
  rcases step_cases h with ⟨rfl, rfl⟩ | ⟨s, n, n', hs, -, -, -, -, -, rfl⟩
  · exact ⟨rfl, rfl, by simp [Event.isCancel]⟩
  · refine ⟨rfl, by simp, ?_⟩
    cases e <;> simp_all [Event.isCancel, Event.worker?]

/-- The worker of an event is one of the pool. -/
theorem worker_lt {e : Event} (h : p.step e = some p') {t : Nat} (ht : e.worker? = some t) :
    t < p.members.length := by
  rcases step_cases h with ⟨rfl, -⟩ | ⟨s, m, m', hs, hm, -⟩
  · cases ht
  · rw [hs] at ht
    cases ht
    exact (List.getElem?_eq_some_iff.mp hm).1

/-! ## Whole runs -/

theorem steps_cons {e : Event} {rest : List Event} (h : p.steps (e :: rest) = some p') :
    ∃ p1, p.step e = some p1 ∧ p1.steps rest = some p' := by
  simpa [steps, List.foldlM_cons, Option.bind_eq_some_iff] using h

theorem steps_append {xs ys : List Event} :
    p.steps (xs ++ ys) = (p.steps xs).bind fun p1 => p1.steps ys := by
  unfold steps
  rw [List.foldlM_append]
  rfl

/-- The turns of worker `t` in a run. -/
def journal (t : Nat) (p : Pool) : List Event → List WorkerTurn
  | [] => []
  | e :: rest =>
    p.heard t e ++ match p.step e with
      | some p' => journal t p' rest
      | none => []

theorem journal_append {xs : List Event} (t : Nat) (h : p.steps xs = some p') (ys : List Event) :
    p.journal t (xs ++ ys) = p.journal t xs ++ p'.journal t ys := by
  induction xs generalizing p with
  | nil =>
    cases h
    rfl
  | cons e rest ih =>
    obtain ⟨p1, h1, h2⟩ := steps_cons h
    simp only [List.cons_append, journal, h1, ih h2, List.append_assoc]

/-- What a worker has become, and what lies in its queue, hangs on its own journal alone. -/
theorem steps_member {events : List Event} (h : p.steps events = some p') {t : Nat} {m : Member}
    (hm : p.members[t]? = some m) :
    ∃ m', p'.members[t]? = some m' ∧ m.Takes (p.journal t events) m' ∧
      (m'.dead = true ↔ m.dead = true ∨ .die t ∈ events) ∧
      ((m.dead = true → m.IsCalling) → m'.dead = true → m'.IsCalling) := by
  induction events generalizing p m with
  | nil =>
    cases h
    exact ⟨m, hm, .refl m, by simp, id⟩
  | cons e rest ih =>
    obtain ⟨p1, h1, h2⟩ := steps_cons h
    obtain ⟨m1, hm1, htakes, hdead, hcalling⟩ := step_member h1 hm
    obtain ⟨m', hm', htakes', hdead', hcalling'⟩ := ih h2 hm1
    refine ⟨m', hm', ?_, ?_, fun hc => hcalling' (hcalling hc)⟩
    · simp only [journal, h1]
      exact htakes.trans htakes'
    · rw [hdead', hdead, List.mem_cons, or_assoc, eq_comm (a := e)]

theorem steps_shape {events : List Event} (h : p.steps events = some p') :
    p'.capacity = p.capacity ∧ p'.members.length = p.members.length ∧
      p'.cancelled = (p.cancelled || events.any Event.isCancel) := by
  induction events generalizing p with
  | nil =>
    cases h
    simp
  | cons e rest ih =>
    obtain ⟨p1, h1, h2⟩ := steps_cons h
    obtain ⟨hcap, hlen, hc⟩ := step_shape h1
    obtain ⟨hcap', hlen', hc'⟩ := ih h2
    refine ⟨hcap'.trans hcap, hlen'.trans hlen, ?_⟩
    rw [hc', hc, List.any_cons, Bool.or_assoc]

/-- A run that is cancelled stays so. -/
theorem looks_of_steps {events : List Event} (h : p.steps events = some p') {t : Nat} {b : Bool}
    (hx : lookTurn b ∈ p.journal t events) :
    (b = true → p'.cancelled = true) ∧ (b = false → p.cancelled = false) := by
  induction events generalizing p with
  | nil => cases hx
  | cons e rest ih =>
    obtain ⟨p1, h1, h2⟩ := steps_cons h
    have hc1 := (step_shape h1).2.2
    simp only [journal, h1, List.mem_append] at hx
    rcases hx with hx | hx
    · have hb := look_heard h1 hx
      subst hb
      refine ⟨?_, id⟩
      intro hc
      rw [(steps_shape h2).2.2, hc1, hc]
      simp
    · obtain ⟨hstop, hgo⟩ := ih h2 hx
      refine ⟨hstop, ?_⟩
      intro hb
      have hfalse := hgo hb
      rw [hc1] at hfalse
      exact (Bool.or_eq_false_iff.mp hfalse).1

theorem worker_lt_of_mem {events : List Event} (h : p.steps events = some p') {e : Event}
    (he : e ∈ events) {t : Nat} (ht : e.worker? = some t) : t < p.members.length := by
  induction events generalizing p with
  | nil => cases he
  | cons e' rest ih =>
    obtain ⟨p1, h1, h2⟩ := steps_cons h
    rcases List.mem_cons.mp he with rfl | he
    · exact worker_lt h1 ht
    · exact (step_shape h1).2.1 ▸ ih h2 he

end EngineBench.Pool
