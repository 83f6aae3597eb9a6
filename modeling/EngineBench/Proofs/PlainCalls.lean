-- One call of a bench whose daemon is not watched. Such a bench is guarded by one lock, so a call
-- that looks at it takes a single turn. A run gets the bench in its first turn or fails in it. The
-- run that has got it lets workers work, winds up, and hands in what the workers have brought home,
-- whether or not the winding up has failed.
import EngineBench.Proofs.CallerLogs
import EngineBench.Proofs.LifecycleRuns

namespace EngineBench

open Dialogue

/-! ## What a call is made of -/

/-- The result of a program that has ended. -/
def Dialogue.ended? {Q : Type} {A : Q → Type} {α : Type} : Dialogue Q A α → Option α
  | done a => some a
  | ask _ _ => none

def BenchAsk.IsAct : BenchAsk → Prop
  | act _ => True
  | within _ => False

namespace Bench

/-- A bench whose daemon is not watched. -/
def IsPlain : Bench → Prop
  | watched _ => False
  | _ => True

/-- What the workers of a bench do. -/
def job : Bench → Job
  | lifecycle b => .lifecycle b.workload
  | spawning => .spawning
  | watched b => .lifecycle b.inner.workload

/-- What a run does once its workers have ended, and how it ends: where there is an engine, it is
cleaned, and the run fails if that fails. -/
def windUp : Bench → BenchWork (Attempt Unit)
  | lifecycle b => .ask (.act (.call .clean)) fun cleaned => .done (b.verdict cleaned)
  | spawning => .done (.ok ())
  | watched b => .ask (.act (.call .clean)) fun cleaned => .done (b.inner.verdict cleaned)

/-- The response to a run that comes too late. -/
def tooLate (b : Bench) : Response := .run (.error (.ofCause (.alreadyRun b.name)))

/-- The one section that a call looks at, and the response that it makes of it. -/
def Request.look? : Request → Option ((q : Section) × (q.Answer → Response))
  | run _ _ => none
  | stats => some ⟨.result, .stats⟩
  | phase => some ⟨.phase, .phase⟩
  | elapsed => some ⟨.elapsed, .elapsed⟩

variable {b : Bench} {threads iterations : Nat} {turns : List BenchTurn}

theorem windUp_acts (b : Bench) : b.windUp.Only BenchAsk.IsAct := by
  cases b with
  | lifecycle b => exact ⟨trivial, fun _ => trivial⟩
  | spawning => trivial
  | watched b => exact ⟨trivial, fun _ => trivial⟩

theorem serve_run (hb : b.IsPlain) (threads iterations : Nat) :
    b.serve (.run threads iterations) = .ask (.within .begin) fun mine =>
      if mine then .ask (.act (.work threads iterations b.job)) fun found =>
        b.windUp.bind fun r => .ask (.within (.complete found.1 found.2)) fun _ => .done (.run r)
      else .done b.tooLate := by
  cases b with
  | watched b => exact hb.elim
  | lifecycle b =>
    show Dialogue.bind (b.run threads iterations).run _ = _
    rw [LifecycleBench.run_eq]
    show ask (BenchAsk.within .begin) _ = _
    congr
    funext mine
    cases mine <;> rfl
  | spawning =>
    show ask (BenchAsk.within .begin) _ = _
    congr
    funext mine
    cases mine <;> rfl

theorem serve_look (hb : b.IsPlain) {request : Request} {q : Section} {f : q.Answer → Response}
    (h : request.look? = some ⟨q, f⟩) :
    b.serve request = .ask (.within q) fun answer => .done (f answer) := by
  cases request with
  | run threads iterations => cases h
  | stats =>
    cases h
    cases b with
    | watched b => exact hb.elim
    | lifecycle b => rfl
    | spawning => rfl
  | phase =>
    cases h
    cases b with
    | watched b => exact hb.elim
    | lifecycle b => rfl
    | spawning => rfl
  | elapsed =>
    cases h
    rfl

theorem Request.look_ne {request : Request} {q : Section} {f : q.Answer → Response}
    (h : request.look? = some ⟨q, f⟩) :
    q ≠ .begin ∧ ∀ records elapsed, q ≠ .complete records elapsed := by
  cases request <;> cases h <;> simp

/-- How far a run has come by these turns, and what it has responded. -/
inductive RunStage (b : Bench) (threads iterations : Nat) :
    List BenchTurn → Option Response → Prop
  | waiting : RunStage b threads iterations [] none
  | refused : RunStage b threads iterations [⟨.within .begin, false⟩] (some b.tooLate)
  | begun {acts : List BenchTurn} : (∀ x ∈ acts, x.1.IsAct) →
      RunStage b threads iterations (⟨.within .begin, true⟩ :: acts) none
  | completed {found : List Record × Duration} {acts : List BenchTurn} {r : Attempt Unit} :
      After b.windUp acts (.done r) → RunStage b threads iterations
        (⟨.within .begin, true⟩ :: ⟨.act (.work threads iterations b.job), found⟩ ::
          (acts ++ [⟨.within (.complete found.1 found.2), ()⟩])) (some (.run r))

theorem after_serve_run {m : BenchWork Response} (hb : b.IsPlain)
    (h : After (b.serve (.run threads iterations)) turns m) :
    RunStage b threads iterations turns m.ended? := by
  rw [serve_run hb] at h
  rcases after_ask h with ⟨rfl, rfl⟩ | ⟨mine, rest, rfl, h1⟩
  · exact .waiting
  cases mine with
  | false =>
    obtain ⟨rfl, rfl⟩ := after_done h1
    exact .refused
  | true =>
    rcases after_ask h1 with ⟨rfl, rfl⟩ | ⟨found, rest, rfl, h2⟩
    · exact .begun (by simp)
    rcases after_bind h2 with ⟨m', hm', rfl⟩ | ⟨acts, rest, r, rfl, hacts, h3⟩
    · have honly := (hm'.only b.windUp_acts).1
      have hended : (m'.bind fun r => .ask (.within (.complete found.1 found.2)) fun _ =>
          .done (.run r) : BenchWork Response).ended? = none := by cases m' <;> rfl
      rw [hended]
      refine .begun fun x hx => ?_
      rcases List.mem_cons.mp hx with rfl | hx
      · trivial
      · exact honly x hx
    · rcases after_ask h3 with ⟨rfl, rfl⟩ | ⟨_, rest, rfl, h4⟩
      · rw [List.append_nil]
        refine .begun fun x hx => ?_
        rcases List.mem_cons.mp hx with rfl | hx
        · trivial
        · exact (hacts.only b.windUp_acts).1 x hx
      · obtain ⟨rfl, rfl⟩ := after_done h4
        exact .completed hacts

namespace RunStage

variable {r : Option Response}

/-- A run that does more than to be refused has got the bench. -/
theorem begins (h : RunStage b threads iterations turns r) {x : BenchTurn} (hx : x ∈ turns)
    (hne : x ≠ ⟨.within .begin, false⟩) : ⟨.within .begin, true⟩ ∈ turns := by
  cases h with
  | waiting => simp at hx
  | refused => exact (hne (List.mem_singleton.mp hx)).elim
  | begun => exact List.mem_cons_self
  | completed => exact List.mem_cons_self

/-- A run that is refused does nothing else. -/
theorem refusal (h : RunStage b threads iterations turns r)
    (hx : ⟨.within .begin, false⟩ ∈ turns) :
    turns = [⟨.within .begin, false⟩] ∧ r = some b.tooLate := by
  cases h with
  | waiting => simp at hx
  | refused => exact ⟨rfl, rfl⟩
  | begun hacts =>
    rcases List.mem_cons.mp hx with hx | hx
    · cases hx
    · exact (hacts _ hx).elim
  | completed hwound =>
    have hacts := (hwound.only b.windUp_acts).1
    simp only [List.mem_cons, List.mem_append, List.not_mem_nil, or_false] at hx
    rcases hx with hx | hx | hx | hx
    · cases hx
    · cases hx
    · exact (hacts _ hx).elim
    · cases hx

/-- A run that hands in records is over, and hands in what its workers have brought home. -/
theorem completes (h : RunStage b threads iterations turns r) {records : List Record}
    {elapsed : Duration} (hx : ⟨.within (.complete records elapsed), ()⟩ ∈ turns) :
    ∃ acts result, After b.windUp acts (.done result) ∧ r = some (.run result) ∧
      turns = ⟨.within .begin, true⟩ ::
        ⟨.act (.work threads iterations b.job), (records, elapsed)⟩ ::
          (acts ++ [⟨.within (.complete records elapsed), ()⟩]) := by
  cases h with
  | waiting => simp at hx
  | refused => simp at hx
  | begun hacts =>
    rcases List.mem_cons.mp hx with hx | hx
    · cases hx
    · exact (hacts _ hx).elim
  | @completed found acts result hwound =>
    have hacts := (hwound.only b.windUp_acts).1
    simp only [List.mem_cons, List.mem_append, List.not_mem_nil, or_false] at hx
    rcases hx with hx | hx | hx | hx
    · cases hx
    · cases hx
    · exact (hacts _ hx).elim
    · cases hx
      exact ⟨acts, result, hwound, rfl, rfl⟩

/-- A run that has got the bench responds once it has handed in its records. -/
theorem responds {response : Response} (h : RunStage b threads iterations turns (some response))
    (hx : ⟨.within .begin, true⟩ ∈ turns) : ∃ records elapsed,
      ⟨.within (.complete records elapsed), ()⟩ ∈ turns := by
  cases h with
  | refused => simp at hx
  | @completed found => exact ⟨found.1, found.2, by simp⟩

theorem response_run {response : Response}
    (h : RunStage b threads iterations turns (some response)) :
    ∃ result, response = .run result := by
  cases h with
  | refused => exact ⟨_, rfl⟩
  | completed => exact ⟨_, rfl⟩

end RunStage

/-- A call that looks at the bench does so in one turn, and that is all. -/
theorem after_serve_look {m : BenchWork Response} (hb : b.IsPlain) {request : Request}
    {q : Section} {f : q.Answer → Response} (hlook : request.look? = some ⟨q, f⟩)
    (h : After (b.serve request) turns m) :
    turns = [] ∧ m.ended? = none ∨
      ∃ answer, turns = [⟨.within q, answer⟩] ∧ m.ended? = some (f answer) := by
  rw [serve_look hb hlook] at h
  rcases after_ask h with ⟨rfl, rfl⟩ | ⟨answer, rest, rfl, h1⟩
  · exact Or.inl ⟨rfl, rfl⟩
  · obtain ⟨rfl, rfl⟩ := after_done h1
    exact Or.inr ⟨answer, rfl, rfl⟩

theorem serve_atMost_of_plain (hb : b.IsPlain) (request : Request) :
    (b.serve request).AtMost 4 := by
  cases hlook : request.look? with
  | some look =>
    rw [serve_look hb hlook]
    exact ⟨by decide, fun _ => trivial⟩
  | none =>
    cases request with
    | stats => cases hlook
    | phase => cases hlook
    | elapsed => cases hlook
    | run threads iterations =>
      have hwound : b.windUp.AtMost 1 := by
        cases b with
        | lifecycle b => exact ⟨by decide, fun _ => trivial⟩
        | spawning => trivial
        | watched b => exact ⟨by decide, fun _ => trivial⟩
      rw [serve_run hb]
      refine ⟨by decide, fun mine => ?_⟩
      cases mine with
      | false => trivial
      | true =>
        refine ⟨by decide, fun found => AtMost.bind (n := 1) (k := 1) hwound fun r => ?_⟩
        exact ⟨by decide, fun _ => trivial⟩

end Bench

end EngineBench
