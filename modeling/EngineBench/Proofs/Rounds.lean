-- All passes of one worker. What a worker asks falls into rounds: it looks whether the run is
-- cancelled, makes one pass, and hands in the record of the pass. So the records that it has handed
-- in belong to its first passes, one to each, and at most one pass more has begun.
import EngineBench.Bench.Pool
import EngineBench.Proofs.Tries

namespace EngineBench.Worker

open Dialogue

/-! ## Rounds -/

/-- The turn in which a worker learns whether the run is cancelled. -/
def lookTurn (cancelled : Bool) : WorkerTurn := ⟨.look, cancelled⟩

/-- The turn in which a worker hands in a record. -/
def sendTurn (r : Iteration) : WorkerTurn := ⟨.send r, ()⟩

/-- The turns of whole rounds from pass `i` on, and the records of their passes. -/
inductive Rounds (pass : Nat → Worker Iteration) :
    (i : Nat) → List WorkerTurn → List Iteration → Prop
  | nil {i : Nat} : Rounds pass i [] []
  | cons {i : Nat} {xs rest : List WorkerTurn} {r : Iteration} {rs : List Iteration} :
      After (pass i) xs (done r) → Rounds pass (i + 1) rest rs →
      Rounds pass i (lookTurn false :: (xs ++ sendTurn r :: rest)) (r :: rs)

/-- Where a worker stands that has come to pass `i` with `left` passes to go: the turns since its
last whole round, and what it still has to do. -/
inductive Stage (pass : Nat → Worker Iteration) (i : Nat) :
    (left : Nat) → List WorkerTurn → Worker Unit → Prop
  | between {left : Nat} : Stage pass i left [] (repeated pass i left)
  | stopped {left : Nat} : Stage pass i (left + 1) [lookTurn true] (done ())
  | inside {left : Nat} {xs : List WorkerTurn} {m : Worker Iteration} : After (pass i) xs m →
      Stage pass i (left + 1) (lookTurn false :: xs)
        (m.bind fun r => ask (.send r) fun _ => repeated pass (i + 1) left)

/-- Whatever a worker has asked and heard so far, it is whole rounds and then a stage of the next.
-/
theorem after_repeated {pass : Nat → Worker Iteration} {i left : Nat} {turns : List WorkerTurn}
    {m : Worker Unit} (h : After (repeated pass i left) turns m) :
    ∃ xs ys rs k, turns = xs ++ ys ∧ Rounds pass i xs rs ∧ left = rs.length + k ∧
      Stage pass (i + rs.length) k ys m := by
  induction left generalizing i turns with
  | zero =>
    obtain ⟨rfl, rfl⟩ := after_done h
    exact ⟨[], [], [], 0, rfl, .nil, rfl, .between⟩
  | succ left ih =>
    rcases after_ask h with ⟨rfl, rfl⟩ | ⟨cancelled, rest, rfl, hlooked⟩
    · exact ⟨[], [], [], left + 1, rfl, .nil, by simp, .between⟩
    · cases cancelled with
      | true =>
        obtain ⟨rfl, rfl⟩ := after_done hlooked
        exact ⟨[], [lookTurn true], [], left + 1, rfl, .nil, by simp, .stopped⟩
      | false =>
        rcases after_bind hlooked with ⟨m', hpass, rfl⟩ | ⟨xs, ys, r, rfl, hpass, hsend⟩
        · exact ⟨[], lookTurn false :: rest, [], left + 1, rfl, .nil, by simp, .inside hpass⟩
        · rcases after_ask hsend with ⟨rfl, rfl⟩ | ⟨_, more, rfl, hmore⟩
          · exact ⟨[], lookTurn false :: (xs ++ []), [], left + 1, rfl, .nil, by simp,
              .inside (m := done r) (by simpa using hpass)⟩
          · obtain ⟨zs, ws, rs, k, rfl, hrounds, rfl, hstage⟩ := ih hmore
            refine ⟨lookTurn false :: (xs ++ sendTurn r :: zs), ws, r :: rs, k, ?_,
              .cons hpass hrounds, ?_, ?_⟩
            · simp [lookTurn, sendTurn]
            · rw [List.length_cons]
              omega
            · rw [List.length_cons, Nat.add_comm rs.length 1, ← Nat.add_assoc]
              exact hstage

/-- Each record of whole rounds is the record of a pass that has ended. -/
theorem Rounds.exists_pass {pass : Nat → Worker Iteration} {i : Nat} {turns : List WorkerTurn}
    {rs : List Iteration} (h : Rounds pass i turns rs) {r : Iteration} (hr : r ∈ rs) :
    ∃ j xs, After (pass j) xs (done r) := by
  induction h with
  | nil => cases hr
  | cons hpass _ ih =>
    rcases List.mem_cons.mp hr with rfl | hr
    · exact ⟨_, _, hpass⟩
    · exact ih hr

/-! ## What a worker has handed in, and what it has begun -/

/-- The records that a worker hands in. -/
def sent (turns : List WorkerTurn) : List Iteration :=
  turns.filterMap fun turn => match turn.1 with
    | .send r => some r
    | _ => none

/-- Whether a worker begins a pass: it has looked, and was not told to stop. -/
def begins : WorkerTurn → Bool
  | ⟨.look, cancelled⟩ => !cancelled
  | _ => false

/-- How many passes a worker has begun. -/
def begun (turns : List WorkerTurn) : Nat := turns.countP begins

/-- A question that is answered from outside: a call or a process. -/
def IsOutside (q : WorkerAsk) : Prop := Pool.Member.isOutside q = true

/-- A pass looks at nothing but the outside. -/
def Inward (pass : Nat → Worker Iteration) : Prop := ∀ i, (pass i).Only IsOutside

theorem sent_append (xs ys : List WorkerTurn) : sent (xs ++ ys) = sent xs ++ sent ys :=
  List.filterMap_append

theorem begun_append (xs ys : List WorkerTurn) : begun (xs ++ ys) = begun xs + begun ys :=
  List.countP_append

theorem sent_outside {turns : List WorkerTurn} (h : ∀ x ∈ turns, IsOutside x.1) :
    sent turns = [] := by
  rw [sent, List.filterMap_eq_nil_iff]
  rintro ⟨q, a⟩ hx
  have := h _ hx
  cases q <;> simp [IsOutside, Pool.Member.isOutside] at this ⊢

theorem begun_outside {turns : List WorkerTurn} (h : ∀ x ∈ turns, IsOutside x.1) :
    begun turns = 0 := by
  rw [begun, List.countP_eq_zero]
  rintro ⟨q, a⟩ hx
  have := h _ hx
  cases q <;> simp [IsOutside, Pool.Member.isOutside, begins] at this ⊢

theorem not_mem_outside {turns : List WorkerTurn} (h : ∀ x ∈ turns, IsOutside x.1) (c : Bool) :
    lookTurn c ∉ turns := by
  intro hx
  have := h _ hx
  simp [IsOutside, Pool.Member.isOutside, lookTurn] at this

section

variable {pass : Nat → Worker Iteration} {i k : Nat} {turns : List WorkerTurn}

theorem Rounds.sent_eq {rs : List Iteration} (h : Rounds pass i turns rs) (hp : Inward pass) :
    sent turns = rs := by
  induction h with
  | nil => rfl
  | @cons i xs rest r rs hpass _ ih =>
    have hxs : sent xs = [] := sent_outside (hpass.only (hp i)).1
    calc sent (lookTurn false :: (xs ++ sendTurn r :: rest))
        = sent xs ++ r :: sent rest := sent_append xs (sendTurn r :: rest)
      _ = r :: rs := by rw [hxs, ih, List.nil_append]

theorem Rounds.begun_eq {rs : List Iteration} (h : Rounds pass i turns rs) (hp : Inward pass) :
    begun turns = rs.length := by
  induction h with
  | nil => rfl
  | @cons i xs rest r rs hpass _ ih =>
    have hxs : begun xs = 0 := begun_outside (hpass.only (hp i)).1
    calc begun (lookTurn false :: (xs ++ sendTurn r :: rest))
        = begun (xs ++ sendTurn r :: rest) + 1 := List.countP_cons_of_pos rfl
      _ = begun xs + begun (sendTurn r :: rest) + 1 := by rw [begun_append]
      _ = begun xs + begun rest + 1 := rfl
      _ = (r :: rs).length := by rw [hxs, ih, Nat.zero_add, List.length_cons]

theorem Stage.sent_eq {m : Worker Unit} (h : Stage pass i k turns m) (hp : Inward pass) :
    sent turns = [] := by
  cases h with
  | between => rfl
  | stopped => rfl
  | @inside _ xs _ hpass =>
    have hxs : sent xs = [] := sent_outside (hpass.only (hp i)).1
    exact hxs

theorem Stage.begun_le {m : Worker Unit} (h : Stage pass i k turns m) (hp : Inward pass) :
    begun turns ≤ 1 := by
  cases h with
  | between => exact Nat.zero_le 1
  | stopped => exact Nat.zero_le 1
  | @inside _ xs _ hpass =>
    have hxs : begun xs = 0 := begun_outside (hpass.only (hp i)).1
    calc begun (lookTurn false :: xs) = begun xs + 1 := List.countP_cons_of_pos rfl
      _ ≤ 1 := Nat.le_of_eq (by rw [hxs])

/-- No worker is told to stop in a whole round. -/
theorem Rounds.no_stop {rs : List Iteration} (h : Rounds pass i turns rs) (hp : Inward pass) :
    lookTurn true ∉ turns := by
  induction h with
  | nil => exact List.not_mem_nil
  | @cons i xs rest r rs hpass _ ih =>
    have hxs : lookTurn true ∉ xs := not_mem_outside (hpass.only (hp i)).1 true
    unfold lookTurn at ih hxs ⊢
    simp [hxs, ih, sendTurn]

/-- A worker that waits for a call has begun a pass for which it has handed in no record. -/
theorem Stage.of_call {c : EngineCall} {next : (WorkerAsk.call c).Answer → Worker Unit}
    (h : Stage pass i k turns (ask (.call c) next)) (hp : Inward pass) :
    0 < k ∧ begun turns = 1 ∧ lookTurn true ∉ turns := by
  generalize hm : (ask (.call c) next : Worker Unit) = m at h
  cases h with
  | between => cases k <;> cases hm
  | stopped => cases hm
  | @inside _ xs _ hpass =>
    have hxs : begun xs = 0 := begun_outside (hpass.only (hp i)).1
    have hstop : lookTurn true ∉ xs := not_mem_outside (hpass.only (hp i)).1 true
    refine ⟨Nat.succ_pos _, ?_, ?_⟩
    · calc begun (lookTurn false :: xs) = begun xs + 1 := List.countP_cons_of_pos rfl
        _ = 1 := by rw [hxs]
    · unfold lookTurn at hstop ⊢
      simp [hstop]

/-- A worker that has ended has done all its passes, or was told to stop before the next one. -/
theorem Stage.of_done (h : Stage pass i k turns (done ())) :
    turns = [] ∧ k = 0 ∨ turns = [lookTurn true] ∧ 0 < k := by
  generalize hm : done () = m at h
  cases h with
  | between =>
    cases k with
    | zero => exact Or.inl ⟨rfl, rfl⟩
    | succ k => cases hm
  | stopped => exact Or.inr ⟨rfl, Nat.succ_pos _⟩
  | @inside _ _ m => cases m <;> cases hm

/-- A worker that is about to hand in a record has a pass behind it for which it has handed in
none. -/
theorem Stage.of_send {r : Iteration} {next : Unit → Worker Unit}
    (h : Stage pass i k turns (ask (.send r) next)) : 0 < k := by
  generalize hm : (ask (.send r) next : Worker Unit) = m at h
  cases h with
  | between =>
    cases k with
    | zero => cases hm
    | succ k => exact Nat.succ_pos k
  | stopped => exact Nat.succ_pos _
  | inside => exact Nat.succ_pos _

end

end EngineBench.Worker
