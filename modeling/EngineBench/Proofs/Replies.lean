-- Programs against surroundings that follow a script: each answer may depend on everything that was
-- asked and answered before. Against such a script a program takes one list of turns and comes to
-- one result, so that two programs can be compared turn by turn.
import EngineBench.Proofs.Turns

namespace EngineBench

/-! ## Lists that are cut -/

/-- A list up to its first member of some kind, and that member with it. -/
def upTo {α : Type} (p : α → Bool) : List α → List α
  | [] => []
  | x :: l => if p x then [x] else x :: upTo p l

section Cut

variable {α : Type} {p : α → Bool}

theorem upTo_cons_of_pos {x : α} {l : List α} (h : p x = true) : upTo p (x :: l) = [x] := by
  rw [upTo, if_pos h]

theorem upTo_cons_of_neg {x : α} {l : List α} (h : p x = false) :
    upTo p (x :: l) = x :: upTo p l := by
  rw [upTo, h]
  rfl

theorem upTo_isInitial (p : α → Bool) (l : List α) : upTo p l <+: l := by
  induction l with
  | nil => exact List.prefix_rfl
  | cons x l ih =>
    cases hx : p x with
    | true =>
      rw [upTo_cons_of_pos hx]
      exact ⟨l, rfl⟩
    | false =>
      rw [upTo_cons_of_neg hx]
      exact (List.prefix_cons_inj x).mpr ih

/-- With a member of that kind in the first of two lists, the second one is cut off. -/
theorem upTo_append_of_any {xs : List α} (h : xs.any p = true) (ys : List α) :
    upTo p (xs ++ ys) = upTo p xs := by
  induction xs with
  | nil => cases h
  | cons x xs ih =>
    rw [List.cons_append]
    cases hx : p x with
    | true => rw [upTo_cons_of_pos hx, upTo_cons_of_pos hx]
    | false =>
      rw [List.any_cons, hx, Bool.false_or] at h
      rw [upTo_cons_of_neg hx, upTo_cons_of_neg hx, ih h]

theorem upTo_append_of_none {xs : List α} (h : xs.any p = false) (ys : List α) :
    upTo p (xs ++ ys) = xs ++ upTo p ys := by
  induction xs with
  | nil => rfl
  | cons x xs ih =>
    rw [List.any_cons, Bool.or_eq_false_iff] at h
    rw [List.cons_append, upTo_cons_of_neg h.1, ih h.2, List.cons_append]

theorem upTo_of_none {l : List α} (h : l.any p = false) : upTo p l = l := by
  have happend := upTo_append_of_none h []
  rwa [List.append_nil, upTo, List.append_nil] at happend

end Cut

/-! ## Scripts -/

namespace Dialogue

variable {Q : Type} {A : Q → Type} {α β : Type}

/-- The answer to a question after some turns. -/
abbrev Replies (Q : Type) (A : Q → Type) : Type := List (Turn Q A) → (q : Q) → A q

/-- The turns of a program after those of the past, and its result. -/
def play (reply : Replies Q A) (past : List (Turn Q A)) : Dialogue Q A α → List (Turn Q A) × α
  | done a => ([], a)
  | ask q next =>
    let later := (next (reply past q)).play reply (past ++ [⟨q, reply past q⟩])
    (⟨q, reply past q⟩ :: later.1, later.2)

theorem play_bind (reply : Replies Q A) (past : List (Turn Q A)) (m : Dialogue Q A α)
    (f : α → Dialogue Q A β) :
    (m.bind f).play reply past =
      ((m.play reply past).1 ++ ((f (m.play reply past).2).play reply
        (past ++ (m.play reply past).1)).1,
      ((f (m.play reply past).2).play reply (past ++ (m.play reply past).1)).2) := by
  induction m generalizing past with
  | done a => simp only [Dialogue.bind, play, List.append_nil, List.nil_append]
  | ask q next ih =>
    simp only [Dialogue.bind, play, ih, List.append_assoc, List.cons_append, List.nil_append]

/-- After a first part that succeeds, the second one goes on. -/
theorem play_of_ok {ε : Type} {reply : Replies Q A} {past : List (Turn Q A)}
    {w : ExceptT ε (Dialogue Q A) α} {a : α} (h : (w.run.play reply past).2 = .ok a)
    (f : α → ExceptT ε (Dialogue Q A) β) :
    (w >>= f).run.play reply past =
      ((w.run.play reply past).1 ++
        ((f a).run.play reply (past ++ (w.run.play reply past).1)).1,
      ((f a).run.play reply (past ++ (w.run.play reply past).1)).2) := by
  have hbind : (w >>= f).run.play reply past = _ :=
    play_bind reply past w.run (ExceptT.bindCont f)
  rw [hbind, h]
  rfl

/-- An attempt in two parts that succeeds has succeeded in both. -/
theorem play_ok_bind {ε : Type} {reply : Replies Q A} {past : List (Turn Q A)}
    {w : ExceptT ε (Dialogue Q A) α} {f : α → ExceptT ε (Dialogue Q A) β} {b : β}
    (h : ((w >>= f).run.play reply past).2 = .ok b) :
    ∃ a, (w.run.play reply past).2 = .ok a ∧
      ((f a).run.play reply (past ++ (w.run.play reply past).1)).2 = .ok b ∧
      ((w >>= f).run.play reply past).1 = (w.run.play reply past).1 ++
        ((f a).run.play reply (past ++ (w.run.play reply past).1)).1 := by
  cases hw : (w.run.play reply past).2 with
  | error e =>
    have hbind : (w >>= f).run.play reply past = _ :=
      play_bind reply past w.run (ExceptT.bindCont f)
    rw [hbind, hw] at h
    cases h
  | ok a =>
    rw [play_of_ok hw f] at h ⊢
    exact ⟨a, rfl, h, rfl⟩

/-- A program that may ask nothing asks nothing. -/
theorem play_of_silent {m : Dialogue Q A α} (h : m.Only fun _ => False) (reply : Replies Q A)
    (past : List (Turn Q A)) : (m.play reply past).1 = [] := by
  cases m with
  | done a => rfl
  | ask q next => exact h.1.elim

/-- The script leads the program to its end. -/
theorem after_play (reply : Replies Q A) (past : List (Turn Q A)) (m : Dialogue Q A α) :
    After m (m.play reply past).1 (done (m.play reply past).2) := by
  induction m generalizing past with
  | done a => exact .nil
  | ask q next ih => exact .cons (ih _ _)

end Dialogue

end EngineBench
