-- What becomes of a program while its questions are answered. A turn is a question with its answer,
-- and `After` says which program is left after some turns. A program that is put together by `bind`
-- takes its turns in two parts, and this is how every law about a longer program is taken apart.
import EngineBench.Dialogue

namespace EngineBench.Dialogue

variable {Q : Type} {A : Q → Type} {α β : Type}

/-- A question with its answer. -/
abbrev Turn (Q : Type) (A : Q → Type) : Type := (q : Q) × A q

/-- After these turns, the first program has become the second one. -/
inductive After : Dialogue Q A α → List (Turn Q A) → Dialogue Q A α → Prop
  | nil {m : Dialogue Q A α} : After m [] m
  | cons {q : Q} {next : A q → Dialogue Q A α} {a : A q} {turns : List (Turn Q A)}
      {m : Dialogue Q A α} : After (next a) turns m → After (ask q next) (⟨q, a⟩ :: turns) m

instance : LawfulMonad (Dialogue Q A) :=
  LawfulMonad.mk' _ bind_done (fun _ _ => rfl) Dialogue.bind_assoc

/-! ## Taking turns apart -/

theorem after_done {a : α} {turns : List (Turn Q A)} {m : Dialogue Q A α}
    (h : After (done a) turns m) : turns = [] ∧ m = done a := by
  cases h
  exact ⟨rfl, rfl⟩

theorem after_ask {q : Q} {next : A q → Dialogue Q A α} {turns : List (Turn Q A)}
    {m : Dialogue Q A α} (h : After (ask q next) turns m) :
    turns = [] ∧ m = ask q next ∨
      ∃ a rest, turns = ⟨q, a⟩ :: rest ∧ After (next a) rest m := by
  cases h with
  | nil => exact Or.inl ⟨rfl, rfl⟩
  | cons h => exact Or.inr ⟨_, _, rfl, h⟩

/-- A program that has ended after a question has had an answer to it. -/
theorem after_ask_done {q : Q} {next : A q → Dialogue Q A α} {turns : List (Turn Q A)} {x : α}
    (h : After (ask q next) turns (done x)) :
    ∃ a rest, turns = ⟨q, a⟩ :: rest ∧ After (next a) rest (done x) := by
  rcases after_ask h with ⟨_, h⟩ | h
  · cases h
  · exact h

theorem After.append {m m' m'' : Dialogue Q A α} {xs ys : List (Turn Q A)} (h : After m xs m')
    (h' : After m' ys m'') : After m (xs ++ ys) m'' := by
  induction h with
  | nil => exact h'
  | cons _ ih => exact .cons (ih h')

/-- The program after a first part of the turns is there, and goes on with the rest. -/
theorem After.split {m m'' : Dialogue Q A α} {xs ys : List (Turn Q A)}
    (h : After m (xs ++ ys) m'') : ∃ m', After m xs m' ∧ After m' ys m'' := by
  induction xs generalizing m with
  | nil => exact ⟨m, .nil, h⟩
  | cons x xs ih =>
    cases h with
    | cons h =>
      obtain ⟨m', h1, h2⟩ := ih h
      exact ⟨m', .cons h1, h2⟩

/-- Two programs put together are still in the first one, or have left it with its result. -/
theorem after_bind {m : Dialogue Q A α} {f : α → Dialogue Q A β} {turns : List (Turn Q A)}
    {r : Dialogue Q A β} (h : After (m.bind f) turns r) :
    (∃ m', After m turns m' ∧ r = m'.bind f) ∨
      ∃ xs ys a, turns = xs ++ ys ∧ After m xs (done a) ∧ After (f a) ys r := by
  induction m generalizing turns with
  | done a => exact Or.inr ⟨[], turns, a, rfl, .nil, h⟩
  | ask q next ih =>
    have hask : After (ask q fun a => (next a).bind f) turns r := h
    rcases after_ask hask with ⟨rfl, rfl⟩ | ⟨a, rest, rfl, ha⟩
    · exact Or.inl ⟨ask q next, .nil, rfl⟩
    · rcases ih a ha with ⟨m', hm, hr⟩ | ⟨xs, ys, b, rfl, hm, hf⟩
      · exact Or.inl ⟨m', .cons hm, hr⟩
      · exact Or.inr ⟨⟨q, a⟩ :: xs, ys, b, rfl, .cons hm, hf⟩

/-- The result of a program can be changed after its last turn. -/
theorem after_map {m : Dialogue Q A α} {f : α → β} {turns : List (Turn Q A)} {b : β}
    (h : After (f <$> m) turns (done b)) : ∃ a, After m turns (done a) ∧ b = f a := by
  rcases after_bind h with ⟨m', hm, hm'⟩ | ⟨xs, ys, a, rfl, hm, hf⟩
  · cases m' with
    | ask q next => cases hm'
    | done a =>
      cases hm'
      exact ⟨a, hm, rfl⟩
  · obtain ⟨rfl, hb⟩ := after_done hf
    cases hb
    exact ⟨a, by rwa [List.append_nil], rfl⟩

/-! ## What a program may ask -/

/-- Whatever it is answered, the program asks only questions of one kind. -/
def Only (P : Q → Prop) : Dialogue Q A α → Prop
  | done _ => True
  | ask q next => P q ∧ ∀ a, (next a).Only P

theorem After.only {P : Q → Prop} {m m' : Dialogue Q A α} {turns : List (Turn Q A)}
    (h : After m turns m') (hm : m.Only P) : (∀ x ∈ turns, P x.1) ∧ m'.Only P := by
  induction h with
  | nil => exact ⟨by simp, hm⟩
  | cons _ ih =>
    obtain ⟨hq, hnext⟩ := hm
    obtain ⟨h1, h2⟩ := ih (hnext _)
    refine ⟨?_, h2⟩
    intro x hx
    rcases List.mem_cons.mp hx with rfl | hx
    · exact hq
    · exact h1 x hx

theorem Only.mono {P P' : Q → Prop} {m : Dialogue Q A α} (hm : m.Only P) (h : ∀ q, P q → P' q) :
    m.Only P' := by
  induction m with
  | done a => trivial
  | ask q next ih => exact ⟨h q hm.1, fun a => ih a (hm.2 a)⟩

theorem Only.bind {P : Q → Prop} {m : Dialogue Q A α} {f : α → Dialogue Q A β} (hm : m.Only P)
    (hf : ∀ a, (f a).Only P) : (m.bind f).Only P := by
  induction m with
  | done a => exact hf a
  | ask q next ih =>
    obtain ⟨hq, hnext⟩ := hm
    exact ⟨hq, fun a => ih a (hnext a)⟩

/-- A program that can fail asks only questions of one kind if its parts do. -/
theorem Only.bind_attempt {P : Q → Prop} {ε : Type} {w : ExceptT ε (Dialogue Q A) α}
    {f : α → ExceptT ε (Dialogue Q A) β} (hw : w.run.Only P) (hf : ∀ a, (f a).run.Only P) :
    (w >>= f).run.Only P := by
  apply Only.bind hw
  rintro (e | a)
  · trivial
  · exact hf a

/-! ## What a program does first -/

/-- Before a turn of the first kind the program takes only turns of the second kind, and without one
it ends only with such a result. -/
def Until (G P : Turn Q A → Prop) (R : α → Prop) : Dialogue Q A α → Prop
  | done a => R a
  | ask q next => ∀ a, G ⟨q, a⟩ ∨ P ⟨q, a⟩ ∧ (next a).Until G P R

theorem After.until {G P : Turn Q A → Prop} {R : α → Prop} {m m' : Dialogue Q A α}
    {turns : List (Turn Q A)} (h : After m turns m') (hm : m.Until G P R) :
    (∃ x ∈ turns, G x) ∨ (∀ x ∈ turns, P x) ∧ m'.Until G P R := by
  induction h with
  | nil => exact Or.inr ⟨by simp, hm⟩
  | @cons q next a turns m _ ih =>
    rcases hm a with hg | ⟨hp, hnext⟩
    · exact Or.inl ⟨_, List.mem_cons_self, hg⟩
    · rcases ih hnext with ⟨x, hx, hg⟩ | ⟨hturns, hend⟩
      · exact Or.inl ⟨x, List.mem_cons_of_mem _ hx, hg⟩
      · refine Or.inr ⟨?_, hend⟩
        intro x hx
        rcases List.mem_cons.mp hx with rfl | hx
        · exact hp
        · exact hturns x hx

theorem Until.bind {G P : Turn Q A → Prop} {R : α → Prop} {R' : β → Prop} {m : Dialogue Q A α}
    {f : α → Dialogue Q A β} (hm : m.Until G P R) (hf : ∀ a, R a → (f a).Until G P R') :
    (m.bind f).Until G P R' := by
  induction m with
  | done a => exact hf a hm
  | ask q next ih =>
    intro a
    rcases hm a with hg | ⟨hp, hnext⟩
    · exact Or.inl hg
    · exact Or.inr ⟨hp, ih a hnext⟩

/-- A program that asks only questions of one kind does so in particular until some turn. -/
theorem Only.until {P : Q → Prop} {G P' : Turn Q A → Prop} {R : α → Prop} {m : Dialogue Q A α}
    (hm : m.Only P) (hP : ∀ q a, P q → P' ⟨q, a⟩) (hR : ∀ a, R a) : m.Until G P' R := by
  induction m with
  | done a => exact hR a
  | ask q next ih => exact fun a => Or.inr ⟨hP q a hm.1, ih a (hm.2 a)⟩

theorem until_any {G : Turn Q A → Prop} (m : Dialogue Q A α) :
    m.Until G (fun _ => True) fun _ => True := by
  induction m with
  | done a => trivial
  | ask q next ih => exact fun a => Or.inr ⟨trivial, ih a⟩

/-- Whatever a program asks until some turn, it is something that it may ask. -/
theorem Until.and_only {P : Q → Prop} {G : Turn Q A → Prop} {R : α → Prop} {m : Dialogue Q A α}
    (hm : m.Until G (fun _ => True) R) (honly : m.Only P) : m.Until G (fun x => P x.1) R := by
  induction m with
  | done a => exact hm
  | ask q next ih =>
    intro a
    rcases hm a with hg | ⟨-, hnext⟩
    · exact Or.inl hg
    · exact Or.inr ⟨honly.1, ih a hnext (honly.2 a)⟩

/-! ## How much a program may ask -/

/-- Whatever it is answered, the program ends after at most `n` questions. -/
def AtMost : Dialogue Q A α → (n : Nat) → Prop
  | done _, _ => True
  | ask _ next, n => 0 < n ∧ ∀ a, (next a).AtMost (n - 1)

theorem After.length_le {n : Nat} {m m' : Dialogue Q A α} {turns : List (Turn Q A)}
    (h : After m turns m') (hm : m.AtMost n) : turns.length ≤ n := by
  induction h generalizing n with
  | nil => exact Nat.zero_le n
  | cons _ ih =>
    obtain ⟨hn, hnext⟩ := hm
    have := ih (hnext _)
    rw [List.length_cons]
    omega

theorem AtMost.mono {n k : Nat} {m : Dialogue Q A α} (h : m.AtMost n) (hk : n ≤ k) :
    m.AtMost k := by
  induction m generalizing n k with
  | done a => trivial
  | ask q next ih =>
    obtain ⟨hn, hnext⟩ := h
    exact ⟨by omega, fun a => ih a (hnext a) (by omega)⟩

theorem AtMost.bind {n k : Nat} {m : Dialogue Q A α} {f : α → Dialogue Q A β} (hm : m.AtMost n)
    (hf : ∀ a, (f a).AtMost k) : (m.bind f).AtMost (n + k) := by
  induction m generalizing n with
  | done a => exact (hf a).mono (Nat.le_add_left _ _)
  | ask q next ih =>
    obtain ⟨hn, hnext⟩ := hm
    refine ⟨by omega, fun a => (ih a (hnext a)).mono (by omega)⟩

end EngineBench.Dialogue
