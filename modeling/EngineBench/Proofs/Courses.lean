-- The courses that a sweep, or the run of one bench, can take. The surroundings may answer
-- anything to a call, the run may be cancelled at any moment, and where a bench lets workers do a
-- job, any run of a pool may happen. A law about every course is a law about every engine, every
-- order in which workers go on, and every moment of cancellation.
import EngineBench.Bench.Sweep
import EngineBench.Proofs.Standing

namespace EngineBench

open Dialogue

variable {α β : Type}

/-! ## What happens in a course -/

/-- Workers that do a job from its start until all of them have ended. -/
structure Shift where
  threads : Nat
  iterations : Nat
  job : Job
  /-- Whether the run is cancelled before any worker starts. -/
  cancelled : Bool
  events : List Pool.Event
  pool : Pool
  took : Duration
  goes : (Pool.start threads iterations job cancelled).steps events = some pool
  ended : pool.hasEnded = true

namespace Shift

variable (s : Shift)

/-- The turns of one worker. -/
def journal (t : Nat) : List WorkerTurn :=
  (Pool.start s.threads s.iterations s.job s.cancelled).journal t s.events

/-- Whether a worker was told to stop, or has died. -/
def CutShort : Prop := ∃ t < s.threads, Worker.lookTurn true ∈ s.journal t ∨ .die t ∈ s.events

theorem length_records_eq_iff : s.pool.records.length = s.threads * s.iterations ↔ ¬s.CutShort := by
  rw [Pool.records_length_eq_iff s.goes s.ended]
  constructor
  · rintro hall ⟨t, ht, hstop | hdie⟩
    · exact (hall t ht).1 hstop
    · exact (hall t ht).2 hdie
  · intro hcut t ht
    exact ⟨fun hstop => hcut ⟨t, ht, Or.inl hstop⟩, fun hdie => hcut ⟨t, ht, Or.inr hdie⟩⟩

theorem length_records (hcancelled : s.pool.cancelled = false)
    (hspared : ∀ t, .die t ∉ s.events) : s.pool.records.length = s.threads * s.iterations := by
  rw [s.length_records_eq_iff]
  rintro ⟨t, -, hstop | hdie⟩
  · have hstopped := (Pool.looks_of_steps s.goes hstop).1 rfl
    rw [hcancelled] at hstopped
    cases hstopped
  · exact hspared t hdie

end Shift

inductive Happening where
  | turn (x : Turn SweepAsk SweepAsk.Answer)
  | shift (s : Shift)

/-- A question that is answered from outside, whatever has become of the run. -/
def SweepAsk.IsOutside : SweepAsk → Prop
  | look => False
  | act (.work _ _ _) => False
  | _ => True

/-- What happens while a program goes on to its end, the run being cancelled or not in the beginning
and in the end. -/
inductive Course : (before : Bool) → Dialogue SweepAsk SweepAsk.Answer α → List Happening →
    (after : Bool) → α → Prop
  | done {c : Bool} {x : α} : Course c (done x) [] c x
  | cancel {c c' : Bool} {m : Dialogue SweepAsk SweepAsk.Answer α} {tr : List Happening} {x : α} :
      Course true m tr c' x → Course c m tr c' x
  | look {c c' : Bool} {next : Bool → Dialogue SweepAsk SweepAsk.Answer α} {tr : List Happening}
      {x : α} : Course c (next c) tr c' x → Course c (ask .look next) (.turn ⟨.look, c⟩ :: tr) c' x
  | outside {c c' : Bool} {q : SweepAsk} {next : q.Answer → Dialogue SweepAsk SweepAsk.Answer α}
      {a : q.Answer} {tr : List Happening} {x : α} :
      q.IsOutside → Course c (next a) tr c' x → Course c (ask q next) (.turn ⟨q, a⟩ :: tr) c' x
  | shift {c' : Bool} (s : Shift)
      {next : List Record × Duration → Dialogue SweepAsk SweepAsk.Answer α} {tr : List Happening}
      {x : α} : Course s.pool.cancelled (next (s.pool.records, s.took)) tr c' x →
      Course s.cancelled (ask (.act (.work s.threads s.iterations s.job)) next)
        (.shift s :: tr) c' x

/-- The shifts of a course. -/
def shifts (tr : List Happening) : List Shift :=
  tr.filterMap fun h => match h with
    | .turn _ => none
    | .shift s => some s

theorem shifts_append (xs ys : List Happening) : shifts (xs ++ ys) = shifts xs ++ shifts ys :=
  List.filterMap_append

def Happening.call? : Happening → Option EngineCall
  | .turn ⟨.act (.call c), _⟩ => some c
  | _ => none

/-- The calls of a course that no worker has made. -/
def callsMade (tr : List Happening) : List EngineCall := tr.filterMap Happening.call?

/-! ## Taking courses apart -/

variable {c c' : Bool} {tr : List Happening} {x : α}

theorem course_done {a : α} (h : Course c (done a) tr c' x) : tr = [] ∧ x = a := by
  generalize hm : (done a : Dialogue SweepAsk SweepAsk.Answer α) = m at h
  induction h with
  | done =>
    cases hm
    exact ⟨rfl, rfl⟩
  | cancel _ ih => exact ih hm
  | look => cases hm
  | outside => cases hm
  | shift => cases hm

theorem course_outside {q : SweepAsk} {next : q.Answer → Dialogue SweepAsk SweepAsk.Answer α}
    (hq : q.IsOutside) (h : Course c (ask q next) tr c' x) :
    ∃ b a rest, tr = .turn ⟨q, a⟩ :: rest ∧ Course b (next a) rest c' x := by
  generalize hm : (ask q next : Dialogue SweepAsk SweepAsk.Answer α) = m at h
  induction h with
  | done => cases hm
  | cancel _ ih => exact ih hm
  | look =>
    cases hm
    exact hq.elim
  | outside _ h =>
    cases hm
    exact ⟨_, _, _, rfl, h⟩
  | shift =>
    cases hm
    exact hq.elim

theorem course_work {threads iterations : Nat} {job : Job}
    {next : List Record × Duration → Dialogue SweepAsk SweepAsk.Answer α}
    (h : Course c (ask (.act (.work threads iterations job)) next) tr c' x) :
    ∃ (s : Shift) (rest : List Happening), s.threads = threads ∧ s.iterations = iterations ∧
      s.job = job ∧ tr = .shift s :: rest ∧
      Course s.pool.cancelled (next (s.pool.records, s.took)) rest c' x := by
  generalize hm : (ask (.act (.work threads iterations job)) next :
    Dialogue SweepAsk SweepAsk.Answer α) = m at h
  induction h with
  | done => cases hm
  | cancel _ ih => exact ih hm
  | look => cases hm
  | outside hout =>
    cases hm
    exact hout.elim
  | shift s h =>
    cases hm
    exact ⟨s, _, rfl, rfl, rfl, rfl, h⟩

theorem course_bind {m : Dialogue SweepAsk SweepAsk.Answer β}
    {f : β → Dialogue SweepAsk SweepAsk.Answer α} (h : Course c (m.bind f) tr c' x) :
    ∃ tr1 b y tr2, tr = tr1 ++ tr2 ∧ Course c m tr1 b y ∧ Course b (f y) tr2 c' x := by
  generalize hn : m.bind f = n at h
  induction h generalizing m with
  | done =>
    cases m with
    | done y =>
      simp only [Dialogue.bind] at hn
      exact ⟨[], _, y, [], rfl, .done, hn ▸ .done⟩
    | ask q next => cases hn
  | cancel _ ih =>
    obtain ⟨tr1, b, y, tr2, rfl, h1, h2⟩ := ih hn
    exact ⟨tr1, b, y, tr2, rfl, .cancel h1, h2⟩
  | look h ih =>
    cases m with
    | done y =>
      simp only [Dialogue.bind] at hn
      exact ⟨[], _, y, _, rfl, .done, hn ▸ .look h⟩
    | ask q next =>
      cases hn
      obtain ⟨tr1, b, y, tr2, rfl, h1, h2⟩ := ih rfl
      exact ⟨_ :: tr1, b, y, tr2, rfl, .look h1, h2⟩
  | outside hq h ih =>
    cases m with
    | done y =>
      simp only [Dialogue.bind] at hn
      exact ⟨[], _, y, _, rfl, .done, hn ▸ .outside hq h⟩
    | ask q next =>
      cases hn
      obtain ⟨tr1, b, y, tr2, rfl, h1, h2⟩ := ih rfl
      exact ⟨_ :: tr1, b, y, tr2, rfl, .outside hq h1, h2⟩
  | shift s h ih =>
    cases m with
    | done y =>
      simp only [Dialogue.bind] at hn
      exact ⟨[], _, y, _, rfl, .done, hn ▸ .shift s h⟩
    | ask q next =>
      cases hn
      obtain ⟨tr1, b, y, tr2, rfl, h1, h2⟩ := ih rfl
      exact ⟨_ :: tr1, b, y, tr2, rfl, .shift s h1, h2⟩

/-- What is asked in a course is what the program asks. -/
theorem course_only {P : SweepAsk → Prop} {m : Dialogue SweepAsk SweepAsk.Answer α} {x : α}
    (h : Course c m tr c' x) (hm : m.Only P) : ∀ y, .turn y ∈ tr → P y.1 := by
  induction h with
  | done => simp
  | cancel _ ih => exact ih hm
  | look _ ih =>
    intro y hy
    rcases List.mem_cons.mp hy with he | hy
    · cases he
      exact hm.1
    · exact ih (hm.2 _) y hy
  | outside _ _ ih =>
    intro y hy
    rcases List.mem_cons.mp hy with he | hy
    · cases he
      exact hm.1
    · exact ih (hm.2 _) y hy
  | shift s _ ih =>
    intro y hy
    rcases List.mem_cons.mp hy with he | hy
    · cases he
    · exact ih (hm.2 _) y hy

/-- A run that is not cancelled in the end never was. -/
theorem course_calm {m : Dialogue SweepAsk SweepAsk.Answer α} (h : Course c m tr c' x)
    (hc : c' = false) : c = false ∧ ∀ s ∈ shifts tr, s.pool.cancelled = false := by
  induction h with
  | done => exact ⟨hc, by simp [shifts]⟩
  | cancel _ ih =>
    have := (ih hc).1
    cases this
  | look _ ih => exact ih hc
  | outside _ _ ih => exact ih hc
  | shift s _ ih =>
    obtain ⟨hpool, hrest⟩ := ih hc
    have hshape := (Pool.steps_shape s.goes).2.2
    rw [hpool, eq_comm, Bool.or_eq_false_iff] at hshape
    refine ⟨hshape.1, ?_⟩
    intro s' hs'
    rcases List.mem_cons.mp hs' with rfl | hs'
    · exact hpool
    · exact hrest s' hs'

/-! ## Attempts of a sweep -/

/-- An attempt in two parts fails with the first one, or goes on to the second. -/
theorem course_attempt {w : SweepWork β} {f : β → SweepWork α} {r : Attempt α}
    (h : Course c (w >>= f).run tr c' r) :
    (∃ b e, Course c w.run tr b (.error e) ∧ r = .error e) ∨
      ∃ tr1 b y tr2, tr = tr1 ++ tr2 ∧ Course c w.run tr1 b (.ok y) ∧
        Course b (f y).run tr2 c' r := by
  obtain ⟨tr1, b, y, tr2, rfl, h1, h2⟩ := course_bind (f := ExceptT.bindCont f) h
  cases y with
  | ok y => exact Or.inr ⟨tr1, b, y, tr2, rfl, h1, h2⟩
  | error e =>
    obtain ⟨rfl, hr⟩ := course_done h2
    rw [List.append_nil]
    exact Or.inl ⟨b, e, h1, hr⟩

/-- An attempt that succeeds in two parts has succeeded in both. -/
theorem course_ok_bind {w : SweepWork β} {f : β → SweepWork α}
    (h : Course c (w >>= f).run tr c' (.ok x)) :
    ∃ tr1 b y tr2, tr = tr1 ++ tr2 ∧ Course c w.run tr1 b (.ok y) ∧
      Course b (f y).run tr2 c' (.ok x) := by
  obtain ⟨b, e, -, he⟩ | h := course_attempt h
  · cases he
  · exact h

/-- Attempts one after the other: each has had a course, and the first one that has failed decides
how they fail together. -/
theorem course_mapM {l : List β} {f : β → SweepWork α} {r : Attempt (List α)}
    (h : Course c (l.mapM f).run tr c' r) :
    ∃ parts : List (List Happening), tr = parts.flatten ∧ ∀ part ∈ parts, ∃ y ∈ l, ∃ b b' x,
      Course b (f y).run part b' x ∧ ∀ e, x = .error e → r = .error e := by
  induction l generalizing c c' tr r with
  | nil =>
    rw [List.mapM_nil] at h
    obtain ⟨rfl, -⟩ := course_done h
    exact ⟨[], rfl, by simp⟩
  | cons y l ih =>
    rw [List.mapM_cons] at h
    obtain ⟨b, e, hfirst, rfl⟩ | ⟨tr1, b, x, tr2, rfl, hfirst, hrest⟩ := course_attempt h
    · refine ⟨[tr], by simp, ?_⟩
      intro part hpart
      rw [List.mem_singleton] at hpart
      subst hpart
      exact ⟨y, List.mem_cons_self, c, b, _, hfirst, fun _ he => by cases he; rfl⟩
    · obtain ⟨b', e, hmore, rfl⟩ | ⟨tr3, b', xs, tr4, rfl, hmore, hend⟩ := course_attempt hrest
      · obtain ⟨parts, rfl, hall⟩ := ih hmore
        refine ⟨tr1 :: parts, rfl, ?_⟩
        intro part hpart
        rcases List.mem_cons.mp hpart with rfl | hpart
        · exact ⟨y, List.mem_cons_self, c, b, _, hfirst, fun _ he => by cases he⟩
        · obtain ⟨y', hy', b, b', x, hcourse, he⟩ := hall part hpart
          exact ⟨y', List.mem_cons_of_mem _ hy', b, b', x, hcourse, he⟩
      · obtain ⟨rfl, rfl⟩ := course_done hend
        obtain ⟨parts, rfl, hall⟩ := ih hmore
        refine ⟨tr1 :: parts, by simp, ?_⟩
        intro part hpart
        rcases List.mem_cons.mp hpart with rfl | hpart
        · exact ⟨y, List.mem_cons_self, c, b, _, hfirst, fun _ he => by cases he⟩
        · obtain ⟨y', hy', b, b', x, hcourse, he⟩ := hall part hpart
          refine ⟨y', List.mem_cons_of_mem _ hy', b, b', x, hcourse, ?_⟩
          intro e hx
          cases he e hx

/-- Attempts that succeed one after the other have each had a course. -/
theorem course_ok_mapM {l : List β} {f : β → SweepWork α} {xs : List α}
    (h : Course c (l.mapM f).run tr c' (.ok xs)) :
    ∃ parts : List (List Happening), tr = parts.flatten ∧ l.length = parts.length ∧
      xs.length = parts.length ∧
      ∀ (k : Nat) (part : List Happening), parts[k]? = some part →
        ∃ (y : β) (x : α) (b b' : Bool), l[k]? = some y ∧ xs[k]? = some x ∧
          Course b (f y).run part b' (.ok x) := by
  induction l generalizing c c' tr xs with
  | nil =>
    rw [List.mapM_nil] at h
    obtain ⟨rfl, hx⟩ := course_done h
    cases hx
    exact ⟨[], rfl, rfl, rfl, by simp⟩
  | cons y l ih =>
    rw [List.mapM_cons] at h
    obtain ⟨tr1, b, x, tr2, rfl, h1, h2⟩ := course_ok_bind h
    obtain ⟨tr3, b', xs', tr4, rfl, h3, h4⟩ := course_ok_bind h2
    obtain ⟨rfl, hx⟩ := course_done h4
    cases hx
    obtain ⟨parts, rfl, hl, hxs, hall⟩ := ih h3
    refine ⟨tr1 :: parts, by simp, by simp [hl], by simp [hxs], ?_⟩
    intro k part hk
    cases k with
    | zero =>
      cases hk
      exact ⟨y, x, c, b, rfl, rfl, h1⟩
    | succ k => exact hall k part hk

theorem course_ofAttempt {r : Attempt α} {y : Attempt α}
    (h : Course c (SweepWork.ofAttempt r).run tr c' y) : tr = [] ∧ y = r := course_done h

/-- A program of a bench that a sweep runs has a course of its own, and does not fail. -/
theorem course_bench {s : BenchState} {w : BenchWork α} {r : Attempt (α × BenchState)}
    (h : Course c (SweepWork.bench s w) tr c' r) :
    ∃ b y, r = .ok y ∧ Course c (SweepWork.acts (BenchWork.attend s w)) tr b y := by
  have hbind : Course c ((SweepWork.acts (BenchWork.attend s w)).bind fun y => done (Except.ok y))
      tr c' r := h
  obtain ⟨tr1, b, y, tr2, rfl, h1, h2⟩ := course_bind hbind
  obtain ⟨rfl, hr⟩ := course_done h2
  rw [List.append_nil]
  exact ⟨b, y, hr, h1⟩

/-! ## Programs of a bench -/

theorem acts_bind (m : ActWork α) (f : α → ActWork β) :
    SweepWork.acts (m.bind f) = (SweepWork.acts m).bind fun a => SweepWork.acts (f a) := by
  induction m with
  | done a => rfl
  | ask q next ih => simp only [Dialogue.bind, SweepWork.acts, ih]

theorem attend_bind (s : BenchState) (m : BenchWork α) (f : α → BenchWork β) :
    BenchWork.attend s (m.bind f) =
      (BenchWork.attend s m).bind fun x => BenchWork.attend x.2 (f x.1) := by
  induction m generalizing s with
  | done a => rfl
  | ask q next ih =>
    cases q with
    | act a => simp only [Dialogue.bind, BenchWork.attend, ih]
    | within q => exact ih _ _

/-- Of what a bench asks, its acts are left when its state is known. -/
theorem acts_attend_only {Q : BenchAsk → Prop} {P : SweepAsk → Prop}
    (hP : ∀ a, Q (.act a) → P (.act a)) {s : BenchState} {w : BenchWork α} (hw : w.Only Q) :
    (SweepWork.acts (BenchWork.attend s w)).Only P := by
  induction w generalizing s with
  | done a => trivial
  | ask q next ih =>
    cases q with
    | within q => exact ih _ (hw.2 _)
    | act a => exact ⟨hP a hw.1, fun answer => ih answer (hw.2 answer)⟩

/-! ## Programs without a shift -/

/-- An act that lets no workers work. -/
def Act.IsQuiet : Act → Prop
  | work _ _ _ => False
  | _ => True

def SweepAsk.IsQuiet : SweepAsk → Prop
  | act a => a.IsQuiet
  | _ => True

/-- A question of a bench that is not about its state. -/
def BenchAsk.IsQuiet : BenchAsk → Prop
  | act a => a.IsQuiet
  | within _ => False

theorem shifts_of_quiet {m : Dialogue SweepAsk SweepAsk.Answer α} (h : Course c m tr c' x)
    (hm : m.Only SweepAsk.IsQuiet) : shifts tr = [] := by
  induction h with
  | done => rfl
  | cancel _ ih => exact ih hm
  | look _ ih => exact ih (hm.2 _)
  | outside _ _ ih => exact ih (hm.2 _)
  | shift s => exact hm.1.elim

/-- Programs of a bench that leave workers and state alone. -/
theorem course_of_quiet {s after : BenchState} {w : BenchWork α} (hw : w.Only BenchAsk.IsQuiet)
    (h : Course c (SweepWork.acts (BenchWork.attend s w)) tr c' (x, after)) :
    shifts tr = [] ∧ after = s := by
  induction w generalizing c tr with
  | done a =>
    obtain ⟨rfl, hx⟩ := course_done h
    cases hx
    exact ⟨rfl, rfl⟩
  | ask q next ih =>
    cases q with
    | within q => exact hw.1.elim
    | act a =>
      have hout : (SweepAsk.act a).IsOutside := by
        have hquiet : a.IsQuiet := hw.1
        cases a <;> trivial
      obtain ⟨b, y, rest, rfl, hrest⟩ := course_outside hout h
      obtain ⟨hquiet, hstate⟩ := ih y (hw.2 y) hrest
      exact ⟨hquiet, hstate⟩

end EngineBench
