-- The calls of a run, container by container. Each container belongs to one pass of one worker,
-- and so do the calls on it, in whatever order the workers go on.
import EngineBench.Proofs.Standing
import Mathlib.Data.List.Basic
import Std.Data.String.ToNat

namespace EngineBench

open Dialogue Worker

/-! ## The containers of a run -/

theorem dash_not_mem_repr (n : Nat) : '-' ∉ (toString n).toList := by
  intro h
  have hdigit : '-'.isDigit = true := by
    rw [Nat.toString_eq_repr, Nat.toList_repr] at h
    exact Nat.isDigit_of_mem_toDigits (by omega) (by omega) h
  cases hdigit

/-- No two passes share a container. -/
theorem Name.ofIteration_inj {t t' i i' : Nat} :
    Name.ofIteration t i = Name.ofIteration t' i' ↔ t = t' ∧ i = i' := by
  constructor
  · intro h
    have hlist := congrArg String.toList h
    simp only [Name.ofIteration, String.toList_append, List.append_assoc] at hlist
    have hrest := List.append_cancel_left (List.append_cancel_left hlist)
    have hdash : ("-" : String).toList = ['-'] := rfl
    simp only [hdash, List.singleton_append] at hrest
    obtain ⟨hthread, -, hiteration⟩ := (List.append_cons_inj_of_notMem
      (dash_not_mem_repr t) (dash_not_mem_repr i)).mp hrest
    rw [String.toList_inj, Nat.toString_eq_repr, Nat.toString_eq_repr, Nat.repr_inj] at hthread
    rw [String.toList_inj, Nat.toString_eq_repr, Nat.toString_eq_repr, Nat.repr_inj] at hiteration
    exact ⟨hthread, hiteration⟩
  · rintro ⟨rfl, rfl⟩
    rfl

/-! ## Calls -/

/-- A call of the engine, with its answer. -/
abbrev CallTurn : Type := (c : EngineCall) × Timed (Except EngineError c.Answer)

namespace Worker

def callOf : WorkerTurn → Option CallTurn
  | ⟨.call c, a⟩ => some ⟨c, a⟩
  | _ => none

/-- The calls among some turns of a worker. -/
def calls (turns : List WorkerTurn) : List CallTurn := turns.filterMap callOf

theorem calls_append (xs ys : List WorkerTurn) : calls (xs ++ ys) = calls xs ++ calls ys :=
  List.filterMap_append

theorem mem_calls {turns : List WorkerTurn} {x : CallTurn} :
    x ∈ calls turns ↔ (⟨.call x.1, x.2⟩ : WorkerTurn) ∈ turns := by
  rw [calls, List.mem_filterMap]
  constructor
  · rintro ⟨⟨q, a⟩, hmem, hx⟩
    cases q <;> cases hx
    exact hmem
  · intro hmem
    exact ⟨_, hmem, rfl⟩

end Worker

/-- The calls on one container. -/
def callsOn (name : String) (calls : List CallTurn) : List CallTurn :=
  calls.filter fun x => x.1.target? == some name

theorem callsOn_append (name : String) (xs ys : List CallTurn) :
    callsOn name (xs ++ ys) = callsOn name xs ++ callsOn name ys :=
  List.filter_append xs ys

namespace Pool

def Event.callOf : Event → Option CallTurn
  | .answer _ (.call c) a => some ⟨c, a⟩
  | _ => none

/-- The calls that the engine replies to in a run. -/
def calls (events : List Event) : List CallTurn := events.filterMap Event.callOf

variable {p p' : Pool}

theorem calls_heard {e : Event} (h : p.step e = some p') (hc : p.cancelled = false) (t : Nat) :
    Worker.calls (p.heard t e) = if e.worker? = some t then e.callOf.toList else [] := by
  by_cases ht : e.worker? = some t
  · cases e with
    | cancel => cases ht
    | look s =>
      cases ht
      obtain ⟨m, m', hm, -⟩ := change_eq_some h
      simp [heard, Event.worker?, hm, Member.turns, Event.callOf, Worker.calls, Worker.callOf,
        lookTurn]
    | answer s q a =>
      cases ht
      obtain ⟨m, m', hm, -⟩ := change_eq_some h
      cases q <;> simp [heard, Event.worker?, hm, Member.turns, Event.callOf, Worker.calls,
        Worker.callOf]
    | abandon s took => simp [step, hc] at h
    | die s =>
      cases ht
      obtain ⟨m, m', hm, -⟩ := change_eq_some h
      simp [heard, Event.worker?, hm, Member.turns, Event.callOf, Worker.calls]
    | send s =>
      cases ht
      obtain ⟨m, m', hm, -, hf, -⟩ := change_eq_some h
      unfold Member.send at hf
      split at hf
      · rename_i hp
        simp [heard, Event.worker?, hm, Member.turns, hp, Event.callOf, Worker.calls,
          Worker.callOf, sendTurn]
      · cases hf
  · simp [heard, ht, Worker.calls]

/-- A worker of a run that is not cancelled hears the replies to its own calls, in their order. -/
theorem calls_journal {events : List Event} (h : p.steps events = some p')
    (hc : p'.cancelled = false) (t : Nat) :
    Worker.calls (p.journal t events) =
      calls (events.filter fun e => e.worker? == some t) := by
  induction events generalizing p with
  | nil => rfl
  | cons e rest ih =>
    obtain ⟨p1, h1, h2⟩ := steps_cons h
    have hcalm := (steps_shape h).2.2
    rw [hc, eq_comm, Bool.or_eq_false_iff] at hcalm
    simp only [journal, h1]
    rw [Worker.calls_append, calls_heard h1 hcalm.1, ih h2]
    by_cases ht : e.worker? = some t
    · rw [if_pos ht, List.filter_cons_of_pos (by simpa using ht)]
      cases hcall : e.callOf <;> simp [calls, hcall]
    · rw [if_neg ht, List.filter_cons_of_neg (by simpa using ht), List.nil_append]

end Pool

/-! ## The calls of one pass -/

namespace Worker

/-- A container that was made carries the name that was asked for. -/
def KeepsNames (calls : List CallTurn) : Prop :=
  ∀ w c, ∀ took, (⟨.create w, ⟨.ok c, took⟩⟩ : CallTurn) ∈ calls → c.name = w.name

theorem KeepsNames.mono {xs ys : List CallTurn} (h : KeepsNames ys) (hsub : xs ⊆ ys) :
    KeepsNames xs :=
  fun w c took hmem => h w c took (hsub hmem)

/-- Everything that a pass asks is a call on the container of the pass. -/
theorem calls_of_iterate {w : Workload} {name : String} {turns : List WorkerTurn}
    {m : Worker Iteration} (h : After (iterate w name) turns m)
    (hnames : KeepsNames (calls turns)) :
    ∀ x ∈ turns, ∃ c, x.1 = .call c ∧ c.target? = some name := by
  rcases after_ask h with ⟨rfl, -⟩ | ⟨⟨answer, took⟩, rest, rfl, hrest⟩
  · intro x hx
    cases hx
  · have hop : ∀ op, ∀ c ∈ (Except.toOption answer : Option Container),
        ∃ c', WorkerAsk.call (.operate op c) = .call c' ∧ c'.target? = some name := by
      intro op c hc
      cases answer with
      | error e => cases hc
      | ok made =>
        cases hc
        have hname : c.name = name := hnames _ c took (mem_calls.mpr List.mem_cons_self)
        exact ⟨_, rfl, congrArg some hname⟩
    have honly := tryAll_only (P := fun q => ∃ c, q = .call c ∧ c.target? = some name) _ hop
    intro x hx
    rcases List.mem_cons.mp hx with rfl | hx
    · exact ⟨_, rfl, rfl⟩
    · exact (hrest.only (honly _ _)).1 x hx

/-- The calls of a pass are just the calls on its container. -/
theorem callsOn_iterate {w : Workload} {name : String} {turns : List WorkerTurn}
    {m : Worker Iteration} (h : After (iterate w name) turns m) (hnames : KeepsNames (calls turns))
    (other : String) : callsOn other (calls turns) = if other = name then calls turns else [] := by
  have htarget : ∀ x ∈ calls turns, x.1.target? = some name := by
    intro x hx
    obtain ⟨c, hc, hname⟩ := calls_of_iterate h hnames _ (mem_calls.mp hx)
    cases hc
    exact hname
  split
  · subst other
    exact List.filter_eq_self.mpr fun x hx => by simp [htarget x hx]
  · rename_i hne
    refine List.filter_eq_nil_iff.mpr fun x hx => ?_
    simp [htarget x hx, Ne.symm hne]

theorem calls_round (xs rest : List WorkerTurn) (r : Iteration) :
    calls (lookTurn false :: (xs ++ sendTurn r :: rest)) = calls xs ++ calls rest :=
  calls_append xs (sendTurn r :: rest)

theorem callsOn_rounds_before {w : Workload} {t i j : Nat} {turns : List WorkerTurn}
    {rs : List Iteration} (h : Rounds (fun i => iterate w (Name.ofIteration t i)) i turns rs)
    (hnames : KeepsNames (calls turns)) (hj : j < i) :
    callsOn (Name.ofIteration t j) (calls turns) = [] := by
  induction h with
  | nil => rfl
  | @cons i xs rest r rs hpass _ ih =>
    rw [calls_round] at hnames ⊢
    have hne : Name.ofIteration t j ≠ Name.ofIteration t i := by
      intro he
      have := (Name.ofIteration_inj.mp he).2
      omega
    rw [callsOn_append, callsOn_iterate hpass (hnames.mono (List.subset_append_left _ _)),
      if_neg hne, ih (hnames.mono (List.subset_append_right _ _)) (by omega), List.append_nil]

/-- Among the calls of whole rounds, those on the container of one pass are the calls of that pass.
-/
theorem callsOn_rounds {w : Workload} {t i : Nat} {turns : List WorkerTurn} {rs : List Iteration}
    (h : Rounds (fun i => iterate w (Name.ofIteration t i)) i turns rs)
    (hnames : KeepsNames (calls turns)) {k : Nat} {r : Iteration} (hr : rs[k]? = some r) :
    ∃ xs, After (iterate w (Name.ofIteration t (i + k))) xs (done r) ∧
      callsOn (Name.ofIteration t (i + k)) (calls turns) = calls xs := by
  induction h generalizing k with
  | nil => cases hr
  | @cons i xs rest r' rs hpass hrounds ih =>
    rw [calls_round] at hnames ⊢
    have hfirst := hnames.mono (List.subset_append_left _ _)
    have hlater := hnames.mono (List.subset_append_right _ _)
    rw [callsOn_append, callsOn_iterate hpass hfirst]
    cases k with
    | zero =>
      cases hr
      refine ⟨xs, hpass, ?_⟩
      rw [Nat.add_zero, if_pos rfl, callsOn_rounds_before hrounds hlater (by omega),
        List.append_nil]
    | succ k =>
      obtain ⟨ys, hys, hcalls⟩ := ih hlater hr
      rw [Nat.add_right_comm] at hys hcalls
      have hne : Name.ofIteration t (i + k + 1) ≠ Name.ofIteration t i := by
        intro he
        have := (Name.ofIteration_inj.mp he).2
        omega
      exact ⟨ys, hys, by rw [← Nat.add_assoc, if_neg hne, List.nil_append, hcalls]⟩

/-- Whole rounds call nothing but the containers of their worker. -/
theorem target_of_rounds {w : Workload} {t i : Nat} {turns : List WorkerTurn} {rs : List Iteration}
    (h : Rounds (fun i => iterate w (Name.ofIteration t i)) i turns rs)
    (hnames : KeepsNames (calls turns)) :
    ∀ x ∈ calls turns, ∃ j, x.1.target? = some (Name.ofIteration t j) := by
  induction h with
  | nil =>
    intro x hx
    cases hx
  | @cons i xs rest r rs hpass _ ih =>
    rw [calls_round] at hnames ⊢
    intro x hx
    rcases List.mem_append.mp hx with hx | hx
    · obtain ⟨c, hc, hname⟩ :=
        calls_of_iterate hpass (hnames.mono (List.subset_append_left _ _)) _ (mem_calls.mp hx)
      cases hc
      exact ⟨i, hname⟩
    · exact ih (hnames.mono (List.subset_append_right _ _)) x hx

end Worker

/-! ## The calls of a whole run -/

theorem filter_filterMap_filter {α β : Type} {l : List α} {f : α → Option β} {p : β → Bool}
    {q : α → Bool} (h : ∀ a ∈ l, ∀ b, f a = some b → p b = true → q a = true) :
    (l.filterMap f).filter p = ((l.filter q).filterMap f).filter p := by
  induction l with
  | nil => rfl
  | cons a rest ih =>
    have hrest := ih fun a ha => h a (List.mem_cons_of_mem _ ha)
    cases hf : f a with
    | none =>
      rw [List.filterMap_cons_none hf, List.filter_cons, hrest]
      split
      · rw [List.filterMap_cons_none hf]
      · rfl
    | some b =>
      by_cases hq : q a = true
      · rw [List.filter_cons_of_pos hq, List.filterMap_cons_some hf, List.filterMap_cons_some hf,
          List.filter_cons, List.filter_cons, hrest]
      · have hp : ¬p b = true := fun hp => hq (h a List.mem_cons_self b hf hp)
        rw [List.filter_cons_of_neg hq, List.filterMap_cons_some hf, List.filter_cons_of_neg hp,
          hrest]

namespace Pool

variable {threads iterations : Nat} {w : Workload} {c : Bool} {events : List Event} {p : Pool}

/-- In a run to the end, without a cancellation or a death, a worker does all its passes. -/
theorem rounds_of_run (h : (start threads iterations (.lifecycle w) c).steps events = some p)
    (hc : p.cancelled = false) (hended : p.hasEnded = true) (hspared : ∀ t, .die t ∉ events)
    {t : Nat} (ht : t < threads) :
    ∃ m xs, p.members[t]? = some m ∧ m.queue.length = iterations ∧
      Rounds (fun i => iterate w (Name.ofIteration t i)) 0 xs m.queue ∧
      Worker.calls xs = calls (events.filter fun e => e.worker? == some t) := by
  obtain ⟨m, hm, hdead, -⟩ := worker_stands h ht
  have hd : m.dead = false := by
    rw [← Bool.not_eq_true, hdead]
    exact hspared t
  obtain ⟨xs, ys, hturns, hrounds, hend⟩ :=
    worker_done h ht hm hd (List.all_eq_true.mp hended m (List.mem_of_getElem? hm))
  rcases hend with ⟨rfl, hfull⟩ | ⟨rfl, -⟩
  · rw [List.append_nil] at hturns
    exact ⟨m, xs, hm, hfull, hrounds, by rw [← hturns, calls_journal h hc]⟩
  · have hstop : lookTurn true ∈ (start threads iterations (.lifecycle w) c).journal t events := by
      rw [hturns]
      simp
    have := (looks_of_steps h hstop).1 rfl
    rw [hc] at this
    cases this

theorem full_of_run (h : (start threads iterations (.lifecycle w) c).steps events = some p)
    (hc : p.cancelled = false) (hended : p.hasEnded = true) (hspared : ∀ t, .die t ∉ events) :
    ∀ m ∈ p.members, m.queue.length = iterations := by
  intro m hm
  obtain ⟨t, ht, rfl⟩ := List.getElem_of_mem hm
  obtain ⟨m, xs, hm, hfull, -⟩ := rounds_of_run h hc hended hspared (members_length h ▸ ht)
  rw [List.getElem?_eq_getElem ht] at hm
  cases hm
  exact hfull

theorem calls_filter_subset (events : List Event) (q : Event → Bool) :
    calls (events.filter q) ⊆ calls events := by
  intro x hx
  obtain ⟨e, he, hcall⟩ := List.mem_filterMap.mp hx
  exact List.mem_filterMap.mpr ⟨e, (List.mem_filter.mp he).1, hcall⟩

/-- In such a run the calls on a container are the calls of its pass, and of nobody else. -/
theorem callsOn_of_run (h : (start threads iterations (.lifecycle w) c).steps events = some p)
    (hc : p.cancelled = false) (hended : p.hasEnded = true) (hspared : ∀ t, .die t ∉ events)
    (hnames : Worker.KeepsNames (calls events)) {t i : Nat} (ht : t < threads)
    (hi : i < iterations) :
    ∃ m r xs, p.members[t]? = some m ∧ m.queue[i]? = some r ∧
      After (iterate w (Name.ofIteration t i)) xs (done r) ∧
      callsOn (Name.ofIteration t i) (calls events) = Worker.calls xs := by
  obtain ⟨m, xs, hm, hfull, hrounds, hcalls⟩ := rounds_of_run h hc hended hspared ht
  have hnames' : Worker.KeepsNames (Worker.calls xs) :=
    hcalls ▸ hnames.mono (calls_filter_subset _ _)
  have hlt : i < m.queue.length := hfull.symm ▸ hi
  have hr : m.queue[i]? = some m.queue[i] := List.getElem?_eq_getElem hlt
  obtain ⟨ys, hpass, hys⟩ := callsOn_rounds hrounds hnames' hr
  rw [Nat.zero_add] at hpass hys
  refine ⟨m, _, ys, hm, hr, hpass, ?_⟩
  rw [← hys, hcalls]
  -- a call on this container is a call of worker `t`
  apply filter_filterMap_filter
  intro e he x hx htarget
  cases e with
  | answer s q a =>
    cases q with
    | call call =>
      cases hx
      have hs : s < threads := by
        have := worker_lt_of_mem h he (t := s) rfl
        simpa [start] using this
      obtain ⟨n, zs, -, -, hrounds', hcalls'⟩ := rounds_of_run h hc hended hspared hs
      have hmem : (⟨call, a⟩ : CallTurn) ∈ Worker.calls zs := by
        rw [hcalls']
        exact List.mem_filterMap.mpr ⟨_, List.mem_filter.mpr ⟨he, by simp [Event.worker?]⟩, rfl⟩
      obtain ⟨j, hj⟩ := target_of_rounds hrounds' (hcalls' ▸ hnames.mono (calls_filter_subset _ _))
        _ hmem
      have htarget' : call.target? = some (Name.ofIteration t i) := by simpa using htarget
      rw [hj, Option.some_inj, Name.ofIteration_inj] at htarget'
      simp [Event.worker?, htarget'.1]
    | _ => cases hx
  | _ => cases hx

end Pool

end EngineBench
