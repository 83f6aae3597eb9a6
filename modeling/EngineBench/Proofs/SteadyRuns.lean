-- Runs against a steady engine: one whose reply to a call hangs on the call and on how many calls
-- the same container has had before, and on nothing else. What a pass hears from it does not hang
-- on the order in which the workers go on, and neither do the records, as far as an engine can
-- determine them: the time that a failed call takes, and the time until statistics are there, it
-- does not.
import EngineBench.Proofs.Calls
import EngineBench.Proofs.LifecycleRuns
import EngineBench.Proofs.Progress
import Mathlib.Data.List.Forall2

namespace EngineBench

open Dialogue Worker

/-! ## What an engine determines -/

/-- An attempt as far as the reply of the engine determines it. -/
structure Worker.Forecast where
  word : String
  failed : Bool
  /-- The time of the attempt, if the engine states it. -/
  stated : Option Duration

namespace Worker.Forecast

def ofReply (command : String × Operation) : Except EngineError Output → Forecast
  | .ok output => ⟨command.1, false, if command.2 = .stats then none else some output.elapsed⟩
  | .error _ => ⟨command.1, true, none⟩

/-- The outcome of a command without a container. -/
def missing (command : String × Operation) : Forecast := ⟨command.1, true, none⟩

/-- An attempt with this forecast that takes no time but the stated one. -/
def asTry (o : Forecast) : Try := ⟨o.word, o.failed, o.stated.getD Duration.zero⟩

/-- Whether an attempt has this forecast. -/
structure Fits (o : Forecast) (t : Try) : Prop where
  word : t.word = o.word
  failed : t.failed = o.failed
  time : ∀ d, o.stated = some d → t.time = d

theorem fits_ofReply (command : String × Operation) (reply : Timed (Except EngineError Output)) :
    (ofReply command reply.answer).Fits (Try.ofReply command reply) := by
  unfold Try.ofReply
  cases reply.answer with
  | ok output =>
    refine ⟨rfl, rfl, ?_⟩
    intro d hd
    by_cases hop : command.2 = .stats
    · simp [ofReply, hop] at hd
    · simpa [ofReply, hop] using hd
  | error e => exact ⟨rfl, rfl, fun d hd => by cases hd⟩

theorem fits_missing (command : String × Operation) : (missing command).Fits (.missing command) :=
  ⟨rfl, rfl, fun d hd => by cases hd⟩

end Worker.Forecast

namespace Iteration

open Worker.Forecast (Fits)

/-- Records that have the same words and the same failures still do after one more attempt with the
same outcome. -/
theorem note_congr {i j : Iteration} {t u : Try} (hw : t.word = u.word) (hf : t.failed = u.failed)
    (hwords : i.durations.map Prod.fst = j.durations.map Prod.fst) (herrors : i.errors = j.errors) :
    (i.note t).durations.map Prod.fst = (j.note u).durations.map Prod.fst ∧
      (i.note t).errors = (j.note u).errors := by
  constructor
  · rw [durations_note, durations_note, map_fst_put, map_fst_put, hw, hwords]
  · unfold note failed timed
    rw [hw, hf, herrors]
    split
    · rfl
    · exact herrors

theorem foldl_note_congr {forecasts : List Forecast} {tries : List Try}
    (h : List.Forall₂ Fits forecasts tries) {i j : Iteration}
    (hwords : i.durations.map Prod.fst = j.durations.map Prod.fst) (herrors : i.errors = j.errors) :
    (tries.foldl note i).durations.map Prod.fst =
        ((forecasts.map Forecast.asTry).foldl note j).durations.map Prod.fst ∧
      (tries.foldl note i).errors = ((forecasts.map Forecast.asTry).foldl note j).errors := by
  induction h generalizing i j with
  | nil => exact ⟨hwords, herrors⟩
  | @cons o t forecasts tries hfits _ ih =>
    obtain ⟨hwords', herrors'⟩ :=
      note_congr (u := o.asTry) hfits.word hfits.failed hwords herrors
    exact ih hwords' herrors'

theorem find_fits {forecasts : List Forecast} {tries : List Try}
    (h : List.Forall₂ Fits forecasts tries) (word : String) {o : Forecast}
    (ho : (forecasts.find? fun o => o.word == word) = some o) :
    ∃ t, (tries.find? fun t => t.word == word) = some t ∧ o.Fits t := by
  induction h with
  | nil => cases ho
  | @cons o' t forecasts tries hfits _ ih =>
    by_cases hw : o'.word = word
    · rw [List.find?_cons_of_pos (by simpa using hw)] at ho
      cases ho
      exact ⟨t, List.find?_cons_of_pos (by simpa [hfits.word] using hw), hfits⟩
    · rw [List.find?_cons_of_neg (by simpa using hw)] at ho
      obtain ⟨t', ht', hfits'⟩ := ih ho
      exact ⟨t', by rwa [List.find?_cons_of_neg (by simpa [hfits.word] using hw)], hfits'⟩

end Iteration

theorem Worker.calls_operate (c : Container) (commands : List (String × Operation))
    (replies : List (Timed (Except EngineError Output))) :
    calls (List.zipWith (operateTurn c) commands replies) =
      List.zipWith (fun command reply => ⟨.operate command.2 c, reply⟩) commands replies := by
  induction commands generalizing replies with
  | nil => rfl
  | cons command rest ih =>
    cases replies with
    | nil => rfl
    | cons reply more => exact congrArg (_ :: ·) (ih more)

/-! ## Steady engines -/

/-- An engine whose reply to a call hangs only on the call and on how many calls the same container
has had before. -/
structure SteadyEngine where
  reply : (c : EngineCall) → (earlier : Nat) → Except EngineError c.Answer
  /-- The handle of a container carries the name that was asked for. -/
  keeps_name : ∀ w earlier c, reply (.create w) earlier = .ok c → c.name = w.name

namespace SteadyEngine

variable (E : SteadyEngine)

/-- What the engine makes of a pass. -/
def forecasts (w : Workload) (name : String) : List Forecast :=
  match (E.reply (createCall w name) 0 : Except EngineError Container) with
  | .ok c => (Operation.recognised w.commands).mapIdx fun i command =>
      .ofReply command (E.reply (.operate command.2 c) (i + 1))
  | .error _ => (Operation.recognised w.commands).map Forecast.missing

/-- The record of a pass that takes no time but what the engine states. -/
def record (w : Workload) (name : String) : Iteration :=
  .ofTries ((E.forecasts w name).map Forecast.asTry)

/-- The time that the engine states for the last attempt of a word. -/
def stated? (w : Workload) (name word : String) : Option Duration :=
  ((E.forecasts w name).reverse.find? fun o => o.word == word).bind Forecast.stated

/-- A record of a pass with everything as the engine determines it. -/
structure Determines (w : Workload) (name : String) (r : Iteration) : Prop where
  words : r.durations.map Prod.fst = (E.record w name).durations.map Prod.fst
  failures : r.errors = (E.record w name).errors
  times : ∀ word d, E.stated? w name word = some d → r.durations.lookup word = some d

theorem determines_of_fits {w : Workload} {name : String} {tries : List Try}
    (h : List.Forall₂ Forecast.Fits (E.forecasts w name) tries) :
    E.Determines w name (.ofTries tries) := by
  obtain ⟨hwords, hfailures⟩ := Iteration.foldl_note_congr h (i := .empty) (j := .empty) rfl rfl
  refine ⟨hwords, hfailures, ?_⟩
  intro word d hd
  obtain ⟨o, ho, hstated⟩ := Option.bind_eq_some_iff.mp hd
  obtain ⟨t, ht, hfits⟩ := Iteration.find_fits (List.forall₂_reverse_iff.mpr h) word ho
  rw [Iteration.lookup_durations_ofTries, ht, Option.map_some, hfits.time d hstated]

/-! ## Runs against a steady engine -/

/-- In a run the engine serves every call as it replies to it, and takes no worker down. -/
structure Serves (events : List Pool.Event) : Prop where
  replies : ∀ name earlier x, (callsOn name (Pool.calls events))[earlier]? = some x →
    x.2.answer = E.reply x.1 earlier
  spares : ∀ t, .die t ∉ events

variable {E} {w : Workload} {events : List Pool.Event}

theorem Serves.keepsNames (h : E.Serves events) : KeepsNames (Pool.calls events) := by
  intro made c took hmem
  have hon : (⟨.create made, ⟨.ok c, took⟩⟩ : CallTurn) ∈ callsOn made.name (Pool.calls events) :=
    List.mem_filter.mpr ⟨hmem, by simp [EngineCall.target?]⟩
  obtain ⟨earlier, hlt, hget⟩ := List.getElem_of_mem hon
  have hreply := h.replies made.name earlier _ (by rw [List.getElem?_eq_getElem hlt, hget])
  exact E.keeps_name made earlier c hreply.symm

/-- A pass whose calls are all the calls on its container has a record that the engine determines.
-/
theorem Serves.determines (h : E.Serves events) {name : String} {turns : List WorkerTurn}
    {r : Iteration} (hpass : After (iterate w name) turns (done r))
    (hcalls : callsOn name (Pool.calls events) = Worker.calls turns) : E.Determines w name r := by
  have hreply : ∀ earlier x, (Worker.calls turns)[earlier]? = some x →
      x.2.answer = E.reply x.1 earlier := by
    intro earlier x hx
    exact h.replies name earlier x (hcalls ▸ hx)
  obtain ⟨made, rest, rfl, hcase⟩ := after_iterate w name hpass
  have hmade : made.answer = E.reply (createCall w name) 0 := hreply 0 ⟨createCall w name, made⟩ rfl
  rcases hcase with ⟨c, replies, hc, hlen, rfl, rfl⟩ | ⟨e, he, rfl, rfl⟩
  · have hforecasts : E.forecasts w name = (Operation.recognised w.commands).mapIdx fun i command =>
        .ofReply command (E.reply (.operate command.2 c) (i + 1)) := by
      unfold forecasts
      rw [← hmade, hc]
    have hcalls := calls_operate c (Operation.recognised w.commands) replies
    apply determines_of_fits
    rw [hforecasts, List.forall₂_iff_get]
    refine ⟨by simp [hlen], ?_⟩
    intro i h1 h2
    have hi : i < (Operation.recognised w.commands).length := by simpa using h1
    have hi' : i < replies.length := hlen ▸ hi
    have hanswer : replies[i].answer =
        E.reply (.operate (Operation.recognised w.commands)[i].2 c) (i + 1) := by
      apply hreply (i + 1) ⟨.operate (Operation.recognised w.commands)[i].2 c, replies[i]⟩
      show (Worker.calls (List.zipWith (operateTurn c) _ replies))[i]? = _
      rw [hcalls, List.getElem?_zipWith, List.getElem?_eq_getElem hi, List.getElem?_eq_getElem hi']
    simp only [List.get_eq_getElem, List.getElem_mapIdx, List.getElem_zipWith, ← hanswer]
    exact Forecast.fits_ofReply _ _
  · have hforecasts :
        E.forecasts w name = (Operation.recognised w.commands).map Forecast.missing := by
      unfold forecasts
      rw [← hmade, he]
    apply determines_of_fits
    rw [hforecasts, List.forall₂_map_left_iff, List.forall₂_map_right_iff, List.forall₂_same]
    exact fun command _ => Forecast.fits_missing command

variable (E) in
/-- How the engine answers a worker after a run. -/
def answer (events : List Pool.Event) : (q : WorkerAsk) → q.Answer
  | .look => false
  | .call c =>
    ⟨E.reply c (callsOn (c.target?.getD "") (Pool.calls events)).length, Duration.zero⟩
  | .spawn _ _ => ⟨.error .notFound, Duration.zero⟩
  | .send _ => ()

theorem Serves.quiet {e : Pool.Event} (h : E.Serves events) (hcall : e.callOf = none)
    (hdie : ∀ t, e ≠ .die t) : E.Serves (events ++ [e]) := by
  refine ⟨?_, fun t => by simpa [h.spares t] using (hdie t).symm⟩
  intro name earlier x hx
  apply h.replies name earlier x
  simpa [Pool.calls, hcall] using hx

theorem Serves.answer {t : Nat} {q : WorkerAsk} (h : E.Serves events) :
    E.Serves (events ++ [.answer t q (E.answer events q)]) := by
  cases q with
  | look => exact h.quiet rfl (by simp)
  | spawn program args => exact h.quiet rfl (by simp)
  | send r => exact h.quiet rfl (by simp)
  | call c =>
    refine ⟨?_, fun s => by simpa using h.spares s⟩
    intro name earlier x hx
    have hcalls : Pool.calls (events ++ [.answer t (.call c) (E.answer events (.call c))]) =
        Pool.calls events ++ [⟨c, E.answer events (.call c)⟩] := by
      simp [Pool.calls, Pool.Event.callOf]
    rw [hcalls, callsOn_append] at hx
    rcases Nat.lt_or_ge earlier (callsOn name (Pool.calls events)).length with hlt | hge
    · rw [List.getElem?_append_left hlt] at hx
      exact h.replies name earlier x hx
    · -- the new call is the next one on its container
      rw [List.getElem?_append_right hge] at hx
      obtain ⟨hmem, hname⟩ := List.mem_filter.mp (List.mem_of_getElem? hx)
      rw [List.mem_singleton] at hmem
      subst hmem
      have hname : c.target? = some name := by simpa using hname
      have hlast : earlier - (callsOn name (Pool.calls events)).length = 0 := by
        have hlt := (List.getElem?_eq_some_iff.mp hx).1
        have : (callsOn name [(⟨c, E.answer events (.call c)⟩ : CallTurn)]).length ≤ 1 :=
          List.length_filter_le _ _
        omega
      show E.reply c _ = E.reply c earlier
      rw [hname, Option.getD_some]
      congr 1
      omega

/-- A run that a steady engine has served so far and that has not ended can go on, and the engine
serves what comes next. -/
theorem Serves.exists_step {threads iterations : Nat} {job : Job} {p : Pool}
    (hE : E.Serves events) (h : (Pool.start threads iterations job false).steps events = some p)
    (hended : p.hasEnded = false) :
    ∃ e p', p.step e = some p' ∧ e ≠ .cancel ∧ E.Serves (events ++ [e]) := by
  obtain ⟨t, e, p', hstep, rfl | rfl | ⟨q, rfl⟩⟩ := Pool.exists_step h hended (E.answer events)
  · exact ⟨_, p', hstep, by simp, hE.quiet rfl (by simp)⟩
  · exact ⟨_, p', hstep, by simp, hE.quiet rfl (by simp)⟩
  · exact ⟨_, p', hstep, by simp, hE.answer⟩

end SteadyEngine

namespace LifecycleBench

open SteadyEngine

/-- Against a steady engine that is never cancelled every order of the workers comes to its end, and
every order brings home one record for each pass, in the order of workers and passes: the record of
the pass on the container of that worker and pass, with everything as the engine determines it. -/
theorem every_order_brings_home_the_same_records (E : SteadyEngine) (b : LifecycleBench)
    (threads iterations : Nat) :
    (∀ events p,
      (Pool.start threads iterations (.lifecycle b.workload) false).steps events = some p →
      E.Serves events → .cancel ∉ events →
      events.length ≤ threads * Job.effort (.lifecycle b.workload) iterations ∧
        (p.hasEnded = false →
          ∃ e p', p.step e = some p' ∧ e ≠ .cancel ∧ E.Serves (events ++ [e]))) ∧
    ∀ tr result after, Course false (b.program threads iterations) tr false (result, after) →
      (∀ s ∈ shifts tr, E.Serves s.events) →
      ∃ (s : Shift) (rs : List Iteration), shifts tr = [s] ∧
        after.run.records = rs.map .iteration ∧ rs.length = threads * iterations ∧
        ∀ t < threads, ∀ i < iterations, ∃ r turns, rs[t * iterations + i]? = some r ∧
          After (iterate b.workload (Name.ofIteration t i)) turns (done r) ∧
          callsOn (Name.ofIteration t i) (Pool.calls s.events) = Worker.calls turns ∧
          E.Determines b.workload (Name.ofIteration t i) r := by
  constructor
  · intro events p h hE hcalm
    refine ⟨?_, hE.exists_step h⟩
    have hturns : events.countP Pool.Event.isTurn = events.length := by
      rw [List.countP_eq_length]
      intro e he
      cases e with
      | cancel => exact absurd he hcalm
      | die t => exact absurd he (hE.spares t)
      | _ => rfl
    exact hturns ▸ Pool.countP_isTurn_le h
  · intro tr result after hcourse hserved
    obtain ⟨s, cleaned, rfl, rfl, hjob, rfl, -, rfl⟩ := b.course_of_run rfl hcourse
    have hmem : s ∈ shifts [.shift s, .turn ⟨.act (.call .clean), cleaned⟩] := by simp [shifts]
    have hcalm := (course_calm hcourse rfl).2 s hmem
    have hE := hserved s hmem
    have hgoes := s.goes
    rw [hjob] at hgoes
    have hfull := Pool.full_of_run hgoes hcalm s.ended hE.spares
    refine ⟨s, s.pool.members.flatMap Pool.Member.queue, rfl, Pool.records_eq s.pool, ?_, ?_⟩
    · rw [Pool.length_flatMap_of_length hfull, Pool.members_length hgoes]
    · intro t ht i hi
      obtain ⟨m, r, turns, hm, hr, hpass, hcalls⟩ :=
        Pool.callsOn_of_run hgoes hcalm s.ended hE.spares hE.keepsNames ht hi
      refine ⟨r, turns, ?_, hpass, hcalls, hE.determines hpass hcalls⟩
      rw [Pool.getElem?_flatMap_of_length hfull hi, hm]
      exact hr

/-- An engine that always succeeds, and states the same time for everything. -/
def plainEngine : SteadyEngine where
  reply
    | .info, _ => .ok ""
    | .clean, _ => .ok ()
    | .create w, _ => .ok ⟨w.name, w.image, w.command, w.detached, w.trace, none⟩
    | .operate _ _, _ => .ok ⟨"", ⟨7⟩⟩
    | .close, _ => .ok ()
  keeps_name := by
    intro w earlier c h
    cases h
    rfl

/-- Two workers with a pass each. The second one makes its container first, and is done last. -/
def twoWorkers : Shift where
  threads := 2
  iterations := 1
  job := .lifecycle twoCommands.workload
  cancelled := false
  events :=
    let ctr (t : Nat) : Container := ⟨Name.ofIteration t 0, "busybox", none, false, false, none⟩
    let create (t : Nat) : Pool.Event :=
      .answer t (.call (createCall twoCommands.workload (ctr t).name)) ⟨.ok (ctr t), ⟨t⟩⟩
    let operate (t : Nat) (op : Operation) : Pool.Event :=
      .answer t (.call (.operate op (ctr t))) ⟨.ok ⟨"", ⟨7⟩⟩, ⟨t⟩⟩
    [.look 1, .look 0, create 1, create 0, operate 0 .run, operate 1 .run, operate 0 .stop, .send 0,
      operate 1 .stop, .send 1]
  pool := ⟨1, false, [⟨.done (), false, [⟨[("run", ⟨7⟩), ("stop", ⟨7⟩)], []⟩]⟩,
    ⟨.done (), false, [⟨[("run", ⟨7⟩), ("stop", ⟨7⟩)], []⟩]⟩]⟩
  took := ⟨9⟩
  goes := by rfl
  ended := by rfl

theorem plainEngine_serves_twoWorkers : plainEngine.Serves twoWorkers.events := by
  refine ⟨?_, ?_⟩
  · intro name earlier x hx
    have hmem := (List.mem_filter.mp (List.mem_of_getElem? hx)).1
    simp only [Pool.calls, twoWorkers, Pool.Event.callOf, List.filterMap_cons, List.filterMap_nil,
      List.mem_cons, List.not_mem_nil, or_false] at hmem
    rcases hmem with rfl | rfl | rfl | rfl | rfl | rfl
    all_goals rfl
  · intro t
    simp [twoWorkers]

/-- The records of the two workers are those of the engine, the second one in the second place. -/
theorem two_workers_bring_home_two_records :
    ∃ (tr : List Happening) (after : BenchState) (rs : List Iteration) (r : Iteration),
      Course false (twoCommands.program 2 1) tr false (.ok (), after) ∧
        after.run.records = rs.map .iteration ∧ rs.length = 2 * 1 ∧ rs[1 * 1 + 0]? = some r ∧
        plainEngine.Determines twoCommands.workload (Name.ofIteration 1 0) r := by
  have hcourse : Course false (twoCommands.program 2 1)
      [.shift twoWorkers, .turn ⟨.act (.call .clean), .ok ()⟩] false
      (.ok (), ⟨⟨.completed, twoWorkers.pool.records, ⟨9⟩⟩, false, none⟩) := by
    unfold program
    rw [attend_run twoCommands 2 1 rfl]
    exact .shift twoWorkers (.outside trivial .done)
  obtain ⟨s, rs, -, hrecords, hlength, hall⟩ :=
    (every_order_brings_home_the_same_records plainEngine twoCommands 2 1).2 _ _ _ hcourse (by
      intro s hs
      rw [shifts, List.filterMap_cons, List.filterMap_cons, List.filterMap_nil,
        List.mem_singleton] at hs
      exact hs ▸ plainEngine_serves_twoWorkers)
  obtain ⟨r, -, hr, -, -, hdetermines⟩ := hall 1 (by omega) 0 (by omega)
  exact ⟨_, _, rs, r, hcourse, hrecords, hlength, hr, hdetermines⟩

end LifecycleBench

end EngineBench
