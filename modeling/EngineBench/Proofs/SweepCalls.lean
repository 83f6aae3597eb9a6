-- What a whole sweep asks of its engines. Every step makes an engine, tries it, lets its workers
-- call it, cleans it and closes it. A step that fails on the way leaves the rest out, and no step
-- comes after it; a command of a worker that fails makes no difference.
import EngineBench.Proofs.Closings
import EngineBench.Proofs.Dealings
import EngineBench.Proofs.SoundDefinitions

namespace EngineBench

open Dialogue

/-! ## The calls of workers side by side -/

namespace Pool

/-- A call that the engine replies to, and the worker whose call it is. -/
def Event.ownCall : Event → Option (Nat × CallTurn)
  | .answer t (.call c) a => some (t, ⟨c, a⟩)
  | _ => none

def ownCalls (events : List Event) : List (Nat × CallTurn) := events.filterMap Event.ownCall

theorem map_snd_ownCalls (events : List Event) : (ownCalls events).map Prod.snd = calls events := by
  rw [ownCalls, calls, List.map_filterMap]
  congr
  funext e
  cases e with
  | answer t q a => cases q <;> rfl
  | _ => rfl

theorem ownCalls_of_worker (events : List Event) (t : Nat) :
    ((ownCalls events).filter fun x => x.1 == t).map Prod.snd =
      calls (events.filter fun e => e.worker? == some t) := by
  rw [← map_snd_ownCalls, ownCalls, ownCalls, List.filter_filterMap, List.filterMap_filter]
  congr 2
  funext e
  cases e with
  | answer s q a =>
    cases q with
    | call call =>
      by_cases hs : s = t
      · simp [Event.ownCall, Event.worker?, hs]
      · simp [Event.ownCall, Event.worker?, hs]
    | _ => simp [Event.ownCall]
  | _ => simp [Event.ownCall]

end Pool

/-- The calls of so many workers, each of which makes its passes one after the other. How the
workers take turns is left open. -/
def SharedOut (w : Workload) (threads iterations : Nat) (l : List Dealing) : Prop :=
  ∃ shares : List (Nat × CallTurn), l = shares.map (fun x => Dealing.ofCall x.2) ∧
    (∀ x ∈ shares, x.1 < threads) ∧
    ∀ t < threads, ∃ turns rs,
      Worker.Rounds (fun i => Worker.iterate w (Name.ofIteration t i)) 0 turns rs ∧
        rs.length = iterations ∧
        (shares.filter fun x => x.1 == t).map Prod.snd = Worker.calls turns

/-- Workers that nobody disturbs make all their passes. -/
theorem Shift.sharedOut (s : Shift) {w : Workload} (hjob : s.job = .lifecycle w)
    (hcancelled : s.pool.cancelled = false) (hspared : ∀ t, .die t ∉ s.events) :
    SharedOut w s.threads s.iterations ((Pool.calls s.events).map Dealing.ofCall) := by
  have hgoes := s.goes
  rw [hjob] at hgoes
  refine ⟨Pool.ownCalls s.events, ?_, ?_, ?_⟩
  · rw [← Pool.map_snd_ownCalls, List.map_map]
    rfl
  · intro x hx
    obtain ⟨e, he, hown⟩ := List.mem_filterMap.mp hx
    have hworker : e.worker? = some x.1 := by
      unfold Pool.Event.ownCall at hown
      split at hown
      · cases hown
        rfl
      · cases hown
    simpa [Pool.start] using Pool.worker_lt_of_mem hgoes he hworker
  · intro t ht
    obtain ⟨m, turns, -, hfull, hrounds, hcalls⟩ :=
      Pool.rounds_of_run hgoes hcancelled s.ended hspared ht
    exact ⟨turns, m.queue, hrounds, hfull, by rw [Pool.ownCalls_of_worker, hcalls]⟩

/-! ## The dealings of a step -/

/-- The answers to the calls on the one container that is tried. -/
structure Trial where
  created : Except EngineError Container
  ran : Except EngineError Output
  stopped : Except EngineError Output
  removed : Except EngineError Output

/-- The container is made, and taken through its life if it is there. -/
def Trial.dealings (t : Trial) (w : Workload) : List Dealing :=
  ⟨.call (.create ⟨Name.trial, w.image, w.command, w.detached, false⟩), t.created⟩ ::
    match t.created with
    | .error _ => []
    | .ok c => [⟨.call (.operate .run c), t.ran⟩, ⟨.call (.operate .stop c), t.stopped⟩,
        ⟨.call (.operate .remove c), t.removed⟩]

/-- The answers to what a step asks before its workers begin. -/
structure Opening where
  made : Except EngineError Unit
  info : Except EngineError String
  cleaned : Except EngineError Unit
  trial : Trial

namespace Opening

def prepared (o : Opening) : List Dealing := [⟨.call .info, o.info⟩, ⟨.call .clean, o.cleaned⟩]

def dealings (o : Opening) (config : EngineConfig) (w : Workload) : List Dealing :=
  ⟨.make config, o.made⟩ :: (o.prepared ++ o.trial.dealings w)

variable {o : Opening} (config : EngineConfig) (w : Workload)

theorem any_failed (hmade : o.made = .ok ()) : (o.dealings config w).any Dealing.failed =
    (o.prepared.any Dealing.failed || (o.trial.dealings w).any Dealing.failed) := by
  rw [dealings, hmade, List.any_cons, List.any_append]
  rfl

theorem upTo_of_unprepared (hmade : o.made = .ok ()) (h : o.prepared.any Dealing.failed = true) :
    upTo Dealing.failed (o.dealings config w) =
      ⟨.make config, .ok ()⟩ :: upTo Dealing.failed o.prepared := by
  rw [dealings, hmade, upTo_cons_of_neg rfl, upTo_append_of_any h]

theorem upTo_of_prepared (hmade : o.made = .ok ()) (h : o.prepared.any Dealing.failed = false) :
    upTo Dealing.failed (o.dealings config w) =
      ⟨.make config, .ok ()⟩ :: (o.prepared ++ upTo Dealing.failed (o.trial.dealings w)) := by
  rw [dealings, hmade, upTo_cons_of_neg rfl, upTo_append_of_none h]

end Opening

namespace Sweep

open Definition

/-- The search for what the daemon can be watched through: what is asked of the engine, and whether
anything is found. A daemon that is not to be watched is not searched for. -/
inductive Search (options : SweepOptions) (e : Entry) : List Dealing → Bool → Prop
  | unwatched : options.overhead = false → Search options e [] true
  | group {path : String} (found : Bool) : options.overhead = true → e.cgroupPath = some path →
      Search options e [] found
  | daemon (found : Except EngineError DaemonProcess) : options.overhead = true →
      e.cgroupPath = none → Search options e [⟨.findDaemon, found⟩] found.isOk

/-- The dealings of a step with so many workers, and whether they are whole. -/
inductive StepTrace (options : SweepOptions) (e : Entry) (config : EngineConfig) (w : Workload)
    (threads : Nat) : List Dealing → Bool → Prop
  /-- Something fails before the workers begin, and nothing is asked after that. -/
  | cut (o : Opening) : (o.dealings config w).any Dealing.failed = true →
      StepTrace options e config w threads (upTo Dealing.failed (o.dealings config w)) false
  /-- The daemon is to be watched and cannot be found, and the engine is closed. -/
  | unfound (o : Opening) {search : List Dealing} (closed : Except EngineError Unit) :
      (o.dealings config w).any Dealing.failed = false → Search options e search false →
      StepTrace options e config w threads
        (o.dealings config w ++ (search ++ [⟨.call .close, closed⟩])) false
  /-- The workers work, the engine is cleaned, and it is closed whether or not that fails. -/
  | worked (o : Opening) {search calls : List Dealing} (cleaned closed : Except EngineError Unit) :
      (o.dealings config w).any Dealing.failed = false → Search options e search true →
      SharedOut w threads e.iterations calls →
      StepTrace options e config w threads
        (o.dealings config w ++
          (search ++ (calls ++ [⟨.call .clean, cleaned⟩, ⟨.call .close, closed⟩])))
        (cleaned.isOk && closed.isOk)

variable {c c' : Bool} {tr : List Happening} {options : SweepOptions} {e : Entry}
  {inner : LifecycleBench} {threads : Nat}

theorem course_of_refusal {x : Attempt Unit}
    (h : Course c SweepWork.refuseIfCancelled.run tr c' x) (hcalm : Undisturbed tr) :
    dealings tr = [] ∧ x = .ok () := by
  obtain ⟨_, stop, rest, rfl, hrest⟩ := course_look h
  cases stop with
  | true => exact absurd List.mem_cons_self hcalm.unstopped
  | false =>
    obtain ⟨rfl, hx⟩ := course_done hrest
    exact ⟨rfl, hx⟩

/-- A list of questions is asked up to the first that fails, and that decides how it ends. -/
structure AskedUpTo {α : Type} (l : List Dealing) (tr : List Happening) (r : Attempt α) : Prop where
  asked : EngineBench.dealings tr = upTo Dealing.failed l
  ended : l.any Dealing.failed = !r.isOk

/-- Where nothing fails, everything is asked. -/
theorem AskedUpTo.whole {α : Type} {l : List Dealing} {a : α} (h : AskedUpTo l tr (.ok a)) :
    l.any Dealing.failed = false ∧ dealings tr = l := by
  obtain ⟨hasked, hended⟩ := h
  exact ⟨hended, hasked.trans (upTo_of_none hended)⟩

/-- Preparing an engine asks for its info, and then cleans it. -/
theorem asked_of_prepare {r : Attempt Unit} (h : inner.prepare.Does tr r) : ∃ info cleaned,
    AskedUpTo [⟨.call .info, info⟩, ⟨.call .clean, cleaned⟩] tr r := by
  obtain ⟨_, _, after, hcourse⟩ := h
  obtain ⟨_, info, rest, rfl, hclean⟩ := course_outside (by trivial) hcourse
  cases info with
  | error f =>
    obtain ⟨rfl, hr⟩ := course_done hclean
    cases hr
    exact ⟨.error f, .error f, rfl, rfl⟩
  | ok text =>
    obtain ⟨_, cleaned, rest, rfl, hdone⟩ := course_outside (by trivial) hclean
    obtain ⟨rfl, hr⟩ := course_done hdone
    cases cleaned with
    | error f =>
      cases hr
      exact ⟨.ok text, .error f, rfl, rfl⟩
    | ok =>
      cases hr
      exact ⟨.ok text, .ok (), rfl, rfl⟩

/-- Trying an engine takes one container through its life. -/
theorem asked_of_validate {r : Attempt Unit} (h : inner.validate.Does tr r) :
    ∃ t : Trial, AskedUpTo (t.dealings inner.workload) tr r := by
  obtain ⟨_, _, after, hcourse⟩ := h
  obtain ⟨_, created, rest, rfl, hrun⟩ := course_outside (by trivial) hcourse
  cases created with
  | error f =>
    obtain ⟨rfl, hr⟩ := course_done hrun
    cases hr
    exact ⟨⟨.error f, .error f, .error f, .error f⟩, rfl, rfl⟩
  | ok made =>
    obtain ⟨_, ran, rest, rfl, hstop⟩ := course_outside (by trivial) hrun
    cases ran with
    | error f =>
      obtain ⟨rfl, hr⟩ := course_done hstop
      cases hr
      exact ⟨⟨.ok made, .error f, .error f, .error f⟩, rfl, rfl⟩
    | ok out =>
      obtain ⟨_, stopped, rest, rfl, hrest⟩ := course_outside (by trivial) hstop
      cases stopped with
      | error f =>
        obtain ⟨rfl, hr⟩ := course_done hrest
        cases hr
        exact ⟨⟨.ok made, .ok out, .error f, .error f⟩, rfl, rfl⟩
      | ok out' =>
        obtain ⟨_, _, rest, rfl, hremove⟩ := course_outside (by trivial) hrest
        obtain ⟨_, removed, rest, rfl, hdone⟩ := course_outside (by trivial) hremove
        cases removed with
        | error f =>
          obtain ⟨rfl, hr⟩ := course_done hdone
          cases hr
          exact ⟨⟨.ok made, .ok out, .ok out', .error f⟩, rfl, rfl⟩
        | ok last =>
          obtain ⟨rfl, hr⟩ := course_done hdone
          cases hr
          exact ⟨⟨.ok made, .ok out, .ok out', .ok last⟩, rfl, rfl⟩

theorem search_of_obtains {b : WatchedBench} {found : Attempt SamplerSource}
    (h : b.Obtains false tr found) (hoverhead : options.overhead = true)
    (hgroup : b.group = e.cgroupPath) : Search options e (dealings tr) found.isOk := by
  cases h with
  | group found hpath => exact .group _ hoverhead (hgroup ▸ hpath)
  | process found hnone =>
    have hsearch := Search.daemon (e := e) found hoverhead (hgroup ▸ hnone)
    cases found <;> exact hsearch

/-- The run of the bench inside, as far as engines are concerned. -/
theorem shared_of_run {before after : BenchState} {iterations : Nat} {r : Attempt Unit}
    (hbefore : before.run.phase = .created)
    (h : Course c (SweepWork.acts (BenchWork.attend before (inner.run threads iterations).run)) tr
      c' (r, after)) (hcalm : Undisturbed tr) :
    ∃ calls cleaned, SharedOut inner.workload threads iterations calls ∧
      dealings tr = calls ++ [⟨.call .clean, cleaned⟩] ∧ r = inner.verdict cleaned := by
  obtain ⟨s, cleaned, rfl, rfl, hjob, rfl, rfl, -⟩ := inner.course_of_run hbefore h
  have hmem : s ∈ shifts [.shift s, .turn ⟨.act (.call .clean), cleaned⟩] :=
    List.mem_singleton_self s
  exact ⟨_, cleaned, s.sharedOut hjob (hcalm.uncancelled s hmem) (hcalm.spared s hmem), rfl, rfl⟩

/-- What the run of a step asks: nothing if its daemon is searched for and not found. -/
theorem dealings_of_run {r : Attempt Unit}
    (h : ((benchFor e options inner).run threads e.iterations).Does tr r) (hcalm : Undisturbed tr) :
    (∃ f, Search options e (dealings tr) false ∧ r = .error f) ∨
      ∃ search calls cleaned, Search options e search true ∧
        SharedOut inner.workload threads e.iterations calls ∧
        dealings tr = search ++ (calls ++ [⟨.call .clean, cleaned⟩]) ∧
        r = inner.verdict cleaned := by
  obtain ⟨_, _, after, hcourse⟩ := h
  unfold benchFor at hcourse
  split at hcourse
  · rename_i hoverhead
    obtain ⟨f, hlook, rfl, -⟩ | ⟨look, source, task, during, found, _, _, s, hlook, rfl, hrun, -⟩ :=
      WatchedBench.course_of_run rfl hcourse
    · exact Or.inl ⟨f, search_of_obtains hlook hoverhead rfl, rfl⟩
    · rw [undisturbed_append] at hcalm
      obtain ⟨-, hcalm⟩ := hcalm
      have hinner : Undisturbed during := by
        rw [← List.singleton_append, undisturbed_append, undisturbed_append] at hcalm
        exact hcalm.2.1
      obtain ⟨calls, cleaned, hshared, hdealings, rfl⟩ := shared_of_run rfl hrun hinner
      refine Or.inr ⟨dealings look, calls, cleaned, search_of_obtains hlook hoverhead rfl, hshared,
        ?_, rfl⟩
      rw [← List.singleton_append, dealings_append, dealings_append, dealings_append, hdealings]
      simp [dealings, Happening.dealings, Dealing.ofTurn?]
  · rename_i hoverhead
    obtain ⟨calls, cleaned, hshared, hdealings, rfl⟩ := shared_of_run rfl hcourse hcalm
    have hsearch : Search options e [] true := .unwatched (by simpa using hoverhead)
    exact Or.inr ⟨[], calls, cleaned, hsearch, hshared, hdealings, rfl⟩

theorem validate_benchFor (e : Entry) (options : SweepOptions) (inner : LifecycleBench) :
    (benchFor e options inner).validate = inner.validate := by
  unfold benchFor
  split <;> rfl

theorem verdict_isOk (inner : LifecycleBench) (cleaned : Except EngineError Unit) :
    (inner.verdict cleaned).isOk = cleaned.isOk := by
  cases cleaned <;> rfl

/-- A step whose bench has run is whole if the run succeeds and its engine is closed. -/
theorem isOk_of_ends {b : Bench} {result : Attempt Unit} {closed : Except EngineError Unit}
    {r : Attempt Step} (h : Ends inner b result closed r) :
    r.isOk = (result.isOk && closed.isOk) := by
  cases closed with
  | error f =>
    rw [h.unclosed f rfl, Bool.and_comm]
    rfl
  | ok =>
    cases result with
    | error f =>
      rw [h.failed f rfl rfl]
      rfl
    | ok =>
      obtain ⟨step, rfl⟩ := h.whole rfl rfl
      rfl

/-- The dealings of a step whose engine has been made. -/
theorem trace_of_way {config : EngineConfig} {r : Attempt Step} (hcalm : Undisturbed tr)
    (h : Way inner (benchFor e options inner) threads e.iterations tr r) :
    StepTrace options e config inner.workload threads (⟨.make config, .ok ()⟩ :: dealings tr)
      r.isOk := by
  cases h with
  | unprepared f hprepare hr _ =>
    subst hr
    obtain ⟨info, cleaned, hprepared⟩ := asked_of_prepare hprepare
    -- no container is tried, so it does not matter what would come of it
    let never : EngineError := .cancelled
    let o : Opening :=
      ⟨.ok (), info, cleaned, ⟨.error never, .error never, .error never, .error never⟩⟩
    have hfailed : o.prepared.any Dealing.failed = true := hprepared.ended
    have hcut := o.upTo_of_unprepared config inner.workload rfl hfailed
    rw [hprepared.asked]
    refine hcut ▸ StepTrace.cut o ?_
    rw [o.any_failed config inner.workload rfl, hfailed, Bool.true_or]
  | untried prepared tried f htr hprepare hvalidate hr _ =>
    subst htr hr
    rw [validate_benchFor] at hvalidate
    obtain ⟨info, cleaned, hprepared⟩ := asked_of_prepare hprepare
    obtain ⟨t, htried⟩ := asked_of_validate hvalidate
    obtain ⟨hready, hdealings⟩ := hprepared.whole
    let o : Opening := ⟨.ok (), info, cleaned, t⟩
    have hfailed : (o.trial.dealings inner.workload).any Dealing.failed = true := htried.ended
    have hcut := o.upTo_of_prepared config inner.workload rfl hready
    rw [dealings_append, hdealings, htried.asked]
    refine hcut ▸ StepTrace.cut o ?_
    rw [o.any_failed config inner.workload rfl, hfailed, Bool.or_true]
  | ran prepared tried during result closed htr hprepare hvalidate hrun hends _ =>
    subst htr
    rw [validate_benchFor] at hvalidate
    obtain ⟨info, cleaned, hprepared⟩ := asked_of_prepare hprepare
    obtain ⟨t, htried⟩ := asked_of_validate hvalidate
    obtain ⟨hready, hdealings⟩ := hprepared.whole
    obtain ⟨hgood, htrial⟩ := htried.whole
    let o : Opening := ⟨.ok (), info, cleaned, t⟩
    have hopen : (o.dealings config inner.workload).any Dealing.failed = false := by
      rw [o.any_failed config inner.workload rfl, Bool.or_eq_false_iff]
      exact ⟨hready, hgood⟩
    obtain ⟨hcalm, -⟩ := undisturbed_append.mp hcalm
    obtain ⟨-, hduring⟩ := undisturbed_append.mp hcalm
    have hall : ⟨.make config, .ok ()⟩ :: dealings (prepared ++ tried ++ during ++
          [.turn ⟨.act (.call .close), closed⟩]) =
        o.dealings config inner.workload ++ (dealings during ++ [⟨.call .close, closed⟩]) := by
      rw [dealings_append, dealings_append, dealings_append, hdealings, htrial]
      simp [o, Opening.dealings, Opening.prepared, dealings, Happening.dealings, Dealing.ofTurn?]
    rw [hall, isOk_of_ends hends]
    obtain ⟨f, hsearch, rfl⟩ | ⟨search, calls, last, hsearch, hshared, hran, rfl⟩ :=
      dealings_of_run hrun hduring
    · exact .unfound o closed hopen hsearch
    · rw [hran, verdict_isOk, List.append_assoc, List.append_assoc]
      exact .worked o last closed hopen hsearch hshared

/-! ## What a step brings home -/

/-- What a step with so many workers has to show: a record for each pass of each worker, and no
others unless the daemon is watched. -/
structure Step.Brings (step : Step) (options : SweepOptions) (threads iterations : Nat) : Prop where
  passes : Bench.passes step.records = threads * iterations
  unwatched : options.overhead = false → step.records.length = threads * iterations

theorem brings_of_step {config : EngineConfig} {step : Step}
    (h : Course c (Sweep.step config inner (benchFor e options inner) threads e.iterations).run tr
      c' (.ok step)) (hcalm : Undisturbed tr) : step.Brings options threads e.iterations := by
  obtain ⟨s, hs, hkeeps⟩ := course_of_step h
  have hmem : s ∈ shifts tr := hs ▸ List.mem_singleton_self s
  have hwhole : s.pool.records.length = threads * e.iterations := by
    rw [s.length_records (hcalm.uncancelled s hmem) (hcalm.spared s hmem), hkeeps.threads_eq,
      hkeeps.iterations_eq]
  refine ⟨hkeeps.passes_eq.trans hwhole, fun hoverhead => ?_⟩
  have hbench : benchFor e options inner = .lifecycle inner := by
    rw [benchFor, hoverhead]
    rfl
  rw [hkeeps.unwatched (by simp [hbench]), hwhole]

/-- A step deals with its engine as it should and brings home what it should, or fails. -/
theorem goes_of_step {config : EngineConfig} {r : Attempt Step}
    (h : Course c (step config inner (benchFor e options inner) threads e.iterations).run tr c' r)
    (hcalm : Undisturbed tr) :
    Goes (StepTrace options e config inner.workload threads)
      (Step.Brings · options threads e.iterations) (dealings tr) r := by
  have htrace : StepTrace options e config inner.workload threads (dealings tr) r.isOk := by
    rw [step_eq] at h
    obtain ⟨_, f, hrefuse, -⟩ | ⟨tr1, _, _, tr2, rfl, hrefuse, h1⟩ := course_attempt h
    · cases (course_of_refusal hrefuse hcalm).2
    obtain ⟨hcalm1, hcalm2⟩ := undisturbed_append.mp hcalm
    rw [dealings_append, (course_of_refusal hrefuse hcalm1).1, List.nil_append]
    obtain ⟨_, f, hmake, -⟩ | ⟨tr3, _, made, tr4, rfl, hmake, h2⟩ := course_attempt h1
    · obtain ⟨_, -, hf⟩ := course_of_asking (by trivial) hmake
      cases hf
    obtain ⟨_, rfl, ⟨⟩⟩ := course_of_asking (by trivial) hmake
    cases made with
    | error f =>
      obtain ⟨rfl, rfl⟩ := course_done h2
      exact .cut ⟨.error f, .error f, .error f, ⟨.error f, .error f, .error f, .error f⟩⟩ rfl
    | ok =>
      have hproceed : Course _ (proceed inner (benchFor e options inner) threads
        e.iterations).run _ _ _ := h2
      obtain ⟨-, hway⟩ := way_of_proceed (close_benchFor e options inner) hproceed
      exact trace_of_way (undisturbed_append.mp hcalm2).2 hway
  cases r with
  | error f => exact .cut htrace
  | ok step => exact .whole htrace (brings_of_step h hcalm)

/-! ## Entries and the whole sweep -/

/-- The steps of an entry: with one worker, then with two, and so on. -/
def stepsOf (e : Entry) : List (Entry × Nat) := (List.range e.threads).map fun k => (e, k + 1)

/-- The dealings of a step of a benchmark. -/
def Takes (b : Benchmark) (options : SweepOptions) (step : Entry × Nat) (l : List Dealing)
    (whole : Bool) : Prop :=
  ∃ config w, step.1.engineConfig = .ok config ∧ b.workload step.1 options.trace = .ok w ∧
    StepTrace options step.1 config w step.2 l whole

/-- What a sweep has to show for an entry: a rate and the records of each step. -/
structure Shows (b : Benchmark) (options : SweepOptions) (e : Entry) (r : Result) : Prop where
  name : ∃ k, e.Names k ∧ r.name = b.name ++ ":" ++ k.name
  threads : r.threads = UInt64.ofNat e.threads
  iterations : r.iterations = UInt64.ofNat e.iterations
  commands : r.commands = b.commands
  isLimit : r.isLimit = false
  rates : r.rates.length = e.threads
  steps : r.steps.length = e.threads
  records : ∀ k < e.threads, ∃ records, r.steps[k]? = some records ∧
    Bench.passes records = (k + 1) * e.iterations ∧
    (options.overhead = false → records.length = (k + 1) * e.iterations)

variable {b : Benchmark}

theorem shows_of_steps {k : Kind} (hk : e.Names k) {steps : List Step}
    (hsteps : List.Forall₂ (fun k step => Step.Brings step options (k + 1) e.iterations)
      (List.range e.threads) steps) :
    Shows b options e ⟨b.name ++ ":" ++ k.name, UInt64.ofNat e.threads, UInt64.ofNat e.iterations,
      steps.map Step.rate, steps.map Step.records, b.commands, false⟩ := by
  obtain ⟨hrange, hall⟩ := List.forall₂_iff_get.mp hsteps
  have hlen : steps.length = e.threads := by rw [← hrange, List.length_range]
  refine ⟨⟨k, hk, rfl⟩, rfl, rfl, rfl, rfl, ?_, ?_, ?_⟩
  · rw [List.length_map, hlen]
  · rw [List.length_map, hlen]
  · intro i hi
    have hstep : i < steps.length := hlen.symm ▸ hi
    have hbrings := hall i (by rwa [List.length_range]) hstep
    rw [List.get_eq_getElem, List.get_eq_getElem, List.getElem_range] at hbrings
    refine ⟨steps[i].records, ?_, hbrings.passes, hbrings.unwatched⟩
    rw [List.getElem?_map, List.getElem?_eq_getElem hstep]
    rfl

theorem name_benchFor (e : Entry) (options : SweepOptions) (inner : LifecycleBench) :
    (benchFor e options inner).name = inner.name := by
  unfold benchFor
  split <;> rfl

/-- The steps of an entry come one after the other. -/
theorem goes_of_steps {config : EngineConfig} {w : Workload} {x : Attempt (List Step)}
    (hconfig : e.engineConfig = .ok config) (hw : b.workload e options.trace = .ok w)
    (h : Course c ((List.range e.threads).mapM fun k => step config ⟨w, config.kind⟩
      (benchFor e options ⟨w, config.kind⟩) (k + 1) e.iterations).run tr c' x)
    (hcalm : Undisturbed tr) :
    Goes (InTurn (Takes b options) (stepsOf e))
      (List.Forall₂ (fun k step => Step.Brings step options (k + 1) e.iterations)
        (List.range e.threads)) (dealings tr) x := by
  have hsteps : ∀ k ∈ List.range e.threads, ∀ {b1 b2 part y}, Course b1 (step config
      ⟨w, config.kind⟩ (benchFor e options ⟨w, config.kind⟩) (k + 1) e.iterations).run part b2 y →
      Undisturbed part → Goes (Takes b options (e, k + 1))
        (Step.Brings · options (k + 1) e.iterations) (dealings part) y := by
    intro k _ b1 b2 part y hcourse hpart
    cases goes_of_step hcourse hpart with
    | cut htrace => exact .cut ⟨config, w, hconfig, hw, htrace⟩
    | whole htrace hbrings => exact .whole ⟨config, w, hconfig, hw, htrace⟩ hbrings
  cases goes_mapM hsteps h hcalm with
  | cut hparts => exact .cut hparts.map
  | whole hparts hbrings => exact .whole hparts.map hbrings

/-- What is known already takes no time. -/
theorem course_of_known {α β : Type} {a : β} {f : β → SweepWork α} {r : Attempt α}
    (h : Course c (SweepWork.ofAttempt (.ok a) >>= f).run tr c' r) : Course c (f a).run tr c' r := h

theorem goes_of_entry {r : Attempt Result} (he : b.Admits e)
    (h : Course c (entry b e options).run tr c' r) (hcalm : Undisturbed tr) :
    Goes (InTurn (Takes b options) (stepsOf e)) (Shows b options e) (dealings tr) r := by
  obtain ⟨k, image, hk, himage⟩ := he.exists_image
  have hconfig := Benchmark.engineConfig_of_names hk
  have hw := Benchmark.workload_of_names hk himage options.trace
  unfold entry at h
  rw [hconfig, hw] at h
  obtain ⟨_, f, hfail, rfl⟩ | ⟨tr1, _, steps, tr2, rfl, hran, hdone⟩ :=
    course_attempt (course_of_known (course_of_known h))
  · cases goes_of_steps hconfig hw hfail hcalm with
    | cut hparts => exact .cut hparts
  · obtain ⟨rfl, rfl⟩ := course_done hdone
    rw [List.append_nil] at hcalm ⊢
    cases goes_of_steps hconfig hw hran hcalm with
    | whole hparts hbrings =>
      rw [name_benchFor]
      exact .whole hparts (shows_of_steps hk hbrings)

theorem goes_of_run (hsound : b.IsSound) (hskip : options.skipLimit = true)
    {x : Attempt (List Result)} (h : Course c (run b options).run tr c' x)
    (hcalm : Undisturbed tr) :
    Goes (InTurn (Takes b options) (b.entries.flatMap stepsOf))
      (List.Forall₂ (Shows b options) b.entries) (dealings tr) x := by
  have hentries : ∀ e ∈ b.entries, ∀ {b1 b2 part r}, Course b1 (do
      SweepWork.refuseIfCancelled
      entry b e options : SweepWork Result).run part b2 r → Undisturbed part →
      Goes (InTurn (Takes b options) (stepsOf e)) (Shows b options e) (dealings part) r := by
    intro e he b1 b2 part r hcourse hpart
    obtain ⟨_, f, hrefuse, -⟩ | ⟨tr1, _, _, tr2, rfl, hrefuse, hentry⟩ := course_attempt hcourse
    · cases (course_of_refusal hrefuse hpart).2
    · obtain ⟨hpart1, hpart2⟩ := undisturbed_append.mp hpart
      rw [dealings_append, (course_of_refusal hrefuse hpart1).1, List.nil_append]
      exact goes_of_entry (hsound.entries e he) hentry hpart2
  rw [run_eq, bound, if_pos hskip] at h
  obtain ⟨_, f, hfail, rfl⟩ | ⟨tr1, _, results, tr2, rfl, hran, hdone⟩ :=
    course_attempt (course_of_known h)
  · cases goes_mapM hentries hfail hcalm with
    | cut hparts => exact .cut hparts.flatMap
  · obtain ⟨rfl, rfl⟩ := course_done hdone
    rw [List.append_nil] at hcalm ⊢
    cases goes_mapM hentries hran hcalm with
    | whole hparts hshows => exact .whole hparts.flatMap hshows

/-- Once a benchmark is checked and the limit run skipped, a sweep that nobody disturbs deals with
its engines step by step, the entries one after the other and each of them with one worker first,
then with two, and so on. A step that is cut short is the last one, and then the sweep fails.
Otherwise there is a result for each entry, with a rate and the records of each step, one record for
every pass of every worker. Whatever the surroundings answer, the sweep comes to such an end. -/
theorem a_sweep_goes_step_by_step_until_one_is_cut_short {options : SweepOptions}
    (hchecked : b.check = .ok ()) (hskip : options.skipLimit = true) :
    (∀ tr x, Course false (run b options).run tr false x → Spares tr →
      Goes (InTurn (Takes b options) (b.entries.flatMap stepsOf))
        (List.Forall₂ (Shows b options) b.entries) (dealings tr) x) ∧
    ∀ script : SweepScript, ∃ tr x, Course false (run b options).run tr false x ∧ Spares tr ∧
      script.Leads [] tr := by
  constructor
  · intro tr x hcourse hspared
    exact goes_of_run (Benchmark.check_eq_ok_iff.mp hchecked) hskip hcourse
      (undisturbed_of_calm hcourse hspared)
  · intro script
    obtain ⟨tr, x, hcourse, hleads⟩ := script.exists_course (run b options).run []
    exact ⟨tr, x, hcourse, hleads.spares, hleads⟩

/-- The two passes of the worker. In the first one its container cannot be stopped. -/
def twoPassesShift : Shift where
  threads := 1
  iterations := 2
  job := .lifecycle ⟨"sweep", "busybox", none, false, false, ["run", "stop", "remove"]⟩
  cancelled := false
  events :=
    let w : Workload := ⟨"sweep", "busybox", none, false, false, ["run", "stop", "remove"]⟩
    let ctr (i : Nat) : Container := ⟨Name.ofIteration 0 i, "busybox", none, false, false, none⟩
    let create (i : Nat) : Pool.Event :=
      .answer 0 (.call (Worker.createCall w (ctr i).name)) ⟨.ok (ctr i), ⟨1⟩⟩
    let operate (op : Operation) (i : Nat) (reply : Except EngineError Output) : Pool.Event :=
      .answer 0 (.call (.operate op (ctr i))) ⟨reply, ⟨2⟩⟩
    [.look 0, create 0, operate .run 0 (.ok ⟨"", ⟨7⟩⟩), operate .stop 0 (.error (.io .notFound)),
      operate .remove 0 (.ok ⟨"", ⟨7⟩⟩), .send 0, .look 0, create 1, operate .run 1 (.ok ⟨"", ⟨7⟩⟩),
      operate .stop 1 (.ok ⟨"", ⟨7⟩⟩), operate .remove 1 (.ok ⟨"", ⟨7⟩⟩), .send 0]
  pool := ⟨2, false, [⟨.done (), false,
    [⟨[("run", ⟨7⟩), ("stop", ⟨2⟩), ("remove", ⟨7⟩)], [("stop", 1)]⟩,
      ⟨[("run", ⟨7⟩), ("stop", ⟨7⟩), ("remove", ⟨7⟩)], []⟩]⟩]⟩
  took := ⟨30⟩
  goes := by rfl
  ended := by rfl

/-- A sweep in which nothing fails before the workers begin, up to that moment. -/
def openingTrace : List Happening :=
  let c : Container := ⟨Name.trial, "busybox", none, false, false, none⟩
  [.turn ⟨.look, false⟩, .turn ⟨.look, false⟩, .turn ⟨.make (.plain .null), .ok ()⟩] ++
    answered [⟨.info, .ok ""⟩, ⟨.clean, .ok ()⟩,
      ⟨.create ⟨Name.trial, "busybox", none, false, false⟩, .ok c⟩, ⟨.operate .run c, .ok .silent⟩,
      ⟨.operate .stop c, .ok .silent⟩] ++
    [.turn ⟨.act (.rest EngineCall.quiescence), ()⟩] ++
    answered [⟨.operate .remove c, .ok .silent⟩]

/-- The same sweep to its end, with its worker. -/
def wholeTrace : List Happening :=
  openingTrace ++ .shift twoPassesShift :: answered [⟨.clean, .ok ()⟩, ⟨.close, .ok ()⟩]

/-- A worker that cannot stop its container does not cut the sweep short. -/
theorem a_sweep_is_whole_although_a_command_fails :
    ∃ r, Course false (run twoPasses ⟨false, true, false⟩).run wholeTrace false (.ok [r]) ∧
      InTurn (Takes twoPasses ⟨false, true, false⟩) (twoPasses.entries.flatMap stepsOf)
        (dealings wholeTrace) true ∧
      ∃ records, r.steps[0]? = some records ∧ Bench.passes records = 2 := by
  have hcourse : Course false (run twoPasses ⟨false, true, false⟩).run wholeTrace false
      (.ok [⟨"sweep:Null", UInt64.ofNat 1, UInt64.ofNat 2,
        [rate (UInt64.ofNat 1) (UInt64.ofNat 2) twoPassesShift.took],
        [twoPassesShift.pool.records], ["run", "stop", "remove"], false⟩]) := by
    refine .look (.look (.outside trivial (.outside trivial (.outside trivial ?_))))
    refine .outside trivial (.outside trivial (.outside trivial (.outside trivial ?_)))
    refine .outside trivial (.shift twoPassesShift (.outside trivial (.outside trivial ?_)))
    exact .done
  have hspared : Spares wholeTrace := by
    have hshifts : shifts wholeTrace = [twoPassesShift] := rfl
    intro s hs t
    rw [hshifts, List.mem_singleton] at hs
    rw [hs]
    simp [twoPassesShift]
  have hchecked : twoPasses.check = .ok () := rfl
  have hskip : (⟨false, true, false⟩ : SweepOptions).skipLimit = true := rfl
  obtain ⟨hlaw, -⟩ := a_sweep_goes_step_by_step_until_one_is_cut_short hchecked hskip
  cases hlaw wholeTrace _ hcourse hspared with
  | whole hparts hshows =>
    cases hshows with
    | cons hshow _ =>
      obtain ⟨records, hrecords, hpasses, -⟩ := hshow.records 0 Nat.one_pos
      exact ⟨_, hcourse, hparts, records, hrecords, hpasses⟩

/-- The same sweep if the daemon is to be watched and is not found. -/
def unfoundTrace (e : EngineError) : List Happening :=
  openingTrace ++ .turn ⟨.act .findDaemon, .error e⟩ :: answered [⟨.close, .ok ()⟩]

/-- A sweep that is to watch a daemon can fail although no engine fails to be made, to answer a call
or to be closed. -/
theorem a_sweep_fails_if_its_daemon_is_not_found :
    ∃ e f, twoPasses.check = .ok () ∧
      Course false (run twoPasses ⟨false, true, true⟩).run (unfoundTrace e) false (.error f) ∧
      Spares (unfoundTrace e) ∧
      (dealings (unfoundTrace e)).filter Dealing.failed = [⟨.findDaemon, .error e⟩] := by
  let e : EngineError := .notImplemented "pid" .null
  let f : Failure := ((Failure.ofEngine e).during (.findingDaemon .null)).during
    (.watchingDaemon "sweep:Null")
  have hcourse : Course false (run twoPasses ⟨false, true, true⟩).run (unfoundTrace e) false
      (.error (f.during (.running "sweep:Null"))) := by
    refine .look (.look (.outside trivial (.outside trivial (.outside trivial ?_))))
    refine .outside trivial (.outside trivial (.outside trivial (.outside trivial ?_)))
    refine .outside trivial (.outside trivial (.outside trivial ?_))
    exact .done
  have hspared : Spares (unfoundTrace e) := by
    intro s hs
    cases hs
  exact ⟨e, _, rfl, hcourse, hspared, rfl⟩

end Sweep

end EngineBench
