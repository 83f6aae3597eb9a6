-- When the engine of a step is closed. It is closed once if the step gets as far as its run, and
-- however the run ends. A step that fails before that leaves its engine open, and an engine that
-- cannot be closed hides why the run has failed.
import EngineBench.Proofs.Rates
import EngineBench.Proofs.WatchedCalls

namespace EngineBench

open Dialogue

/-! ## Engines made and closed -/

/-- How often the engine is closed. -/
def closings (tr : List Happening) : Nat := (callsMade tr).count .close

/-- No engine is made. -/
def MakesNone (tr : List Happening) : Prop := ∀ config, .turn ⟨.make config, .ok ()⟩ ∉ tr

theorem MakesNone.append {xs ys : List Happening} (hxs : MakesNone xs) (hys : MakesNone ys) :
    MakesNone (xs ++ ys) := by
  intro config hmem
  rcases List.mem_append.mp hmem with hmem | hmem
  · exact hxs config hmem
  · exact hys config hmem

theorem closings_append (xs ys : List Happening) :
    closings (xs ++ ys) = closings xs + closings ys := by
  rw [closings, callsMade, List.filterMap_append, List.count_append]
  rfl

/-- A question that neither makes an engine nor closes one. -/
def SweepAsk.IsPlain (q : SweepAsk) : Prop := (∀ config, q ≠ .make config) ∧ q ≠ .act (.call .close)

/-- Only such questions are asked. -/
def LeavesEngines (tr : List Happening) : Prop := ∀ x, .turn x ∈ tr → x.1.IsPlain

theorem LeavesEngines.makesNone {tr : List Happening} (h : LeavesEngines tr) : MakesNone tr :=
  fun config hmem => (h _ hmem).1 config rfl

theorem LeavesEngines.closings_eq {tr : List Happening} (h : LeavesEngines tr) :
    closings tr = 0 := by
  rw [closings, List.count_eq_zero, callsMade, List.mem_filterMap]
  rintro ⟨x, hx, hcall⟩
  unfold Happening.call? at hcall
  split at hcall
  · cases hcall
    exact (h _ hx).2 rfl
  · cases hcall

theorem LeavesEngines.append {xs ys : List Happening} (hxs : LeavesEngines xs)
    (hys : LeavesEngines ys) : LeavesEngines (xs ++ ys) := by
  intro x hx
  rcases List.mem_append.mp hx with hx | hx
  · exact hxs x hx
  · exact hys x hx

/-! ## Programs that leave the engine alone -/

/-- What a bench may ask and leave the engine open. -/
def BenchAsk.IsOpen (q : BenchAsk) : Prop := q ≠ .act (.call .close)

theorem BenchAsk.IsOpen.plain {a : Act} (h : (BenchAsk.act a).IsOpen) :
    (SweepAsk.act a).IsPlain := by
  refine ⟨by simp, ?_⟩
  rintro ⟨⟩
  exact h rfl

theorem Act.open_of_ne_close {a : Act} (h : a ≠ .call .close) : (BenchAsk.act a).IsOpen := by
  rintro ⟨⟩
  exact h rfl

theorem SpawningBench.run_open (threads iterations : Nat) :
    (SpawningBench.run threads iterations).run.Only BenchAsk.IsOpen := by
  refine ⟨nofun, fun mine => ?_⟩
  cases mine with
  | false => trivial
  | true => exact ⟨nofun, fun _ => ⟨nofun, fun _ => trivial⟩⟩

theorem WatchedBench.run_open (b : WatchedBench) (threads iterations : Nat) :
    (b.run threads iterations).run.Only BenchAsk.IsOpen := by
  rw [run_eq]
  refine ⟨nofun, fun p => ?_⟩
  beta_reduce
  split
  · trivial
  · refine Only.bind ?_ fun found => ?_
    · rw [source_eq]
      refine ⟨nofun, fun has => ?_⟩
      cases has with
      | true => trivial
      | false =>
        exact (b.findSource_only fun a _ ha => Act.open_of_ne_close (ha _)).bind fun _ => trivial
    · cases found with
      | error e => trivial
      | ok source =>
        refine ⟨nofun, fun task => Only.bind ?_ fun result => ?_⟩
        · exact b.inner.run_only threads iterations fun _ _ hq => hq
        · exact ⟨nofun, fun _ => ⟨nofun, fun _ => trivial⟩⟩

theorem Bench.run_open (b : Bench) (threads iterations : Nat) :
    (b.run threads iterations).run.Only BenchAsk.IsOpen := by
  cases b with
  | lifecycle b => exact b.run_only threads iterations fun _ _ hq => hq
  | spawning => exact SpawningBench.run_open threads iterations
  | watched b => exact b.run_open threads iterations

/-- What a bench reports comes without a question to the world. -/
theorem Bench.exists_attend_stats (b : Bench) (s : BenchState) :
    ∃ records, BenchWork.attend s b.stats = .done (records, s) := by
  cases b with
  | lifecycle b => exact ⟨_, rfl⟩
  | spawning => exact ⟨_, rfl⟩
  | watched b => exact ⟨_, WatchedBench.attend_stats s⟩

/-! ## The stages of a step -/

section

variable {α : Type} {c c' : Bool} {tr : List Happening} {w : BenchAttempt α} {r : Attempt α}

/-- A bench that has not run does this, and this is what comes of it. -/
def BenchAttempt.Does (w : BenchAttempt α) (tr : List Happening) (r : Attempt α) : Prop :=
  ∃ c c' after, Course c (SweepWork.acts (BenchWork.attend (.start false) w.run)) tr c' (r, after)

theorem BenchAttempt.Does.leavesEngines (h : w.Does tr r) (hw : w.run.Only BenchAsk.IsOpen) :
    LeavesEngines tr := by
  obtain ⟨c, c', after, hcourse⟩ := h
  exact course_only hcourse (acts_attend_only (fun _ ha => ha.plain) hw)

/-- A bench that has not run does its part first, and what is left goes on with what came of it. -/
theorem course_of_bench {β : Type} {f : Attempt α × BenchState → SweepWork β} {r : Attempt β}
    (h : Course c (SweepWork.bench (.start false) w.run >>= f).run tr c' r) :
    ∃ during rest x after c1, tr = during ++ rest ∧ w.Does during x ∧
      Course c1 (f (x, after)).run rest c' r := by
  obtain ⟨_, _, hbench, -⟩ | ⟨during, c1, ⟨x, after⟩, rest, rfl, hbench, hrest⟩ := course_attempt h
  · obtain ⟨_, _, he, -⟩ := course_bench hbench
    cases he
  · obtain ⟨_, _, ⟨⟩, hcourse⟩ := course_bench hbench
    exact ⟨during, rest, x, after, c1, rfl, ⟨_, _, after, hcourse⟩, hrest⟩

theorem does_of_stage (h : Course c (SweepWork.stage w).run tr c' r) : w.Does tr r := by
  obtain ⟨during, rest, x, after, _, rfl, hdoes, hrest⟩ := course_of_bench h
  obtain ⟨rfl, rfl⟩ := course_ofAttempt hrest
  rwa [List.append_nil]

theorem course_of_asking {q : SweepAsk} (hq : q.IsOutside) {x : Attempt q.Answer}
    (h : Course c (SweepWork.question q).run tr c' x) : ∃ a, tr = [.turn ⟨q, a⟩] ∧ x = .ok a := by
  obtain ⟨_, a, rest, rfl, hdone⟩ := course_outside hq h
  obtain ⟨rfl, hx⟩ := course_done hdone
  exact ⟨a, rfl, hx⟩

end

namespace Sweep

/-- What is left of a step after the run of its bench. -/
def finish (b : Bench) (threads iterations : Nat) (result : Attempt Unit) (s : BenchState) :
    SweepWork Step := do
  SweepWork.stage b.close
  SweepWork.ofAttempt (Attempt.during (.running b.name) result)
  outcome b s threads iterations

/-- What is left of a step after its trial. -/
def perform (b : Bench) (threads iterations : Nat) : SweepWork Step := do
  let (result, s) ← SweepWork.bench (.start false) (b.run threads iterations).run
  finish b threads iterations result s

/-- What is left of a step once its engine is made. -/
def proceed (inner : LifecycleBench) (b : Bench) (threads iterations : Nat) : SweepWork Step := do
  SweepWork.stage inner.prepare
  let (tried, _) ← SweepWork.bench (.start false) b.validate.run
  SweepWork.ofAttempt (Attempt.during (.validating b.name) tried)
  perform b threads iterations

theorem step_eq (config : EngineConfig) (inner : LifecycleBench) (b : Bench)
    (threads iterations : Nat) : step config inner b threads iterations = (do
      SweepWork.refuseIfCancelled
      let made ← SweepWork.question (.make config)
      SweepWork.ofAttempt ((Attempt.ofEngine made).during (.makingEngine config.kind))
      proceed inner b threads iterations) := rfl

/-- How a step ends whose bench has run, with this result, and whose engine was then closed. -/
structure Ends (inner : LifecycleBench) (b : Bench) (result : Attempt Unit)
    (closed : Except EngineError Unit) (r : Attempt Step) : Prop where
  unclosed : ∀ e, closed = .error e → r = .error ((Failure.ofEngine e).during (.closing inner.name))
  failed : ∀ e, closed = .ok () → result = .error e → r = .error (e.during (.running b.name))
  whole : closed = .ok () → result = .ok () → ∃ step, r = .ok step

/-- The way of a step from the moment at which its engine is made, and how it ends. -/
inductive Way (inner : LifecycleBench) (b : Bench) (threads iterations : Nat)
    (tr : List Happening) (r : Attempt Step) : Prop
  /-- The engine cannot be reached or cleaned, and stays open. -/
  | unprepared (e : Failure) : inner.prepare.Does tr (.error e) → r = .error e → closings tr = 0 →
      Way inner b threads iterations tr r
  /-- The one container cannot be tried, and the engine stays open. -/
  | untried (prepared tried : List Happening) (e : Failure) : tr = prepared ++ tried →
      inner.prepare.Does prepared (.ok ()) → b.validate.Does tried (.error e) →
      r = .error (e.during (.validating b.name)) → closings tr = 0 →
      Way inner b threads iterations tr r
  /-- The bench runs, and the engine is closed after that. -/
  | ran (prepared tried during : List Happening) (result : Attempt Unit)
      (closed : Except EngineError Unit) :
      tr = prepared ++ tried ++ during ++ [.turn ⟨.act (.call .close), closed⟩] →
      inner.prepare.Does prepared (.ok ()) → b.validate.Does tried (.ok ()) →
      (b.run threads iterations).Does during result → Ends inner b result closed r →
      closings tr = 1 → Way inner b threads iterations tr r

variable {c c' : Bool} {tr : List Happening}

theorem leavesEngines_of_refuse {x : Attempt Unit}
    (h : Course c SweepWork.refuseIfCancelled.run tr c' x) : LeavesEngines tr := by
  refine course_only (P := SweepAsk.IsPlain) h ⟨⟨by simp, by simp⟩, fun cancelled => ?_⟩
  cases cancelled <;> trivial

theorem outcome_eq (b : Bench) (s : BenchState) (threads iterations : Nat) :
    ∃ step, (outcome b s threads iterations).run = done (.ok step) := by
  obtain ⟨records, hstats⟩ := b.exists_attend_stats s
  refine ⟨⟨rate (UInt64.ofNat threads) (UInt64.ofNat iterations) s.run.elapsed, records⟩, ?_⟩
  show Dialogue.bind (Dialogue.bind (SweepWork.acts (BenchWork.attend s b.stats)) _) _ = _
  rw [hstats]
  rfl

theorem course_of_close {inner : LifecycleBench} {x : Attempt Unit}
    (h : Course c (SweepWork.stage inner.close).run tr c' x) :
    ∃ closed : Except EngineError Unit, tr = [.turn ⟨.act (.call .close), closed⟩] ∧
      x = (Attempt.ofEngine closed).during (.closing inner.name) := by
  obtain ⟨_, _, after, hcourse⟩ := does_of_stage h
  obtain ⟨_, closed, rest, rfl, hdone⟩ := course_outside (by trivial) hcourse
  obtain ⟨rfl, hx⟩ := course_done hdone
  cases hx
  exact ⟨closed, rfl, rfl⟩

variable {inner : LifecycleBench} {b : Bench} {threads iterations : Nat} {r : Attempt Step}

/-- After its run a step closes its engine whatever the run has come to. -/
theorem ends_of_finish (hb : b.close = inner.close) {s : BenchState} {result : Attempt Unit}
    (h : Course c (finish b threads iterations result s).run tr c' r) :
    ∃ closed : Except EngineError Unit, tr = [.turn ⟨.act (.call .close), closed⟩] ∧
      Ends inner b result closed r := by
  unfold finish at h
  rw [hb] at h
  obtain ⟨_, e, hclose, rfl⟩ | ⟨_, _, _, _, rfl, hclose, h1⟩ := course_attempt h
  · obtain ⟨closed, rfl, hclosed⟩ := course_of_close hclose
    refine ⟨closed, rfl, ?_⟩
    cases closed with
    | ok => cases hclosed
    | error e' =>
      cases hclosed
      exact ⟨by rintro _ ⟨⟩; rfl, by simp, by simp⟩
  · obtain ⟨closed, rfl, hclosed⟩ := course_of_close hclose
    refine ⟨closed, ?_⟩
    cases closed with
    | error e' => cases hclosed
    | ok =>
      cases result with
      | error e =>
        obtain ⟨rfl, rfl⟩ := course_done h1
        exact ⟨rfl, by simp, by rintro _ - ⟨⟩; rfl, by simp⟩
      | ok =>
        obtain ⟨step, hstep⟩ := outcome_eq b s threads iterations
        change Course _ (outcome b s threads iterations).run _ _ _ at h1
        rw [hstep] at h1
        obtain ⟨rfl, rfl⟩ := course_done h1
        exact ⟨rfl, by simp, by simp, fun _ _ => ⟨step, rfl⟩⟩

/-- After its trial a step runs its bench and then closes its engine. -/
theorem does_of_perform (hb : b.close = inner.close)
    (h : Course c (perform b threads iterations).run tr c' r) :
    ∃ during result, ∃ closed : Except EngineError Unit,
      tr = during ++ [.turn ⟨.act (.call .close), closed⟩] ∧
        (b.run threads iterations).Does during result ∧ Ends inner b result closed r := by
  obtain ⟨during, _, result, after, _, rfl, hdoes, hrest⟩ := course_of_bench h
  obtain ⟨closed, rfl, hends⟩ := ends_of_finish hb hrest
  exact ⟨during, result, closed, rfl, hdoes, hends⟩

/-- What happens in a step once its engine is made. -/
theorem way_of_proceed (hb : b.close = inner.close)
    (h : Course c (proceed inner b threads iterations).run tr c' r) :
    MakesNone tr ∧ Way inner b threads iterations tr r := by
  have hopenPrepare := inner.prepare_only fun _ _ ha => Act.open_of_ne_close ha
  have hopenValidate := b.validate_only fun _ _ ha => Act.open_of_ne_close ha
  obtain ⟨_, e, hprepare, rfl⟩ | ⟨prepared, _, _, _, rfl, hprepare, h1⟩ := course_attempt h
  · have hleaves := (does_of_stage hprepare).leavesEngines hopenPrepare
    exact ⟨hleaves.makesNone, .unprepared e (does_of_stage hprepare) rfl hleaves.closings_eq⟩
  have hprepared := does_of_stage hprepare
  obtain ⟨tried, _, verdict, _, _, rfl, htried, h2⟩ := course_of_bench h1
  have hleaves := (hprepared.leavesEngines hopenPrepare).append (htried.leavesEngines hopenValidate)
  cases verdict with
  | error e =>
    obtain ⟨rfl, rfl⟩ := course_done h2
    rw [List.append_nil]
    exact ⟨hleaves.makesNone,
      .untried prepared tried e rfl hprepared htried rfl hleaves.closings_eq⟩
  | ok =>
    have hnext : Course _ (perform b threads iterations).run _ _ _ := h2
    obtain ⟨during, result, closed, rfl, hduring, hends⟩ := does_of_perform hb hnext
    have hleaves := hleaves.append (hduring.leavesEngines (b.run_open threads iterations))
    rw [← List.append_assoc, ← List.append_assoc]
    refine ⟨?_, .ran prepared tried during result closed rfl hprepared htried hduring hends ?_⟩
    · exact hleaves.makesNone.append (by simp [MakesNone])
    · rw [closings_append, hleaves.closings_eq]
      rfl

/-- A step that does not get its engine has none to close. -/
theorem course_of_any_step {config : EngineConfig} (hb : b.close = inner.close)
    (h : Course c (step config inner b threads iterations).run tr c' r) :
    (MakesNone tr ∧ closings tr = 0 ∧ ∃ e, r = .error e) ∨
      ∃ front rest, tr = front ++ .turn ⟨.make config, .ok ()⟩ :: rest ∧ MakesNone front ∧
        MakesNone rest ∧ closings front = 0 ∧ Way inner b threads iterations rest r := by
  rw [step_eq] at h
  obtain ⟨_, e, hrefuse, rfl⟩ | ⟨front, _, _, _, rfl, hrefuse, h1⟩ := course_attempt h
  · have hleaves := leavesEngines_of_refuse hrefuse
    exact Or.inl ⟨hleaves.makesNone, hleaves.closings_eq, e, rfl⟩
  have hleaves := leavesEngines_of_refuse hrefuse
  obtain ⟨_, e, hmake, -⟩ | ⟨_, _, made, _, rfl, hmake, h2⟩ := course_attempt h1
  · obtain ⟨_, -, he⟩ := course_of_asking (by trivial) hmake
    cases he
  obtain ⟨_, rfl, ⟨⟩⟩ := course_of_asking (by trivial) hmake
  cases made with
  | error e =>
    obtain ⟨rfl, rfl⟩ := course_done h2
    refine Or.inl ⟨?_, ?_, _, rfl⟩
    · exact hleaves.makesNone.append (by simp [MakesNone])
    · rw [closings_append, hleaves.closings_eq]
      rfl
  | ok =>
    have hnext : Course _ (proceed inner b threads iterations).run _ _ _ := h2
    obtain ⟨hnone, hway⟩ := way_of_proceed hb hnext
    exact Or.inr ⟨front, _, rfl, hleaves.makesNone, hnone, hleaves.closings_eq, hway⟩

/-! ## The limit makes no engine -/

theorem only_of_bench {α : Type} {P : SweepAsk → Prop} {s : BenchState} {w : BenchWork α}
    (h : (SweepWork.acts (BenchWork.attend s w)).Only P) : (SweepWork.bench s w).run.Only P :=
  Only.bind h fun _ => trivial

theorem only_of_mapM {α β : Type} {P : SweepAsk → Prop} {f : β → SweepWork α}
    (hf : ∀ y, (f y).run.Only P) (l : List β) : (l.mapM f).run.Only P := by
  induction l with
  | nil => trivial
  | cons y l ih =>
    rw [List.mapM_cons]
    exact .bind_attempt (hf y) fun _ => .bind_attempt ih fun _ => trivial

/-- What a limit run asks its steps ask. -/
theorem limit_only {P : SweepAsk → Prop} {Q : BenchAsk → Prop} (hQ : ∀ a, Q (.act a) → P (.act a))
    {iterations : Nat} (hrun : ∀ k, (SpawningBench.run k iterations).run.Only Q) (threads : Nat) :
    (limit threads iterations).run.Only P := by
  refine .bind_attempt (only_of_mapM (fun k => ?_) _) fun _ => trivial
  refine .bind_attempt (only_of_bench ?_) fun x => .bind_attempt trivial fun _ => ?_
  · exact acts_attend_only hQ (hrun _)
  · obtain ⟨step, hstep⟩ := outcome_eq .spawning x.2 (k + 1) iterations
    rw [hstep]
    trivial

theorem leavesEngines_of_bound {options : SweepOptions} {x : Attempt (List Result)}
    (h : Course c (bound options).run tr c' x) : LeavesEngines tr := by
  refine course_only (P := SweepAsk.IsPlain) h ?_
  unfold bound
  split
  · trivial
  · rw [← bind_pure_comp]
    have hlimit := limit_only (fun _ ha => ha.plain) fun k =>
      SpawningBench.run_open k limitIterations
    exact .bind_attempt (hlimit limitThreads) fun _ => trivial

/-! ## Every step of a sweep -/

/-- A trace that falls into parts of one kind. -/
def InParts (P : List Happening → Prop) (tr : List Happening) : Prop :=
  ∃ parts : List (List Happening), tr = parts.flatten ∧ ∀ part ∈ parts, P part

theorem InParts.single {P : List Happening → Prop} (h : P tr) : InParts P tr :=
  ⟨[tr], by simp, by simpa using h⟩

theorem InParts.append {P : List Happening → Prop} {xs ys : List Happening} (hxs : InParts P xs)
    (hys : InParts P ys) : InParts P (xs ++ ys) := by
  obtain ⟨parts, rfl, hparts⟩ := hxs
  obtain ⟨parts', rfl, hparts'⟩ := hys
  refine ⟨parts ++ parts', List.flatten_append.symm, ?_⟩
  intro part hpart
  rcases List.mem_append.mp hpart with hpart | hpart
  · exact hparts part hpart
  · exact hparts' part hpart

theorem InParts.flatten {P : List Happening → Prop} {parts : List (List Happening)}
    (h : ∀ part ∈ parts, InParts P part) : InParts P parts.flatten := by
  induction parts with
  | nil => exact ⟨[], rfl, by simp⟩
  | cons part rest ih =>
    exact (h part List.mem_cons_self).append (ih fun x hx => h x (List.mem_cons_of_mem _ hx))

/-- A part of a sweep in which no engine is made, or one step of an entry. If the step fails, this
is reported. -/
inductive Part (b : Definition.Benchmark) (options : SweepOptions) (reported : Failure → Prop)
    (tr : List Happening) : Prop
  | quiet : MakesNone tr → closings tr = 0 → Part b options reported tr
  | step {e : Definition.Entry} {config : EngineConfig} {w : Workload} {k : Nat}
      {front rest : List Happening} {r : Attempt Step} : e ∈ b.entries →
      e.engineConfig = .ok config → b.workload e options.trace = .ok w → k < e.threads →
      tr = front ++ .turn ⟨.make config, .ok ()⟩ :: rest → MakesNone front → MakesNone rest →
      closings front = 0 →
      Way ⟨w, config.kind⟩ (benchFor e options ⟨w, config.kind⟩) (k + 1) e.iterations rest r →
      (∀ f, r = .error f → reported f) → Part b options reported tr

theorem close_benchFor (e : Definition.Entry) (options : SweepOptions) (inner : LifecycleBench) :
    (benchFor e options inner).close = inner.close := by
  unfold benchFor
  split <;> rfl

section

variable {b : Definition.Benchmark} {options : SweepOptions} {reported : Failure → Prop}

theorem parts_of_quiet (h : LeavesEngines tr) : InParts (Part b options reported) tr :=
  .single (.quiet h.makesNone h.closings_eq)

/-- The steps of an entry are parts, and the last one decides whether they fail. -/
theorem parts_of_steps {e : Definition.Entry} (he : e ∈ b.entries) {config : EngineConfig}
    (hconfig : e.engineConfig = .ok config) {w : Workload}
    (hw : b.workload e options.trace = .ok w) {x : Attempt (List Step)}
    (h : Course c ((List.range e.threads).mapM fun k => step config ⟨w, config.kind⟩
      (benchFor e options ⟨w, config.kind⟩) (k + 1) e.iterations).run tr c' x)
    (hx : ∀ f, x = .error f → reported f) : InParts (Part b options reported) tr := by
  obtain ⟨parts, rfl, hall⟩ := course_mapM h
  refine ⟨parts, rfl, ?_⟩
  intro part hpart
  obtain ⟨k, hk, _, _, r, hcourse, hr⟩ := hall part hpart
  obtain ⟨hnone, hclosings, -⟩ | ⟨front, rest, htr, hfront, hrest, hclosings, hway⟩ :=
    course_of_any_step (close_benchFor e options _) hcourse
  · exact .quiet hnone hclosings
  · exact .step he hconfig hw (List.mem_range.mp hk) htr hfront hrest hclosings hway
      fun f hf => hx f (hr f hf)

theorem parts_of_entry {e : Definition.Entry} (he : e ∈ b.entries) {x : Attempt Result}
    (h : Course c (entry b e options).run tr c' x) (hx : ∀ f, x = .error f → reported f) :
    InParts (Part b options reported) tr := by
  have hnone : LeavesEngines [] := by simp [LeavesEngines]
  obtain ⟨_, _, hfail, rfl⟩ | ⟨_, _, config, _, rfl, hread, h1⟩ := course_attempt h
  · obtain ⟨rfl, -⟩ := course_ofAttempt hfail
    exact parts_of_quiet hnone
  obtain ⟨rfl, hconfig⟩ := course_ofAttempt hread
  obtain ⟨_, _, hfail, rfl⟩ | ⟨_, _, w, _, rfl, hmade, h2⟩ := course_attempt h1
  · obtain ⟨rfl, -⟩ := course_ofAttempt hfail
    exact parts_of_quiet hnone
  obtain ⟨rfl, hw⟩ := course_ofAttempt hmade
  obtain ⟨_, f, hsteps, rfl⟩ | ⟨tr1, _, steps, tr2, rfl, hsteps, hdone⟩ := course_attempt h2
  · apply parts_of_steps he hconfig.symm hw.symm hsteps
    rintro _ ⟨⟩
    exact hx f rfl
  · obtain ⟨rfl, -⟩ := course_done hdone
    have hparts : InParts (Part b options reported) tr1 :=
      parts_of_steps he hconfig.symm hw.symm hsteps (by simp)
    simpa using hparts

theorem parts_of_entries {x : Attempt (List Result)}
    (h : Course c (b.entries.mapM fun e => do
      SweepWork.refuseIfCancelled
      entry b e options : SweepWork (List Result)).run tr c' x)
    (hx : ∀ f, x = .error f → reported f) : InParts (Part b options reported) tr := by
  obtain ⟨parts, rfl, hall⟩ := course_mapM h
  apply InParts.flatten
  intro part hpart
  obtain ⟨e, he, _, _, r, hcourse, hr⟩ := hall part hpart
  obtain ⟨_, f, hrefuse, -⟩ | ⟨tr1, _, _, tr2, rfl, hrefuse, hentry⟩ := course_attempt hcourse
  · exact parts_of_quiet (leavesEngines_of_refuse hrefuse)
  · exact (parts_of_quiet (leavesEngines_of_refuse hrefuse)).append
      (parts_of_entry he hentry fun f hf => hx f (hr f hf))

theorem parts_of_run {x : Attempt (List Result)} (h : Course c (run b options).run tr c' x) :
    InParts (Part b options fun f => x = .error f) tr := by
  rw [run_eq] at h
  obtain ⟨_, _, hbound, rfl⟩ | ⟨tr1, _, front, _, rfl, hbound, h1⟩ := course_attempt h
  · exact parts_of_quiet (leavesEngines_of_bound hbound)
  refine (parts_of_quiet (leavesEngines_of_bound hbound)).append ?_
  obtain ⟨_, f, hentries, rfl⟩ | ⟨tr2, _, results, tr3, rfl, hentries, hdone⟩ := course_attempt h1
  · apply parts_of_entries hentries
    rintro _ ⟨⟩
    rfl
  · obtain ⟨rfl, -⟩ := course_done hdone
    rw [List.append_nil]
    exact parts_of_entries hentries (by simp)

end

/-- Whatever becomes of a sweep, each of its steps that has made its engine closes it once if it has
come as far as its run, whatever the run and the closing come to, and not at all if it has failed
before. A run that has failed is what the step reports if the engine can be closed; if it cannot,
the step reports that instead. No worker closes an engine. -/
theorem an_engine_is_closed_once_if_its_bench_runs_and_else_never {b : Definition.Benchmark}
    {options : SweepOptions} {c c' : Bool} {tr : List Happening} {x : Attempt (List Result)}
    (h : Course c (run b options).run tr c' x) :
    InParts (Part b options fun f => x = .error f) tr ∧
      ∀ s ∈ shifts tr, ∀ t < s.threads, ∀ y ∈ s.journal t, y.1 ≠ .call .close := by
  refine ⟨parts_of_run h, ?_⟩
  intro s _ t ht y hy hclose
  cases s.target_of_call ht hy hclose

/-- The sweep that is cancelled in its only step closes the engine of that step once. -/
theorem a_cancelled_sweep_closes_its_engine :
    Course false (run twoPasses ⟨false, true, false⟩).run cancelledTrace true
      (.ok [⟨"sweep:Null", UInt64.ofNat 1, UInt64.ofNat 2,
        [rate (UInt64.ofNat 1) (UInt64.ofNat 2) cancelledShift.took], [[]],
        ["run", "stop", "remove"], false⟩]) ∧
    InParts (Part twoPasses ⟨false, true, false⟩ fun _ => False) cancelledTrace ∧
    closings cancelledTrace = 1 := by
  refine ⟨course_cancelled, ?_, rfl⟩
  simpa using (an_engine_is_closed_once_if_its_bench_runs_and_else_never course_cancelled).1

/-- The same benchmark for an engine with a client of its own. -/
def twoPassesByClient : Definition.Benchmark :=
  { twoPasses with
    entries := [⟨"dockercli", none, 1, 2, none, [], none, false, none, none, none⟩] }

def noLimit : SweepOptions := ⟨false, true, false⟩

/-- The bench of its one step. -/
def twoPassesBench : LifecycleBench :=
  ⟨⟨"sweep", "busybox", none, false, false, ["run", "stop", "remove"]⟩, .dockerCli⟩

/-- Calls that have been answered like this. -/
def answered (calls : List ((c : EngineCall) × Except EngineError c.Answer)) : List Happening :=
  calls.map fun x => .turn ⟨.act (.call x.1), x.2⟩

/-- The sweep makes its engine and tries its container until that is to be stopped. -/
def triedTrace (stopped : Except EngineError Output) : List Happening :=
  let c : Container := ⟨Name.trial, "busybox", none, false, false, none⟩
  [.turn ⟨.look, false⟩, .turn ⟨.look, false⟩, .turn ⟨.make (.plain .dockerCli), .ok ()⟩] ++
    answered [⟨.info, .ok ""⟩, ⟨.clean, .ok ()⟩,
      ⟨.create ⟨Name.trial, "busybox", none, false, false⟩, .ok c⟩, ⟨.operate .run c, .ok .silent⟩,
      ⟨.operate .stop c, stopped⟩]

/-- The sweep can neither clean its engine after the run nor close it. -/
def unclosedTrace (e e' : EngineError) : List Happening :=
  let c : Container := ⟨Name.trial, "busybox", none, false, false, none⟩
  triedTrace (.ok .silent) ++ [.turn ⟨.act (.rest EngineCall.quiescence), ()⟩] ++
    answered [⟨.operate .remove c, .ok .silent⟩] ++ [.shift cancelledShift] ++
    answered [⟨.clean, .error e⟩, ⟨.close, .error e'⟩]

/-- A sweep whose container cannot be stopped has made an engine and closes none. A sweep whose run
fails reports that its engine cannot be closed, and not how the run has failed. -/
theorem an_engine_can_stay_open_and_hide_how_a_run_fails :
    (∃ e f, Course false (run twoPassesByClient noLimit).run (triedTrace (.error e)) false
        (.error f) ∧
      .turn ⟨.make (.plain .dockerCli), .ok ()⟩ ∈ triedTrace (.error e) ∧
      closings (triedTrace (.error e)) = 0) ∧
    ∃ e e' during f f', (twoPassesBench.run 1 2).Does during (.error f) ∧
      Course false (run twoPassesByClient noLimit).run (unclosedTrace e e') true (.error f') ∧
      during <:+: unclosedTrace e e' ∧ f' ≠ f.during (.running twoPassesBench.name) := by
  constructor
  · let e : EngineError := .exec "docker" (.exited 1) ""
    have hsweep : Course false (run twoPassesByClient noLimit).run (triedTrace (.error e))
        false (.error (((Failure.ofEngine e).during (.trying "stop")).during
          (.validating twoPassesBench.name))) := by
      refine .look (.look (.outside trivial (.outside trivial (.outside trivial ?_))))
      exact .outside trivial (.outside trivial (.outside trivial .done))
    exact ⟨e, _, hsweep, by simp [triedTrace], rfl⟩
  · let e : EngineError := .exec "docker" (.exited 1) ""
    let e' : EngineError := .connect "engine" "not closed"
    let during : List Happening := .shift cancelledShift :: answered [⟨.clean, .error e⟩]
    have hrun : (twoPassesBench.run 1 2).Does during (.error
        ((Failure.ofEngine e).during (.cleaningAfter twoPassesBench.name))) :=
      ⟨true, true, _, .shift cancelledShift (.outside trivial .done)⟩
    have hsweep : Course false (run twoPassesByClient noLimit).run (unclosedTrace e e') true
        (.error ((Failure.ofEngine e').during (.closing twoPassesBench.name))) := by
      refine .look (.look (.outside trivial (.outside trivial (.outside trivial ?_))))
      refine .outside trivial (.outside trivial (.outside trivial (.outside trivial ?_)))
      refine .cancel (.outside trivial ?_)
      exact .shift cancelledShift (.outside trivial (.outside trivial .done))
    have hpart : during <:+: unclosedTrace e e' :=
      ⟨triedTrace (.ok .silent) ++ [.turn ⟨.act (.rest EngineCall.quiescence), ()⟩] ++
        answered [⟨.operate .remove ⟨Name.trial, "busybox", none, false, false, none⟩,
          .ok .silent⟩], answered [⟨.close, .error e'⟩], rfl⟩
    exact ⟨e, e', during, _, _, hrun, hsweep, hpart, by simp [Failure.during, Failure.ofEngine]⟩

end Sweep

end EngineBench
