-- The images that engines are asked for. A sweep asks for a container only with the image, or the
-- bundle, of one of its entries, and does something only with a container of that image. The check
-- of a benchmark makes sure that there is one for each entry: an image that is not empty, and a
-- bundle that is there, which may be the empty path.
import EngineBench.Proofs.Containers
import EngineBench.Proofs.SoundDefinitions

namespace EngineBench

open Dialogue Worker

/-! ## Calls with an image -/

/-- The image that a call is about. -/
def EngineCall.image? : EngineCall → Option String
  | create w => some w.image
  | operate _ c => some c.image
  | _ => none

/-- The image of a job's containers. -/
def Job.image? : Job → Option String
  | lifecycle w => some w.image
  | spawning => none

/-- An engine gives out a container with another image than that asked for. -/
def EngineCall.Swaps : (c : EngineCall) → Except EngineError c.Answer → Prop
  | create w, .ok c => c.image ≠ w.image
  | _, _ => False

namespace Engine

/-- Whatever it is answered, some work comes only to a container of the image that was asked for. -/
def Keeps (w : Wanted) (work : Work Container) : Prop :=
  work.run.Until (fun _ => False) (fun _ => True) fun made => ¬(EngineCall.create w).Swaps made

theorem keeps_bind {α : Type} {w : Wanted} {first : Work α} {f : α → Work Container}
    (hf : ∀ a, Keeps w (f a)) : Keeps w (first >>= f) := by
  apply Until.bind (until_any first.run)
  rintro (e | a) -
  · exact id
  · exact hf a

theorem keeps_return {w : Wanted} {c : Container} (h : c.image = w.image) :
    Keeps w (return c) := fun hswaps => hswaps h

theorem keeps_bundle (w : Wanted) (files : Host.Files) (command : Option String) (detached : Bool) :
    Keeps w (Work.ofExcept (Bundle.create files w command detached)) := by
  cases hcheck : Bundle.check files w.image with
  | error e =>
    simp only [Bundle.create, hcheck]
    exact id
  | ok =>
    simp only [Bundle.create, hcheck]
    exact keeps_return rfl

theorem keeps_create (host : Host.Surroundings) (e : Engine) (w : Wanted) :
    Keeps w (e.create host w) := by
  cases e with
  | dockerCli e => exact keeps_return rfl
  | docker e =>
    refine keeps_bind fun _ => keeps_bind fun _ => keeps_bind fun _ => keeps_bind fun _ => ?_
    exact keeps_bind fun _ => keeps_return rfl
  | oci e => exact keeps_bundle w _ _ _
  | ctr e => exact keeps_bundle w _ _ _
  | containerd e => exact keeps_bundle w _ _ _
  | cri e => exact keeps_bind fun _ => keeps_bind fun _ => keeps_bind fun _ => keeps_return rfl
  | null => exact keeps_return rfl

/-- The container that an engine makes has the image that was asked for. -/
theorem not_swaps_create {host : Host.Surroundings} {e : Engine} {w : Wanted}
    {turns : List (Turn Ask Ask.Answer)} {made : Except EngineError Container}
    (h : After (e.create host w).run turns (done made)) : ¬(EngineCall.create w).Swaps made := by
  rcases h.until (keeps_create host e w) with ⟨_, _, hfalse⟩ | ⟨-, hmade⟩
  · exact hfalse.elim
  · exact hmade

end Engine

/-! ## The calls of a worker -/

namespace Worker

variable {P : String → Prop}

def Names (P : String → Prop) : WorkerAsk → Prop
  | .call c => ∀ image ∈ c.image?, P image
  | _ => True

def Swaps (x : WorkerTurn) : Prop :=
  match x with
  | ⟨.call c, a⟩ => c.Swaps a.answer
  | _ => False

/-- Whether a program calls the engine for nothing but such images, unless it is given a container
of another image. -/
def KeepsTo (P : String → Prop) {α : Type} (m : Worker α) : Prop :=
  m.Until Swaps (fun x => Names P x.1) fun _ => True

theorem keepsTo_iterate {w : Workload} (hw : P w.image) (name : String) :
    KeepsTo P (iterate w name) := by
  rintro ⟨made, took⟩
  have hmake : Names P (.call (createCall w name)) := by
    rintro _ ⟨⟩
    exact hw
  cases made with
  | error e =>
    have hnone : ∀ op, ∀ c ∈ (none : Option Container), Names P (.call (.operate op c)) := nofun
    exact Or.inr ⟨hmake, (tryAll_only _ hnone _ _).until (fun _ _ hq => hq) fun _ => trivial⟩
  | ok c =>
    by_cases hc : c.image = w.image
    · have hop : ∀ op, ∀ d ∈ some c, Names P (.call (.operate op d)) := by
        rintro op _ ⟨⟩ _ ⟨⟩
        exact hc ▸ hw
      exact Or.inr ⟨hmake, (tryAll_only _ hop _ _).until (fun _ _ hq => hq) fun _ => trivial⟩
    · exact Or.inl hc

theorem keepsTo_repeated {pass : Nat → Worker Iteration} (hpass : ∀ i, KeepsTo P (pass i))
    (i left : Nat) : KeepsTo P (repeated pass i left) := by
  induction left generalizing i with
  | zero => trivial
  | succ left ih =>
    intro cancelled
    refine Or.inr ⟨trivial, ?_⟩
    cases cancelled with
    | true => trivial
    | false => exact Until.bind (hpass i) fun r _ _ => Or.inr ⟨trivial, ih (i + 1)⟩

theorem keepsTo_job {job : Job} (hjob : ∀ image ∈ job.image?, P image) (iterations t : Nat) :
    KeepsTo P (job.worker iterations t) := by
  apply keepsTo_repeated
  intro i
  cases job with
  | lifecycle w => exact keepsTo_iterate (hjob _ rfl) _
  | spawning =>
    rw [Job.iteration, spawnOnce_eq]
    exact fun _ => Or.inr ⟨trivial, trivial⟩

end Worker

/-! ## The calls of a course -/

namespace Shift

variable (s : Shift)

/-- A worker of the shift makes a call, whether it has its answer or dies of it. -/
def Calls (c : EngineCall) : Prop :=
  ∃ t < s.threads, (∃ a, ⟨.call c, a⟩ ∈ s.journal t) ∨
    ∃ m next, s.pool.members[t]? = some m ∧ m.program = .ask (.call c) next

def Swaps : Prop := ∃ t < s.threads, ∃ x ∈ s.journal t, Worker.Swaps x

theorem image_of_call {P : String → Prop} (hjob : ∀ image ∈ s.job.image?, P image)
    (hkept : ¬s.Swaps) {c : EngineCall} (hc : s.Calls c) : ∀ image ∈ c.image?, P image := by
  obtain ⟨t, ht, hc⟩ := hc
  obtain ⟨m, hm, htakes, -⟩ := Pool.steps_member s.goes (Pool.start_member ht)
  rcases htakes.program.until (keepsTo_job hjob s.iterations t) with ⟨x, hx, hswaps⟩ | ⟨hall, hleft⟩
  · exact absurd ⟨t, ht, x, hx, hswaps⟩ hkept
  · rcases hc with ⟨a, hmem⟩ | ⟨m', next, hm', hprogram⟩
    · exact hall _ hmem
    · rw [hm] at hm'
      cases hm'
      rw [hprogram] at hleft
      -- without an answer nothing can be swapped
      rcases hleft ⟨.error .cancelled, Duration.zero⟩ with hswaps | ⟨hnames, -⟩
      · cases c <;> exact hswaps.elim
      · exact hnames

end Shift

def Happening.Calls : Happening → EngineCall → Prop
  | .turn x, c => x.1 = .act (.call c)
  | .shift s, c => s.Calls c

def SweepTurn.Swaps (x : Turn SweepAsk SweepAsk.Answer) : Prop :=
  match x with
  | ⟨.act (.call c), a⟩ => c.Swaps a
  | _ => False

/-- An engine gives out a container with another image than that asked for. -/
def Happening.Swaps : Happening → Prop
  | .turn x => SweepTurn.Swaps x
  | .shift s => s.Swaps

/-- The image that a question of a sweep is about. -/
def SweepAsk.image? : SweepAsk → Option String
  | act (.call c) => c.image?
  | act (.work _ _ job) => job.image?
  | _ => none

def SweepAsk.Names (P : String → Prop) (q : SweepAsk) : Prop := ∀ image ∈ q.image?, P image

def BenchAsk.Names (P : String → Prop) : BenchAsk → Prop
  | act a => (SweepAsk.act a).Names P
  | within _ => True

namespace SweepWork

variable {α β : Type} {P : String → Prop}

/-- Whether a program is about nothing but such images, unless it is given a container of another
image. -/
def KeepsTo (P : String → Prop) (w : SweepWork α) : Prop :=
  w.run.Until SweepTurn.Swaps (fun x => x.1.Names P) fun _ => True

theorem keepsTo_of_only {w : SweepWork α} (h : w.run.Only (SweepAsk.Names P)) : w.KeepsTo P :=
  h.until (fun _ _ hq => hq) fun _ => trivial

theorem KeepsTo.bind {w : SweepWork α} {f : α → SweepWork β} (hw : w.KeepsTo P)
    (hf : ∀ a, (f a).KeepsTo P) : (w >>= f).KeepsTo P := by
  apply Until.bind hw
  rintro (e | a) -
  · trivial
  · exact hf a

/-- What is read off without a question is known in what follows. -/
theorem keepsTo_ofAttempt_bind {r : Attempt α} {f : α → SweepWork β}
    (hf : ∀ a, r = .ok a → (f a).KeepsTo P) : (ofAttempt r >>= f).KeepsTo P := by
  cases r with
  | error e => trivial
  | ok a => exact hf a rfl

theorem keepsTo_mapM {f : β → SweepWork α} {l : List β} (hf : ∀ y ∈ l, (f y).KeepsTo P) :
    (l.mapM f : SweepWork (List α)).KeepsTo P := by
  induction l with
  | nil => trivial
  | cons y l ih =>
    rw [List.mapM_cons]
    refine (hf y List.mem_cons_self).bind fun _ => ?_
    exact (ih fun z hz => hf z (List.mem_cons_of_mem y hz)).bind fun _ => trivial

end SweepWork

/-- A call in the course of such a program is about such an image. -/
theorem image_of_call {P : String → Prop} {α : Type} {w : SweepWork α} (hw : w.KeepsTo P)
    {c c' : Bool} {tr : List Happening} {x : Attempt α} (h : Course c w.run tr c' x)
    (hkept : ∀ y ∈ tr, ¬y.Swaps) {y : Happening} (hy : y ∈ tr) {call : EngineCall}
    (hcall : y.Calls call) : ∀ image ∈ call.image?, P image := by
  rcases (after_of_course h).until hw with ⟨z, hz, hswaps⟩ | ⟨hall, -⟩
  · obtain ⟨y', hy', rfl⟩ := List.mem_map.mp hz
    cases y' with
    | turn z => exact absurd hswaps (hkept _ hy')
    | shift s => exact hswaps.elim
  · have hnames := hall _ (List.mem_map_of_mem hy)
    cases y with
    | turn z =>
      obtain ⟨q, a⟩ := z
      cases hcall
      exact hnames
    | shift s => exact s.image_of_call hnames (hkept _ hy) hcall

/-! ## The images of a sweep -/

section

variable {P : String → Prop}

theorem BenchAsk.names_of_quiet {a : Act} (hquiet : a.IsQuiet) (hcall : ∀ call, a ≠ .call call) :
    (BenchAsk.act a).Names P := by
  cases a with
  | call call => exact absurd rfl (hcall call)
  | work threads iterations job => exact hquiet.elim
  | _ => nofun

namespace LifecycleBench

variable (b : LifecycleBench)

theorem prepare_names : b.prepare.run.Only (BenchAsk.Names P) :=
  .bind_attempt (BenchAttempt.call_only _ nofun) fun _ => BenchAttempt.call_only _ nofun

/-- A trial goes on with the container that it is given. -/
theorem keepsTo_validate (hb : P b.workload.image) (s : BenchState) :
    (SweepWork.bench s b.validate.run).KeepsTo P := by
  rw [validate_eq]
  intro made
  have hmake : (SweepAsk.act (.call (.create b.workload.trial))).Names P := by
    rintro _ ⟨⟩
    exact hb
  cases made with
  | error e => exact Or.inr ⟨hmake, trivial⟩
  | ok c =>
    by_cases hc : c.image = b.workload.image
    · have hop : ∀ op, (BenchAsk.act (.call (.operate op c))).Names P := by
        rintro op _ ⟨⟩
        exact hc ▸ hb
      have hleft : (SweepWork.bench s (useUp c).run).run.Only (SweepAsk.Names P) :=
        Sweep.only_of_bench (acts_attend_only (fun _ ha => ha) (useUp_only hop nofun))
      exact Or.inr ⟨hmake, SweepWork.keepsTo_of_only hleft⟩
    · exact Or.inl hc

theorem run_names (hb : P b.workload.image) (threads iterations : Nat) :
    (b.run threads iterations).run.Only (BenchAsk.Names P) := by
  have hwork : (BenchAsk.act (.work threads iterations (.lifecycle b.workload))).Names P := by
    rintro _ ⟨⟩
    exact hb
  rw [run_eq]
  refine ⟨trivial, fun mine => ?_⟩
  cases mine with
  | false => trivial
  | true => exact ⟨hwork, fun _ => ⟨nofun, fun _ => ⟨trivial, fun _ => trivial⟩⟩⟩

end LifecycleBench

theorem WatchedBench.run_names (b : WatchedBench) (hb : P b.inner.workload.image)
    (threads iterations : Nat) : (b.run threads iterations).run.Only (BenchAsk.Names P) := by
  rw [run_eq]
  refine ⟨trivial, fun p => ?_⟩
  beta_reduce
  split
  · trivial
  · refine Only.bind ?_ fun found => ?_
    · rw [source_eq]
      refine ⟨trivial, fun has => ?_⟩
      cases has with
      | true => trivial
      | false =>
        have hfind : b.findSource.run.Only (BenchAsk.Names P) :=
          b.findSource_only fun _ hquiet hcall => BenchAsk.names_of_quiet hquiet hcall
        exact hfind.bind fun _ => trivial
    · cases found with
      | error e => trivial
      | ok source =>
        refine ⟨nofun, fun task => Only.bind (b.inner.run_names hb threads iterations) ?_⟩
        exact fun _ => ⟨nofun, fun _ => ⟨trivial, fun _ => trivial⟩⟩

theorem SpawningBench.run_names (threads iterations : Nat) :
    (SpawningBench.run threads iterations).run.Only (BenchAsk.Names P) := by
  refine ⟨trivial, fun mine => ?_⟩
  cases mine with
  | false => trivial
  | true => exact ⟨nofun, fun _ => ⟨trivial, fun _ => trivial⟩⟩

namespace Sweep

variable {inner : LifecycleBench} {e : Definition.Entry} {options : SweepOptions}

theorem keepsTo_refuse : SweepWork.refuseIfCancelled.KeepsTo P := by
  intro cancelled
  refine Or.inr ⟨nofun, ?_⟩
  cases cancelled <;> trivial

theorem keepsTo_outcome (b : Bench) (s : BenchState) (threads iterations : Nat) :
    (outcome b s threads iterations).KeepsTo P := by
  obtain ⟨step, hstep⟩ := outcome_eq b s threads iterations
  unfold SweepWork.KeepsTo
  rw [hstep]
  trivial

theorem keepsTo_stage {α : Type} {w : BenchAttempt α} (hw : w.run.Only (BenchAsk.Names P)) :
    (SweepWork.stage w).KeepsTo P := by
  apply SweepWork.keepsTo_of_only
  refine .bind_attempt (only_of_bench ?_) fun _ => trivial
  exact acts_attend_only (fun _ ha => ha) hw

/-- A step is about the image of its workload. -/
theorem keepsTo_step (hinner : P inner.workload.image) (config : EngineConfig)
    (threads iterations : Nat) :
    (step config inner (benchFor e options inner) threads iterations).KeepsTo P := by
  have hmake : (SweepWork.question (.make config)).KeepsTo P :=
    SweepWork.keepsTo_of_only ⟨nofun, fun _ => trivial⟩
  have hvalidate : (SweepWork.bench (.start false)
      (benchFor e options inner).validate.run).KeepsTo P := by
    unfold benchFor
    split <;> exact inner.keepsTo_validate hinner _
  have hrun : ((benchFor e options inner).run threads iterations).run.Only
      (BenchAsk.Names P) := by
    unfold benchFor
    split
    · exact WatchedBench.run_names _ hinner threads iterations
    · exact inner.run_names hinner threads iterations
  have hclose : (SweepWork.stage (benchFor e options inner).close).KeepsTo P := by
    rw [close_benchFor]
    exact keepsTo_stage (BenchAttempt.call_only _ nofun)
  rw [step_eq]
  refine keepsTo_refuse.bind fun _ => hmake.bind fun _ => ?_
  refine SweepWork.keepsTo_ofAttempt_bind fun _ _ => ?_
  refine (keepsTo_stage inner.prepare_names).bind fun _ => hvalidate.bind fun _ => ?_
  refine SweepWork.keepsTo_ofAttempt_bind fun _ _ => ?_
  have hbench : (SweepWork.bench (.start false)
      ((benchFor e options inner).run threads iterations).run).KeepsTo P :=
    SweepWork.keepsTo_of_only (only_of_bench (acts_attend_only (fun _ ha => ha) hrun))
  refine hbench.bind fun _ => ?_
  refine hclose.bind fun _ => SweepWork.keepsTo_ofAttempt_bind fun _ _ => ?_
  exact keepsTo_outcome _ _ _ _

theorem keepsTo_limit (threads iterations : Nat) : (limit threads iterations).KeepsTo P :=
  SweepWork.keepsTo_of_only
    (limit_only (fun _ ha => ha) (fun k => SpawningBench.run_names k iterations) threads)

/-- A sweep is about the images of its entries. -/
theorem keepsTo_run {b : Definition.Benchmark} (hP : ∀ e ∈ b.entries, ∀ w,
    b.workload e options.trace = .ok w → P w.image) : (run b options).KeepsTo P := by
  rw [run_eq]
  refine SweepWork.KeepsTo.bind ?_ fun _ => SweepWork.KeepsTo.bind ?_ fun _ => trivial
  · unfold bound
    split
    · trivial
    · rw [← bind_pure_comp]
      exact (keepsTo_limit _ _).bind fun _ => trivial
  · apply SweepWork.keepsTo_mapM
    intro e he
    refine keepsTo_refuse.bind fun _ => SweepWork.keepsTo_ofAttempt_bind fun config _ => ?_
    refine SweepWork.keepsTo_ofAttempt_bind fun w hw => ?_
    have himage : P w.image := hP e he w hw
    refine (SweepWork.keepsTo_mapM fun k _ => ?_).bind fun _ => trivial
    exact keepsTo_step himage config _ _

end Sweep

end

/-! ## The images of a benchmark -/

namespace Definition.Benchmark

variable {b : Benchmark} {e : Entry}

theorem imageFor_eq_empty_iff (himage : b.image ≠ "") (k : Kind) :
    b.imageFor k = some "" ↔ k.needsBundle = true ∧ b.rootfs = some "" := by
  unfold imageFor
  by_cases hbundle : k.needsBundle = true
  · simp [hbundle]
  · simp [hbundle, himage]

/-- A checked benchmark has a workload for each of its entries. -/
theorem exists_workload (hcheck : b.check = .ok ()) (he : e ∈ b.entries) (trace : Bool) :
    ∃ k w, e.Names k ∧ b.workload e trace = .ok w ∧ b.imageFor k = some w.image := by
  obtain ⟨k, image, hk, himage⟩ := ((check_eq_ok_iff.mp hcheck).entries e he).exists_image
  exact ⟨k, _, hk, workload_of_names hk himage trace, himage⟩

end Definition.Benchmark

namespace Sweep

open Definition

/-- A checked benchmark has a workload for each entry, and its image is empty only if it is a bundle
whose path is. Without such an entry no sweep calls an engine for an empty image, neither for a
container nor with one, as long as the engine makes containers of the image that it was asked for.
Every engine does. -/
theorem a_checked_benchmark_runs_nothing_empty_but_a_bundle {b : Benchmark}
    (hcheck : b.check = .ok ()) :
    (∀ e ∈ b.entries, ∀ trace, ∃ k w, e.Names k ∧ b.workload e trace = .ok w ∧
      b.imageFor k = some w.image ∧
        (w.image = "" ↔ k.needsBundle = true ∧ b.rootfs = some "")) ∧
    ((b.rootfs = some "" → ∀ e ∈ b.entries, ∀ k, e.Names k → k.needsBundle = false) →
      ∀ (options : SweepOptions) (c c' : Bool) (tr : List Happening) (x : Attempt (List Result)),
        Course c (run b options).run tr c' x → (∀ y ∈ tr, ¬y.Swaps) →
          ∀ y ∈ tr, ∀ call, y.Calls call → ∀ image ∈ call.image?, image ≠ "") ∧
    ∀ (host : Host.Surroundings) (e : Engine) (w : Wanted) (turns : List (Turn Ask Ask.Answer))
      (made : Except EngineError Container), After (e.create host w).run turns (done made) →
        ¬(EngineCall.create w).Swaps made := by
  have himage := (Benchmark.check_eq_ok_iff.mp hcheck).image
  have hempty : ∀ {k : Kind} {w : Workload}, b.imageFor k = some w.image →
      (w.image = "" ↔ k.needsBundle = true ∧ b.rootfs = some "") := by
    intro k w hk
    rw [← Benchmark.imageFor_eq_empty_iff himage, hk, Option.some_inj]
  refine ⟨?_, ?_, fun _ _ _ _ _ => Engine.not_swaps_create⟩
  · intro e he trace
    obtain ⟨k, w, hk, hw, hfor⟩ := Benchmark.exists_workload hcheck he trace
    exact ⟨k, w, hk, hw, hfor, hempty hfor⟩
  · intro hbundles options c c' tr x h hkept y hy call hcall
    refine image_of_call (keepsTo_run fun e he w hw => ?_) h hkept hy hcall
    obtain ⟨k, w', hk, hw', hfor⟩ := Benchmark.exists_workload hcheck he options.trace
    rw [hw] at hw'
    cases hw'
    intro hnone
    obtain ⟨hneeds, hrootfs⟩ := (hempty hfor).mp hnone
    rw [hbundles hrootfs e he k hk] at hneeds
    cases hneeds

/-! ## A bundle in some directory -/

/-- A benchmark of the runtime that runs bundles. -/
def bundled (rootfs : String) : Benchmark :=
  { twoPasses with
    rootfs := some rootfs
    entries := [⟨"runc", none, 1, 2, none, [], none, false, none, none, none⟩] }

/-- The container that its trial asks for. -/
def bundledTrial (rootfs : String) : Wanted := ⟨Name.trial, rootfs, none, false, false⟩

/-- A sweep whose engine does not make the container of the trial. -/
def bundledTrace (rootfs : String) (e : EngineError) : List Happening :=
  [.turn ⟨.look, false⟩, .turn ⟨.look, false⟩, .turn ⟨.make (.plain .runc), .ok ()⟩] ++
    answered [⟨.info, .ok ""⟩, ⟨.clean, .ok ()⟩, ⟨.create (bundledTrial rootfs), .error e⟩]

theorem course_of_bundled (rootfs : String) (e : EngineError) :
    ∃ f, Course false (run (bundled rootfs) noLimit).run (bundledTrace rootfs e) false
      (.error f) := by
  let bench : LifecycleBench :=
    ⟨⟨"sweep", rootfs, none, false, false, ["run", "stop", "remove"]⟩, .runc⟩
  refine ⟨((Failure.ofEngine e).during (.trying "create")).during (.validating bench.name), ?_⟩
  refine .look (.look (.outside trivial (.outside trivial (.outside trivial ?_))))
  exact .outside trivial .done

/-- The bundle of a sound benchmark is asked for by its path. -/
theorem a_bundle_in_a_directory_is_asked_for_by_its_path :
    (bundled "/bundle").check = .ok () ∧ (bundled "/bundle").rootfs ≠ some "" ∧
    (∀ e ∈ (bundled "/bundle").entries, ∃ w, (bundled "/bundle").workload e false = .ok w ∧
      w.image ≠ "") ∧
    ∃ e f, Course false (run (bundled "/bundle") noLimit).run (bundledTrace "/bundle" e) false
        (.error f) ∧
      (∀ y ∈ bundledTrace "/bundle" e, ¬y.Swaps) ∧
      (∃ y ∈ bundledTrace "/bundle" e, y.Calls (.create (bundledTrial "/bundle"))) ∧
      ∀ y ∈ bundledTrace "/bundle" e, ∀ call, y.Calls call → call.image? ≠ some "" := by
  have hcheck : (bundled "/bundle").check = .ok () := rfl
  have hrootfs : (bundled "/bundle").rootfs ≠ some "" := by decide
  obtain ⟨hworkloads, hcalls, -⟩ := a_checked_benchmark_runs_nothing_empty_but_a_bundle hcheck
  refine ⟨hcheck, hrootfs, ?_, ?_⟩
  · intro e he
    obtain ⟨k, w, -, hw, -, hempty⟩ := hworkloads e he false
    exact ⟨w, hw, fun hnone => hrootfs (hempty.mp hnone).2⟩
  · let e : EngineError := .exec "runc" (.exited 1) ""
    obtain ⟨f, hcourse⟩ := course_of_bundled "/bundle" e
    have hkept : ∀ y ∈ bundledTrace "/bundle" e, ¬y.Swaps := by
      simp [bundledTrace, answered, Happening.Swaps, SweepTurn.Swaps, EngineCall.Swaps]
    have hmem : .turn ⟨.act (.call (.create (bundledTrial "/bundle"))), .error e⟩ ∈
        bundledTrace "/bundle" e := List.mem_append_right _ (.tail _ (.tail _ (.head _)))
    refine ⟨e, f, hcourse, hkept, ⟨_, hmem, rfl⟩, ?_⟩
    intro y hy call hcall hnone
    exact hcalls (fun h => absurd h hrootfs) _ _ _ _ _ hcourse hkept y hy call hcall _ hnone rfl

/-- A host in whose directory there is a configuration of a container. -/
def hostWithConfig : Host.Surroundings := ⟨⟨"/work", [(["config.json"], .file [] 0o644)]⟩, []⟩

/-- A benchmark whose bundle has no path is accepted all the same, and its engine is asked for it.
Where there is a configuration in the directory one is in, the runtime is told to run it. -/
theorem a_bundle_without_a_path_is_accepted_and_asked_for :
    (bundled "").check = .ok () ∧
    (∃ e ∈ (bundled "").entries, ∃ w, (bundled "").workload e false = .ok w ∧ w.image = "") ∧
    (∃ e f, Course false (run (bundled "") noLimit).run (bundledTrace "" e) false (.error f) ∧
      ∃ y ∈ bundledTrace "" e, y.Calls (.create (bundledTrial "")) ∧
        (EngineCall.create (bundledTrial "")).image? = some "") ∧
    ∃ c : Container, Bundle.create hostWithConfig.files (bundledTrial "") none false = .ok c ∧
      (OciRuntime.mk .runc "/bin/runc").runArgs c = ["run", "--bundle", "", Name.trial] := by
  refine ⟨rfl, ⟨_, .head _, _, rfl, rfl⟩, ?_, ?_⟩
  · let e : EngineError := .exec "runc" (.exited 1) ""
    obtain ⟨f, hcourse⟩ := course_of_bundled "" e
    exact ⟨e, f, hcourse, _, List.mem_append_right _ (.tail _ (.tail _ (.head _))), rfl, rfl⟩
  · have hfile : hostWithConfig.files.isFile (Bundle.configPath "") = true := by
      have hplain : (Bundle.configPath "").contains '\x00' = false := by
        simp [Bundle.configPath, Host.join]
      rw [Host.Files.isFile, Host.Files.findNode, Host.Files.find, if_neg (by decide),
        if_neg (by simp [hplain])]
      rfl
    refine ⟨⟨Name.trial, "", none, false, false, none⟩, ?_, by rfl⟩
    have hcheck : Bundle.check hostWithConfig.files "" = .ok () := if_pos hfile
    simp only [Bundle.create, bundledTrial, hcheck]
    rfl

end Sweep

end EngineBench
