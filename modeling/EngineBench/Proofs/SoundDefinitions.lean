-- Definitions of benchmarks: when one is sound, what is reported about one that is not, and what
-- can be relied on once it is checked. The program checks all of a definition before it does
-- anything else, so that nothing has happened yet when the last entry turns out to be wrong.
import EngineBench.Cli.Program
import EngineBench.Proofs.Courses

namespace EngineBench

open Definition

/-! ## The engine that an entry names -/

theorem Kind.word_injective {k k' : Kind} (h : k.word.toList = k'.word.toList) : k = k' := by
  revert h
  cases k <;> cases k' <;> decide

/-- The entry names the kind of engine, letter case aside. -/
def Definition.Entry.Names (e : Entry) (k : Kind) : Prop :=
  Text.lowercase e.engine.toList = k.word.toList

instance (e : Entry) (k : Kind) : Decidable (e.Names k) := inferInstanceAs (Decidable (_ = _))

theorem Kind.parse?_eq_some_iff {text : String} {k : Kind} :
    Kind.parse? text = some k ↔ Text.lowercase text.toList = k.word.toList := by
  constructor
  · intro h
    have hword := List.find?_some h
    exact eq_of_beq hword
  · intro h
    have hfound : (Kind.parse? text).isSome := by
      rw [Kind.parse?, List.find?_isSome]
      exact ⟨k, mem_all k, beq_iff_eq.mpr h⟩
    obtain ⟨k', hk'⟩ := Option.isSome_iff_exists.mp hfound
    have hword := List.find?_some hk'
    rw [hk', word_injective ((eq_of_beq hword).symm.trans h)]

namespace Definition

namespace Entry

variable {e : Entry} {k : Kind}

theorem kind_eq_ok_iff : e.kind = .ok k ↔ e.Names k := by
  rw [Names, ← Kind.parse?_eq_some_iff, kind]
  cases Kind.parse? e.engine <;> simp

theorem kind_eq_error {f : Failure} (h : e.kind = .error f) :
    (∀ k, ¬e.Names k) ∧
      f = (Failure.ofEngine (.config (.unknownKind e.engine))).during .choosingEngine := by
  refine ⟨fun k hk => ?_, ?_⟩
  · rw [kind_eq_ok_iff.mpr hk] at h
    cases h
  · rw [kind] at h
    split at h <;> cases h
    rfl

end Entry

/-! ## Sound definitions -/

namespace Benchmark

variable {b : Benchmark} {e : Entry} {f : Failure}

/-- Nothing is wrong with an entry: it names an engine, there is a bundle if the engine runs one,
and there is work to do. -/
structure Admits (b : Benchmark) (e : Entry) : Prop where
  named : ∃ k, e.Names k ∧ (k.needsBundle = true → b.rootfs.isSome = true)
  threads : 1 ≤ e.threads
  iterations : 1 ≤ e.iterations

structure IsSound (b : Benchmark) : Prop where
  image : b.image ≠ ""
  commands : b.commands ≠ []
  entries : ∀ e ∈ b.entries, b.Admits e

/-- What is reported about an entry that is not admitted. -/
inductive EntryFault (b : Benchmark) (e : Entry) : Failure → Prop
  | unknownKind : (∀ k, ¬e.Names k) →
      EntryFault b e ((Failure.ofEngine (.config (.unknownKind e.engine))).during .choosingEngine)
  | noBundle {k : Kind} : e.Names k → k.needsBundle = true → b.rootfs = none →
      EntryFault b e (.ofProblem (.noBundle e.engine))
  | noWork {k : Kind} : e.Names k → (k.needsBundle = true → b.rootfs ≠ none) →
      e.threads = 0 ∨ e.iterations = 0 → EntryFault b e (.ofProblem (.noWork e.engine))

/-- What is reported about a definition that is not sound: whatever is wrong first. -/
inductive FirstFault (b : Benchmark) : Failure → Prop
  | noImage : b.image = "" → FirstFault b (.ofProblem .noImage)
  | noCommands : b.image ≠ "" → b.commands = [] → FirstFault b (.ofProblem (.noCommands b.name))
  | entry {before after : List Entry} {e : Entry} {f : Failure} : b.image ≠ "" → b.commands ≠ [] →
      b.entries = before ++ e :: after → (∀ d ∈ before, b.Admits d) → b.EntryFault e f →
      FirstFault b f

/-! ## One entry -/

/-- The check of an entry whose engine is known. -/
theorem checkEntry_of_names {k : Kind} (h : e.Names k) :
    b.checkEntry e =
      if k.needsBundle = true ∧ b.rootfs = none then .error (.ofProblem (.noBundle e.engine))
      else if e.threads = 0 ∨ e.iterations = 0 then .error (.ofProblem (.noWork e.engine))
      else .ok () := by
  have hkind := Entry.kind_eq_ok_iff.mpr h
  by_cases hbundle : k.needsBundle = true ∧ b.rootfs = none
  · simp [checkEntry, hkind, hbundle, bind, Except.bind, throw, throwThe, MonadExceptOf.throw]
  · by_cases hwork : e.threads = 0 ∨ e.iterations = 0
    · simp [checkEntry, hkind, hbundle, hwork, bind, Except.bind, throw, throwThe,
        MonadExceptOf.throw]
    · simp [checkEntry, hkind, hbundle, hwork, bind, Except.bind, pure, Except.pure]

theorem checkEntry_eq_ok_iff : b.checkEntry e = .ok () ↔ b.Admits e := by
  constructor
  · intro h
    cases hkind : e.kind with
    | error f =>
      rw [checkEntry, hkind] at h
      cases h
    | ok k =>
      have hk := Entry.kind_eq_ok_iff.mp hkind
      rw [checkEntry_of_names hk] at h
      split at h
      · cases h
      · next hbundle =>
        split at h
        · cases h
        · next hwork =>
          refine ⟨⟨k, hk, fun hneeds => ?_⟩, by omega, by omega⟩
          rw [Option.isSome_iff_ne_none]
          exact fun hnone => hbundle ⟨hneeds, hnone⟩
  · rintro ⟨⟨k, hk, hneeds⟩, hthreads, hiterations⟩
    have hbundle : ¬(k.needsBundle = true ∧ b.rootfs = none) := by
      rintro ⟨h, hnone⟩
      rw [hnone] at hneeds
      cases hneeds h
    rw [checkEntry_of_names hk, if_neg hbundle, if_neg (by omega)]

theorem checkEntry_eq_error_iff : b.checkEntry e = .error f ↔ b.EntryFault e f := by
  constructor
  · intro h
    cases hkind : e.kind with
    | error f' =>
      obtain ⟨hunknown, rfl⟩ := Entry.kind_eq_error hkind
      rw [checkEntry, hkind] at h
      cases h
      exact .unknownKind hunknown
    | ok k =>
      have hk := Entry.kind_eq_ok_iff.mp hkind
      rw [checkEntry_of_names hk] at h
      split at h
      · next hbundle =>
        cases h
        exact .noBundle hk hbundle.1 hbundle.2
      · next hbundle =>
        split at h
        · next hwork =>
          cases h
          exact .noWork hk (fun hneeds hnone => hbundle ⟨hneeds, hnone⟩) hwork
        · cases h
  · intro h
    cases h with
    | unknownKind hunknown =>
      cases hkind : e.kind with
      | error f =>
        rw [checkEntry, hkind, (Entry.kind_eq_error hkind).2]
        rfl
      | ok k => exact (hunknown k (Entry.kind_eq_ok_iff.mp hkind)).elim
    | noBundle hk hneeds hnone => rw [checkEntry_of_names hk, if_pos ⟨hneeds, hnone⟩]
    | noWork hk hneeds hwork =>
      rw [checkEntry_of_names hk, if_neg (fun h => hneeds h.1 h.2), if_pos hwork]

end Benchmark

/-! ## One check after the other -/

section Checks

variable {α ε : Type} {f : α → Except ε Unit} {l : List α} {err : ε}

theorem forM_eq_ok_iff : l.forM f = .ok () ↔ ∀ x ∈ l, f x = .ok () := by
  induction l with
  | nil => exact ⟨fun _ _ hx => (nomatch hx), fun _ => rfl⟩
  | cons y l ih =>
    rw [show (y :: l).forM f = (f y >>= fun _ => l.forM f) from rfl, List.forall_mem_cons, ← ih]
    cases hy : f y with
    | error e => exact ⟨fun h => (nomatch h), fun h => (nomatch h.1)⟩
    | ok u => exact ⟨fun h => ⟨rfl, h⟩, fun h => h.2⟩

/-- Checks fail with the first one that fails, all in front of it being passed. -/
theorem forM_eq_error_iff : l.forM f = .error err ↔ ∃ before x after, l = before ++ x :: after ∧
    (∀ y ∈ before, f y = .ok ()) ∧ f x = .error err := by
  induction l with
  | nil =>
    refine ⟨fun h => (nomatch h), ?_⟩
    rintro ⟨before, x, after, h, -⟩
    cases before <;> cases h
  | cons y l ih =>
    rw [show (y :: l).forM f = (f y >>= fun _ => l.forM f) from rfl]
    cases hy : f y with
    | error e =>
      constructor
      · intro h
        cases h
        exact ⟨[], y, l, rfl, nofun, hy⟩
      · rintro ⟨before, x, after, hl, hbefore, hx⟩
        cases before with
        | nil =>
          cases hl
          rw [← hx, hy]
          rfl
        | cons z before =>
          cases hl
          have := hbefore y List.mem_cons_self
          rw [hy] at this
          cases this
    | ok u =>
      rw [show ((Except.ok u : Except ε Unit) >>= fun _ => l.forM f) = l.forM f from rfl, ih]
      constructor
      · rintro ⟨before, x, after, rfl, hbefore, hx⟩
        exact ⟨y :: before, x, after, rfl, List.forall_mem_cons.mpr ⟨hy, hbefore⟩, hx⟩
      · rintro ⟨before, x, after, hl, hbefore, hx⟩
        cases before with
        | nil =>
          cases hl
          rw [hy] at hx
          cases hx
        | cons z before =>
          cases hl
          exact ⟨before, x, after, rfl, (List.forall_mem_cons.mp hbefore).2, hx⟩

end Checks

/-! ## The whole definition -/

namespace Benchmark

variable {b : Benchmark} {e : Entry} {f : Failure}

theorem check_of_no_image (h : b.image = "") : b.check = .error (.ofProblem .noImage) := by
  rw [check, if_pos (String.isEmpty_iff.mpr h)]
  rfl

theorem check_of_no_commands (himage : b.image ≠ "") (h : b.commands = []) :
    b.check = .error (.ofProblem (.noCommands b.name)) := by
  rw [check, if_neg (mt String.isEmpty_iff.mp himage), h]
  rfl

/-- With an image and commands, the entries decide. -/
theorem check_of_entries (himage : b.image ≠ "") (hcommands : b.commands ≠ []) :
    b.check = b.entries.forM b.checkEntry := by
  rw [check, if_neg (mt String.isEmpty_iff.mp himage),
    if_neg (mt List.isEmpty_iff.mp hcommands)]

theorem check_eq_ok_iff : b.check = .ok () ↔ b.IsSound := by
  by_cases himage : b.image = ""
  · rw [check_of_no_image himage]
    exact ⟨fun h => (nomatch h), fun h => (h.image himage).elim⟩
  by_cases hcommands : b.commands = []
  · rw [check_of_no_commands himage hcommands]
    exact ⟨fun h => (nomatch h), fun h => (h.commands hcommands).elim⟩
  rw [check_of_entries himage hcommands, forM_eq_ok_iff]
  simp only [checkEntry_eq_ok_iff]
  exact ⟨fun h => ⟨himage, hcommands, h⟩, IsSound.entries⟩

theorem check_eq_error_iff : b.check = .error f ↔ b.FirstFault f := by
  by_cases himage : b.image = ""
  · rw [check_of_no_image himage]
    constructor
    · intro h
      cases h
      exact .noImage himage
    · intro h
      cases h with
      | noImage => rfl
      | noCommands h => exact (h himage).elim
      | entry h => exact (h himage).elim
  by_cases hcommands : b.commands = []
  · rw [check_of_no_commands himage hcommands]
    constructor
    · intro h
      cases h
      exact .noCommands himage hcommands
    · intro h
      cases h with
      | noImage h => exact (himage h).elim
      | noCommands => rfl
      | entry _ h => exact (h hcommands).elim
  rw [check_of_entries himage hcommands, forM_eq_error_iff]
  simp only [checkEntry_eq_ok_iff, checkEntry_eq_error_iff]
  constructor
  · rintro ⟨before, e, after, hentries, hbefore, hfault⟩
    exact .entry himage hcommands hentries hbefore hfault
  · intro h
    cases h with
    | noImage h => exact (himage h).elim
    | noCommands _ h => exact (hcommands h).elim
    | entry _ _ hentries hbefore hfault => exact ⟨_, _, _, hentries, hbefore, hfault⟩

/-- An entry that is not admitted, wherever it stands, makes the check fail. -/
theorem check_of_not_admits (he : e ∈ b.entries) (h : ¬b.Admits e) : ∃ f, b.check = .error f := by
  cases hcheck : b.check with
  | error f => exact ⟨f, rfl⟩
  | ok u => exact (h ((check_eq_ok_iff.mp hcheck).entries e he)).elim

/-! ## What a check is good for -/

/-- A text gives the definition that is written in it, if that is sound. -/
theorem ofText_eq_ok_iff {language : Language} {text : String} :
    ofText language text = .ok b ↔ language.decode text.toList = .ok b ∧ b.check = .ok () := by
  rw [ofText]
  cases hdecode : language.decode text.toList with
  | error fault => exact ⟨fun h => (nomatch h), fun h => (nomatch h.1)⟩
  | ok d =>
    cases hcheck : d.check with
    | error f =>
      simp only [hcheck, bind, Except.bind, reduceCtorEq, Except.ok.injEq, false_iff, not_and]
      rintro rfl
      rw [hcheck]
      exact nofun
    | ok u =>
      simp only [hcheck, bind, Except.bind, pure, Except.pure, Except.ok.injEq]
      constructor
      · rintro rfl
        exact ⟨rfl, hcheck⟩
      · exact fun h => h.1

theorem ofText_of_not_sound {language : Language} {text : String}
    (hdecode : language.decode text.toList = .ok b) (hcheck : b.check = .error f) :
    ofText language text = .error f := by
  simp only [ofText, hdecode, hcheck, bind, Except.bind]

theorem ofFile_of_text {files : Host.Files} {path text : String}
    (h : files.readText path = .ok text) :
    ofFile files path = Attempt.during (.loading path) (ofText (languageOf path) text) := by
  rw [Host.Files.readText] at h
  simp only [ofFile, ofBytes, h]

theorem check_of_ofFile {files : Host.Files} {path : String} (h : ofFile files path = .ok b) :
    b.check = .ok () := by
  rw [ofFile, ofBytes] at h
  split at h
  · cases h
  · next text _ =>
    cases htext : ofText (languageOf path) text with
    | error f =>
      rw [htext] at h
      cases h
    | ok d =>
      rw [htext] at h
      cases h
      exact (ofText_eq_ok_iff.mp htext).2

theorem engineConfig_of_names {k : Kind} (h : e.Names k) :
    e.engineConfig = .ok ⟨k, e.clientPath, e.logDriver, e.logOptions, e.streamStats, e.sandboxFile,
      e.containerFile⟩ := by
  simp only [Entry.engineConfig, Entry.kind_eq_ok_iff.mpr h, bind, Except.bind, pure, Except.pure]

/-- The image or bundle that an engine of some kind runs. -/
def imageFor (b : Benchmark) (k : Kind) : Option String :=
  if k.needsBundle then b.rootfs else some b.image

theorem workload_of_names {k : Kind} {image : String} (h : e.Names k)
    (himage : b.imageFor k = some image) (trace : Bool) :
    b.workload e trace = .ok ⟨b.name, image, b.command, b.detached, trace, b.commands⟩ := by
  rw [imageFor] at himage
  split at himage
  · next hbundle =>
    simp only [workload, Entry.kind_eq_ok_iff.mpr h, hbundle, himage, if_true, bind, Except.bind,
      pure, Except.pure]
  · next hbundle =>
    cases himage
    simp only [workload, Entry.kind_eq_ok_iff.mpr h, hbundle, bind, Except.bind, pure, Except.pure]
    rfl

theorem Admits.exists_image (h : b.Admits e) :
    ∃ k image, e.Names k ∧ b.imageFor k = some image := by
  obtain ⟨k, hk, hbundle⟩ := h.named
  cases hneeds : k.needsBundle with
  | false => exact ⟨k, b.image, hk, by rw [imageFor, hneeds]; rfl⟩
  | true =>
    obtain ⟨bundle, hrootfs⟩ := Option.isSome_iff_exists.mp (hbundle hneeds)
    exact ⟨k, bundle, hk, by rw [imageFor, hneeds, hrootfs]; rfl⟩

end Benchmark

end Definition

/-! ## The program -/

namespace Cli

open Rehearsal

/-- What the program asks of its surroundings once it knows its arguments: nothing to read a file
with a definition, then a sweep. -/
def work (files : Host.Files) (file : String) (options : SweepOptions) :
    SweepWork (List Result) := do
  let b ← SweepWork.ofAttempt (Benchmark.ofFile files file)
  Sweep.run b options

/-- A host before anything is asked of it. -/
def untouched (script : Host.Script) : World HostStage := .start (.start script [])

/-- Does on a host what the program asks for, and gives the host as it is left. -/
def rehearse (script : Host.Script) (file : String) (options : SweepOptions) :
    Attempt (List Result) × World HostStage :=
  (World.sweep onHost (work script.host.files file options)).run (untouched script)

/-- How the program ends when its sweep has ended. -/
def endingOf (colour : Bool) (options : SweepOptions) : Attempt (List Result) → Ending
  | .error f => .ofFailure f
  | .ok results => ⟨0, Report.text colour options.overhead results, ""⟩

theorem run_of_arguments {words : List String} {level file : String} {options : SweepOptions}
    (h : Arguments.read words = .ok ⟨level, .run file options⟩) (colour : Bool)
    (script : Host.Script) :
    run colour script words = endingOf colour options (rehearse script file options).1 := by
  simp only [run, h, rehearse, work]
  cases Benchmark.ofFile script.host.files file with
  | error f => rfl
  | ok b =>
    rw [show (do Sweep.run (← SweepWork.ofAttempt (Except.ok b)) options) = Sweep.run b options from
      rfl, runBenchmark]
    rfl

/-- Without a definition the program asks for nothing. -/
theorem work_of_error {files : Host.Files} {file : String} {f : Failure}
    (h : Benchmark.ofFile files file = .error f) (options : SweepOptions) :
    (work files file options).run = .done (.error f) := by
  rw [work, h]
  rfl

/-- A check of a definition looks at everything: it passes exactly the sound definitions and reports
the first fault of any other. Whatever is loaded has passed it, and then there is an engine and a
workload for each entry. With an entry that is not admitted, wherever it stands, the program fails,
asks its surroundings for nothing, and leaves the host as it was. -/
theorem a_definition_is_checked_in_full_before_anything_is_asked_of_an_engine :
    (∀ b : Benchmark, (b.check = .ok () ↔ b.IsSound) ∧ ∀ f, b.check = .error f ↔ b.FirstFault f) ∧
    (∀ language text b, Benchmark.ofText language text = .ok b → b.check = .ok ()) ∧
    (∀ files path b, Benchmark.ofFile files path = .ok b → b.check = .ok ()) ∧
    (∀ b : Benchmark, b.check = .ok () → ∀ e ∈ b.entries, ∀ trace, ∃ config w,
      e.engineConfig = .ok config ∧ b.workload e trace = .ok w ∧ e.Names config.kind ∧
      b.imageFor config.kind = some w.image) ∧
    ∀ (colour : Bool) (script : Host.Script) (words : List String) (level file text : String)
      (options : SweepOptions) (b : Benchmark) (e : Entry),
      Arguments.read words = .ok ⟨level, .run file options⟩ →
      script.host.files.readText file = .ok text →
      (languageOf file).decode text.toList = .ok b → e ∈ b.entries → ¬b.Admits e →
      run colour script words = endingOf colour options (rehearse script file options).1 ∧
      ∃ f, b.FirstFault f ∧
        rehearse script file options = (.error (f.during (.loading file)), untouched script) ∧
        ∀ c tr c' x, Course c (work script.host.files file options).run tr c' x → tr = [] := by
  refine ⟨fun b => ⟨Benchmark.check_eq_ok_iff, fun f => Benchmark.check_eq_error_iff⟩, ?_, ?_, ?_,
    ?_⟩
  · intro language text b h
    exact (Benchmark.ofText_eq_ok_iff.mp h).2
  · intro files path b h
    exact Benchmark.check_of_ofFile h
  · intro b hcheck e he trace
    have hadmits := (Benchmark.check_eq_ok_iff.mp hcheck).entries e he
    obtain ⟨k, image, hk, himage⟩ := hadmits.exists_image
    exact ⟨_, _, Benchmark.engineConfig_of_names hk, Benchmark.workload_of_names hk himage trace,
      hk, himage⟩
  · intro colour script words level file text options b e hwords htext hdecode he hadmits
    obtain ⟨f, hcheck⟩ := Benchmark.check_of_not_admits he hadmits
    have hfile : Benchmark.ofFile script.host.files file = .error (f.during (.loading file)) := by
      rw [Benchmark.ofFile_of_text htext, Benchmark.ofText_of_not_sound hdecode hcheck]
      rfl
    have hwork := work_of_error hfile options
    refine ⟨run_of_arguments hwords colour script, f, Benchmark.check_eq_error_iff.mp hcheck, ?_,
      ?_⟩
    · rw [rehearse, World.sweep, hwork]
      rfl
    · intro c tr c' x hcourse
      rw [hwork] at hcourse
      exact (course_done hcourse).1

/-- A definition whose last entry names no engine, as a text. -/
def lastEntryWrong : String :=
  "name: x\nimage: busybox\ndrivers:\n  - type: Null\n    threads: 1\n    iterations: 1\n" ++
  "  - type: podman\n    threads: 1\n    iterations: 1\ncommands: [run]\n"

/-- What is written there. -/
def wrongInTheEnd : Benchmark where
  name := "x"
  image := "busybox"
  rootfs := none
  command := none
  detached := false
  entries := [⟨"Null", none, 1, 1, none, [], none, false, none, none, none⟩,
    ⟨"podman", none, 1, 1, none, [], none, false, none, none, none⟩]
  commands := ["run"]

/-- A host with this text in a file. -/
def hostWithFile : Host.Script :=
  .empty ⟨"/h", [(["bench.yaml"], .file lastEntryWrong.toUTF8.data.toList 0o644)]⟩ []

theorem a_wrong_last_entry_leaves_the_host_untouched :
    run false hostWithFile ["run", "--benchmark", "bench.yaml"] =
        endingOf false ⟨false, false, false⟩
          (rehearse hostWithFile "bench.yaml" ⟨false, false, false⟩).1 ∧
      ∃ f, wrongInTheEnd.FirstFault f ∧
        rehearse hostWithFile "bench.yaml" ⟨false, false, false⟩ =
          (.error (f.during (.loading "bench.yaml")), untouched hostWithFile) ∧
        ∀ c tr c' x, Course c (work hostWithFile.host.files "bench.yaml"
          ⟨false, false, false⟩).run tr c' x → tr = [] := by
  have hplace : hostWithFile.host.files.find "bench.yaml" = .ok (.inside ["bench.yaml"]) := by
    rw [Host.Files.find, if_neg (by decide), if_neg (by simp)]
    decide +kernel
  have hread : hostWithFile.host.files.readText "bench.yaml" = .ok lastEntryWrong := by
    rw [Host.Files.readText, Host.Files.read, Host.Files.findNode, hplace]
    decide +kernel
  have hdecode : (languageOf "bench.yaml").decode lastEntryWrong.toList = .ok wrongInTheEnd := by
    decide +kernel
  have hadmits : ¬wrongInTheEnd.Admits ⟨"podman", none, 1, 1, none, [], none, false, none, none,
      none⟩ := by
    rintro ⟨⟨k, hk, -⟩, -, -⟩
    revert hk
    cases k <;> decide
  exact a_definition_is_checked_in_full_before_anything_is_asked_of_an_engine.2.2.2.2 false
    hostWithFile ["run", "--benchmark", "bench.yaml"] standardLogLevel "bench.yaml" lastEntryWrong
    ⟨false, false, false⟩ wrongInTheEnd _ (by decide +kernel) hread hdecode
    (List.mem_cons_of_mem _ List.mem_cons_self) hadmits

end Cli

end EngineBench
