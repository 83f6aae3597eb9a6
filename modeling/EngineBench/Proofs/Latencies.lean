-- How many latencies the records of a run keep. A pass that tries a word twice counts both of its
-- failures and keeps one latency, that of the last attempt, so that a word has as many latencies as
-- there are passes, however often a pass tries it.
import EngineBench.Proofs.Distributions
import EngineBench.Proofs.LifecycleRuns
import EngineBench.Proofs.Passes
import EngineBench.Proofs.SweepCalls

namespace EngineBench

open Dialogue Worker

theorem isSome_lookup {α : Type} {key : String} {l : List (String × α)} :
    (l.lookup key).isSome = true ↔ key ∈ l.map Prod.fst := by
  rw [List.lookup_isSome_iff, List.mem_map]
  exact exists_congr fun entry => and_congr_right fun _ => by rw [beq_iff_eq, eq_comm]

/-! ## What many passes keep -/

namespace Iteration

/-- Passes that have tried a word keep one latency of it each. -/
theorem length_millisOf {word : String} {passes : List (List Try)}
    (h : ∀ tries ∈ passes, word ∈ tries.map Try.word) :
    (millisOf word (passes.map ofTries)).length = passes.length := by
  have hsome : ∀ i ∈ passes.map ofTries,
      ((i.durations.lookup word).map Duration.millis).isSome = true := by
    intro i hi
    obtain ⟨tries, htries, rfl⟩ := List.mem_map.mp hi
    rw [Option.isSome_map, isSome_lookup, mem_durations_ofTries]
    exact h tries htries
  rw [millisOf, List.length_filterMap_eq_countP, List.countP_eq_length.mpr hsome, List.length_map]

/-- The latency of a word is that of its last attempt. -/
theorem millisOf_ofTries (word : String) (passes : List (List Try)) :
    millisOf word (passes.map ofTries) = passes.filterMap fun tries =>
      (tries.reverse.find? fun t => t.word == word).map fun t => t.time.millis := by
  simp only [millisOf, List.filterMap_map, Function.comp_def, lookup_durations_ofTries,
    Option.map_map]

theorem getD_errors_ofTries (tries : List Try) (word : String) :
    ((ofTries tries).errors.lookup word).getD 0 = UInt32.ofNat (failures word tries) := by
  rw [lookup_errors_ofTries]
  split
  · rename_i hzero
    rw [hzero]
    rfl
  · rfl

/-- Passes count all failures of a word, in 32 bits. -/
theorem errorsOf_ofTries (word : String) (passes : List (List Try)) :
    errorsOf word (passes.map ofTries) = UInt32.ofNat (failures word passes.flatten) := by
  rw [errorsOf_eq, failures, List.countP_flatten]
  induction passes with
  | nil => rfl
  | cons tries rest ih =>
    simp only [failureCounts, List.map_cons, List.sum_cons, UInt32.ofNat_add,
      UInt32.ofNat_toNat] at ih ⊢
    rw [ih, getD_errors_ofTries]
    rfl

/-- What there is an entry for is what some pass has tried. -/
theorem mem_commandsSeen_ofTries {word : String} {passes : List (List Try)} :
    word ∈ commandsSeen (passes.map ofTries) ↔ ∃ tries ∈ passes, word ∈ tries.map Try.word := by
  rw [mem_commandsSeen]
  constructor
  · rintro ⟨i, hi, hkey⟩
    obtain ⟨tries, htries, rfl⟩ := List.mem_map.mp hi
    have htimed := hkey.elim id (mem_durations_of_mem_errors tries word)
    exact ⟨tries, htries, (mem_durations_ofTries tries word).mp htimed⟩
  · rintro ⟨tries, htries, hword⟩
    exact ⟨_, List.mem_map_of_mem htries, .inl ((mem_durations_ofTries tries word).mpr hword)⟩

theorem failures_le (word : String) (tries : List Try) :
    failures word tries ≤ (tries.map Try.word).count word := by
  rw [List.count, List.countP_map]
  apply List.countP_mono_left
  intro t _ ht
  exact (Bool.and_eq_true_iff.mp ht).2

end Iteration

/-! ## The records of a run -/

theorem iterations_records (p : Pool) :
    iterations p.records = p.members.flatMap Pool.Member.queue := by
  rw [iterations, Pool.records_eq, List.filterMap_map]
  exact List.filterMap_some

theorem exists_map_eq {α β : Type} {f : α → β} {P : α → Prop} {l : List β}
    (h : ∀ y ∈ l, ∃ x, P x ∧ y = f x) : ∃ xs : List α, l = xs.map f ∧ ∀ x ∈ xs, P x := by
  induction l with
  | nil => exact ⟨[], rfl, List.forall_mem_nil _⟩
  | cons y rest ih =>
    rw [List.forall_mem_cons] at h
    obtain ⟨⟨x, hx, rfl⟩, hrest⟩ := h
    obtain ⟨xs, rfl, hxs⟩ := ih hrest
    exact ⟨x :: xs, rfl, List.forall_mem_cons.mpr ⟨hx, hxs⟩⟩

/-- The records of a shift are those of passes that have tried the recognised words. -/
theorem Shift.exists_passes (s : Shift) {w : Workload} (hjob : s.job = .lifecycle w) :
    ∃ passes : List (List Try), EngineBench.iterations s.pool.records = passes.map .ofTries ∧
      ∀ tries ∈ passes, tries.map Try.word = (Operation.recognised w.commands).map Prod.fst := by
  rw [iterations_records]
  exact exists_map_eq fun r hr => s.exists_tries hjob hr

/-- How often a word is tried in so many passes. -/
theorem count_passes {words : List String} {passes : List (List Try)}
    (h : ∀ tries ∈ passes, tries.map Try.word = words) (word : String) :
    (passes.flatten.map Try.word).count word = passes.length * words.count word := by
  induction passes with
  | nil => simp
  | cons tries rest ih =>
    rw [List.forall_mem_cons] at h
    rw [List.flatten_cons, List.map_append, List.count_append, h.1, ih h.2, List.length_cons,
      Nat.succ_mul, Nat.add_comm]

namespace LifecycleBench

variable (b : LifecycleBench)

/-- In a run that nobody disturbs, each pass tries a recognised word as often as the command list
says, and keeps the latency of the last attempt; so no latency is lost just if the list says the
word once, or nobody makes a pass. All failures are counted, and if the list says the word once
there are no more of them than latencies. -/
theorem a_pass_keeps_one_latency_of_a_word {threads iterations : Nat} {tr : List Happening}
    {result : Attempt Unit} {after : BenchState}
    (h : Course false (b.program threads iterations) tr false (result, after)) (hspared : Spares tr)
    {word : String} (hword : word ∈ b.workload.commands)
    (hknown : (Operation.parse? word).isSome = true) :
    ∃ passes : List (List Try), EngineBench.iterations after.run.records = passes.map .ofTries ∧
      passes.length = threads * iterations ∧
      let repeats := b.workload.commands.count word
      let kept := (millisOf word (EngineBench.iterations after.run.records)).length
      let failed := errorsOf word (EngineBench.iterations after.run.records)
      (passes.flatten.map Try.word).count word = threads * iterations * repeats ∧
      millisOf word (EngineBench.iterations after.run.records) = (passes.filterMap fun tries =>
        (tries.reverse.find? fun t => t.word == word).map fun t => t.time.millis) ∧
      kept = threads * iterations ∧
      (kept = threads * iterations * repeats ↔ repeats = 1 ∨ threads * iterations = 0) ∧
      failed = UInt32.ofNat (Iteration.failures word passes.flatten) ∧
      (repeats = 1 → failed.toNat ≤ kept) ∧
      (0 < threads * iterations → (timings after.run.records).lookup word =
        some (timingsOf word (EngineBench.iterations after.run.records))) := by
  obtain ⟨s, cleaned, rfl, rfl, hjob, rfl, -, rfl⟩ := b.course_of_run rfl h
  have hmem : s ∈ shifts [.shift s, .turn ⟨.act (.call .clean), cleaned⟩] :=
    List.mem_singleton_self s
  obtain ⟨passes, hpasses, hwords⟩ := s.exists_passes hjob
  have hlength : passes.length = s.threads * s.iterations := by
    rw [← s.length_records ((course_calm h rfl).2 s hmem) (hspared s hmem), Pool.records_eq,
      List.length_map, ← iterations_records, hpasses, List.length_map]
  have hin : word ∈ (Operation.recognised b.workload.commands).map Prod.fst :=
    mem_recognised.mpr ⟨hword, hknown⟩
  have hkept : (millisOf word (passes.map .ofTries)).length = s.threads * s.iterations := by
    rw [Iteration.length_millisOf fun tries htries => hwords tries htries ▸ hin, hlength]
  have hrepeats : ((Operation.recognised b.workload.commands).map Prod.fst).count word =
      b.workload.commands.count word := by
    rw [Operation.map_fst_recognised]
    exact List.count_filter hknown
  have htried : (passes.flatten.map Try.word).count word =
      s.threads * s.iterations * b.workload.commands.count word := by
    rw [count_passes hwords, hlength, hrepeats]
  refine ⟨passes, hpasses, hlength, ?_⟩
  simp only [hpasses, hkept, Iteration.errorsOf_ofTries]
  refine ⟨htried, Iteration.millisOf_ofTries word passes, trivial, ?_, trivial, fun honce => ?_,
    fun hsome => ?_⟩
  · rw [eq_comm, mul_right_eq_self₀]
  · have hle := Iteration.failures_le word passes.flatten
    rw [htried, honce, Nat.mul_one] at hle
    exact (Nat.mod_le _ _).trans hle
  · rw [lookup_timings, hpasses, if_pos]
    obtain ⟨tries, htries⟩ := List.exists_mem_of_length_pos (hlength ▸ hsome)
    rw [← hwords tries htries] at hin
    exact Iteration.mem_commandsSeen_ofTries.mpr ⟨tries, htries, hin⟩

/-- A bench that runs each container twice. -/
def runsTwice : LifecycleBench := ⟨workloadOf ["run", "run"], .null⟩

/-- Its only worker makes one pass, and its engine refuses after six and then after seven
milliseconds. -/
def refusedTwice : Shift where
  threads := 1
  iterations := 1
  job := .lifecycle runsTwice.workload
  cancelled := false
  events :=
    let ctr : Container := ⟨Name.ofIteration 0 0, "busybox", none, false, false, none⟩
    let refusal (millis : Nat) : Timed (Except EngineError Output) :=
      ⟨.error (.notImplemented "run" .null), .ofMillis millis⟩
    [.look 0, .answer 0 (.call (createCall runsTwice.workload ctr.name)) ⟨.ok ctr, .zero⟩,
      .answer 0 (.call (.operate .run ctr)) (refusal 6),
      .answer 0 (.call (.operate .run ctr)) (refusal 7), .send 0]
  pool := ⟨1, false, [⟨.done (), false, [⟨[("run", .ofMillis 7)], [("run", 2)]⟩]⟩]⟩
  took := .ofMillis 13
  goes := by rfl
  ended := by rfl

/-- The course of that run. -/
def refusedTwiceCourse : List Happening :=
  [.shift refusedTwice, .turn ⟨.act (.call .clean), .ok ()⟩]

theorem course_refusedTwice : Course false (runsTwice.program 1 1) refusedTwiceCourse false
    (.ok (), ⟨⟨.completed, refusedTwice.pool.records, .ofMillis 13⟩, false, none⟩) := by
  unfold program
  rw [attend_run runsTwice 1 1 rfl]
  exact .shift refusedTwice (.outside trivial .done)

theorem spares_refusedTwice : Spares refusedTwiceCourse := by
  intro s hs t hdie
  cases List.mem_singleton.mp hs
  simp [refusedTwice] at hdie

theorem a_word_refused_twice_keeps_seven_milliseconds :
    ∃ passes : List (List Try), passes.length = 1 ∧
      (passes.flatten.map Try.word).count "run" = 2 ∧
      (millisOf "run" (EngineBench.iterations refusedTwice.pool.records)).length = 1 ∧
      errorsOf "run" (EngineBench.iterations refusedTwice.pool.records) = UInt32.ofNat
        (Iteration.failures "run" passes.flatten) := by
  obtain ⟨passes, -, hlength, htried, -, hkept, -, hfailed, -⟩ :=
    runsTwice.a_pass_keeps_one_latency_of_a_word course_refusedTwice spares_refusedTwice
      (show "run" ∈ ["run", "run"] by decide) (by decide)
  exact ⟨passes, hlength, htried, hkept, hfailed⟩

/-- One pass of one worker tries a word twice and counts two failures of it, and of their latencies
it keeps one. -/
theorem a_latency_is_lost_and_failures_outnumber_latencies :
    ∃ after : BenchState,
      Course false (runsTwice.program 1 1) refusedTwiceCourse false (.ok (), after) ∧
      Spares refusedTwiceCourse ∧
      millisOf "run" (EngineBench.iterations after.run.records) = [7] ∧
      (millisOf "run" (EngineBench.iterations after.run.records)).length ≠
        1 * 1 * runsTwice.workload.commands.count "run" ∧
      errorsOf "run" (EngineBench.iterations after.run.records) = 2 :=
  ⟨_, course_refusedTwice, spares_refusedTwice, rfl, by decide, rfl⟩

end LifecycleBench

end EngineBench
