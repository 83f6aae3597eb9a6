-- One pass of a worker as a whole: what it asks of the engine, whatever the engine replies, and
-- what its record says of the replies.
import EngineBench.Proofs.Replies
import EngineBench.Proofs.Tries
import Mathlib.Algebra.Order.Ring.Nat

namespace EngineBench

/-- The words that stand for an operation, with their repetitions. -/
theorem Operation.map_fst_recognised (words : List String) :
    (recognised words).map Prod.fst = words.filter fun word => (parse? word).isSome := by
  induction words with
  | nil => rfl
  | cons word rest ih =>
    cases hp : parse? word with
    | none => simpa [recognised, hp] using ih
    | some op => simpa [recognised, hp] using ih

namespace Iteration

open Worker (Try)

theorem errors_note (i : Iteration) (t : Try) :
    (i.note t).errors =
      if t.failed then put t.word ((i.errors.lookup t.word).getD 0 + 1) i.errors else i.errors := by
  unfold note timed failed
  split <;> rfl

/-- A record counts each word once. -/
theorem nodup_errors_ofTries (tries : List Try) :
    ((ofTries tries).errors.map Prod.fst).Nodup := by
  induction tries using List.reverseRecOn with
  | nil => simp [ofTries, empty]
  | append_singleton tries t ih =>
    rw [ofTries_snoc, errors_note]
    split
    · exact nodup_put _ _ _ ih
    · exact ih

/-- Of the attempts of a word the last one is timed. -/
theorem lookup_durations_ofTries_last (before : List Try) (t : Try) {behind : List Try}
    (h : ∀ u ∈ behind, u.word ≠ t.word) :
    (ofTries (before ++ t :: behind)).durations.lookup t.word = some t.time := by
  have hbehind : behind.reverse.find? (fun u => u.word == t.word) = none := by
    rw [List.find?_eq_none]
    intro u hu
    simpa using h u (List.mem_reverse.mp hu)
  rw [lookup_durations_ofTries, List.reverse_append, List.reverse_cons, List.append_assoc,
    List.find?_append, hbehind]
  simp

end Iteration

namespace Worker

open Dialogue

/-- A command of a pass, and what became of it. -/
abbrev Attempt : Type := (String × Operation) × Timed (Except EngineError Output)

namespace Attempt

def word (a : Attempt) : String := a.1.1

def failed (a : Attempt) : Bool := !a.2.answer.isOk

/-- The turn in which a container is asked for it. -/
def turn (c : Container) (a : Attempt) : WorkerTurn := operateTurn c a.1 a.2

/-- As the record of the pass keeps it. -/
def kept (a : Attempt) : Try := Try.ofReply a.1 a.2

@[simp] theorem word_kept (a : Attempt) : a.kept.word = a.word := Try.word_ofReply a.1 a.2

@[simp] theorem failed_kept (a : Attempt) : a.kept.failed = a.failed := by
  unfold kept failed Try.ofReply
  cases a.2.answer <;> rfl

theorem time_kept {a : Attempt} {output : Output} (h : a.2.answer = .ok output) :
    a.kept.time = if a.1.2 = .stats then a.2.took else output.elapsed := by
  unfold kept Try.ofReply
  rw [h]

end Attempt

theorem Attempt.map_turn (c : Container) (commands : List (String × Operation))
    (replies : List (Timed (Except EngineError Output))) :
    (commands.zip replies).map (turn c) = List.zipWith (operateTurn c) commands replies :=
  List.map_uncurry_zip_eq_zipWith

theorem Attempt.map_kept (commands : List (String × Operation))
    (replies : List (Timed (Except EngineError Output))) :
    (commands.zip replies).map kept = List.zipWith Try.ofReply commands replies :=
  List.map_uncurry_zip_eq_zipWith

theorem mem_recognised {words : List String} {word : String} :
    word ∈ (Operation.recognised words).map Prod.fst ↔
      word ∈ words ∧ (Operation.parse? word).isSome = true := by
  rw [Operation.map_fst_recognised, List.mem_filter]

/-- What the record of a pass through a command list tells of its attempts. -/
structure Tells (r : Iteration) (commands : List String) (attempts : List Attempt) : Prop where
  once : (r.durations.map Prod.fst).Nodup ∧ (r.errors.map Prod.fst).Nodup
  timed : ∀ word, word ∈ r.durations.map Prod.fst ↔
    word ∈ commands ∧ (Operation.parse? word).isSome = true
  /-- The failures of a word are counted in 32 bits. -/
  failures : ∀ word, r.errors.lookup word =
    let n := attempts.countP fun a => a.failed && a.word == word
    if n = 0 then none else some (UInt32.ofNat n)
  /-- If the engine has carried out the last attempt of a word, it says how long that took, except
  that statistics take the time until the first document is there. -/
  last : ∀ before a behind output, attempts = before ++ a :: behind →
    (∀ b ∈ behind, b.word ≠ a.word) → a.2.answer = .ok output →
      r.durations.lookup a.word = some (if a.1.2 = .stats then a.2.took else output.elapsed)

theorem tells_ofTries {commands : List String} {attempts : List Attempt}
    (h : attempts.map Prod.fst = Operation.recognised commands) :
    Tells (.ofTries (attempts.map Attempt.kept)) commands attempts where
  once := ⟨Iteration.nodup_durations_ofTries _, Iteration.nodup_errors_ofTries _⟩
  timed word := by
    have hwords : (attempts.map Attempt.kept).map Try.word =
        (Operation.recognised commands).map Prod.fst := by
      simp only [← h, List.map_map, Function.comp_def, Attempt.word_kept]
      rfl
    rw [Iteration.mem_durations_ofTries, hwords, mem_recognised]
  failures word := by
    simp only [Iteration.lookup_errors_ofTries, Iteration.failures, List.countP_map,
      Function.comp_def, Attempt.word_kept, Attempt.failed_kept]
  last := by
    rintro before a behind output rfl hbehind hok
    have hlast : ∀ u ∈ behind.map Attempt.kept, u.word ≠ a.kept.word := by
      intro u hu
      obtain ⟨b, hb, rfl⟩ := List.mem_map.mp hu
      simpa using hbehind b hb
    rw [List.map_append, List.map_cons, ← Attempt.word_kept a,
      Iteration.lookup_durations_ofTries_last _ _ hlast, Attempt.time_kept hok]

/-- A pass asks once for a container and, if there is one, once for each recognised command, in the
order of the list and on the container that was made; without one it asks for nothing more, and each
command has failed. Its record tells what became of the commands. -/
theorem a_pass_tries_each_command_once_and_tells_of_it (w : Workload) (name : String)
    (reply : Replies WorkerAsk WorkerAsk.Answer) (past : List WorkerTurn) :
    ∃ (made : Timed (Except EngineError Container)) (attempts : List Attempt),
      attempts.map Prod.fst = Operation.recognised w.commands ∧
      ((iterate w name).play reply past).1 = ⟨.call (createCall w name), made⟩ ::
        (match made.answer with
        | .ok c => attempts.map (Attempt.turn c)
        | .error _ => []) ∧
      (made.answer.isOk = false → ∀ a ∈ attempts, a.failed = true) ∧
      Tells ((iterate w name).play reply past).2 w.commands attempts := by
  obtain ⟨made, rest, hturns, ⟨c, replies, hmade, hlen, rfl, hr⟩ | ⟨e, hmade, rfl, hr⟩⟩ :=
    after_iterate w name (after_play reply past (iterate w name))
  · have hcommands : ((Operation.recognised w.commands).zip replies).map Prod.fst =
        Operation.recognised w.commands := List.map_fst_zip (by omega)
    refine ⟨made, _, hcommands, ?_, ?_, ?_⟩
    · rw [hturns, hmade, ← Attempt.map_turn]
    · intro h
      rw [hmade] at h
      cases h
    · rw [hr, ← Attempt.map_kept]
      exact tells_ofTries hcommands
  · -- without a container each command is as one that the engine has refused at once
    let refused : Timed (Except EngineError Output) := ⟨.error e, .zero⟩
    have hcommands : ((Operation.recognised w.commands).map (·, refused)).map Prod.fst =
        Operation.recognised w.commands := by simp [Function.comp_def]
    refine ⟨made, _, hcommands, ?_, ?_, ?_⟩
    · rw [hturns, hmade]
    · intro _ a ha
      obtain ⟨command, -, rfl⟩ := List.mem_map.mp ha
      rfl
    · have hkept : (Operation.recognised w.commands).map Try.missing =
          ((Operation.recognised w.commands).map (·, refused)).map Attempt.kept := by
        rw [List.map_map]
        rfl
      rw [hr, hkept]
      exact tells_ofTries hcommands

/-- An engine that makes every container, or none, and states that each operation has taken seven
nanoseconds when it is five until the answer. -/
def statesSeven (makes : Bool) : Replies WorkerAsk WorkerAsk.Answer
  | _, .look => false
  | _, .call (.create w) =>
    ⟨if makes then .ok ⟨w.name, w.image, w.command, w.detached, w.trace, none⟩
      else .error (.io .notFound), .zero⟩
  | _, .call (.operate _ _) => ⟨.ok ⟨"", ⟨7⟩⟩, ⟨5⟩⟩
  | _, .call .info => ⟨.ok "", .zero⟩
  | _, .call .clean => ⟨.ok (), .zero⟩
  | _, .call .close => ⟨.ok (), .zero⟩
  | _, .spawn _ _ => ⟨.error .notFound, .zero⟩
  | _, .send _ => ()

def workloadOf (commands : List String) : Workload :=
  ⟨"mock", "busybox", none, false, false, commands⟩

def plainContainer : Container := ⟨"c", "busybox", none, false, false, none⟩

/-- Three attempts of two words without a container. -/
theorem a_pass_without_a_container_fails_each_attempt :
    ∃ attempts : List Attempt,
      attempts.map Prod.fst = [("Run", .run), ("start", .run), ("Run", .run)] ∧
      (∀ a ∈ attempts, a.failed = true) ∧
      Tells ((iterate (workloadOf ["Run", "sleep", "start", "Run"]) "c").play (statesSeven false)
        []).2 ["Run", "sleep", "start", "Run"] attempts := by
  obtain ⟨made, attempts, hcommands, hturns, hfailed, htells⟩ :=
    a_pass_tries_each_command_once_and_tells_of_it (workloadOf ["Run", "sleep", "start", "Run"]) "c"
      (statesSeven false) []
  have hmade : made.answer.isOk = false := by
    cases (List.cons.inj hturns).1
    rfl
  exact ⟨attempts, hcommands.trans (by decide), hfailed hmade, htells⟩

/-- For statistics the engine states seven nanoseconds and the record says five; and 2^32 failures
of a word are counted as none. -/
theorem statistics_are_not_timed_by_the_engine_and_counts_wrap :
    (iterate (workloadOf ["stats"]) "c").play (statesSeven true) [] =
        ([⟨.call (createCall (workloadOf ["stats"]) "c"), ⟨.ok plainContainer, .zero⟩⟩,
          operateTurn plainContainer ("stats", .stats) ⟨.ok ⟨"", ⟨7⟩⟩, ⟨5⟩⟩],
        ⟨[("stats", ⟨5⟩)], []⟩) ∧
      ((iterate (workloadOf ["run"]) "c").play (statesSeven true) []).2 = ⟨[("run", ⟨7⟩)], []⟩ ∧
      ((iterate (workloadOf (List.replicate (2 ^ 32) "run")) "c").play (statesSeven false)
        []).2.errors.lookup "run" = some 0 := by
  refine ⟨rfl, by decide, ?_⟩
  have hrecognised : ∀ n, Operation.recognised (List.replicate n "run") =
      List.replicate n ("run", .run) := by
    have hrun : (Operation.parse? "run").map (("run", ·)) = some ("run", .run) := by decide
    exact fun n => List.filterMap_replicate_of_some hrun
  have hpass : ∀ n, ((iterate (workloadOf (List.replicate n "run")) "c").play (statesSeven false)
      []).2 = .ofTries (List.replicate n (Try.missing ("run", .run))) := by
    intro n
    show ((tryAll none .empty (Operation.recognised (List.replicate n "run"))).play _ _).2 = _
    rw [tryAll_none, hrecognised, List.map_replicate]
    rfl
  have hcount : ∀ n,
      Iteration.failures "run" (List.replicate n (Try.missing ("run", .run))) = n := by
    intro n
    rw [Iteration.failures, List.countP_replicate]
    rfl
  rw [hpass, Iteration.lookup_errors_ofTries, hcount, if_neg (by omega)]
  rfl

end Worker

end EngineBench
