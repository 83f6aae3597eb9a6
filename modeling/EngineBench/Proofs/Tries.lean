-- One pass of a worker through its command list, seen as the attempts that it is made of. The
-- record of a pass is the record of its attempts, and says three things about a word: that it was
-- tried, how often it failed, and how long the last attempt of it took.
import EngineBench.Bench.Worker
import EngineBench.Proofs.Turns
import Mathlib.Data.List.Induction
import Mathlib.Tactic.ByContra

namespace EngineBench

/-! ## Tables -/

theorem lookup_entry {α : Type} (k key : String) (value : α) (l : List (String × α)) :
    ((key, value) :: l).lookup k = if k = key then some value else l.lookup k := by
  by_cases h : k = key
  · subst h
    simp
  · have hne : (k == key) = false := by simpa using h
    simp [List.lookup_cons, h, hne]

theorem lookup_put {α : Type} (key k : String) (value : α) (l : List (String × α)) :
    (put key value l).lookup k = if k = key then some value else l.lookup k := by
  induction l with
  | nil => rw [put, lookup_entry]
  | cons entry rest ih =>
    obtain ⟨k', v⟩ := entry
    by_cases hk : k' = key
    · subst hk
      rw [put, if_pos rfl, lookup_entry, lookup_entry]
      split <;> rfl
    · rw [put, if_neg hk, lookup_entry, lookup_entry, ih]
      by_cases h : k = k'
      · subst h
        simp [hk]
      · simp [h]

theorem map_fst_put {α : Type} (key : String) (value : α) (l : List (String × α)) :
    (put key value l).map Prod.fst =
      if key ∈ l.map Prod.fst then l.map Prod.fst else l.map Prod.fst ++ [key] := by
  induction l with
  | nil => simp [put]
  | cons entry rest ih =>
    obtain ⟨k', v⟩ := entry
    by_cases hk : k' = key
    · simp [put, hk]
    · have hne : key ≠ k' := fun h => hk h.symm
      simp only [put, hk, if_false, List.map_cons, ih, List.mem_cons, hne, false_or]
      split <;> simp

theorem nodup_put {α : Type} (key : String) (value : α) (l : List (String × α))
    (h : (l.map Prod.fst).Nodup) : ((put key value l).map Prod.fst).Nodup := by
  rw [map_fst_put]
  split
  · exact h
  · rename_i hkey
    exact List.nodup_append.mpr ⟨h, by simp, fun a ha b hb => by
      rw [List.mem_singleton] at hb
      rintro rfl
      exact hkey (hb ▸ ha)⟩

/-! ## Attempts -/

/-- A turn of a worker. -/
abbrev WorkerTurn : Type := Dialogue.Turn WorkerAsk WorkerAsk.Answer

/-- One attempt of a command, as the record of a pass keeps it. -/
structure Worker.Try where
  word : String
  failed : Bool
  /-- The time that the attempt counts for. -/
  time : Duration

namespace Iteration

open Worker (Try)

/-- Takes an attempt down. -/
def note (i : Iteration) (t : Try) : Iteration :=
  (if t.failed then i.failed t.word else i).timed t.word t.time

/-- The record of a pass with these attempts. -/
def ofTries (tries : List Try) : Iteration := tries.foldl note empty

/-- How many attempts of a word have failed. -/
def failures (word : String) (tries : List Try) : Nat :=
  tries.countP fun t => t.failed && t.word == word

theorem durations_note (i : Iteration) (t : Try) :
    (i.note t).durations = put t.word t.time i.durations := by
  unfold note timed failed
  split <;> rfl

theorem lookup_errors_note (i : Iteration) (t : Try) (word : String) :
    (i.note t).errors.lookup word =
      if t.failed = true ∧ word = t.word then some ((i.errors.lookup word).getD 0 + 1)
      else i.errors.lookup word := by
  unfold note timed failed
  by_cases hf : t.failed = true
  · by_cases hw : word = t.word
    · simp [hf, hw, lookup_put]
    · simp [hf, hw, lookup_put]
  · simp [hf]

theorem ofTries_snoc (tries : List Try) (t : Try) :
    ofTries (tries ++ [t]) = (ofTries tries).note t := by
  simp [ofTries, List.foldl_append]

/-- A record times each word once. -/
theorem nodup_durations_ofTries (tries : List Try) :
    ((ofTries tries).durations.map Prod.fst).Nodup := by
  induction tries using List.reverseRecOn with
  | nil => simp [ofTries, empty]
  | append_singleton tries t ih =>
    rw [ofTries_snoc, durations_note]
    exact nodup_put _ _ _ ih

/-- A record times the words that were tried. -/
theorem mem_durations_ofTries (tries : List Try) (word : String) :
    word ∈ (ofTries tries).durations.map Prod.fst ↔ word ∈ tries.map Try.word := by
  induction tries using List.reverseRecOn with
  | nil => simp [ofTries, empty]
  | append_singleton tries t ih =>
    rw [ofTries_snoc, durations_note, map_fst_put, List.map_append, List.mem_append, ← ih]
    split
    · rename_i h
      simp only [List.map_cons, List.map_nil, List.mem_singleton]
      constructor
      · exact Or.inl
      · rintro (hw | rfl)
        · exact hw
        · exact h
    · rw [List.mem_append]
      simp

/-- The last attempt of a word says how long it took. -/
theorem lookup_durations_ofTries (tries : List Try) (word : String) :
    (ofTries tries).durations.lookup word =
      (tries.reverse.find? fun t => t.word == word).map Try.time := by
  induction tries using List.reverseRecOn with
  | nil => simp [ofTries, empty]
  | append_singleton tries t ih =>
    rw [ofTries_snoc, durations_note, lookup_put, ih, List.reverse_append]
    by_cases hw : word = t.word
    · simp [hw]
    · have hne : (t.word == word) = false := by simpa using fun h => hw h.symm
      simp [hw, hne]

/-- A record counts the failures of a word, and does not mention a word without any. -/
theorem lookup_errors_ofTries (tries : List Try) (word : String) :
    (ofTries tries).errors.lookup word =
      if failures word tries = 0 then none else some (UInt32.ofNat (failures word tries)) := by
  induction tries using List.reverseRecOn with
  | nil => simp [ofTries, empty, failures]
  | append_singleton tries t ih =>
    have hcount : failures word (tries ++ [t]) =
        failures word tries + if t.failed = true ∧ word = t.word then 1 else 0 := by
      simp only [failures, List.countP_append, List.countP_singleton, Bool.and_eq_true, beq_iff_eq,
        eq_comm (a := word)]
    rw [ofTries_snoc, lookup_errors_note, hcount, ih]
    by_cases ht : t.failed = true ∧ word = t.word
    · rw [if_pos ht, if_pos ht, if_neg (Nat.succ_ne_zero _), UInt32.ofNat_add]
      by_cases hz : failures word tries = 0
      · simp [hz]
      · simp [hz]
    · simp [ht]

theorem failures_eq_zero {word : String} {tries : List Try} (h : word ∉ tries.map Try.word) :
    failures word tries = 0 := by
  rw [failures, List.countP_eq_zero]
  intro t ht
  have : t.word ≠ word := fun he => h (he ▸ List.mem_map_of_mem ht)
  simp [this]

/-- Every word with a failure has a time. -/
theorem mem_durations_of_mem_errors (tries : List Try) (word : String)
    (h : word ∈ (ofTries tries).errors.map Prod.fst) :
    word ∈ (ofTries tries).durations.map Prod.fst := by
  rw [mem_durations_ofTries]
  by_contra hword
  have hnone := lookup_errors_ofTries tries word
  rw [if_pos (failures_eq_zero hword), List.lookup_eq_none_iff] at hnone
  obtain ⟨entry, hentry, rfl⟩ := List.mem_map.mp h
  simpa using hnone entry hentry

end Iteration

/-! ## One pass -/

namespace Worker

open Dialogue

/-- The attempt of a command that the engine has replied to. -/
def Try.ofReply (command : String × Operation) (reply : Timed (Except EngineError Output)) : Try :=
  match reply.answer with
  | .ok output => ⟨command.1, false, if command.2 = .stats then reply.took else output.elapsed⟩
  | .error _ => ⟨command.1, true, reply.took⟩

/-- The attempt of a command without a container. -/
def Try.missing (command : String × Operation) : Try := ⟨command.1, true, Duration.zero⟩

theorem Try.word_ofReply (command : String × Operation)
    (reply : Timed (Except EngineError Output)) : (ofReply command reply).word = command.1 := by
  unfold ofReply
  split <;> rfl

/-- The turn in which the engine is asked for an operation on a container. -/
def operateTurn (c : Container) (command : String × Operation)
    (reply : Timed (Except EngineError Output)) : WorkerTurn :=
  ⟨.call (.operate command.2 c), reply⟩

theorem tryAll_none (soFar : Iteration) (commands : List (String × Operation)) :
    tryAll none soFar commands = .done ((commands.map Try.missing).foldl Iteration.note soFar) := by
  induction commands generalizing soFar with
  | nil => rfl
  | cons command rest ih => exact ih _

/-- With a container each command is asked for once, in the order of the list. -/
theorem after_tryAll (c : Container) (soFar : Iteration) (commands : List (String × Operation))
    {turns : List WorkerTurn} {r : Iteration}
    (h : After (tryAll (some c) soFar commands) turns (done r)) :
    ∃ replies, replies.length = commands.length ∧
      turns = List.zipWith (operateTurn c) commands replies ∧
      r = (List.zipWith Try.ofReply commands replies).foldl Iteration.note soFar := by
  induction commands generalizing soFar turns with
  | nil =>
    obtain ⟨rfl, hr⟩ := after_done h
    cases hr
    exact ⟨[], rfl, rfl, rfl⟩
  | cons command rest ih =>
    obtain ⟨word, op⟩ := command
    obtain ⟨reply, more, rfl, hmore⟩ := after_ask_done h
    have hnext : After (tryAll (some c) (soFar.note (Try.ofReply (word, op) reply)) rest) more
        (done r) := by
      unfold Try.ofReply Iteration.note
      cases ha : reply.answer <;> simpa [ha] using hmore
    obtain ⟨replies, hlen, rfl, rfl⟩ := ih _ hnext
    exact ⟨reply :: replies, by simp [hlen], rfl, rfl⟩

def createCall (w : Workload) (name : String) : EngineCall :=
  .create ⟨name, w.image, w.command, w.detached, w.trace⟩

/-- A pass makes a container, and tries each command on it once and in order. Without a container
every command fails, and nothing more is asked. -/
theorem after_iterate (w : Workload) (name : String)
    {turns : List WorkerTurn} {r : Iteration}
    (h : After (iterate w name) turns (done r)) :
    ∃ (made : Timed (Except EngineError Container)) (rest : List WorkerTurn),
      turns = ⟨.call (createCall w name), made⟩ :: rest ∧
      ((∃ c replies, made.answer = .ok c ∧
          replies.length = (Operation.recognised w.commands).length ∧
          rest = List.zipWith (operateTurn c) (Operation.recognised w.commands) replies ∧
          r = .ofTries (List.zipWith Try.ofReply (Operation.recognised w.commands) replies)) ∨
        (∃ e, made.answer = .error e ∧ rest = [] ∧
          r = .ofTries ((Operation.recognised w.commands).map Try.missing))) := by
  obtain ⟨made, rest, rfl, hrest⟩ := after_ask_done h
  refine ⟨made, rest, rfl, ?_⟩
  cases ha : made.answer with
  | ok c =>
    simp only [ha, Except.toOption] at hrest
    obtain ⟨replies, hlen, hturns, hr⟩ := after_tryAll c _ _ hrest
    exact Or.inl ⟨c, replies, rfl, hlen, hturns, hr⟩
  | error e =>
    simp only [ha, Except.toOption, tryAll_none] at hrest
    obtain ⟨rfl, hr⟩ := after_done hrest
    cases hr
    exact Or.inr ⟨e, rfl, rfl, rfl⟩

theorem tryAll_atMost (c : Option Container) (soFar : Iteration)
    (commands : List (String × Operation)) : (tryAll c soFar commands).AtMost commands.length := by
  induction commands generalizing soFar with
  | nil => trivial
  | cons command rest ih =>
    cases c with
    | none => exact (ih _).mono (Nat.le_succ _)
    | some c =>
      refine ⟨Nat.succ_pos _, ?_⟩
      rintro ⟨answer, took⟩
      cases answer with
      | ok output => exact ih _
      | error e => exact ih _

/-- A pass asks the engine once to make a container, and at most once for each command. -/
theorem iterate_atMost (w : Workload) (name : String) :
    (iterate w name).AtMost ((Operation.recognised w.commands).length + 1) :=
  ⟨Nat.succ_pos _, fun _ => tryAll_atMost _ _ _⟩

/-- Whatever the engine replies, a pass tries exactly the recognised words. -/
theorem exists_tries_of_after_iterate (w : Workload) (name : String)
    {turns : List WorkerTurn} {r : Iteration}
    (h : After (iterate w name) turns (done r)) :
    ∃ tries, tries.map Try.word = (Operation.recognised w.commands).map Prod.fst ∧
      r = .ofTries tries := by
  obtain ⟨made, rest, -, ⟨c, replies, -, hlen, -, rfl⟩ | ⟨e, -, -, rfl⟩⟩ := after_iterate w name h
  · refine ⟨_, ?_, rfl⟩
    apply List.ext_getElem
    · simp [hlen]
    · intro i h1 h2
      simp [Try.word_ofReply]
  · exact ⟨_, by simp [Try.missing, Function.comp_def], rfl⟩

end Worker

end EngineBench
