-- Where each worker of a pool stands. A worker has whole passes behind it, whose records lie in its
-- queue in the order of the passes, and is somewhere in the next one. From this follows how many
-- passes it can have begun, that its queue never runs full, and what a worker falls short of that
-- was told to stop or has died.
import EngineBench.Proofs.Journals
import Mathlib.Algebra.Order.BigOperators.Group.List
import Mathlib.Algebra.Order.Ring.Nat

namespace EngineBench

open Dialogue Worker

/-! ## What a pass asks -/

namespace Worker

theorem tryAll_only {P : WorkerAsk → Prop} (container : Option Container)
    (hop : ∀ op, ∀ c ∈ container, P (.call (.operate op c))) (soFar : Iteration)
    (commands : List (String × Operation)) : (tryAll container soFar commands).Only P := by
  induction commands generalizing soFar with
  | nil => trivial
  | cons command rest ih =>
    cases container with
    | none => exact ih _
    | some c =>
      refine ⟨hop _ c rfl, ?_⟩
      rintro ⟨answer, took⟩
      cases answer with
      | ok output => exact ih _
      | error e => exact ih _

/-- A pass asks for nothing but to make a container and to do something with it. -/
theorem iterate_only {P : WorkerAsk → Prop} (w : Workload) (name : String)
    (hmake : P (.call (createCall w name))) (hop : ∀ op c, P (.call (.operate op c))) :
    (iterate w name).Only P :=
  ⟨hmake, fun _ => tryAll_only _ (fun op c _ => hop op c) _ _⟩

theorem repeated_only {P : WorkerAsk → Prop} {pass : Nat → Worker Iteration}
    (hpass : ∀ i, (pass i).Only P) (hlook : P .look) (hsend : ∀ r, P (.send r)) (i left : Nat) :
    (repeated pass i left).Only P := by
  induction left generalizing i with
  | zero => trivial
  | succ left ih =>
    refine ⟨hlook, ?_⟩
    rintro (_ | _)
    · exact (hpass i).bind fun r => ⟨hsend r, fun _ => ih (i + 1)⟩
    · trivial

/-- The record of a process that was spawned. -/
def spawnRecord (reply : Timed (Except OsError WaitStatus)) : Iteration :=
  match reply.answer with
  | .ok status =>
    if status.isSuccess then Iteration.empty.timed spawnWord reply.took
    else Iteration.empty.failed spawnWord
  | .error _ => Iteration.empty.failed spawnWord

theorem spawnOnce_eq :
    spawnOnce =
      .ask (.spawn spawnProgram spawnArguments) fun reply => .done (spawnRecord reply) := by
  unfold spawnOnce
  congr
  funext ⟨answer, took⟩
  cases answer with
  | ok status =>
    simp only [spawnRecord]
    split <;> rfl
  | error e => rfl

theorem repeated_atMost {pass : Nat → Worker Iteration} {n : Nat} (h : ∀ i, (pass i).AtMost n)
    (i left : Nat) : (repeated pass i left).AtMost (left * (n + 2)) := by
  induction left generalizing i with
  | zero => trivial
  | succ left ih =>
    rw [Nat.succ_mul, show left * (n + 2) + (n + 2) = n + (left * (n + 2) + 1) + 1 by omega]
    refine ⟨Nat.succ_pos _, ?_⟩
    rintro (_ | _)
    · exact (h i).bind fun r => ⟨Nat.succ_pos _, fun _ => ih (i + 1)⟩
    · trivial

end Worker

namespace Job

/-- The passes of a job look at nothing but the outside. -/
theorem inward (job : Job) (t : Nat) : Inward fun i => job.iteration t i := by
  intro i
  cases job with
  | lifecycle w => exact iterate_only w _ rfl fun _ _ => rfl
  | spawning =>
    simp only [iteration, spawnOnce_eq]
    exact ⟨rfl, fun _ => trivial⟩

theorem iteration_atMost (job : Job) (t i : Nat) :
    (job.iteration t i).AtMost job.callsPerIteration := by
  cases job with
  | lifecycle w =>
    have := iterate_atMost w (Name.ofIteration t i)
    rwa [Nat.add_comm] at this
  | spawning =>
    simp only [iteration, spawnOnce_eq]
    exact ⟨Nat.one_pos, fun _ => trivial⟩

/-- What a worker asks at most. -/
theorem worker_atMost (job : Job) (iterations t : Nat) :
    (job.worker iterations t).AtMost (job.effort iterations) :=
  repeated_atMost (job.iteration_atMost t) 0 iterations

end Job

namespace Pool

/-! ## One worker of a run -/

section

variable {threads iterations : Nat} {job : Job} {c : Bool} {events : List Event} {p : Pool}
  {t : Nat}

theorem start_member (ht : t < threads) :
    (start threads iterations job c).members[t]? = some ⟨job.worker iterations t, false, []⟩ := by
  simp [start, ht]

/-- A worker of a run has whole rounds behind it, one for each record in its queue, and stands
somewhere in the next round. -/
theorem worker_stands (h : (start threads iterations job c).steps events = some p)
    (ht : t < threads) :
    ∃ m, p.members[t]? = some m ∧ (m.dead = true ↔ .die t ∈ events) ∧
      (m.dead = true → m.IsCalling) ∧
      ∃ xs ys k, (start threads iterations job c).journal t events = xs ++ ys ∧
        Rounds (fun i => job.iteration t i) 0 xs m.queue ∧ iterations = m.queue.length + k ∧
        Stage (fun i => job.iteration t i) m.queue.length k ys m.program := by
  obtain ⟨m, hm, htakes, hdead, hcalling⟩ := steps_member h (start_member ht)
  obtain ⟨xs, ys, rs, k, hturns, hrounds, hk, hstage⟩ := after_repeated htakes.program
  have hinward := job.inward t
  -- only whole rounds hand in records
  have hqueue : m.queue = rs := by
    rw [htakes.queue, hturns, sent_append, hrounds.sent_eq hinward, hstage.sent_eq hinward]
    simp
  subst hqueue
  rw [Nat.zero_add] at hstage
  refine ⟨m, hm, by simpa using hdead, hcalling (by simp), xs, ys, k, hturns, hrounds, hk, hstage⟩

/-- A worker has begun one pass for each record in its queue, and at most one pass more. -/
theorem begun_of_worker (h : (start threads iterations job c).steps events = some p)
    (ht : t < threads) {m : Member} (hm : p.members[t]? = some m) :
    m.queue.length ≤ iterations ∧
      m.queue.length ≤ begun ((start threads iterations job c).journal t events) ∧
      begun ((start threads iterations job c).journal t events) ≤ m.queue.length + 1 := by
  obtain ⟨m', hm', -, -, xs, ys, k, hturns, hrounds, hk, hstage⟩ := worker_stands h ht
  rw [hm] at hm'
  cases hm'
  have hle := hstage.begun_le (job.inward t)
  rw [hturns, begun_append, hrounds.begun_eq (job.inward t)]
  omega

/-- A worker that has ended alive has whole rounds behind it, and after them it may have been told
to stop. -/
theorem worker_done (h : (start threads iterations job c).steps events = some p)
    (ht : t < threads) {m : Member} (hm : p.members[t]? = some m) (hd : m.dead = false)
    (hended : m.hasEnded = true) :
    ∃ xs ys, (start threads iterations job c).journal t events = xs ++ ys ∧
      Rounds (fun i => job.iteration t i) 0 xs m.queue ∧
      (ys = [] ∧ m.queue.length = iterations ∨
        ys = [lookTurn true] ∧ m.queue.length < iterations) := by
  obtain ⟨m', hm', -, -, xs, ys, k, hturns, hrounds, hk, hstage⟩ := worker_stands h ht
  rw [hm] at hm'
  cases hm'
  have hprogram : m.program = .done () := by
    unfold Member.hasEnded at hended
    cases hp : m.program with
    | done x => rfl
    | ask q next => simp [hd, hp] at hended
  rw [hprogram] at hstage
  refine ⟨xs, ys, hturns, hrounds, ?_⟩
  rcases hstage.of_done with ⟨rfl, rfl⟩ | ⟨rfl, hpos⟩
  · exact Or.inl ⟨rfl, by omega⟩
  · exact Or.inr ⟨rfl, by omega⟩

/-- How a worker has ended with this many records: it has done all its passes, or was told to stop,
or has died of a call in the middle of a pass. -/
inductive Ending (iterations records : Nat) (turns : List WorkerTurn) (died : Prop) : Prop
  | whole : records = iterations → begun turns = records → lookTurn true ∉ turns → ¬died →
      Ending iterations records turns died
  | stopped : records < iterations → begun turns = records → lookTurn true ∈ turns → ¬died →
      Ending iterations records turns died
  | died : records < iterations → begun turns = records + 1 → lookTurn true ∉ turns → died →
      Ending iterations records turns died

theorem worker_ended (h : (start threads iterations job c).steps events = some p)
    (ht : t < threads) {m : Member} (hm : p.members[t]? = some m) (hended : m.hasEnded = true) :
    Ending iterations m.queue.length ((start threads iterations job c).journal t events)
      (.die t ∈ events) := by
  have hinward := job.inward t
  obtain ⟨m', hm', hdead, hcalling, xs, ys, k, hturns, hrounds, hk, hstage⟩ := worker_stands h ht
  rw [hm] at hm'
  cases hm'
  by_cases hd : m.dead = true
  · obtain ⟨call, next, hprogram⟩ := hcalling hd
    rw [hprogram] at hstage
    obtain ⟨hpos, hbegun, hstop⟩ := hstage.of_call hinward
    rw [hturns]
    refine .died (by omega) ?_ ?_ (hdead.mp hd)
    · rw [begun_append, hrounds.begun_eq hinward, hbegun]
    · simp [hrounds.no_stop hinward, hstop]
  · have halive : .die t ∉ events := fun he => hd (hdead.mpr he)
    obtain ⟨xs, ys, hturns, hrounds, hend⟩ := worker_done h ht hm (by simpa using hd) hended
    have hbegun := hrounds.begun_eq hinward
    rw [hturns]
    rcases hend with ⟨rfl, hfull⟩ | ⟨rfl, hshort⟩
    · refine .whole hfull ?_ (by simpa using hrounds.no_stop hinward) halive
      rw [List.append_nil, hbegun]
    · refine .stopped hshort ?_ (by simp) halive
      rw [begun_append, hbegun]
      rfl

/-- A worker that is about to hand in a record finds room for it in its queue. -/
theorem send_has_room (h : (start threads iterations job c).steps events = some p)
    (ht : t < threads) {m : Member} (hm : p.members[t]? = some m) {r : Iteration}
    {next : Unit → Worker Unit} (hsend : m.program = .ask (.send r) next) :
    m.queue.length < p.capacity := by
  obtain ⟨m', hm', -, -, xs, ys, k, -, -, hk, hstage⟩ := worker_stands h ht
  rw [hm] at hm'
  cases hm'
  rw [hsend] at hstage
  have hpos := hstage.of_send
  rw [(steps_shape h).1]
  show m.queue.length < max iterations 1
  omega

/-- Once the run is cancelled no worker begins another pass. -/
theorem begun_of_cancelled {p' : Pool} (h : p.steps events = some p') (hc : p.cancelled = true)
    (t : Nat) : begun (p.journal t events) = 0 := by
  rw [begun, List.countP_eq_zero]
  rintro ⟨q, a⟩ hx
  cases q with
  | look =>
    cases a with
    | true => simp [begins]
    | false =>
      have hfalse := (looks_of_steps h hx).2 rfl
      simp [hc] at hfalse
  | call c => simp [begins]
  | spawn program args => simp [begins]
  | send r => simp [begins]

/-! ## The records of a run -/

theorem sum_eq_mul_iff {l : List Nat} {n : Nat} (h : ∀ x ∈ l, x ≤ n) :
    l.sum = l.length * n ↔ ∀ x ∈ l, x = n := by
  induction l with
  | nil => simp
  | cons x rest ih =>
    have hx := h x List.mem_cons_self
    have hrest : ∀ y ∈ rest, y ≤ n := fun y hy => h y (List.mem_cons_of_mem x hy)
    have hle : rest.sum ≤ rest.length * n := List.sum_le_card_nsmul rest n hrest
    rw [List.sum_cons, List.length_cons, Nat.succ_mul, List.forall_mem_cons, ← ih hrest]
    omega

theorem length_flatMap_of_length {α β : Type} {l : List α} {f : α → List β} {n : Nat}
    (h : ∀ x ∈ l, (f x).length = n) : (l.flatMap f).length = l.length * n := by
  have hall : ∀ k ∈ l.map fun x => (f x).length, k = n := by
    intro k hk
    obtain ⟨x, hx, rfl⟩ := List.mem_map.mp hk
    exact h x hx
  rw [List.length_flatMap, (sum_eq_mul_iff fun k hk => Nat.le_of_eq (hall k hk)).mpr hall,
    List.length_map]

theorem getElem?_flatMap_of_length {α β : Type} {l : List α} {f : α → List β} {n : Nat}
    (h : ∀ x ∈ l, (f x).length = n) {i : Nat} (hi : i < n) (t : Nat) :
    (l.flatMap f)[t * n + i]? = l[t]?.bind fun x => (f x)[i]? := by
  induction l generalizing t with
  | nil => simp
  | cons x rest ih =>
    have hx := h x List.mem_cons_self
    have hrest : ∀ y ∈ rest, (f y).length = n := fun y hy => h y (List.mem_cons_of_mem x hy)
    cases t with
    | zero => simp [List.getElem?_append_left, hx, hi]
    | succ t =>
      have hshift : (t + 1) * n + i = (f x).length + (t * n + i) := by
        rw [hx, Nat.succ_mul]
        omega
      rw [List.flatMap_cons, hshift, List.getElem?_append_right (Nat.le_add_right _ _),
        Nat.add_sub_cancel_left, ih hrest]
      rfl

theorem records_eq (p : Pool) : p.records = (p.members.flatMap Member.queue).map .iteration := by
  rw [records, List.map_flatMap]

theorem isSample_of_mem_records (p : Pool) : ∀ r ∈ p.records, r.isSample = false := by
  intro r hr
  obtain ⟨m, -, hmem⟩ := List.mem_flatMap.mp hr
  obtain ⟨i, -, rfl⟩ := List.mem_map.mp hmem
  rfl

theorem members_length (h : (start threads iterations job c).steps events = some p) :
    p.members.length = threads := by
  rw [(steps_shape h).2.1]
  simp [start]

/-- A run brings home all its records just if no worker was told to stop and none has died. -/
theorem records_length_eq_iff (h : (start threads iterations job c).steps events = some p)
    (hended : p.hasEnded = true) :
    p.records.length = threads * iterations ↔
      ∀ t < threads, lookTurn true ∉ (start threads iterations job c).journal t events ∧
        .die t ∉ events := by
  have hlen := members_length h
  have hmember : ∀ m ∈ p.members, ∃ t < threads, p.members[t]? = some m ∧ m.hasEnded = true := by
    intro m hm
    obtain ⟨t, ht, hget⟩ := List.getElem_of_mem hm
    refine ⟨t, hlen ▸ ht, ?_, List.all_eq_true.mp hended m hm⟩
    rw [← hget, List.getElem?_eq_getElem ht]
  have hle : ∀ n ∈ p.members.map fun m => m.queue.length, n ≤ iterations := by
    intro n hn
    obtain ⟨m, hm, rfl⟩ := List.mem_map.mp hn
    obtain ⟨t, ht, hget, -⟩ := hmember m hm
    exact (begun_of_worker h ht hget).1
  have hsum := sum_eq_mul_iff hle
  rw [List.length_map, hlen] at hsum
  rw [records_eq, List.length_map, List.length_flatMap, hsum]
  constructor
  · intro hall t ht
    obtain ⟨m, hm, -⟩ := worker_stands h ht
    have hmem : m ∈ p.members := List.mem_of_getElem? hm
    have hfull := hall _ (List.mem_map_of_mem hmem)
    cases worker_ended h ht hm (List.all_eq_true.mp hended m hmem) with
    | whole _ _ hstop hdie => exact ⟨hstop, hdie⟩
    | stopped hlt => exact absurd hfull (Nat.ne_of_lt hlt)
    | died hlt => exact absurd hfull (Nat.ne_of_lt hlt)
  · intro hnone n hn
    obtain ⟨m, hm, rfl⟩ := List.mem_map.mp hn
    obtain ⟨t, ht, hget, hm'⟩ := hmember m hm
    obtain ⟨hstop, hdie⟩ := hnone t ht
    cases worker_ended h ht hget hm' with
    | whole hfull => exact hfull
    | stopped _ _ hstop' => exact absurd hstop' hstop
    | died _ _ _ hdie' => exact absurd hdie' hdie

end

end Pool

end EngineBench
