-- What a report shows of a sweep. Every step has its rate in the column of its thread count, and
-- every step of an entry has a table with a row for each recognised word of the command list: the
-- words that the workers keep their records by are the words that the table looks them up by.
import EngineBench.Proofs.Latencies
import EngineBench.Report.Summary

namespace EngineBench

open Dialogue Worker

/-! ## Words, each once -/

section

variable {α : Type} [BEq α] [LawfulBEq α]

/-- Leaving other members out does not change which of two comes first. -/
theorem idxOf_filter_lt {p : α → Bool} {x y : α} (hx : p x = true) (hy : p y = true) (l : List α) :
    (l.filter p).idxOf x < (l.filter p).idxOf y ↔ l.idxOf x < l.idxOf y := by
  induction l with
  | nil => rfl
  | cons a l ih =>
    cases ha : p a with
    | true =>
      rw [List.filter_cons_of_pos ha, List.idxOf_cons, List.idxOf_cons, List.idxOf_cons,
        List.idxOf_cons]
      cases a == x <;> cases a == y <;> simp [ih]
    | false =>
      have hax : (a == x) = false := by
        rw [beq_eq_false_iff_ne]
        rintro rfl
        rw [hx] at ha
        cases ha
      have hay : (a == y) = false := by
        rw [beq_eq_false_iff_ne]
        rintro rfl
        rw [hy] at ha
        cases ha
      rw [List.filter_cons_of_neg (by simp [ha]), List.idxOf_cons, List.idxOf_cons, hax, hay]
      simpa using ih

/-- Members that are told apart stand in the order of their first places. -/
theorem pairwise_eraseDups (l : List α) :
    l.eraseDups.Pairwise fun x y => l.idxOf x < l.idxOf y := by
  match l with
  | [] => simp
  | a :: l =>
    have hother : ∀ x ∈ (l.filter fun b => !b == a).eraseDups,
        (!x == a) = true ∧ (a == x) = false := by
      intro x hx
      have hkept := (List.mem_filter.mp (List.mem_eraseDups.mp hx)).2
      have hne : x ≠ a := by simpa using hkept
      exact ⟨hkept, beq_eq_false_iff_ne.mpr hne.symm⟩
    rw [List.eraseDups_cons, List.pairwise_cons]
    constructor
    · intro x hx
      rw [List.idxOf_cons_self, List.idxOf_cons, (hother x hx).2]
      exact Nat.succ_pos _
    · refine (pairwise_eraseDups (l.filter fun b => !b == a)).imp_of_mem ?_
      intro x y hx hy hlt
      have horder := idxOf_filter_lt (p := fun b => !b == a) (hother x hx).1 (hother y hy).1 l
      rw [List.idxOf_cons, List.idxOf_cons, (hother x hx).2, (hother y hy).2]
      exact Nat.succ_lt_succ (horder.mp hlt)
termination_by l.length
decreasing_by exact Nat.lt_succ_of_le (List.length_filter_le _ _)

end

namespace Operation

/-- The words of a command list that stand for an operation, each once, in the order in which they
first come up. -/
def firstWords (commands : List String) : List String :=
  commands.eraseDups.filter fun word => (parse? word).isSome

theorem mem_firstWords {commands : List String} {word : String} :
    word ∈ firstWords commands ↔ word ∈ commands ∧ (parse? word).isSome = true := by
  rw [firstWords, List.mem_filter, List.mem_eraseDups]

theorem pairwise_firstWords (commands : List String) :
    (firstWords commands).Pairwise fun v w => commands.idxOf v < commands.idxOf w :=
  (pairwise_eraseDups commands).filter _

end Operation

/-! ## Rates -/

namespace Report

theorem le_foldl_max (l : List Nat) (n : Nat) : n ≤ l.foldl max n ∧ ∀ x ∈ l, x ≤ l.foldl max n := by
  induction l generalizing n with
  | nil => simp
  | cons y l ih =>
    obtain ⟨hstart, hall⟩ := ih (max n y)
    rw [List.foldl_cons, List.forall_mem_cons]
    exact ⟨(Nat.le_max_left n y).trans hstart, (Nat.le_max_right n y).trans hstart, hall⟩

theorem le_columnCount {results : List Result} {r : Result} (h : r ∈ results) :
    r.threads.toNat ≤ columnCount results := by
  cases results with
  | nil => cases h
  | cons first rest => exact (le_foldl_max _ 0).2 _ (List.mem_map_of_mem h)

theorem columnCount_pos {results : List Result} (h : ∀ r ∈ results, 0 < r.threads.toNat) :
    0 < columnCount results := by
  cases results with
  | nil => exact Nat.one_pos
  | cons first rest =>
    exact (h first List.mem_cons_self).trans_le (le_columnCount List.mem_cons_self)

/-- A row shows the rates of a result one after the other, with two places and in seven columns, and
dashes in the columns behind them. -/
theorem rateRow_eq {most : Nat} {r : Result} (h : r.rates.length ≤ most) :
    rateRow most r = [r.name, toString r.iterations] ++
      r.rates.map (Number.FixedFormat.render ⟨2, 7, false⟩) ++
      List.replicate (most - r.rates.length) "--" := by
  rw [rateRow, List.append_assoc]
  congr 1
  apply List.ext_getElem
  · simp only [List.length_map, List.length_range, List.length_append, List.length_replicate]
    omega
  · intro k h1 h2
    rw [List.getElem_map, List.getElem_range, rateCell, List.getElem_append]
    by_cases hk : k < r.rates.length
    · simp [hk, rateFormat]
    · simp [hk]

theorem length_rateRow (most : Nat) (r : Result) : (rateRow most r).length = most + 2 := by
  simp [rateRow]

theorem length_rateHeading (colour : Bool) {most : Nat} (h : 0 < most) :
    (rateHeading colour most).length = most + 2 := by
  simp only [rateHeading, List.length_append, List.length_map, List.length_range, List.length_cons,
    List.length_nil]
  omega

/-- The title of the column of so many threads. -/
def threadTitle (threads : Nat) : String :=
  if threads = 1 then "1 thrd" else toString threads ++ " thrds"

theorem getElem?_rateHeading (colour : Bool) {most k : Nat} (h : k < most) :
    (rateHeading colour most)[k + 2]? = some (heading colour (threadTitle (k + 1))) := by
  cases k with
  | zero => rfl
  | succ k =>
    have hk : k < most - 1 := by omega
    have hne : k + 1 + 1 ≠ 1 := by omega
    simp [rateHeading, threadTitle, hk]

/-! ## Timings -/

/-- What the row of a word says of its entry: five figures of two places each, and the failures, in
red if there are any. -/
def timingCells (colour : Bool) (word : String) (t : Timings) : List String :=
  [word] ++ [t.min.toFloat, t.max.toFloat, t.avg, t.median, t.stddev].map
      (Number.FixedFormat.render ⟨2, 6, false⟩) ++
    [if t.errors = 0 then "0" else Paint.red.apply colour (toString t.errors)]

theorem timingRow_eq (colour : Bool) (word : String) (t : Timings) :
    timingRow colour word t = timingCells colour word t := by
  simp [timingRow, timingCells, timingFormat, errorCell]

/-- The titles above those cells. -/
def timingTitles (colour : Bool) (title : String) : List String :=
  Paint.green.apply colour title ::
    ["Min", "Max", "Avg", "Median", "Stddev", "Errors"].map (Paint.bold.apply colour)

theorem timingHeading_eq (colour : Bool) (title : String) :
    timingHeading colour title = timingTitles colour title := rfl

theorem forall₂_filterMap {α β : Type} {f : α → Option β} {p : α → Bool} {l : List α}
    (h : ∀ x ∈ l, (f x).isSome = p x) :
    List.Forall₂ (fun x y => f x = some y) (l.filter p) (l.filterMap f) := by
  induction l with
  | nil => exact .nil
  | cons x l ih =>
    rw [List.forall_mem_cons] at h
    cases hx : f x with
    | none =>
      have hp : p x = false := by rw [← h.1, hx]; rfl
      rw [List.filterMap_cons_none hx, List.filter_cons_of_neg (by simp [hp])]
      exact ih h.2
    | some y =>
      have hp : p x = true := by rw [← h.1, hx]; rfl
      rw [List.filterMap_cons_some hx, List.filter_cons_of_pos hp]
      exact .cons hx (ih h.2)

/-- What the passes of a step have tried is what there are entries for. -/
theorem mem_keys {records : List Record} {commands : List String} {passes : List (List Try)}
    (hpasses : iterations records = passes.map .ofTries)
    (hwords : ∀ tries ∈ passes, tries.map Try.word = (Operation.recognised commands).map Prod.fst)
    (hsome : passes ≠ []) {word : String} :
    word ∈ (timings records).map Prod.fst ↔ word ∈ Operation.firstWords commands := by
  rw [keys_timings, hpasses, Iteration.mem_commandsSeen_ofTries, Operation.mem_firstWords,
    ← mem_recognised]
  constructor
  · rintro ⟨tries, htries, hword⟩
    exact hwords tries htries ▸ hword
  · intro hword
    obtain ⟨tries, htries⟩ := List.exists_mem_of_ne_nil passes hsome
    exact ⟨tries, htries, (hwords tries htries).symm ▸ hword⟩

/-- A table has the entry of each word in a row of its own. -/
theorem rows_detailTable (colour : Bool) (r : Result) (k : Nat) {records : List Record}
    (hkeys : ∀ word, word ∈ (timings records).map Prod.fst ↔
      word ∈ Operation.firstWords r.commands) :
    ∃ rows, (detailTable colour r k records).rows =
        timingTitles colour (r.name ++ ":" ++ toString k) :: rows ∧
      List.Forall₂ (fun word row => ∃ t, (timings records).lookup word = some t ∧
        row = timingCells colour word t) (Operation.firstWords r.commands) rows := by
  refine ⟨_, rfl, ?_⟩
  have hknown : ∀ word ∈ r.commands.eraseDups,
      (((timings records).lookup word).map (timingRow colour word)).isSome =
        (Operation.parse? word).isSome := by
    intro word hword
    rw [Option.isSome_map, Bool.eq_iff_iff, isSome_lookup, hkeys, Operation.mem_firstWords]
    exact and_iff_right (List.mem_eraseDups.mp hword)
  refine (forall₂_filterMap hknown).imp ?_
  intro word row hrow
  obtain ⟨t, ht, hrow⟩ := Option.map_eq_some_iff.mp hrow
  exact ⟨t, ht, hrow.symm.trans (timingRow_eq colour word t)⟩

theorem timings_of_none {records : List Record} (h : iterations records = []) :
    timings records = [] := by
  simp [timings, h, commandsSeen, sortedNames, List.eraseReps, List.eraseRepsBy]

end Report

/-! ## What the results of a sweep come from -/

/-- An uncancelled worker that lives makes all its passes. -/
theorem Shift.exists_pass (s : Shift) (hcancelled : s.pool.cancelled = false) {t : Nat}
    (ht : t < s.threads) (hlives : .die t ∉ s.events) (hpos : 0 < s.iterations) :
    EngineBench.iterations s.pool.records ≠ [] := by
  obtain ⟨m, hm, -⟩ := Pool.worker_stands s.goes ht
  have hmem : m ∈ s.pool.members := List.mem_of_getElem? hm
  have hlength : m.queue.length = s.iterations := by
    cases Pool.worker_ended s.goes ht hm (List.all_eq_true.mp s.ended m hmem) with
    | whole hfull => exact hfull
    | stopped _ _ hstop =>
      have hheard := (Pool.looks_of_steps s.goes hstop).1 rfl
      rw [hcancelled] at hheard
      cases hheard
    | died _ _ _ hdied => exact absurd hdied hlives
  obtain ⟨i, hi⟩ := List.exists_mem_of_length_pos (hlength ▸ hpos)
  rw [iterations_records]
  exact List.ne_nil_of_mem (List.mem_flatMap_of_mem hmem hi)

/-- A result that is put together from these steps of a bench. -/
structure Result.Gathers (r : Result) (commands : List String) (group : List Shift) (b : Bench)
    (iterations : Nat) (steps : List Sweep.Step) : Prop where
  keeps : Sweep.KeepInOrder steps group b iterations
  threads : steps.length = r.threads.toNat
  some : 0 < steps.length
  rates : r.rates = steps.map Sweep.Step.rate
  iterations_eq : r.iterations = UInt64.ofNat iterations
  detailed : r.isLimit = false → 0 < iterations ∧ r.steps = steps.map Sweep.Step.records ∧
    r.commands = commands ∧ ∃ w, b.job = .lifecycle w ∧ w.commands = commands

def Result.Gathered (commands : List String) (r : Result) (group : List Shift) : Prop :=
  ∃ b iterations steps, r.Gathers commands group b iterations steps

namespace Sweep

variable {c c' : Bool} {tr : List Happening} {r : Result}

theorem gathered_of_limit (commands : List String)
    (h : Course c (limit limitThreads limitIterations).run tr c' (.ok r)) :
    r.Gathered commands (shifts tr) := by
  obtain ⟨steps, rfl, hlen, hall⟩ := steps_of_limit h
  refine ⟨.spawning, limitIterations, steps, hall, hlen, ?_, rfl, rfl, by simp⟩
  rw [hlen]
  decide

theorem gathered_of_entry {b : Definition.Benchmark} {e : Definition.Entry} {options : SweepOptions}
    (hadmits : b.Admits e) (hword : e.threads < 2 ^ 64)
    (h : Course c (entry b e options).run tr c' (.ok r)) : r.Gathered b.commands (shifts tr) := by
  obtain ⟨kind, w, steps, hw, rfl, hlen, hall⟩ := steps_of_entry h
  obtain ⟨k, image, hk, himage⟩ := hadmits.exists_image
  rw [Definition.Benchmark.workload_of_names hk himage, Except.ok.injEq] at hw
  have hjob : (benchFor e options ⟨w, kind⟩).job = .lifecycle w := by
    unfold benchFor
    split <;> rfl
  refine ⟨_, _, steps, hall, ?_, hlen ▸ hadmits.threads, rfl, rfl, fun _ => ?_⟩
  · rw [hlen, UInt64.toNat_ofNat_of_lt' hword]
  · exact ⟨hadmits.iterations, rfl, rfl, w, hjob, hw ▸ rfl⟩

theorem gathered_of_run {b : Definition.Benchmark} {options : SweepOptions} {results : List Result}
    (hsound : b.IsSound) (hwords : ∀ e ∈ b.entries, e.threads < 2 ^ 64)
    (h : Course c (run b options).run tr c' (.ok results)) :
    ∃ groups : List (List Shift), shifts tr = groups.flatten ∧
      List.Forall₂ (Result.Gathered b.commands) results groups := by
  rw [run_eq] at h
  obtain ⟨tr1, _, front, _, rfl, hbound, hrest⟩ := course_ok_bind h
  obtain ⟨tr2, _, rest, tr3, rfl, hentries, hdone⟩ := course_ok_bind hrest
  obtain ⟨rfl, hresults⟩ := course_done hdone
  cases hresults
  obtain ⟨groups, hgroups, hfront⟩ := groups_of_bound (P := Result.Gathered b.commands)
    (gathered_of_limit b.commands) hbound
  obtain ⟨groups', hgroups', hrest⟩ := groups_of_entries (P := Result.Gathered b.commands)
    (fun e he => gathered_of_entry (hsound.entries e he) (hwords e he)) hentries
  refine ⟨groups ++ groups', ?_, List.rel_append hfront hrest⟩
  rw [List.append_nil, shifts_append, hgroups, hgroups', List.flatten_append]

end Sweep

namespace Report

/-- What the table of a step shows, given the shift of its workers. -/
structure Details (colour : Bool) (commands : List String) (r : Result) (k : Nat)
    (records : List Record) (s : Shift) : Prop where
  /-- The passes that the table tells of are those of the workers. -/
  passes : iterations records = s.pool.members.flatMap Pool.Member.queue
  /-- They have an entry for each recognised word of the command list and for nothing else. -/
  keys : iterations records ≠ [] → ∀ word,
    word ∈ (timings records).map Prod.fst ↔ word ∈ Operation.firstWords commands
  rows : iterations records ≠ [] → ∃ rows, (detailTable colour r (k + 1) records).rows =
      timingTitles colour (r.name ++ ":" ++ toString (k + 1)) :: rows ∧
    List.Forall₂ (fun word row => ∃ t, (timings records).lookup word = some t ∧
      row = timingCells colour word t) (Operation.firstWords commands) rows
  /-- Without a pass there is neither an entry nor a row. -/
  nothing : iterations records = [] → timings records = [] ∧
    (detailTable colour r (k + 1) records).rows =
      [timingTitles colour (r.name ++ ":" ++ toString (k + 1))]
  /-- There is no pass only if every worker has died of a call. -/
  lives : (∃ t < s.threads, .die t ∉ s.events) → iterations records ≠ []

theorem details_of_keeps (colour : Bool) {r : Result} {k : Nat} {s : Shift} {step : Sweep.Step}
    {b : Bench} {w : Workload} {n : Nat} (hkeeps : step.Keeps s b (k + 1) n)
    (hjob : b.job = .lifecycle w) (hcommands : r.commands = w.commands) (hpos : 0 < n)
    (hcancelled : s.pool.cancelled = false) :
    Details colour w.commands r k step.records s := by
  obtain ⟨samples, hrecords⟩ := hkeeps.records_eq
  have hpasses : iterations step.records = iterations s.pool.records := by
    rw [hrecords, iterations_append_samples]
  obtain ⟨passes, htried, hwords⟩ := s.exists_passes (hkeeps.job_eq.trans hjob)
  have hkeys : iterations step.records ≠ [] → ∀ word,
      word ∈ (timings step.records).map Prod.fst ↔ word ∈ Operation.firstWords w.commands := by
    intro hsome word
    rw [hpasses, htried] at hsome
    exact mem_keys (hpasses.trans htried) hwords fun hnone => hsome (hnone ▸ rfl)
  refine ⟨hpasses.trans (iterations_records s.pool), hkeys, ?_, ?_, ?_⟩
  · intro hsome
    rw [← hcommands] at hkeys ⊢
    exact rows_detailTable colour r (k + 1) (hkeys hsome)
  · intro hnone
    have htimings := timings_of_none hnone
    refine ⟨htimings, ?_⟩
    simp [detailTable, htimings, timingHeading_eq]
  · rintro ⟨t, ht, hlives⟩
    rw [hpasses]
    exact s.exists_pass hcancelled ht hlives (hkeeps.iterations_eq ▸ hpos)

/-- What a report whose summary has so many columns shows of a result, given the shifts of its
steps. -/
structure Shows (colour : Bool) (commands : List String) (most : Nat) (r : Result)
    (group : List Shift) : Prop where
  /-- There is a step with one worker, one with two, and so on. -/
  workers : group.length = r.threads.toNat ∧ ∀ (k : Nat) (s : Shift), group[k]? = some s →
    s.threads = k + 1
  rates : r.rates = group.map fun s => rate (UInt64.ofNat s.threads) r.iterations s.took
  /-- The rates stand one after the other, and no column of fewer threads is left out. -/
  row : group.length ≤ most ∧ rateRow most r = [r.name, toString r.iterations] ++
    r.rates.map (Number.FixedFormat.render ⟨2, 7, false⟩) ++
    List.replicate (most - group.length) "--"
  steps : r.isLimit = false → r.steps.length = group.length ∧
    ∀ (k : Nat) (s : Shift), group[k]? = some s →
      ∃ records, r.steps[k]? = some records ∧ Details colour commands r k records s

theorem shows_of_gathers (colour : Bool) {commands : List String} {most n : Nat} {r : Result}
    {group : List Shift} {b : Bench} {steps : List Sweep.Step}
    (h : r.Gathers commands group b n steps) (hmost : r.threads.toNat ≤ most)
    (hcalm : ∀ s ∈ group, s.pool.cancelled = false) : Shows colour commands most r group := by
  have hlength : group.length = r.threads.toNat := h.keeps.length.symm.trans h.threads
  have hrates : r.rates.length = group.length := by
    rw [h.rates, List.length_map, h.keeps.length]
  refine ⟨⟨hlength, fun k s hs => ?_⟩, ?_, ⟨hlength ▸ hmost, ?_⟩, fun hlimit => ?_⟩
  · obtain ⟨step, -, hkeeps⟩ := h.keeps.keeps k s hs
    exact hkeeps.threads_eq
  · apply List.ext_getElem?
    intro k
    rw [h.rates, List.getElem?_map, List.getElem?_map]
    cases hs : group[k]? with
    | none =>
      rw [List.getElem?_eq_none_iff, ← h.keeps.length, ← List.getElem?_eq_none_iff] at hs
      rw [hs]
      rfl
    | some s =>
      obtain ⟨step, hstep, hkeeps⟩ := h.keeps.keeps k s hs
      rw [hstep, Option.map_some, Option.map_some, hkeeps.rate_eq, hkeeps.threads_eq,
        h.iterations_eq]
  · rw [rateRow_eq (by omega), hrates]
  · obtain ⟨hpos, hsteps, hcommands, w, hjob, rfl⟩ := h.detailed hlimit
    refine ⟨by rw [hsteps, List.length_map, h.keeps.length], fun k s hs => ?_⟩
    obtain ⟨step, hstep, hkeeps⟩ := h.keeps.keeps k s hs
    refine ⟨step.records, ?_, ?_⟩
    · rw [hsteps, List.getElem?_map, hstep, Option.map_some]
    · exact details_of_keeps colour hkeeps hjob hcommands hpos
        (hcalm s (List.mem_of_getElem? hs))

/-! ## The whole report -/

def summaryText (colour : Bool) (results : List Result) : String :=
  title colour " SUMMARY TIMINGS/THREAD RATES " ++ (summaryTable colour results).render ++ "\n"

/-- What stands under the summary of a report on these results: the tables of their steps in order,
and the usage of their daemons. -/
def detailText (colour overhead : Bool) (results : List Result) : String :=
  title colour " DETAILED COMMAND TIMINGS/STATISTICS " ++
  String.join ((results.flatMap fun r => r.steps.zipIdx.map fun (records, j) =>
    (detailTable colour r (j + 1) records).render ++ "\n")) ++
  (if overhead then title colour " OVERHEAD " ++ overheadText colour results ++ "\n" else "")

/-- The limit run is in the summary, and in no other table. -/
theorem text_eq (colour overhead : Bool) (results : List Result) :
    text colour overhead results = summaryText colour results ++
      detailText colour overhead (results.filter fun r => !r.isLimit) := by
  have htables : (detailTables colour results).map (fun t => t.render ++ "\n") =
      (results.filter fun r => !r.isLimit).flatMap fun r => r.steps.zipIdx.map fun (records, j) =>
        (detailTable colour r (j + 1) records).render ++ "\n" := by
    simp only [detailTables, List.map_flatMap, List.map_map, Function.comp_def]
  have husage : overheadText colour (results.filter fun r => !r.isLimit) =
      overheadText colour results := by
    simp only [overheadText, overheadTable?, List.filter_filter, Bool.and_self]
  simp only [text, summaryText, detailText, htables, husage, String.append_assoc]

theorem exists_mem_zip {α β : Type} {l : List α} {l' : List β} (h : l.length = l'.length) {x : α}
    (hx : x ∈ l) : ∃ y, (x, y) ∈ l.zip l' := by
  rw [← List.map_fst_zip (Nat.le_of_eq h), List.mem_map] at hx
  obtain ⟨⟨_, y⟩, hy, rfl⟩ := hx
  exact ⟨y, hy⟩

/-- Once a benchmark is checked, and its counts are words, the report on an uncancelled sweep loses
nothing. Each result has a row of as many cells as the heading, with its rates in the columns of
their thread counts and dashes behind them. Each step of a result that is no limit run has a table
with the entries of its records, one row for each recognised word of the command list in the order
in which the words first come up: the word, the least and the greatest, the mean and the median of
its milliseconds, their deviation, and its failures. The table has no row if every worker has died
before its first record. The limit run is in the summary alone. -/
theorem a_report_shows_each_rate_and_each_word_once {b : Definition.Benchmark}
    {options : SweepOptions} {tr : List Happening} {results : List Result}
    (hchecked : b.check = .ok ()) (hwords : ∀ e ∈ b.entries, e.threads < 2 ^ 64)
    (h : Course false (Sweep.run b options).run tr false (.ok results)) (colour : Bool) :
    let most := columnCount results
    (∃ groups : List (List Shift), shifts tr = groups.flatten ∧
      List.Forall₂ (Shows colour b.commands most) results groups) ∧
    (summaryTable colour results).rows = rateHeading colour most :: results.map (rateRow most) ∧
    (∀ row ∈ (summaryTable colour results).rows, row.length = most + 2) ∧
    (∀ k < most,
      (rateHeading colour most)[k + 2]? = some (heading colour (threadTitle (k + 1)))) ∧
    (∀ word, word ∈ Operation.firstWords b.commands ↔
      word ∈ b.commands ∧ (Operation.parse? word).isSome = true) ∧
    (Operation.firstWords b.commands).Pairwise
      (fun v w => b.commands.idxOf v < b.commands.idxOf w) ∧
    ∀ overhead, text colour overhead results = summaryText colour results ++
      detailText colour overhead (results.filter fun r => !r.isLimit) := by
  intro most
  have hsound := Definition.Benchmark.check_eq_ok_iff.mp hchecked
  obtain ⟨groups, hgroups, hall⟩ := Sweep.gathered_of_run hsound hwords h
  obtain ⟨hlength, hgathers⟩ := List.forall₂_iff_zip.mp hall
  have hcalm : ∀ group ∈ groups, ∀ s ∈ group, s.pool.cancelled = false := by
    intro group hgroup s hs
    exact (course_calm h rfl).2 s (hgroups ▸ List.mem_flatten.mpr ⟨group, hgroup, hs⟩)
  have hpos : 0 < most := by
    refine columnCount_pos fun r hr => ?_
    obtain ⟨group, hmem⟩ := exists_mem_zip hlength hr
    obtain ⟨_, _, steps, hsteps⟩ := hgathers hmem
    exact hsteps.threads ▸ hsteps.some
  refine ⟨⟨groups, hgroups, ?_⟩, rfl, ?_, fun k => getElem?_rateHeading colour,
    fun word => Operation.mem_firstWords, Operation.pairwise_firstWords b.commands,
    fun overhead => text_eq colour overhead results⟩
  · rw [List.forall₂_iff_zip]
    refine ⟨hlength, fun hmem => ?_⟩
    obtain ⟨hr, hgroup⟩ := List.of_mem_zip hmem
    obtain ⟨_, _, steps, hsteps⟩ := hgathers hmem
    exact shows_of_gathers colour hsteps (le_columnCount hr) (hcalm _ hgroup)
  · intro row hrow
    obtain rfl | hrow := List.mem_cons.mp hrow
    · exact length_rateHeading colour hpos
    · obtain ⟨r, -, rfl⟩ := List.mem_map.mp hrow
      exact length_rateRow most r

/-- A benchmark with one pass of one worker, whose commands name an operation twice by one word and
once by another, and no operation. -/
def repeatedWords : Definition.Benchmark where
  name := "sweep"
  image := "busybox"
  rootfs := none
  command := none
  detached := false
  entries := [⟨"null", none, 1, 1, none, [], none, false, none, none, none⟩]
  commands := ["run", "sleep", "start", "run"]

/-- Its only shift. The container runs twice and is then refused. -/
def repeatedWordsShift : Shift where
  threads := 1
  iterations := 1
  job := .lifecycle ⟨"sweep", "busybox", none, false, false, ["run", "sleep", "start", "run"]⟩
  cancelled := false
  events :=
    let w : Workload :=
      ⟨"sweep", "busybox", none, false, false, ["run", "sleep", "start", "run"]⟩
    let ctr : Container := ⟨Name.ofIteration 0 0, "busybox", none, false, false, none⟩
    let ran (reply : Except EngineError Output) : Pool.Event :=
      .answer 0 (.call (.operate .run ctr)) ⟨reply, .ofMillis 2⟩
    [.look 0, .answer 0 (.call (createCall w ctr.name)) ⟨.ok ctr, .zero⟩,
      ran (.ok ⟨"", .ofMillis 7⟩), ran (.ok ⟨"", .ofMillis 8⟩),
      ran (.error (.io .permissionDenied)), .send 0]
  pool := ⟨1, false, [⟨.done (), false,
    [⟨[("run", .ofMillis 2), ("start", .ofMillis 8)], [("run", 1)]⟩]⟩]⟩
  took := .ofMillis 17
  goes := by rfl
  ended := by rfl

/-- A sweep of that benchmark. -/
def repeatedWordsTrace : List Happening :=
  Sweep.openingTrace ++ .shift repeatedWordsShift :: Sweep.answered [⟨.clean, .ok ()⟩,
    ⟨.close, .ok ()⟩]

theorem lookup_timings_repeatedWords {word : String} {t : Timings}
    (h : (timings repeatedWordsShift.pool.records).lookup word = some t) :
    t = timingsOf word (iterations repeatedWordsShift.pool.records) := by
  rw [lookup_timings] at h
  split at h
  · exact (Option.some.inj h).symm
  · cases h

/-- The report on it has a table of two rows, for the one word and for the other. The second time
that the container runs is the one that is timed. -/
theorem a_report_has_a_row_for_a_repeated_word_and_one_for_its_alias :
    ∃ r records t u, Course false (Sweep.run repeatedWords ⟨false, true, false⟩).run
        repeatedWordsTrace false (.ok [r]) ∧
      r.steps = [records] ∧
      Operation.firstWords repeatedWords.commands = ["run", "start"] ∧
      (timings records).lookup "run" = some t ∧ t.min = 2 ∧ t.max = 2 ∧ t.errors = 1 ∧
      (timings records).lookup "start" = some u ∧ u.min = 8 ∧ u.max = 8 ∧ u.errors = 0 ∧
      (detailTable false r 1 records).rows =
        [["sweep:Null:1", "Min", "Max", "Avg", "Median", "Stddev", "Errors"],
         ["run", timingFormat.render (2 : UInt64).toFloat,
          timingFormat.render (2 : UInt64).toFloat, timingFormat.render t.avg,
          timingFormat.render t.median, timingFormat.render t.stddev, "1"],
         ["start", timingFormat.render (8 : UInt64).toFloat,
          timingFormat.render (8 : UInt64).toFloat, timingFormat.render u.avg,
          timingFormat.render u.median, timingFormat.render u.stddev, "0"]] ∧
      rateRow 1 r = ["sweep:Null", "1"] ++ r.rates.map rateFormat.render := by
  have hcourse : Course false (Sweep.run repeatedWords ⟨false, true, false⟩).run
      repeatedWordsTrace false (.ok [⟨"sweep:Null", UInt64.ofNat 1, UInt64.ofNat 1,
        [rate (UInt64.ofNat 1) (UInt64.ofNat 1) repeatedWordsShift.took],
        [repeatedWordsShift.pool.records], repeatedWords.commands, false⟩]) := by
    refine .look (.look (.outside trivial (.outside trivial (.outside trivial ?_))))
    refine .outside trivial (.outside trivial (.outside trivial (.outside trivial ?_)))
    refine .outside trivial (.shift repeatedWordsShift (.outside trivial (.outside trivial ?_)))
    exact .done
  have hwords : ∀ e ∈ repeatedWords.entries, e.threads < 2 ^ 64 := by decide
  have hfirst : Operation.firstWords repeatedWords.commands = ["run", "start"] := by decide
  obtain ⟨⟨groups, hgroups, hall⟩, -⟩ :=
    a_report_shows_each_rate_and_each_word_once rfl hwords hcourse false
  cases hall with
  | @cons _ group _ groups hshows hrest =>
    cases hrest
    have hgroup : group = [repeatedWordsShift] := by
      rw [← List.append_nil group]
      exact hgroups.symm
    subst hgroup
    obtain ⟨_, ⟨⟩, hdetails⟩ := (hshows.steps rfl).2 0 _ rfl
    have hsome := hdetails.lives ⟨0, Nat.one_pos, by simp [repeatedWordsShift]⟩
    obtain ⟨rows, hrows, hentries⟩ := hdetails.rows hsome
    rw [hfirst] at hentries
    obtain ⟨_, _, ⟨t, ht, rfl⟩, hsecond, rfl⟩ := List.forall₂_cons_left_iff.mp hentries
    obtain ⟨_, _, ⟨u, hu, rfl⟩, hend, rfl⟩ := List.forall₂_cons_left_iff.mp hsecond
    obtain rfl := List.forall₂_nil_left_iff.mp hend
    obtain ⟨hmin, hmax, herrors⟩ : t.min = 2 ∧ t.max = 2 ∧ t.errors = 1 := by
      rw [lookup_timings_repeatedWords ht]
      decide +kernel
    obtain ⟨hmin', hmax', herrors'⟩ : u.min = 8 ∧ u.max = 8 ∧ u.errors = 0 := by
      rw [lookup_timings_repeatedWords hu]
      decide +kernel
    refine ⟨_, _, t, u, hcourse, rfl, hfirst, ht, hmin, hmax, herrors, hu, hmin', hmax', herrors',
      ?_, hshows.row.2⟩
    rw [hrows]
    simp only [timingCells, hmin, hmax, herrors, hmin', hmax', herrors']
    rfl

end Report

end EngineBench
