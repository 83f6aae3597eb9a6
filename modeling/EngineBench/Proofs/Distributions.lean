-- What the statistics of a run say, and what they depend on. A command that some pass timed or
-- counted a failure of has an entry, and the entry is about those passes alone: their order makes
-- no difference to it, and neither do the samples among the records. What is said of a daemon is
-- about the samples alone.
import EngineBench.Stats.Metrics
import Mathlib.Algebra.BigOperators.Group.List.Basic
import Mathlib.Algebra.Order.Ring.Nat
import Mathlib.Data.List.Forall2
import Mathlib.Data.List.GetD
import Mathlib.Data.List.Perm.Basic
import Mathlib.Data.String.Basic
import Mathlib.Order.Bounds.Defs

namespace EngineBench

/-! ## Values in ascending order -/

theorem sorted_perm (values : List UInt64) : (sorted values).Perm values :=
  List.mergeSort_perm values _

theorem pairwise_sorted (values : List UInt64) : (sorted values).Pairwise (· ≤ ·) := by
  have htrans : ∀ a b c : UInt64, decide (a ≤ b) = true → decide (b ≤ c) = true →
      decide (a ≤ c) = true := by
    intro a b c hab hbc
    exact decide_eq_true (UInt64.le_trans (of_decide_eq_true hab) (of_decide_eq_true hbc))
  have htotal : ∀ a b : UInt64, (decide (a ≤ b) || decide (b ≤ a)) = true := by
    intro a b
    simpa using UInt64.le_total a b
  exact (List.pairwise_mergeSort htrans htotal values).imp of_decide_eq_true

theorem sorted_congr {xs ys : List UInt64} (h : xs.Perm ys) : sorted xs = sorted ys := by
  have hperm : (sorted xs).Perm (sorted ys) :=
    (sorted_perm xs).trans (h.trans (sorted_perm ys).symm)
  exact hperm.eq_of_pairwise (fun _ _ _ _ => UInt64.le_antisymm) (pairwise_sorted xs)
    (pairwise_sorted ys)

section

variable {values : List UInt64}

theorem sorted_ne_nil (h : values ≠ []) : sorted values ≠ [] := by
  intro hnil
  have hperm := sorted_perm values
  rw [hnil] at hperm
  exact h hperm.symm.eq_nil

/-- A list of values has a least one, and that is the first of them in order. -/
theorem isLeast_least (h : values ≠ []) : IsLeast {v | v ∈ values} (least values) := by
  obtain ⟨x, rest, hs⟩ := List.exists_cons_of_ne_nil (sorted_ne_nil h)
  have hmem : ∀ v, v ∈ values ↔ v ∈ x :: rest := fun v => hs ▸ (sorted_perm values).mem_iff.symm
  have hordered := hs ▸ pairwise_sorted values
  have hleast : least values = x := by rw [least, hs, List.headD_cons]
  rw [hleast]
  refine ⟨(hmem x).mpr List.mem_cons_self, ?_⟩
  intro v hv
  rcases List.mem_cons.mp ((hmem v).mp hv) with rfl | hrest
  · exact UInt64.le_refl v
  · exact List.rel_of_pairwise_cons hordered hrest

theorem isGreatest_greatest (h : values ≠ []) :
    IsGreatest {v | v ∈ values} (greatest values) := by
  obtain hs | ⟨rest, x, hs⟩ := List.eq_nil_or_concat (sorted values)
  · exact absurd hs (sorted_ne_nil h)
  rw [List.concat_eq_append] at hs
  have hmem : ∀ v, v ∈ values ↔ v ∈ rest ++ [x] := fun v => hs ▸ (sorted_perm values).mem_iff.symm
  have hordered := hs ▸ pairwise_sorted values
  have hgreatest : greatest values = x := by
    rw [greatest, hs, List.getLastD_concat]
  rw [hgreatest]
  refine ⟨(hmem x).mpr (by simp), ?_⟩
  intro v hv
  rcases List.mem_append.mp ((hmem v).mp hv) with hrest | hlast
  · exact (List.pairwise_append.mp hordered).2.2 v hrest x (List.mem_singleton_self x)
  · exact UInt64.le_of_eq (List.mem_singleton.mp hlast)

/-- The median of values in ascending order: the one with as many before it as behind it, or half
the sum of the two in the middle. -/
inductive IsMedian : List UInt64 → Quotient → Prop
  | middle {before behind : List UInt64} {x : UInt64} : before.length = behind.length →
      IsMedian (before ++ x :: behind) ⟨x, 1⟩
  | between {before behind : List UInt64} {x y : UInt64} : before.length = behind.length →
      IsMedian (before ++ x :: y :: behind) ⟨x + y, 2⟩

theorem isMedian_medianOf (h : values ≠ []) : IsMedian (sorted values) (medianOf values) := by
  have hpos : 0 < (sorted values).length := List.length_pos_of_ne_nil (sorted_ne_nil h)
  unfold medianOf
  generalize sorted values = s at hpos
  by_cases heven : s.length % 2 = 0
  · -- two values share the middle
    obtain ⟨n, hn⟩ : ∃ n, s.length = n + 2 + n := ⟨s.length / 2 - 1, by omega⟩
    have hmid : s.length / 2 = n + 1 := by omega
    have hx : n < s.length := by omega
    have hy : n + 1 < s.length := by omega
    have hsplit : s = s.take n ++ s[n] :: s[n + 1] :: s.drop (n + 2) := by
      rw [← List.drop_eq_getElem_cons hy, ← List.drop_eq_getElem_cons hx, List.take_append_drop]
    have hlength : (s.take n).length = (s.drop (n + 2)).length := by
      rw [List.length_take, List.length_drop]
      omega
    simp only [if_pos heven, hmid, Nat.add_sub_cancel, List.getD_eq_getElem s 0 hx,
      List.getD_eq_getElem s 0 hy]
    nth_rewrite 1 [hsplit]
    exact .between hlength
  · obtain ⟨n, hn⟩ : ∃ n, s.length = n + 1 + n := ⟨s.length / 2, by omega⟩
    have hmid : s.length / 2 = n := by omega
    have hx : n < s.length := by omega
    have hsplit : s = s.take n ++ s[n] :: s.drop (n + 1) := by
      rw [← List.drop_eq_getElem_cons hx, List.take_append_drop]
    have hlength : (s.take n).length = (s.drop (n + 1)).length := by
      rw [List.length_take, List.length_drop]
      omega
    simp only [if_neg heven, hmid, List.getD_eq_getElem s 0 hx]
    nth_rewrite 1 [hsplit]
    exact .middle hlength

end

/-! ## Sums of words -/

/-- Words that are added up one after the other, for words of any width. To wrap once is as good as
to wrap after each of them. -/
theorem foldl_add_eq {α : Type} [Add α] {ofNat : Nat → α} {toNat : α → Nat}
    (hadd : ∀ m n, ofNat (m + n) = ofNat m + ofNat n) (hword : ∀ w, ofNat (toNat w) = w)
    (hassoc : ∀ u v w : α, u + v + w = u + (v + w)) (words : List α) (start : α) :
    words.foldl (· + ·) start = ofNat (toNat start + (words.map toNat).sum) := by
  induction words generalizing start with
  | nil => simp [hword]
  | cons w rest ih =>
    rw [List.foldl_cons, ih, List.map_cons, List.sum_cons, hadd, hadd, hadd, hword, hword, hword,
      hassoc]

/-- The sum of words is their sum as numbers, wrapped once. -/
theorem wordSum_eq (values : List UInt64) :
    wordSum values = UInt64.ofNat (values.map UInt64.toNat).sum := by
  rw [wordSum, foldl_add_eq UInt64.ofNat_add (fun _ => UInt64.ofNat_toNat) UInt64.add_assoc]
  simp

/-- How often each pass has counted a failure of the command. -/
def failureCounts (command : String) (is : List Iteration) : List UInt32 :=
  is.map fun i => (i.errors.lookup command).getD 0

theorem errorsOf_eq (command : String) (is : List Iteration) :
    errorsOf command is = UInt32.ofNat ((failureCounts command is).map UInt32.toNat).sum := by
  rw [errorsOf, foldl_add_eq UInt32.ofNat_add (fun _ => UInt32.ofNat_toNat) UInt32.add_assoc]
  simp [failureCounts]

/-! ## Names in ascending order -/

section

variable {α : Type} [BEq α] [LawfulBEq α]

omit [LawfulBEq α] in
theorem eraseReps_loop (a : α) (l acc : List α) :
    List.eraseRepsBy.loop (· == ·) a l acc =
      acc.reverse ++ List.eraseRepsBy.loop (· == ·) a l [] := by
  induction l generalizing a acc with
  | nil => simp [List.eraseRepsBy.loop]
  | cons b l ih =>
    simp only [List.eraseRepsBy.loop]
    split
    · exact ih a acc
    · rw [ih b (a :: acc), ih b [a]]
      simp

theorem eraseReps_cons_self (a : α) (l : List α) :
    (a :: a :: l).eraseReps = (a :: l).eraseReps := by
  simp [List.eraseReps, List.eraseRepsBy, List.eraseRepsBy.loop]

theorem eraseReps_cons_of_ne {a b : α} (h : a ≠ b) (l : List α) :
    (a :: b :: l).eraseReps = a :: (b :: l).eraseReps := by
  have hne : (a == b) = false := by simpa using h
  simp only [List.eraseReps, List.eraseRepsBy, List.eraseRepsBy.loop, hne]
  exact eraseReps_loop b l [a]

/-- Neighbours are told apart by what they are, so nothing is lost. -/
theorem mem_eraseReps {l : List α} {x : α} : x ∈ l.eraseReps ↔ x ∈ l := by
  induction l with
  | nil => simp [List.eraseReps, List.eraseRepsBy]
  | cons a l ih =>
    cases l with
    | nil => simp [List.eraseReps, List.eraseRepsBy, List.eraseRepsBy.loop]
    | cons b l =>
      by_cases hab : a = b
      · subst hab
        rw [eraseReps_cons_self, ih]
        simp
      · rw [eraseReps_cons_of_ne hab, List.mem_cons, ih, List.mem_cons (a := x) (b := a)]

end

theorem pairwise_eraseReps {l : List String} (h : l.Pairwise (· ≤ ·)) :
    l.eraseReps.Pairwise (· < ·) := by
  induction l with
  | nil => exact .nil
  | cons a l ih =>
    cases l with
    | nil => simp [List.eraseReps, List.eraseRepsBy, List.eraseRepsBy.loop]
    | cons b l =>
      by_cases hab : a = b
      · subst hab
        rw [eraseReps_cons_self]
        exact ih h.tail
      · rw [eraseReps_cons_of_ne hab, List.pairwise_cons]
        refine ⟨fun x hx => ?_, ih h.tail⟩
        have hle : a ≤ b := List.rel_of_pairwise_cons h List.mem_cons_self
        have hlt : a < b := lt_of_le_of_ne hle hab
        rcases List.mem_cons.mp (mem_eraseReps.mp hx) with rfl | hx
        · exact hlt
        · exact lt_of_lt_of_le hlt (List.rel_of_pairwise_cons h.tail hx)

theorem pairwise_sortedNames (names : List String) : (sortedNames names).Pairwise (· < ·) := by
  have htrans : ∀ a b c : String, decide (a ≤ b) = true → decide (b ≤ c) = true →
      decide (a ≤ c) = true := by
    intro a b c hab hbc
    exact decide_eq_true (le_trans (of_decide_eq_true hab) (of_decide_eq_true hbc))
  have htotal : ∀ a b : String, (decide (a ≤ b) || decide (b ≤ a)) = true := by
    intro a b
    simpa using le_total a b
  exact pairwise_eraseReps ((List.pairwise_mergeSort htrans htotal names).imp of_decide_eq_true)

theorem mem_sortedNames {names : List String} {name : String} :
    name ∈ sortedNames names ↔ name ∈ names := by
  rw [sortedNames, mem_eraseReps, (List.mergeSort_perm names _).mem_iff]

theorem sortedNames_congr {xs ys : List String} (h : ∀ name, name ∈ xs ↔ name ∈ ys) :
    sortedNames xs = sortedNames ys := by
  have hx := pairwise_sortedNames xs
  have hy := pairwise_sortedNames ys
  have hnodup : ∀ {l : List String}, l.Pairwise (· < ·) → l.Nodup := fun hl => hl.imp ne_of_lt
  have hperm : (sortedNames xs).Perm (sortedNames ys) := by
    rw [List.perm_ext_iff_of_nodup (hnodup hx) (hnodup hy)]
    intro name
    rw [mem_sortedNames, mem_sortedNames, h]
  exact hperm.eq_of_pairwise (fun a b _ _ hab hba => absurd hba (lt_asymm hab)) hx hy

/-! ## The entries of the commands -/

theorem mem_commandsSeen {command : String} {is : List Iteration} :
    command ∈ commandsSeen is ↔
      ∃ i ∈ is, command ∈ i.durations.map (·.1) ∨ command ∈ i.errors.map (·.1) := by
  simp only [commandsSeen, mem_sortedNames, List.mem_flatMap, List.mem_append]

theorem commandsSeen_congr {is js : List Iteration} (h : is.Perm js) :
    commandsSeen is = commandsSeen js :=
  sortedNames_congr fun _ => (h.flatMap_right _).mem_iff

theorem mem_iterations {i : Iteration} {records : List Record} :
    i ∈ iterations records ↔ .iteration i ∈ records := by
  rw [iterations, List.mem_filterMap]
  constructor
  · rintro ⟨r, hr, hi⟩
    cases r with
    | iteration j =>
      cases hi
      exact hr
    | sample s => cases hi
  · exact fun h => ⟨_, h, rfl⟩

theorem keys_timings (records : List Record) :
    (timings records).map Prod.fst = commandsSeen (iterations records) := by
  rw [timings, List.map_map]
  exact List.map_id _

theorem lookup_map_key {β : Type} (f : String → β) (keys : List String) (key : String) :
    (keys.map fun k => (k, f k)).lookup key = if key ∈ keys then some (f key) else none := by
  induction keys with
  | nil => rfl
  | cons k rest ih =>
    by_cases hk : key = k
    · subst hk
      simp
    · have hne : (key == k) = false := by simpa using hk
      simp only [List.map_cons, List.lookup_cons, hne, List.mem_cons, hk, false_or]
      exact ih

theorem lookup_timings (records : List Record) (command : String) :
    (timings records).lookup command =
      if command ∈ commandsSeen (iterations records) then
        some (timingsOf command (iterations records)) else none :=
  lookup_map_key (fun c => timingsOf c (iterations records)) _ command

/-- What an entry says, given the milliseconds of the passes that timed its command and the failures
that the passes counted. Of the deviation nothing is said. -/
structure Timings.Describes (t : Timings) (millis : List UInt64) (counts : List UInt32) : Prop where
  min : millis ≠ [] → IsLeast {v | v ∈ millis} t.min
  max : millis ≠ [] → IsGreatest {v | v ∈ millis} t.max
  avg : millis ≠ [] → t.avg = Quotient.toFloat
    ⟨UInt64.ofNat (millis.map UInt64.toNat).sum, UInt64.ofNat millis.length⟩
  median : millis ≠ [] → ∃ ordered q, ordered.Perm millis ∧ ordered.Pairwise (· ≤ ·) ∧
    IsMedian ordered q ∧ t.median = q.toFloat
  untimed : millis = [] → t.min = 0 ∧ t.max = 0 ∧ t.avg = 0 ∧ t.median = 0
  errors : t.errors = UInt32.ofNat (counts.map UInt32.toNat).sum

theorem describes_timingsOf (command : String) (is : List Iteration) :
    (timingsOf command is).Describes (millisOf command is) (failureCounts command is) := by
  have hempty : ∀ {millis : List UInt64}, millis ≠ [] → ¬millis.isEmpty = true := by
    intro millis h
    rwa [List.isEmpty_iff]
  refine ⟨isLeast_least, isGreatest_greatest, fun h => ?_, fun h => ?_, fun h => ?_,
    errorsOf_eq command is⟩
  · simp only [timingsOf, mean, if_neg (hempty h), meanOf, wordSum_eq]
  · refine ⟨sorted (millisOf command is), medianOf (millisOf command is), sorted_perm _,
      pairwise_sorted _, isMedian_medianOf h, ?_⟩
    simp only [timingsOf, EngineBench.median, if_neg (hempty h)]
  · simp [timingsOf, h, least, greatest, sorted, mean, EngineBench.median]

/-- Two entries that differ in the deviation at most. -/
structure Timings.Agrees (t u : Timings) : Prop where
  min : t.min = u.min
  max : t.max = u.max
  avg : t.avg = u.avg
  median : t.median = u.median
  errors : t.errors = u.errors

theorem mean_congr {xs ys : List UInt64} (h : xs.Perm ys) : mean xs = mean ys := by
  simp only [mean, meanOf, wordSum_eq, h.length_eq, (h.map UInt64.toNat).sum_eq, h.isEmpty_eq]

theorem median_congr {xs ys : List UInt64} (h : xs.Perm ys) :
    EngineBench.median xs = EngineBench.median ys := by
  simp only [EngineBench.median, medianOf, sorted_congr h, h.isEmpty_eq]

/-- The order of the passes makes no difference to an entry. -/
theorem agrees_timingsOf (command : String) {is js : List Iteration} (h : is.Perm js) :
    (timingsOf command is).Agrees (timingsOf command js) := by
  have hmillis : (millisOf command is).Perm (millisOf command js) := h.filterMap _
  have hcounts : (failureCounts command is).Perm (failureCounts command js) := h.map _
  refine ⟨?_, ?_, mean_congr hmillis, median_congr hmillis, ?_⟩
  · simp only [timingsOf, least, sorted_congr hmillis]
  · simp only [timingsOf, greatest, sorted_congr hmillis]
  · simp only [timingsOf, errorsOf_eq, (hcounts.map UInt32.toNat).sum_eq]

/-! ## Passes and samples side by side -/

theorem iterations_filter (records : List Record) :
    iterations (records.filter fun r => !r.isSample) = iterations records := by
  rw [iterations, iterations, List.filterMap_filter]
  congr
  funext r
  cases r <;> rfl

theorem iterations_append_samples (records : List Record) (samples : List Sample) :
    iterations (records ++ samples.map .sample) = iterations records := by
  simp [iterations, Record.iteration?, Function.comp_def]

theorem samples_filter (records : List Record) :
    samples (records.filter Record.isSample) = samples records := by
  rw [samples, samples, List.filterMap_filter]
  congr
  funext r
  cases r <;> rfl

section

variable {records records' : List Record}

theorem iterations_perm
    (h : (records.filter fun r => !r.isSample).Perm (records'.filter fun r => !r.isSample)) :
    (iterations records).Perm (iterations records') := by
  rw [← iterations_filter records, ← iterations_filter records']
  exact h.filterMap _

theorem samples_perm (h : (records.filter Record.isSample).Perm (records'.filter Record.isSample)) :
    (samples records).Perm (samples records') := by
  rw [← samples_filter records, ← samples_filter records']
  exact h.filterMap _

/-- The same passes in any order, with any samples between them, have the same entries. -/
theorem agrees_timings (h : (iterations records).Perm (iterations records')) :
    List.Forall₂ (fun e e' => e.1 = e'.1 ∧ e.2.Agrees e'.2) (timings records)
      (timings records') := by
  rw [timings, timings, commandsSeen_congr h, List.forall₂_map_left_iff, List.forall₂_map_right_iff,
    List.forall₂_same]
  exact fun command _ => ⟨rfl, agrees_timingsOf command h⟩

theorem metrics_congr (h : records.filter Record.isSample = records'.filter Record.isSample) :
    metrics records = metrics records' := by
  have hsamples : samples records = samples records' := by
    rw [← samples_filter records, h, samples_filter]
  simp only [metrics, hsamples]

end

theorem minMem_eq (records : List Record) :
    (metrics records).minMem = least ((samples records).map Usage.mem) := by
  unfold metrics
  cases samples records with
  | nil => simp [Metrics.zero, least, sorted]
  | cons u rest => rfl

theorem maxMem_eq (records : List Record) :
    (metrics records).maxMem = greatest ((samples records).map Usage.mem) := by
  unfold metrics
  cases samples records with
  | nil => simp [Metrics.zero, greatest, sorted]
  | cons u rest => rfl

/-- The least and the greatest memory of the samples, and zero if there is none. -/
structure Metrics.Bounds (m : Metrics) (mems : List UInt64) : Prop where
  min : mems ≠ [] → IsLeast {v | v ∈ mems} m.minMem
  max : mems ≠ [] → IsGreatest {v | v ∈ mems} m.maxMem
  unsampled : mems = [] → m.minMem = 0 ∧ m.maxMem = 0

theorem bounds_metrics (records : List Record) :
    (metrics records).Bounds ((samples records).map Usage.mem) := by
  refine ⟨fun h => ?_, fun h => ?_, fun h => ?_⟩
  · rw [minMem_eq]
    exact isLeast_least h
  · rw [maxMem_eq]
    exact isGreatest_greatest h
  · rw [minMem_eq, maxMem_eq, h]
    simp [least, greatest, sorted]

/-- The statistics of any records. There is an entry for a command just if some pass timed it or
counted a failure of it, and the entries are told apart by their commands; an entry describes the
whole milliseconds of the passes that timed its command, and its failures. The order of the records
makes no difference to an entry, its deviation apart, and no sample does; and what is said of a
daemon is about the samples alone, its least and its greatest memory in whatever order they are. -/
theorem statistics_read_passes_and_samples_apart :
    (∀ records, ((timings records).map Prod.fst).Pairwise (· < ·) ∧
      (∀ command, command ∈ (timings records).map Prod.fst ↔ ∃ i, Record.iteration i ∈ records ∧
        (command ∈ i.durations.map Prod.fst ∨ command ∈ i.errors.map Prod.fst)) ∧
      (∀ command t, (command, t) ∈ timings records → t.Describes
        ((iterations records).filterMap fun i =>
          (i.durations.lookup command).map fun d => UInt64.ofNat d.wholeMillis)
        ((iterations records).map fun i => (i.errors.lookup command).getD 0)) ∧
      (metrics records).Bounds ((samples records).map Usage.mem)) ∧
    (∀ records records',
      (records.filter fun r => !r.isSample).Perm (records'.filter fun r => !r.isSample) →
        List.Forall₂ (fun e e' => e.1 = e'.1 ∧ e.2.Agrees e'.2) (timings records)
          (timings records')) ∧
    ∀ records records',
      (records.filter Record.isSample = records'.filter Record.isSample →
        metrics records = metrics records') ∧
      ((records.filter Record.isSample).Perm (records'.filter Record.isSample) →
        (metrics records).minMem = (metrics records').minMem ∧
          (metrics records).maxMem = (metrics records').maxMem) := by
  refine ⟨fun records => ⟨?_, fun command => ?_, ?_, bounds_metrics records⟩,
    fun records records' h => agrees_timings (iterations_perm h),
    fun records records' => ⟨metrics_congr, fun h => ?_⟩⟩
  · rw [keys_timings]
    exact pairwise_sortedNames _
  · simp only [keys_timings, mem_commandsSeen, mem_iterations]
  · intro command t h
    obtain ⟨c, -, hc⟩ := List.mem_map.mp h
    obtain ⟨rfl, rfl⟩ := Prod.mk.inj hc
    exact describes_timingsOf c (iterations records)
  · have hmems := (samples_perm h).map Usage.mem
    rw [minMem_eq, minMem_eq, maxMem_eq, maxMem_eq, least, least, greatest, greatest,
      sorted_congr hmems]
    exact ⟨rfl, rfl⟩

/-- A pass of three milliseconds, a sample, and a pass of one millisecond that has counted two
failures. -/
def aSampleBetweenPasses : List Record :=
  [.iteration ⟨[("run", .ofMillis 3)], []⟩, .sample ⟨0, ⟨5, 0⟩⟩,
    .iteration ⟨[("run", .ofMillis 1)], [("run", 2)]⟩]

theorem a_sample_between_passes_is_not_timed :
    (timings aSampleBetweenPasses).map Prod.fst ≠ [] ∧
    (∀ t, ("run", t) ∈ timings aSampleBetweenPasses → t.min = 1 ∧ t.max = 3 ∧ t.errors = 2) ∧
    List.Forall₂ (fun e e' => e.1 = e'.1 ∧ e.2.Agrees e'.2) (timings aSampleBetweenPasses)
      (timings aSampleBetweenPasses.reverse) ∧
    (metrics aSampleBetweenPasses).minMem = (metrics aSampleBetweenPasses.reverse).minMem := by
  obtain ⟨hpasses, horder, hsamples⟩ := statistics_read_passes_and_samples_apart
  obtain ⟨-, hkeys, hentries, -⟩ := hpasses aSampleBetweenPasses
  refine ⟨?_, fun t ht => ?_, horder _ _ ?_, ((hsamples _ _).2 ?_).1⟩
  · refine List.ne_nil_of_mem ((hkeys "run").mpr ⟨_, List.mem_cons_self, .inl ?_⟩)
    exact List.mem_cons_self
  · have hd := hentries "run" t ht
    have hleast : IsLeast {v | v ∈ [3, 1]} t.min := hd.min (List.cons_ne_nil _ _)
    have hgreatest : IsGreatest {v | v ∈ [3, 1]} t.max := hd.max (List.cons_ne_nil _ _)
    refine ⟨?_, ?_, hd.errors⟩
    · obtain h | h := List.mem_pair.mp hleast.1
      · exact absurd (hleast.2 (List.mem_pair.mpr (.inr rfl))) (h ▸ by decide)
      · exact h
    · obtain h | h := List.mem_pair.mp hgreatest.1
      · exact h
      · exact absurd (hgreatest.2 (List.mem_pair.mpr (.inl rfl))) (h ▸ by decide)
  · exact .swap _ _ []
  · exact .refl _

end EngineBench
