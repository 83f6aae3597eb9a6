-- Means and medians against the extremes of the same values. A mean is the sum of its values and a
-- median the sum of the one or two in the middle. A checked build answers only if these sums are
-- words, and then an average lies between the extremes. In an unchecked build it never comes out
-- above the greatest value, but it comes out below the least one if a sum has wrapped round and so
-- many times the least value is no word.
import EngineBench.Proofs.Overflows
import Mathlib.Algebra.Order.BigOperators.Group.List

namespace EngineBench

/-! ## Means of words -/

/-- How the mean of some values, taken as words are added, lies to two bounds. -/
structure Quotient.Averages (q : Quotient) (values : List UInt64) (low high : UInt64) : Prop where
  numerator : q.numerator.toNat = (values.map UInt64.toNat).sum % UInt64.size
  divisor : q.divisor = UInt64.ofNat values.length
  atMost : q.numerator.toNat ≤ values.length * high.toNat
  atLeast : (values.map UInt64.toNat).sum < UInt64.size →
    values.length * low.toNat ≤ q.numerator.toNat
  short : UInt64.size ≤ values.length * low.toNat → q.numerator.toNat < values.length * low.toNat

/-- How the mean of some values lies to two bounds if the values add up. -/
structure Quotient.Within (q : Quotient) (values : List UInt64) (low high : UInt64) : Prop where
  numerator : q.numerator.toNat = (values.map UInt64.toNat).sum
  divisor : q.divisor = UInt64.ofNat values.length
  atLeast : values.length * low.toNat ≤ q.numerator.toNat
  atMost : q.numerator.toNat ≤ values.length * high.toNat

theorem Quotient.Averages.within {q : Quotient} {values : List UInt64} {low high : UInt64}
    (h : q.Averages values low high) (hsum : AddUp values) : q.Within values low high where
  numerator := h.numerator.trans (Nat.mod_eq_of_lt hsum)
  divisor := h.divisor
  atLeast := h.atLeast hsum
  atMost := h.atMost

section

variable {values : List UInt64} {low high : UInt64}

theorem length_mul_le_sum (h : ∀ v ∈ values, low ≤ v) :
    values.length * low.toNat ≤ (values.map UInt64.toNat).sum := by
  have hall : ∀ n ∈ values.map UInt64.toNat, low.toNat ≤ n := by
    intro n hn
    obtain ⟨v, hv, rfl⟩ := List.mem_map.mp hn
    exact UInt64.le_iff_toNat_le.mp (h v hv)
  simpa using List.card_nsmul_le_sum _ _ hall

theorem sum_le_length_mul (h : ∀ v ∈ values, v ≤ high) :
    (values.map UInt64.toNat).sum ≤ values.length * high.toNat := by
  have hall : ∀ n ∈ values.map UInt64.toNat, n ≤ high.toNat := by
    intro n hn
    obtain ⟨v, hv, rfl⟩ := List.mem_map.mp hn
    exact UInt64.le_iff_toNat_le.mp (h v hv)
  simpa using List.sum_le_card_nsmul _ _ hall

/-- To wrap makes a sum smaller, so that only the lower bound can be missed. -/
theorem averages_meanOf (hlow : ∀ v ∈ values, low ≤ v) (hhigh : ∀ v ∈ values, v ≤ high) :
    (meanOf values).Averages values low high := by
  have hsum : (meanOf values).numerator.toNat =
      (values.map UInt64.toNat).sum % UInt64.size := by
    rw [meanOf, wordSum_eq, UInt64.toNat_ofNat']
  have hatLeast := length_mul_le_sum hlow
  have hatMost := sum_le_length_mul hhigh
  refine ⟨hsum, rfl, ?_, ?_, ?_⟩
  · rw [hsum]
    exact (Nat.mod_le _ _).trans hatMost
  · intro hword
    rwa [hsum, Nat.mod_eq_of_lt hword]
  · intro hwrap
    rw [hsum]
    exact (Nat.mod_lt _ (by decide)).trans_le hwrap

/-! ## Medians as means -/

/-- The values in the middle of others, with as many before them as behind them: one of them, or
two. -/
inductive IsMiddle (values : List UInt64) : List UInt64 → Prop
  | intro {before middle behind : List UInt64} : (before ++ middle ++ behind).Perm values →
      (before ++ middle ++ behind).Pairwise (· ≤ ·) → before.length = behind.length →
      middle.length = 1 ∨ middle.length = 2 → IsMiddle values middle

theorem IsMiddle.subset {middle : List UInt64} (h : IsMiddle values middle) :
    middle ⊆ values := by
  obtain ⟨hperm, -, -, -⟩ := h
  intro v hv
  exact hperm.subset (List.mem_append_left _ (List.mem_append_right _ hv))

theorem IsMiddle.addUp {middle : List UInt64} (h : IsMiddle values middle) (hsum : AddUp values) :
    AddUp middle := by
  obtain ⟨hperm, -, -, -⟩ := h
  have hparts := (hperm.map UInt64.toNat).sum_eq
  rw [List.map_append, List.map_append, List.sum_append, List.sum_append] at hparts
  unfold AddUp at hsum ⊢
  omega

/-- A median is the mean of what stands in the middle. -/
theorem exists_middle (h : values ≠ []) :
    ∃ middle, IsMiddle values middle ∧ medianOf values = meanOf middle := by
  have hmedian := isMedian_medianOf h
  have hperm := sorted_perm values
  have hordered := pairwise_sorted values
  generalize sorted values = ordered at hmedian hperm hordered
  generalize medianOf values = q at hmedian
  cases hmedian with
  | @middle before behind x hlength =>
    rw [← List.singleton_append, ← List.append_assoc] at hperm hordered
    refine ⟨[x], ⟨hperm, hordered, hlength, .inl rfl⟩, ?_⟩
    simp [meanOf, wordSum]
  | @between before behind x y hlength =>
    have hsplit : before ++ x :: y :: behind = before ++ [x, y] ++ behind := by simp
    rw [hsplit] at hperm hordered
    refine ⟨[x, y], ⟨hperm, hordered, hlength, .inr rfl⟩, ?_⟩
    simp [meanOf, wordSum]

theorem least_le (h : values ≠ []) : ∀ v ∈ values, least values ≤ v :=
  fun _ hv => (isLeast_least h).2 hv

theorem le_greatest (h : values ≠ []) : ∀ v ∈ values, v ≤ greatest values :=
  fun _ hv => (isGreatest_greatest h).2 hv

/-- What an average of some values and their extremes have to do with each other. -/
theorem averages_of_values (h : values ≠ []) :
    (meanOf values).Averages values (least values) (greatest values) ∧
      ∃ middle, IsMiddle values middle ∧
        (medianOf values).Averages middle (least values) (greatest values) := by
  refine ⟨averages_meanOf (least_le h) (le_greatest h), ?_⟩
  obtain ⟨middle, hmiddle, hmedian⟩ := exists_middle h
  refine ⟨middle, hmiddle, ?_⟩
  rw [hmedian]
  exact averages_meanOf (fun v hv => least_le h v (hmiddle.subset hv))
    fun v hv => le_greatest h v (hmiddle.subset hv)

theorem mean_eq (h : values ≠ []) : mean values = (meanOf values).toFloat := by
  unfold mean
  rw [if_neg (mt List.isEmpty_iff.mp h)]

theorem median_eq (h : values ≠ []) : EngineBench.median values = (medianOf values).toFloat := by
  unfold EngineBench.median
  rw [if_neg (mt List.isEmpty_iff.mp h)]

end

/-! ## The averages of a run -/

theorem eq_timingsOf {records : List Record} {command : String} {t : Timings}
    (h : (command, t) ∈ timings records) : t = timingsOf command (iterations records) := by
  obtain ⟨c, -, hc⟩ := List.mem_map.mp h
  cases hc
  rfl

theorem avgMem_eq {records : List Record} (h : samples records ≠ []) :
    (metrics records).avgMem = mean ((samples records).map Usage.mem) := by
  unfold metrics
  simp only [if_neg (mt List.isEmpty_iff.mp h)]

/-- The mean and the median of a command that was timed, each as a quotient that `Lies` to the
extremes as the mean of the values does that it is the mean of. -/
def Timings.Averaged (Lies : Quotient → List UInt64 → UInt64 → UInt64 → Prop) (t : Timings)
    (millis : List UInt64) : Prop :=
  (∃ q : Quotient, t.avg = q.toFloat ∧ Lies q millis t.min t.max) ∧
    ∃ (q : Quotient) (middle : List UInt64), t.median = q.toFloat ∧ IsMiddle millis middle ∧
      Lies q middle t.min t.max

theorem averaged_timingsOf {command : String} {is : List Iteration}
    (htimed : millisOf command is ≠ []) :
    (timingsOf command is).Averaged Quotient.Averages (millisOf command is) := by
  obtain ⟨hmean, middle, hmiddle, hmedian⟩ := averages_of_values htimed
  exact ⟨⟨_, mean_eq htimed, hmean⟩, _, middle, median_eq htimed, hmiddle, hmedian⟩

theorem Timings.Averaged.within {t : Timings} {millis : List UInt64}
    (h : t.Averaged Quotient.Averages millis) (hsum : AddUp millis) :
    t.Averaged Quotient.Within millis := by
  obtain ⟨⟨mean, hmean, hwithin⟩, median, middle, hmedian, hmiddle, hmiddles⟩ := h
  exact ⟨⟨mean, hmean, hwithin.within hsum⟩, median, middle, hmedian, hmiddle,
    hmiddles.within (hmiddle.addUp hsum)⟩

/-- The averages of any records. An unchecked build always answers, a checked one just if the
milliseconds and the failures of every command and the memory of the samples add up, and both answer
the same. The mean and the median of a command that was timed, and the mean of the memory if there
is a sample, are quotients whose numerators are at most so many times the greatest value as there
are values. They are at least so many times the least value if the values add up to a word, and less
if so many times the least value is more than a word; so in what a checked build answers, every
average lies between the extremes. -/
theorem averages_stay_between_the_extremes_unless_a_sum_wraps (records : List Record) :
    (∀ b : Build,
      b.timings records = b.settle .addition
        (∀ c ∈ commandsSeen (iterations records), Build.TimingsFit c (iterations records))
        (timings records) ∧
      b.metrics records = b.settle .addition (AddUp ((samples records).map Usage.mem))
        (metrics records)) ∧
    (∀ command t, (command, t) ∈ timings records →
      millisOf command (iterations records) ≠ [] →
      t.Averaged Quotient.Averages (millisOf command (iterations records))) ∧
    (samples records ≠ [] → ∃ q : Quotient, (metrics records).avgMem = q.toFloat ∧
      q.Averages ((samples records).map Usage.mem) (metrics records).minMem
        (metrics records).maxMem) ∧
    (∀ answer, Build.checked.timings records = .ok answer → ∀ command t, (command, t) ∈ answer →
      millisOf command (iterations records) ≠ [] →
      t.Averaged Quotient.Within (millisOf command (iterations records))) ∧
    ∀ answer, Build.checked.metrics records = .ok answer → samples records ≠ [] →
      ∃ q : Quotient, answer.avgMem = q.toFloat ∧
        q.Within ((samples records).map Usage.mem) answer.minMem answer.maxMem := by
  have htimings : ∀ command t, (command, t) ∈ timings records →
      millisOf command (iterations records) ≠ [] →
      t.Averaged Quotient.Averages (millisOf command (iterations records)) := by
    intro command t ht htimed
    rw [eq_timingsOf ht]
    exact averaged_timingsOf htimed
  have hmemory : samples records ≠ [] → ∃ q : Quotient, (metrics records).avgMem = q.toFloat ∧
      q.Averages ((samples records).map Usage.mem) (metrics records).minMem
        (metrics records).maxMem := by
    intro hsampled
    have hmems : (samples records).map Usage.mem ≠ [] := by simpa using hsampled
    rw [avgMem_eq hsampled, minMem_eq, maxMem_eq]
    exact ⟨_, EngineBench.mean_eq hmems, (averages_of_values hmems).1⟩
  refine ⟨fun b => ⟨b.timings_eq records, b.metrics_eq records⟩, htimings, hmemory, ?_, ?_⟩
  · intro answer hanswer command t ht htimed
    rw [Build.timings_eq] at hanswer
    obtain ⟨hfit, rfl⟩ := Build.settle_checked_eq_ok.mp hanswer
    have hseen : command ∈ commandsSeen (iterations records) := by
      rw [← keys_timings]
      exact List.mem_map_of_mem ht
    exact (htimings command t ht htimed).within (hfit command hseen).2
  · intro answer hanswer hsampled
    rw [Build.metrics_eq] at hanswer
    obtain ⟨hfit, rfl⟩ := Build.settle_checked_eq_ok.mp hanswer
    obtain ⟨q, hq, hwithin⟩ := hmemory hsampled
    exact ⟨q, hq, hwithin.within hfit⟩

/-! ## Two values -/

/-- Two passes and two samples that show two values. -/
def pairOf (x y : UInt64) : List Record :=
  [.iteration ⟨[("run", .ofMillis x.toNat)], []⟩, .iteration ⟨[("run", .ofMillis y.toNat)], []⟩,
    .sample ⟨0, ⟨x, 0⟩⟩, .sample ⟨1, ⟨y, 0⟩⟩]

theorem millisOf_pairOf (x y : UInt64) : millisOf "run" (iterations (pairOf x y)) = [x, y] := by
  simp [millisOf, iterations, pairOf, Record.iteration?, Duration.ofMillis, Duration.millis]

theorem samples_pairOf (x y : UInt64) : (samples (pairOf x y)).map Usage.mem = [x, y] := rfl

theorem mem_timings_pairOf (x y : UInt64) :
    ("run", timingsOf "run" (iterations (pairOf x y))) ∈ timings (pairOf x y) := by
  refine List.mem_map.mpr ⟨"run", mem_commandsSeen.mpr ⟨_, List.mem_cons_self, .inl ?_⟩, rfl⟩
  exact List.mem_cons_self

theorem mem_commandsSeen_pairOf {x y : UInt64} {command : String} :
    command ∈ commandsSeen (iterations (pairOf x y)) ↔ command = "run" := by
  simp [mem_commandsSeen, iterations, pairOf, Record.iteration?]

theorem timingsFit_pairOf (x y : UInt64) :
    Build.TimingsFit "run" (iterations (pairOf x y)) ↔ AddUp [x, y] := by
  have hcounts : failureCounts "run" (iterations (pairOf x y)) = [0, 0] := rfl
  rw [Build.TimingsFit, millisOf_pairOf, hcounts]
  exact and_iff_right (by decide)

/-- The one sum that a build needs to be a word. -/
theorem timings_pairOf (b : Build) (x y : UInt64) :
    b.timings (pairOf x y) = b.settle .addition (AddUp [x, y]) (timings (pairOf x y)) := by
  rw [Build.timings_eq]
  apply Build.settle_congr
  simp only [mem_commandsSeen_pairOf, forall_eq, timingsFit_pairOf]

theorem metrics_pairOf (b : Build) (x y : UInt64) :
    b.metrics (pairOf x y) = b.settle .addition (AddUp [x, y]) (metrics (pairOf x y)) :=
  b.metrics_eq (pairOf x y)

theorem sorted_pair {x y : UInt64} (h : x ≤ y) : sorted [x, y] = [x, y] := by
  apply List.mergeSort_of_pairwise
  simpa using h

theorem least_pair {x y : UInt64} (h : x ≤ y) : least [x, y] = x := by
  rw [least, sorted_pair h]
  rfl

theorem greatest_pair {x y : UInt64} (h : x ≤ y) : greatest [x, y] = y := by
  rw [greatest, sorted_pair h]
  rfl

/-- The greatest word whose double is a word as well. -/
def belowHalf : UInt64 := 9223372036854775807

def half : UInt64 := 9223372036854775808

/-- The sum of the two is the greatest word, so that a checked build answers as any build does. -/
theorem two_values_that_add_up_to_a_word_average_between_them :
    Build.checked.timings (pairOf belowHalf half) = .ok (timings (pairOf belowHalf half)) ∧
      Build.checked.metrics (pairOf belowHalf half) = .ok (metrics (pairOf belowHalf half)) ∧
      (∃ t, ("run", t) ∈ timings (pairOf belowHalf half) ∧ t.min = belowHalf ∧ t.max = half ∧
        millisOf "run" (iterations (pairOf belowHalf half)) ≠ [] ∧
        ∃ q : Quotient, t.avg = q.toFloat ∧ q.divisor = 2 ∧
          q.numerator = UInt64.ofNat (UInt64.size - 1) ∧ 2 * t.min.toNat ≤ q.numerator.toNat ∧
          q.numerator.toNat ≤ 2 * t.max.toNat) ∧
      samples (pairOf belowHalf half) ≠ [] ∧
      ∃ q : Quotient, (metrics (pairOf belowHalf half)).avgMem = q.toFloat ∧
        2 * (metrics (pairOf belowHalf half)).minMem.toNat ≤ q.numerator.toNat := by
  obtain ⟨-, -, -, hcommands, hmemory⟩ :=
    averages_stay_between_the_extremes_unless_a_sum_wraps (pairOf belowHalf half)
  have hword : AddUp [belowHalf, half] := by decide
  have htimings := timings_pairOf .checked belowHalf half
  have hmetrics := metrics_pairOf .checked belowHalf half
  rw [Build.settle_eq_ok _ fun _ => hword] at htimings hmetrics
  have hmillis := millisOf_pairOf belowHalf half
  have hle : belowHalf ≤ half := by decide
  have htimed : millisOf "run" (iterations (pairOf belowHalf half)) ≠ [] := by simp [hmillis]
  have hsampled : samples (pairOf belowHalf half) ≠ [] := List.cons_ne_nil _ _
  obtain ⟨⟨mean, hmean, hwithin⟩, -⟩ :=
    hcommands _ htimings "run" _ (mem_timings_pairOf _ _) htimed
  obtain ⟨mem, hmem, hmems⟩ := hmemory _ hmetrics hsampled
  rw [hmillis] at hwithin
  rw [samples_pairOf] at hmems
  refine ⟨htimings, hmetrics, ⟨_, mem_timings_pairOf _ _, ?_, ?_, htimed, mean, hmean,
    hwithin.divisor, ?_, hwithin.atLeast, hwithin.atMost⟩, hsampled, mem, hmem, hmems.atLeast⟩
  · rw [timingsOf, hmillis, least_pair hle]
  · rw [timingsOf, hmillis, greatest_pair hle]
  · apply UInt64.toNat_inj.mp
    rw [hwithin.numerator]
    decide

/-- Twice the same value. A checked build stops and has no statistics; an unchecked one answers, and
the average of the two is nothing. -/
theorem two_equal_values_can_average_below_both :
    Build.checked.timings (pairOf half half) = .error .addition ∧
      Build.checked.metrics (pairOf half half) = .error .addition ∧
      Build.unchecked.timings (pairOf half half) = .ok (timings (pairOf half half)) ∧
      Build.unchecked.metrics (pairOf half half) = .ok (metrics (pairOf half half)) ∧
      (∃ t, ("run", t) ∈ timings (pairOf half half) ∧ t.min = half ∧ t.max = half ∧
        millisOf "run" (iterations (pairOf half half)) = [half, half] ∧
        t.avg = (meanOf [half, half]).toFloat ∧
        ¬2 * t.min.toNat ≤ (meanOf [half, half]).numerator.toNat ∧
        t.median = (medianOf [half, half]).toFloat ∧
        ¬2 * t.min.toNat ≤ (medianOf [half, half]).numerator.toNat) ∧
      (samples (pairOf half half)).map Usage.mem = [half, half] ∧
      (metrics (pairOf half half)).minMem = half ∧
      (metrics (pairOf half half)).avgMem = (meanOf [half, half]).toFloat := by
  have htoo : ¬AddUp [half, half] := by decide
  have hmillis := millisOf_pairOf half half
  have hne : [half, half] ≠ [] := List.cons_ne_nil _ _
  have hsampled : samples (pairOf half half) ≠ [] := List.cons_ne_nil _ _
  have hle : half ≤ half := UInt64.le_refl half
  have hmin : (timingsOf "run" (iterations (pairOf half half))).min = half := by
    rw [timingsOf, hmillis, least_pair hle]
  have hmedian : medianOf [half, half] = ⟨0, 2⟩ := by
    unfold medianOf
    rw [sorted_pair hle]
    decide
  refine ⟨?_, ?_, ?_, ?_, ⟨_, mem_timings_pairOf _ _, hmin, ?_, hmillis, ?_, ?_, ?_, ?_⟩, rfl, ?_,
    ?_⟩
  · rw [timings_pairOf, Build.settle_checked, if_neg htoo]
  · rw [metrics_pairOf, Build.settle_checked, if_neg htoo]
  · rw [timings_pairOf, Build.settle_unchecked]
  · rw [metrics_pairOf, Build.settle_unchecked]
  · rw [timingsOf, hmillis, greatest_pair hle]
  · rw [timingsOf, hmillis, mean_eq hne]
  · rw [hmin]
    decide
  · rw [timingsOf, hmillis, median_eq hne]
  · rw [hmin, hmedian]
    decide
  · rw [minMem_eq, samples_pairOf, least_pair hle]
  · rw [avgMem_eq hsampled, samples_pairOf, mean_eq hne]

end EngineBench
