-- What becomes of a computation whose sums are those of a build. An unchecked build always gets
-- through, with sums that may have wrapped round. A checked one gets through with the same result
-- just if every sum on the way is a word, and stops otherwise.
import EngineBench.Proofs.Distributions
import EngineBench.Sampler.ProcessTree
import EngineBench.Stats.Builds

namespace EngineBench

/-- Words that add up to a word. -/
def AddUp (values : List UInt64) : Prop := (values.map UInt64.toNat).sum < UInt64.size

instance : DecidablePred AddUp := fun _ => Nat.decLt _ _

/-- Counters that add up to a counter. -/
def CountsAddUp (counts : List UInt32) : Prop := (counts.map UInt32.toNat).sum < UInt32.size

instance : DecidablePred CountsAddUp := fun _ => Nat.decLt _ _

namespace Build

/-! ## Results that settle -/

section

variable {α β : Type} {b : Build} {o : Overflow} {p q : Prop} [Decidable p] [Decidable q]

/-- A build gets past a result that only a checked build needs to fit. -/
theorem settle_eq_ok (x : α) (h : b = checked → p) : b.settle o p x = .ok x :=
  if_neg fun hstops => hstops.2 (h hstops.1)

theorem settle_unchecked (o : Overflow) (p : Prop) [Decidable p] (x : α) :
    unchecked.settle o p x = .ok x :=
  settle_eq_ok x nofun

theorem settle_checked (o : Overflow) (p : Prop) [Decidable p] (x : α) :
    checked.settle o p x = if p then .ok x else .error o := by
  by_cases hp : p
  · rw [if_pos hp, settle_eq_ok x fun _ => hp]
  · rw [if_neg hp]
    exact if_pos ⟨rfl, hp⟩

/-- What a checked build has got past does fit. -/
theorem settle_checked_eq_ok {x y : α} : checked.settle o p x = .ok y ↔ p ∧ x = y := by
  rw [settle_checked]
  split <;> simp [*]

theorem settle_congr (x : α) (h : p ↔ q) : b.settle o p x = b.settle o q x := by
  simp only [settle, h]

/-- Two results in a row, of which the second may rely on the first to fit. -/
theorem settle_bind {x : α} {f : α → Except Overflow β} {z : β}
    (h : (b = checked → p) → f x = b.settle o q z) :
    (b.settle o p x >>= f) = b.settle o (p ∧ q) z := by
  cases b with
  | unchecked => exact h nofun
  | checked =>
    by_cases hp : p
    · rw [settle_eq_ok x fun _ => hp, settle_congr z (and_iff_right hp)]
      exact h fun _ => hp
    · simp [settle_checked, hp, bind, Except.bind]

theorem settle_bind_ok {x : α} {f : α → Except Overflow β} {z : β}
    (h : (b = checked → p) → f x = .ok z) : (b.settle o p x >>= f) = b.settle o p z := by
  have hnext : (b = checked → p) → f x = b.settle o True z := by
    intro hp
    rw [h hp, settle_eq_ok z fun _ => trivial]
  exact (settle_bind hnext).trans (settle_congr z (and_iff_left trivial))

theorem mapM_settle {fits : α → Prop} [DecidablePred fits] (f : α → β) (l : List α) :
    l.mapM (fun a => b.settle o (fits a) (f a)) = b.settle o (∀ a ∈ l, fits a) (l.map f) := by
  induction l with
  | nil => exact (settle_eq_ok _ (by simp)).symm
  | cons a l ih =>
    rw [List.mapM_cons, ih]
    exact Eq.trans (settle_bind fun _ => settle_bind_ok fun _ => rfl)
      (settle_congr _ List.forall_mem_cons.symm)

end

/-! ## Sums -/

section

variable (b : Build)

/-- To check every sum on the way is to check the last of them, for words of any width. -/
theorem foldlM_settle {α : Type} {toNat : α → Nat} {add : α → α → α} {size : Nat}
    (hword : ∀ x, toNat x < size)
    (hadd : ∀ x y, toNat x + toNat y < size → toNat (add x y) = toNat x + toNat y)
    (words : List α) (start : α) :
    words.foldlM (fun x y => b.settle .addition (toNat x + toNat y < size) (add x y)) start =
      b.settle .addition (toNat start + (words.map toNat).sum < size) (words.foldl add start) := by
  induction words generalizing start with
  | nil => exact (settle_eq_ok _ fun _ => by simpa using hword start).symm
  | cons w rest ih =>
    have hrest : (b = checked → toNat start + toNat w < size) →
        rest.foldlM (fun x y => b.settle .addition (toNat x + toNat y < size) (add x y))
          (add start w) =
        b.settle .addition (toNat start + ((w :: rest).map toNat).sum < size)
          ((w :: rest).foldl add start) := by
      intro hfits
      rw [ih]
      cases b with
      | unchecked => rfl
      | checked => rw [hadd start w (hfits rfl), List.map_cons, List.sum_cons, Nat.add_assoc]; rfl
    rw [List.foldlM_cons]
    refine Eq.trans (settle_bind hrest) (settle_congr _ ?_)
    rw [List.map_cons, List.sum_cons]
    omega

theorem sum_eq (values : List UInt64) :
    b.sum values = b.settle .addition (AddUp values) (wordSum values) := by
  have hadd : ∀ x y : UInt64, x.toNat + y.toNat < UInt64.size →
      (x + y).toNat = x.toNat + y.toNat := by
    intro x y h
    rw [UInt64.toNat_add]
    exact Nat.mod_eq_of_lt h
  exact Eq.trans (foldlM_settle b UInt64.toNat_lt_size hadd values 0)
    (settle_congr _ (by simp [AddUp]))

theorem sumCounts_eq (counts : List UInt32) :
    b.sumCounts counts =
      b.settle .addition (CountsAddUp counts) (counts.foldl (· + ·) 0) := by
  have hadd : ∀ x y : UInt32, x.toNat + y.toNat < UInt32.size →
      (x + y).toNat = x.toNat + y.toNat := by
    intro x y h
    rw [UInt32.toNat_add]
    exact Nat.mod_eq_of_lt h
  exact Eq.trans (foldlM_settle b UInt32.toNat_lt_size hadd counts 0)
    (settle_congr _ (by simp [CountsAddUp]))

/-- The rate of a step without any time is nothing, and nothing is multiplied for it. -/
theorem rate_eq (threads iterations : UInt64) (elapsed : Duration) :
    b.rate threads iterations elapsed = b.settle .multiplication
      (elapsed.toSeconds == 0 ∨ threads.toNat * iterations.toNat < UInt64.size)
      (EngineBench.rate threads iterations elapsed) := by
  unfold Build.rate EngineBench.rate
  simp only
  split
  · exact (settle_eq_ok _ fun _ => .inl ‹_›).symm
  · exact Eq.trans (settle_bind_ok fun _ => rfl) (settle_congr _ (or_iff_right ‹_›).symm)

/-- The usage of a process tree, the memory of which is one sum. -/
theorem usage_eq (root : UInt32) (names : List String) (table : ProcessTable) :
    b.usage root names table = b.settle .addition
      (AddUp (((table.reach root).filterMap (table.share names)).map ProcessEntry.mem))
      (table.usage root names) := by
  simp only [Build.usage, sum_eq]
  exact settle_bind_ok fun _ => rfl

end

/-! ## Averages -/

section

variable {b : Build} {values : List UInt64}

theorem meanOf_eq (b : Build) (values : List UInt64) :
    b.meanOf values = b.settle .addition (AddUp values) (EngineBench.meanOf values) := by
  rw [Build.meanOf, sum_eq]
  exact settle_bind_ok fun _ => rfl

theorem mean_eq (b : Build) (values : List UInt64) :
    b.mean values = b.settle .addition (AddUp values) (EngineBench.mean values) := by
  cases values with
  | nil => exact (settle_eq_ok _ fun _ => by decide).symm
  | cons v rest =>
    simp only [Build.mean, meanOf_eq]
    exact settle_bind_ok fun _ => rfl

/-- Two neighbours are at most what the whole list adds up to. -/
theorem neighbours_le_sum (l : List UInt64) (i : Nat) :
    (l.getD i 0).toNat + (l.getD (i + 1) 0).toNat ≤ (l.map UInt64.toNat).sum := by
  induction l generalizing i with
  | nil => simp
  | cons v rest ih =>
    cases i with
    | zero => cases rest <;> simp
    | succ i =>
      simp only [List.getD_cons_succ, List.map_cons, List.sum_cons]
      exact (ih i).trans (Nat.le_add_left _ _)

/-- The two values in the middle add up to a word if all of them do. -/
theorem medianOf_of_addUp (h : b = checked → AddUp values) (hvalues : values ≠ []) :
    b.medianOf values = .ok (EngineBench.medianOf values) := by
  unfold Build.medianOf EngineBench.medianOf
  simp only
  split
  · have hfits : b = checked → ((sorted values).getD ((sorted values).length / 2 - 1) 0).toNat +
        ((sorted values).getD ((sorted values).length / 2) 0).toNat < UInt64.size := by
      intro hb
      have hpos := List.length_pos_of_ne_nil (sorted_ne_nil hvalues)
      have hmiddle : (sorted values).length / 2 = (sorted values).length / 2 - 1 + 1 := by omega
      have hle := neighbours_le_sum (sorted values) ((sorted values).length / 2 - 1)
      rw [← hmiddle, ((sorted_perm values).map UInt64.toNat).sum_eq] at hle
      exact hle.trans_lt (h hb)
    rw [add, settle_eq_ok _ hfits]
    rfl
  · rfl

theorem median_of_addUp (h : b = checked → AddUp values) :
    b.median values = .ok (EngineBench.median values) := by
  cases values with
  | nil => rfl
  | cons v rest =>
    simp only [Build.median, medianOf_of_addUp h (List.cons_ne_nil v rest)]
    rfl

theorem deviation_of_addUp (h : b = checked → AddUp values) :
    b.deviation values = .ok (EngineBench.deviation values) := by
  cases values with
  | nil => rfl
  | cons v rest =>
    simp only [Build.deviation, mean_eq, settle_eq_ok _ h]
    rfl

end

/-! ## Statistics -/

section

variable (b : Build)

/-- The failures of a command and the milliseconds of the passes that timed it add up. -/
def TimingsFit (command : String) (is : List Iteration) : Prop :=
  CountsAddUp (failureCounts command is) ∧ AddUp (millisOf command is)

instance (command : String) (is : List Iteration) : Decidable (TimingsFit command is) :=
  instDecidableAnd

theorem timingsOf_eq (command : String) (is : List Iteration) :
    b.timingsOf command is =
      b.settle .addition (TimingsFit command is) (EngineBench.timingsOf command is) := by
  simp only [Build.timingsOf, Build.errorsOf, sumCounts_eq, mean_eq]
  refine settle_bind fun _ => settle_bind_ok fun hmillis => ?_
  rw [median_of_addUp hmillis, deviation_of_addUp hmillis]
  rfl

/-- The timings of a build are those of any build, or there are none because a sum is no word. -/
theorem timings_eq (records : List Record) :
    b.timings records = b.settle .addition
      (∀ command ∈ commandsSeen (iterations records), TimingsFit command (iterations records))
      (EngineBench.timings records) := by
  have hentry (command : String) :
      (do return (command, ← b.timingsOf command (iterations records))) =
        b.settle .addition (TimingsFit command (iterations records))
          (command, EngineBench.timingsOf command (iterations records)) := by
    rw [timingsOf_eq]
    exact settle_bind_ok fun _ => rfl
  simp only [Build.timings, hentry]
  exact mapM_settle _ _

theorem metrics_eq (records : List Record) :
    b.metrics records = b.settle .addition (AddUp ((samples records).map Usage.mem))
      (EngineBench.metrics records) := by
  unfold Build.metrics
  rw [mean_eq]
  refine settle_bind_ok fun _ => ?_
  unfold EngineBench.metrics
  cases samples records <;> rfl

end

end Build

end EngineBench
