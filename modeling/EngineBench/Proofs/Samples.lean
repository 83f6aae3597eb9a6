-- The samples of a watched run: what is left of a sampling task, whatever becomes of its queries,
-- and where its samples stand among the records.
import EngineBench.Bench.Act

namespace EngineBench

/-! ## Samples in the order of their times -/

namespace Sample

def noLater (x y : Sample) : Bool := x.time ≤ y.time

theorem noLater_trans (x y z : Sample) (hxy : x.noLater y = true) (hyz : y.noLater z = true) :
    x.noLater z = true := by
  simp only [noLater, decide_eq_true_eq] at *
  omega

theorem noLater_total (x y : Sample) : (x.noLater y || y.noLater x) = true := by
  simp only [noLater, Bool.or_eq_true, decide_eq_true_eq]
  omega

/-- The second list has the samples of the first one by their times, and samples of one time in
the order that they had. -/
structure SortsByTime (xs ys : List Sample) : Prop where
  perm : ys.Perm xs
  sorted : ys.Pairwise fun x y => x.time ≤ y.time
  stable : ∀ time, ys.filter (fun x => x.time == time) = xs.filter fun x => x.time == time

theorem sortsByTime_mergeSort (xs : List Sample) : SortsByTime xs (xs.mergeSort noLater) where
  perm := List.mergeSort_perm xs noLater
  sorted := (List.pairwise_mergeSort noLater_trans noLater_total xs).imp of_decide_eq_true
  stable time := by
    -- the samples of one time stand in order already, so sorting leaves them in their places
    have hordered : (xs.filter fun x => x.time == time).Pairwise (noLater · ·) := by
      apply List.pairwise_of_forall_mem_list
      intro x hx y hy
      rw [List.mem_filter, beq_iff_eq] at hx hy
      simp [noLater, hx.2, hy.2]
    have hsub := List.sublist_mergeSort noLater_trans noLater_total hordered List.filter_sublist
    have hkept := hsub.filter fun x => x.time == time
    rw [List.filter_filter] at hkept
    simp only [Bool.and_self] at hkept
    refine (hkept.eq_of_length ?_).symm
    exact ((List.mergeSort_perm xs noLater).filter _).length_eq.symm

end Sample

namespace Record

theorem noLater_trans (x y z : Record) (hxy : x.noLater y = true) (hyz : y.noLater z = true) :
    x.noLater z = true := by
  cases x with
  | iteration i => rfl
  | sample s =>
    cases y with
    | iteration i => cases hxy
    | sample s' =>
      cases z with
      | iteration i => cases hyz
      | sample s'' => exact Sample.noLater_trans s s' s'' hxy hyz

theorem noLater_total (x y : Record) : (x.noLater y || y.noLater x) = true := by
  cases x with
  | iteration i => rfl
  | sample s =>
    cases y with
    | iteration i => rfl
    | sample s' => exact Sample.noLater_total s s'

end Record

/-- Iterations keep their places, and the samples after them are put in the order of their times. -/
theorem inTimeOrder_append {records : List Record} (hrecords : ∀ r ∈ records, r.isSample = false)
    (samples : List Sample) : inTimeOrder (records ++ samples.map .sample) =
      records ++ (samples.mergeSort Sample.noLater).map .sample := by
  unfold inTimeOrder
  induction records with
  | nil =>
    have hsame : ∀ x ∈ samples, ∀ y ∈ samples,
        x.noLater y = Record.noLater (.sample x) (.sample y) := fun _ _ _ _ => rfl
    exact (List.map_mergeSort hsame).symm
  | cons r rest ih =>
    obtain ⟨front, back, hall, hrest, hfront⟩ := List.mergeSort_cons Record.noLater_trans
      Record.noLater_total r (rest ++ samples.map .sample)
    -- nothing stands before an iteration that did not stand there
    have hnone : front = [] := by
      rw [List.eq_nil_iff_forall_not_mem]
      intro x hx
      have hlater := hfront x hx
      cases r with
      | iteration i => cases hlater
      | sample s => cases hrecords (.sample s) List.mem_cons_self
    subst hnone
    rw [List.nil_append] at hall hrest
    rw [List.cons_append, List.cons_append, hall, ← hrest,
      ih fun x hx => hrecords x (List.mem_cons_of_mem _ hx)]

/-! ## What is left of a sampling task -/

namespace Sampling

def Event.sample? : Event → Option Sample
  | .tick (.measured s) => some s
  | _ => none

/-- Whether a query takes the task down. -/
def Event.isFatal : Event → Bool
  | .tick .fatal => true
  | _ => false

/-- The samples that have been collected when all of this has happened. If a query has taken the
task down they are lost. -/
def collected (events : List Event) : List Sample :=
  if events.any Event.isFatal then [] else events.filterMap Event.sample?

namespace Task

section

variable {t t' : Task} {e : Event}

/-- All that an event can do. -/
theorem step_cases (h : t.step e = some t') :
    (e = .stop ∧ t' = { t with stopping := true }) ∨
      t.phase = .running ∧
        ((∃ s, e = .tick (.measured s) ∧ t' = { t with samples := t.samples ++ [s] }) ∨
          (e = .tick .failed ∧ t' = t) ∨
          (e = .tick .fatal ∧ t' = { t with phase := .dead }) ∨
          (e = .leave ∧ t.stopping = true ∧ t' = { t with phase := .left })) := by
  cases e with
  | stop =>
    cases h
    exact Or.inl ⟨rfl, rfl⟩
  | tick q =>
    simp only [step] at h
    split at h
    · rename_i hrunning
      refine Or.inr ⟨hrunning, ?_⟩
      cases q with
      | measured s =>
        cases h
        exact Or.inl ⟨s, rfl, rfl⟩
      | failed =>
        cases h
        exact Or.inr (Or.inl ⟨rfl, rfl⟩)
      | fatal =>
        cases h
        exact Or.inr (Or.inr (Or.inl ⟨rfl, rfl⟩))
    · cases h
  | leave =>
    simp only [step] at h
    split at h
    · rename_i hleaves
      obtain ⟨hrunning, hstopping⟩ := Bool.and_eq_true_iff.mp hleaves
      cases h
      exact Or.inr ⟨by simpa using hrunning, Or.inr (Or.inr (Or.inr ⟨rfl, hstopping, rfl⟩))⟩
    · cases h

theorem steps_cons {rest : List Event} (h : t.steps (e :: rest) = some t') :
    ∃ t1, t.step e = some t1 ∧ t1.steps rest = some t' := by
  simpa [steps, List.foldlM_cons, Option.bind_eq_some_iff] using h

/-- What holds of a new task and is kept by every event holds at the end of a run. -/
theorem kept_of_steps {Kept : List Event → Task → Prop} {events : List Event}
    (hkept : ∀ {before t e t'}, Kept before t → t.step e = some t' → Kept (before ++ [e]) t')
    (hstart : Kept [] start) (h : start.steps events = some t) : Kept events t := by
  have hrun : ∀ rest before t1, Kept before t1 → t1.steps rest = some t →
      Kept (before ++ rest) t := by
    intro rest
    induction rest with
    | nil =>
      rintro before t1 hbefore ⟨⟩
      rwa [List.append_nil]
    | cons e rest ih =>
      intro before t1 hbefore hsteps
      obtain ⟨t2, hstep, hrest⟩ := steps_cons hsteps
      have hend := ih (before ++ [e]) t2 (hkept hbefore hstep) hrest
      rwa [List.append_assoc] at hend
  exact hrun events [] start hstart h

end

/-- A task holds the samples of its queries, in their order, for as long as no query has taken it
down. -/
structure Holds (events : List Event) (t : Task) : Prop where
  dead : t.phase = .dead ↔ events.any Event.isFatal = true
  samples : t.phase ≠ .dead → t.samples = events.filterMap Event.sample?

theorem Holds.step {events : List Event} {t t' : Task} {e : Event} (h : Holds events t)
    (hstep : t.step e = some t') : Holds (events ++ [e]) t' := by
  obtain ⟨hdead, hsamples⟩ := h
  rcases step_cases hstep with ⟨rfl, rfl⟩ | ⟨hrunning, htask⟩
  · exact ⟨by simpa [Event.isFatal] using hdead,
      fun hne => by simpa [List.filterMap_cons, Event.sample?] using hsamples hne⟩
  rw [hrunning] at hdead hsamples
  rcases htask with ⟨s, rfl, rfl⟩ | ⟨rfl, rfl⟩ | ⟨rfl, rfl⟩ | ⟨rfl, -, rfl⟩
  · exact ⟨by simpa [Event.isFatal, hrunning] using hdead,
      fun _ => by simp [Event.sample?, hsamples (by simp)]⟩
  · exact ⟨by simpa [Event.isFatal, hrunning] using hdead,
      fun _ => by simp [Event.sample?, hsamples (by simp)]⟩
  · exact ⟨by simp [Event.isFatal], fun hne => (hne rfl).elim⟩
  · exact ⟨by simpa [Event.isFatal] using hdead,
      fun _ => by simpa [List.filterMap_cons, Event.sample?] using hsamples (by simp)⟩

theorem holds_of_steps {events : List Event} {t : Task} (h : start.steps events = some t) :
    Holds events t :=
  kept_of_steps Holds.step ⟨by simp [start], fun _ => rfl⟩ h

/-- What a task that is over hands back. -/
theorem result_eq {events : List Event} {t : Task} (h : start.steps events = some t)
    {found : Attempt (List Sample)} (hfound : t.result? = some found) :
    found = if events.any Event.isFatal then .error (.ofCause .samplingDied)
      else .ok (events.filterMap Event.sample?) := by
  obtain ⟨hdead, hsamples⟩ := holds_of_steps h
  unfold result? at hfound
  cases hphase : t.phase with
  | running =>
    rw [hphase] at hfound
    cases hfound
  | left =>
    rw [hphase] at hfound hdead hsamples
    cases hfound
    rw [if_neg fun hfatal => (by cases hdead.mpr hfatal), hsamples (by simp)]
  | dead =>
    rw [hphase] at hfound hdead
    cases hfound
    rw [if_pos (hdead.mp rfl)]

/-- A task that is over hands back what it has collected. -/
theorem result_of_steps {events : List Event} {t : Task} (h : start.steps events = some t)
    {found : Attempt (List Sample)} (hfound : t.result? = some found) :
    found.toOption.getD [] = collected events := by
  rw [result_eq h hfound, collected]
  split <;> rfl

end Task

end Sampling

end EngineBench
