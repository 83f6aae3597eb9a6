-- The CPU time that the readings of a control group charge. A reading that fails leaves no trace,
-- so each good one charges from the last good one on, and of a counter that never goes back nothing
-- is charged twice and nothing is lost.
import EngineBench.Sampler.ControlGroup
import Mathlib.Algebra.Order.Ring.Nat

namespace EngineBench

/-- A counter that went back has gained nothing. -/
theorem toNat_gain (before after : UInt64) :
    (gain before after).toNat = after.toNat - before.toNat := by
  unfold gain
  split
  · rename_i h
    exact UInt64.toNat_sub_of_le after before h
  · rename_i h
    rw [UInt64.le_iff_toNat_le] at h
    rw [Nat.sub_eq_zero_of_le (by omega)]
    rfl

namespace ControlGroup

/-! ## Many readings -/

/-- The files that a reading finds, and its moment. -/
structure Occasion where
  files : Host.Files
  moment : Nat

/-- Where a later reading charges from: the CPU time at some moment. -/
structure Mark where
  cpuTime : UInt64
  moment : Nat
  deriving DecidableEq

def mark (g : ControlGroup) : Mark := ⟨g.cpuTime, g.moment⟩

/-- Readings one after the other, and the group after the last of them. -/
def readAll (g : ControlGroup) : List Occasion → List (Attempt Reading) × ControlGroup
  | [] => ([], g)
  | o :: rest =>
    let (reading, g) := g.read o.files o.moment
    let (later, g) := readAll g rest
    (reading :: later, g)

/-- The CPU time on an occasion on which memory and CPU time can both be read. -/
def mark? (accounts : Accounts) (o : Occasion) : Option Mark :=
  match accounts.memory o.files, accounts.cpuTime o.files with
  | .ok _, .ok cpuTime => some ⟨cpuTime, o.moment⟩
  | _, _ => none

/-- The last occasion that can be read, or what comes before all of them. -/
def lastMark (accounts : Accounts) (first : Mark) (occasions : List Occasion) : Mark :=
  (occasions.filterMap (mark? accounts)).getLast?.getD first

/-- The CPU time that the good ones among these readings charge, in their order. -/
def charges (readings : List (Attempt Reading)) : List UInt64 :=
  readings.filterMap fun r => r.toOption.map Reading.charged

theorem of_mark? {accounts : Accounts} {o : Occasion} {m : Mark} (h : mark? accounts o = some m) :
    accounts.cpuTime o.files = .ok m.cpuTime ∧ m.moment = o.moment := by
  unfold mark? at h
  split at h
  · rename_i hcpu
    cases h
    exact ⟨hcpu, rfl⟩
  · cases h

/-- A reading fails and changes nothing, or it charges from the mark of the group, which it sets
anew. -/
theorem read_cases (g : ControlGroup) (o : Occasion) :
    (mark? g.accounts o = none ∧ ∃ f, g.read o.files o.moment = (.error f, g)) ∨
    ∃ mem cpuTime, g.accounts.memory o.files = .ok mem ∧ g.accounts.cpuTime o.files = .ok cpuTime ∧
      mark? g.accounts o = some ⟨cpuTime, o.moment⟩ ∧
      g.read o.files o.moment = (.ok ⟨mem, gain g.cpuTime cpuTime, o.moment - g.moment⟩,
        ⟨g.accounts, cpuTime, o.moment⟩) := by
  unfold mark? read
  cases g.accounts.memory o.files with
  | error f => exact Or.inl ⟨rfl, f, rfl⟩
  | ok mem =>
    cases g.accounts.cpuTime o.files with
    | error f => exact Or.inl ⟨rfl, f, rfl⟩
    | ok cpuTime => exact Or.inr ⟨mem, cpuTime, rfl, rfl, rfl, rfl⟩

theorem lastMark_of_none {accounts : Accounts} {o : Occasion} (h : mark? accounts o = none)
    (first : Mark) (rest : List Occasion) :
    lastMark accounts first (o :: rest) = lastMark accounts first rest := by
  rw [lastMark, lastMark, List.filterMap_cons_none h]

theorem lastMark_of_some {accounts : Accounts} {o : Occasion} {m : Mark}
    (h : mark? accounts o = some m) (first : Mark) (rest : List Occasion) :
    lastMark accounts first (o :: rest) = lastMark accounts m rest := by
  rw [lastMark, lastMark, List.filterMap_cons_some h, List.getLast?_cons]
  rfl

/-- After any readings the group holds the mark of the last good one. -/
theorem readAll_snd (g : ControlGroup) (occasions : List Occasion) :
    (g.readAll occasions).2 =
      let last := lastMark g.accounts g.mark occasions
      ⟨g.accounts, last.cpuTime, last.moment⟩ := by
  induction occasions generalizing g with
  | nil => rfl
  | cons o rest ih =>
    rcases g.read_cases o with ⟨hnone, f, hread⟩ | ⟨mem, cpuTime, -, -, hmark, hread⟩
    · simp only [readAll, hread, ih, lastMark_of_none hnone]
    · simp only [readAll, hread, ih, lastMark_of_some hmark]
      rfl

/-- Of a counter that never goes back, the charges make up what it has gained. -/
theorem sum_charges {g : ControlGroup} {occasions : List Occasion}
    (h : (g.cpuTime :: (occasions.filterMap (mark? g.accounts)).map Mark.cpuTime).Pairwise
      (· ≤ ·)) :
    g.cpuTime.toNat + ((charges (g.readAll occasions).1).map UInt64.toNat).sum =
      (lastMark g.accounts g.mark occasions).cpuTime.toNat := by
  induction occasions generalizing g with
  | nil => rfl
  | cons o rest ih =>
    rcases g.read_cases o with ⟨hnone, f, hread⟩ | ⟨mem, cpuTime, -, -, hmark, hread⟩
    · rw [List.filterMap_cons_none hnone] at h
      rw [lastMark_of_none hnone, ← ih h]
      simp only [readAll, hread]
      rfl
    · rw [List.filterMap_cons_some hmark, List.map_cons, List.pairwise_cons] at h
      obtain ⟨hfirst, hrest⟩ := h
      have hle : g.cpuTime.toNat ≤ cpuTime.toNat :=
        UInt64.le_iff_toNat_le.mp (hfirst _ List.mem_cons_self)
      have hlater := ih (g := ⟨g.accounts, cpuTime, o.moment⟩) hrest
      rw [lastMark_of_some hmark]
      refine Eq.trans ?_ hlater
      simp only [readAll, hread, charges, List.filterMap_cons, Except.toOption, Option.map_some,
        List.map_cons, List.sum_cons, toNat_gain]
      omega

/-- The last good occasion is one of them, if it is not what comes before. -/
theorem lastMark_moment (accounts : Accounts) (first : Mark) (occasions : List Occasion) :
    (lastMark accounts first occasions).moment ∈
      first.moment :: occasions.map Occasion.moment := by
  induction occasions generalizing first with
  | nil => exact List.mem_cons_self
  | cons o rest ih =>
    rw [List.map_cons]
    cases hmark : mark? accounts o with
    | none =>
      rw [lastMark_of_none hmark]
      have := ih first
      simp only [List.mem_cons] at this ⊢
      tauto
    | some m =>
      rw [lastMark_of_some hmark, ← (of_mark? hmark).2]
      exact List.mem_cons_of_mem _ (ih m)

/-- What a group that holds this mark makes of an occasion. With a failure it stays as it is. -/
structure ChargesFrom (accounts : Accounts) (last : Mark) (o : Occasion) : Prop where
  failed : mark? accounts o = none → ∃ f,
    read o.files o.moment ⟨accounts, last.cpuTime, last.moment⟩ =
      (.error f, ⟨accounts, last.cpuTime, last.moment⟩)
  charged : ∀ m, mark? accounts o = some m → ∃ r : Reading,
    read o.files o.moment ⟨accounts, last.cpuTime, last.moment⟩ =
      (.ok r, ⟨accounts, m.cpuTime, m.moment⟩) ∧
    accounts.memory o.files = .ok r.mem ∧ accounts.cpuTime o.files = .ok m.cpuTime ∧
    m.moment = o.moment ∧
    r.charged.toNat = m.cpuTime.toNat - last.cpuTime.toNat ∧
    last.moment + r.elapsed = m.moment ∧
    r.usage.cpu = r.charged.toFloat / (UInt64.ofNat r.elapsed).toFloat * 100

theorem chargesFrom_of_later {last : Mark} {o : Occasion} (h : last.moment < o.moment)
    (accounts : Accounts) : ChargesFrom accounts last o := by
  have hcases := read_cases ⟨accounts, last.cpuTime, last.moment⟩ o
  constructor
  · intro hnone
    rcases hcases with ⟨-, hread⟩ | ⟨mem, cpuTime, -, -, hmark, -⟩
    · exact hread
    · rw [hmark] at hnone
      cases hnone
  · intro m hm
    rcases hcases with ⟨hnone, -⟩ | ⟨mem, cpuTime, hmem, hcpu, hmark, hread⟩
    · rw [hnone] at hm
      cases hm
    · obtain rfl : ⟨cpuTime, o.moment⟩ = m := Option.some.inj (hmark.symm.trans hm)
      refine ⟨_, hread, hmem, hcpu, rfl, toNat_gain _ _, ?_, ?_⟩
      · exact Nat.add_sub_cancel' (Nat.le_of_lt h)
      · have helapsed : o.moment - last.moment ≠ 0 := Nat.sub_ne_zero_of_lt h
        exact if_neg helapsed

theorem eq_of_watch {files : Host.Files} {start : Nat} {root group : String} {g : ControlGroup}
    (h : watch files start root group = .ok g) :
    ∃ cpuTime, (Accounts.locate files root group).cpuTime files = .ok cpuTime ∧
      g = ⟨Accounts.locate files root group, cpuTime, start⟩ := by
  unfold watch at h
  dsimp only at h
  cases hcpu : (Accounts.locate files root group).cpuTime files with
  | error f =>
    rw [hcpu] at h
    cases h
  | ok cpuTime =>
    rw [hcpu] at h
    cases h
    exact ⟨cpuTime, rfl, rfl⟩

theorem watch_of_cpuTime {files : Host.Files} {root group : String} {cpuTime : UInt64}
    (h : (Accounts.locate files root group).cpuTime files = .ok cpuTime) (start : Nat) :
    watch files start root group = .ok ⟨Accounts.locate files root group, cpuTime, start⟩ := by
  unfold watch
  dsimp only
  rw [h]
  rfl

/-- A group that is watched while time goes on, whatever becomes of its files. A reading that fails
changes nothing. One that does not charges what the counter has gained since the last good reading,
or since the watch began, as a share of the time since that same moment; a counter that went back
has gained nothing. So, if the counter never goes back, the charges make up what it has gained from
the beginning of the watch to the last good reading. -/
theorem a_good_reading_charges_from_the_last_one {files : Host.Files} {start : Nat}
    {root group : String} {g : ControlGroup} (h : watch files start root group = .ok g)
    {occasions : List Occasion}
    (hclock : (start :: occasions.map Occasion.moment).Pairwise (· < ·)) :
    let accounts := Accounts.locate files root group
    (∃ cpuTime, accounts.cpuTime files = .ok cpuTime ∧ g = ⟨accounts, cpuTime, start⟩) ∧
    (∀ before o after, occasions = before ++ o :: after →
      let last := lastMark accounts g.mark before
      (g.readAll before).2 = ⟨accounts, last.cpuTime, last.moment⟩ ∧
        ChargesFrom accounts last o) ∧
    ((g.cpuTime :: (occasions.filterMap (mark? accounts)).map Mark.cpuTime).Pairwise (· ≤ ·) →
      g.cpuTime.toNat + ((charges (g.readAll occasions).1).map UInt64.toNat).sum =
        (lastMark accounts g.mark occasions).cpuTime.toNat) := by
  obtain ⟨cpuTime, hcpu, rfl⟩ := eq_of_watch h
  refine ⟨⟨cpuTime, hcpu, rfl⟩, ?_, sum_charges⟩
  rintro before o after rfl
  refine ⟨readAll_snd _ before, chargesFrom_of_later ?_ _⟩
  rw [List.map_append, List.map_cons, ← List.cons_append, List.pairwise_append] at hclock
  exact hclock.2.2 _ (lastMark_moment _ _ before) _ List.mem_cons_self

theorem find_of_plain (files : Host.Files) (path : String) (hpath : path.isEmpty = false)
    (hplain : path.contains '\x00' = false) :
    files.find path =
      files.walk Host.Files.linkLimit (files.start (.inside []) path.toList).1
        (files.start (.inside []) path.toList).2 := by
  rw [Host.Files.find, hpath, hplain]
  rfl

/-- The files of a group with an account of its CPU time, and one of its memory or none. -/
def groupFiles (micros : String) (hasMemory : Bool) : Host.Files :=
  let file (text : String) : Host.Node := .file (text.toList.map fun c => UInt8.ofNat c.toNat) 0o644
  ⟨"/", [(["cgroup.controllers"], file "cpu memory"), (["daemon"], .dir),
    (["daemon", "cpu.stat"], file ("usage_usec " ++ micros))] ++
    if hasMemory then [(["daemon", "memory.current"], file "4096")] else []⟩

/-- The second time the memory cannot be read. -/
def failingSecondTime : List Occasion :=
  [⟨groupFiles "7" true, 20⟩, ⟨groupFiles "9" false, 30⟩, ⟨groupFiles "12" true, 50⟩]

theorem locate_groupFiles :
    Accounts.locate (groupFiles "5" true) "" "/daemon" = .unified "daemon" := by
  have hcontrollers := find_of_plain (groupFiles "5" true)
    (Host.join "" "cgroup.controllers") rfl (by simp [Host.join])
  rw [Accounts.locate, Host.Files.exists?, hcontrollers]
  decide +kernel

theorem marks_groupFiles :
    (⟨groupFiles "5" true, 10⟩ :: failingSecondTime).map (mark? (.unified "daemon")) =
      [some ⟨5000, 10⟩, some ⟨7000, 20⟩, none, some ⟨12000, 50⟩] := by
  have hstat := fun files => find_of_plain files (Host.join "daemon" "cpu.stat") rfl
    (by simp [Host.join])
  have hmemory := fun files => find_of_plain files (Host.join "daemon" "memory.current") rfl
    (by simp [Host.join])
  simp only [failingSecondTime, List.map_cons, List.map_nil, mark?, Accounts.memory,
    Accounts.cpuTime, Counter.ofFile, Counter.fileText, Host.Files.readText, Host.Files.read,
    Host.Files.findNode, hstat, hmemory]
  decide +kernel

theorem a_failure_between_two_readings_loses_nothing :
    ∃ g, watch (groupFiles "5" true) 10 "" "/daemon" = .ok g ∧
      (10 :: failingSecondTime.map Occasion.moment).Pairwise (· < ·) ∧
      (g.readAll (failingSecondTime.take 2)).2 = ⟨.unified "daemon", 7000, 20⟩ ∧
      (g.cpuTime :: (failingSecondTime.filterMap (mark? (.unified "daemon"))).map
        Mark.cpuTime).Pairwise (· ≤ ·) ∧
      g.cpuTime.toNat + ((charges (g.readAll failingSecondTime).1).map UInt64.toNat).sum =
        12000 := by
  have hmarks := marks_groupFiles
  simp only [failingSecondTime, List.map_cons, List.map_nil, List.cons.injEq, and_true] at hmarks
  obtain ⟨hfirst, hseven, hnone, htwelve⟩ := hmarks
  have hkept : failingSecondTime.filterMap (mark? (.unified "daemon")) =
      [⟨7000, 20⟩, ⟨12000, 50⟩] := by
    rw [failingSecondTime, List.filterMap_cons_some hseven, List.filterMap_cons_none hnone,
      List.filterMap_cons_some htwelve, List.filterMap_nil]
  have hwatch := watch_of_cpuTime (locate_groupFiles.symm ▸ (of_mark? hfirst).1) 10
  rw [locate_groupFiles] at hwatch
  have hclock : (10 :: failingSecondTime.map Occasion.moment).Pairwise (· < ·) := by decide
  obtain ⟨-, hcharges, hsum⟩ := a_good_reading_charges_from_the_last_one hwatch hclock
  rw [locate_groupFiles] at hcharges hsum
  have hsteady : ((5000 : UInt64) :: (failingSecondTime.filterMap
      (mark? (.unified "daemon"))).map Mark.cpuTime).Pairwise (· ≤ ·) := by
    rw [hkept]
    decide
  refine ⟨_, hwatch, hclock, ?_, hsteady, ?_⟩
  · have hstate := (hcharges (failingSecondTime.take 2) _ [] rfl).1
    rw [failingSecondTime, List.take_succ_cons, List.take_succ_cons, List.take_zero,
      lastMark_of_some hseven, lastMark_of_none hnone] at hstate
    exact hstate
  · have htotal := hsum hsteady
    rw [failingSecondTime, lastMark_of_some hseven, lastMark_of_none hnone,
      lastMark_of_some htwelve] at htotal
    exact htotal

end ControlGroup

end EngineBench
