-- The usage of a daemon: the walk below its process ends whatever the process table looks like, and
-- each pid that a chain of child entries leads to is counted once. The loop of the walk is told
-- apart from how it is programmed, with the pids that it has visited, and what it counts is derived
-- from its turns.
import EngineBench.Proofs.Distributions
import EngineBench.Sampler.ProcessTree
import Mathlib.Algebra.BigOperators.Group.Finset.Basic
import Mathlib.Logic.Relation

namespace EngineBench.ProcessTable

/-! ## What a table says -/

/-- An entry of the second pid names the first one as its parent. -/
def IsChild (table : ProcessTable) (pid child : UInt32) : Prop :=
  ∃ p ∈ table, p.parent = some pid ∧ p.pid = child

/-- A chain of child entries, which may be empty, leads from the first pid to the second. -/
def Below (table : ProcessTable) : UInt32 → UInt32 → Prop := Relation.ReflTransGen table.IsChild

/-- The last entry of a pid. -/
def lastOf? (table : ProcessTable) (pid : UInt32) : Option ProcessEntry :=
  (List.filter (fun p : ProcessEntry => p.pid == pid) table).getLast?

/-- The memory in the last entry of a pid, if its name is asked for. -/
def memoryOf (table : ProcessTable) (names : List String) (pid : UInt32) : Nat :=
  match table.lastOf? pid with
  | some p => if p.name ∈ names then p.mem.toNat else 0
  | none => 0

theorem mem_children {table : ProcessTable} {pid child : UInt32} :
    child ∈ table.children pid ↔ table.IsChild pid child := by
  simp [children, IsChild, and_assoc]

theorem find_eq_lastOf? (table : ProcessTable) (pid : UInt32) :
    table.find pid = table.lastOf? pid := by
  rw [find, lastOf?, List.getLast?_filter]

/-- What a pid adds to the usage is the memory in its last entry. -/
theorem memoryOf_eq (table : ProcessTable) (names : List String) (pid : UInt32) :
    table.memoryOf names pid = ((table.share names pid).map fun p => p.mem.toNat).getD 0 := by
  rw [memoryOf, share, find_eq_lastOf?]
  cases table.lastOf? pid with
  | none => rfl
  | some p => by_cases hname : p.name ∈ names <;> simp [Option.filter, hname]

/-! ## The loop -/

/-- The loop of a walk, with the pids that it has visited so far and a queue of pids. In so many
turns, each of which takes one pid from the queue, it counts these. -/
inductive Walks (table : ProcessTable) :
    (visited queue : List UInt32) → (turns : Nat) → (counted : List UInt32) → Prop
  | ends {visited : List UInt32} : Walks table visited [] 0 []
  | again {visited rest counted : List UInt32} {pid : UInt32} {turns : Nat} : pid ∈ visited →
      Walks table visited rest turns counted →
      Walks table visited (pid :: rest) (turns + 1) counted
  | visits {visited rest counted : List UInt32} {pid : UInt32} {turns : Nat} : pid ∉ visited →
      Walks table (pid :: visited) (rest ++ table.children pid) turns counted →
      Walks table visited (pid :: rest) (turns + 1) (pid :: counted)

section

variable {table : ProcessTable} {visited queue counted : List UInt32} {turns : Nat}

/-- Nothing is counted twice. -/
theorem Walks.nodup (h : table.Walks visited queue turns counted) :
    counted.Nodup ∧ ∀ pid ∈ counted, pid ∉ visited := by
  induction h with
  | ends => simp
  | again _ _ ih => exact ih
  | visits hnew _ ih =>
    obtain ⟨hnodup, hfresh⟩ := ih
    refine ⟨List.nodup_cons.mpr ⟨fun hmem => hfresh _ hmem List.mem_cons_self, hnodup⟩, ?_⟩
    intro pid hpid
    rcases List.mem_cons.mp hpid with rfl | hpid
    · exact hnew
    · exact fun hmem => hfresh pid hpid (List.mem_cons_of_mem _ hmem)

/-- What is counted lies below the queue. -/
theorem Walks.from_queue (h : table.Walks visited queue turns counted) :
    ∀ pid ∈ counted, ∃ start ∈ queue, table.Below start pid := by
  induction h with
  | ends => simp
  | again _ _ ih =>
    intro pid hpid
    obtain ⟨start, hstart, hbelow⟩ := ih pid hpid
    exact ⟨start, List.mem_cons_of_mem _ hstart, hbelow⟩
  | @visits visited rest counted front turns _ _ ih =>
    intro pid hpid
    rcases List.mem_cons.mp hpid with rfl | hpid
    · exact ⟨pid, List.mem_cons_self, .refl⟩
    · obtain ⟨start, hstart, hbelow⟩ := ih pid hpid
      rcases List.mem_append.mp hstart with hstart | hchild
      · exact ⟨start, List.mem_cons_of_mem _ hstart, hbelow⟩
      · exact ⟨front, List.mem_cons_self, .head (mem_children.mp hchild) hbelow⟩

/-- Whatever was in the queue or is a child of something that is counted has been visited. -/
theorem Walks.closed (h : table.Walks visited queue turns counted) :
    (∀ pid ∈ queue, pid ∈ visited ∨ pid ∈ counted) ∧
      ∀ pid ∈ counted, ∀ child, table.IsChild pid child → child ∈ visited ∨ child ∈ counted := by
  induction h with
  | ends => simp
  | again hold _ ih =>
    obtain ⟨hqueue, hchildren⟩ := ih
    refine ⟨fun pid hpid => ?_, hchildren⟩
    rcases List.mem_cons.mp hpid with rfl | hpid
    · exact Or.inl hold
    · exact hqueue pid hpid
  | @visits visited rest counted front turns _ _ ih =>
    obtain ⟨hqueue, hchildren⟩ := ih
    -- what has been visited after the turn was visited before it, or is what the turn counts
    have hseen : ∀ {pid}, pid ∈ front :: visited ∨ pid ∈ counted →
        pid ∈ visited ∨ pid ∈ front :: counted := by
      simp only [List.mem_cons]
      tauto
    constructor
    · intro pid hpid
      rcases List.mem_cons.mp hpid with rfl | hpid
      · exact Or.inr List.mem_cons_self
      · exact hseen (hqueue pid (List.mem_append_left _ hpid))
    · intro pid hpid child hchild
      rcases List.mem_cons.mp hpid with rfl | hpid
      · exact hseen (hqueue child (List.mem_append_right _ (mem_children.mpr hchild)))
      · exact hseen (hchildren pid hpid child hchild)

/-- From one pid, a walk that has visited nothing counts what lies below it. -/
theorem Walks.mem_iff {root : UInt32} (h : table.Walks [] [root] turns counted) (pid : UInt32) :
    pid ∈ counted ↔ table.Below root pid := by
  constructor
  · intro hpid
    obtain ⟨start, hstart, hbelow⟩ := h.from_queue pid hpid
    rwa [List.mem_singleton.mp hstart] at hbelow
  · intro hbelow
    obtain ⟨hqueue, hchildren⟩ := h.closed
    induction hbelow with
    | refl => exact (hqueue root (List.mem_singleton_self _)).resolve_left List.not_mem_nil
    | tail _ hchild ih => exact (hchildren _ ih _ hchild).resolve_left List.not_mem_nil

/-- The entries whose parents were not visited yet. Their pids are still to come into the queue, if
at all. -/
def outstanding (table : ProcessTable) (visited : List UInt32) : Nat :=
  List.countP (fun p : ProcessEntry => p.parent.any fun pid => decide (pid ∉ visited)) table

theorem outstanding_of_new {pid : UInt32} (h : pid ∉ visited) :
    table.outstanding visited =
      (table.children pid).length + table.outstanding (pid :: visited) := by
  unfold outstanding children
  rw [List.length_map, ← List.countP_eq_length_filter]
  induction table with
  | nil => rfl
  | cons p rest ih =>
    rw [List.countP_cons, List.countP_cons, List.countP_cons, ih]
    rcases p.parent with _ | parent
    · simp
    · by_cases hparent : parent = pid
      · simp [hparent, h]
        omega
      · simp [hparent]
        omega

/-- Every entry puts its pid into the queue once at most. -/
theorem Walks.turns_le (h : table.Walks visited queue turns counted) :
    turns ≤ queue.length + table.outstanding visited := by
  induction h with
  | ends => exact Nat.zero_le _
  | again _ _ ih =>
    rw [List.length_cons]
    omega
  | visits hnew _ ih =>
    rw [List.length_append] at ih
    rw [List.length_cons, outstanding_of_new hnew]
    omega

/-- The pids that a walk may come to are told apart into those that it has visited and those that it
has not. -/
structure Parts (table : ProcessTable) (visited fresh queue : List UInt32) : Prop where
  nodup : fresh.Nodup
  apart : ∀ pid ∈ fresh, pid ∉ visited
  entries : ∀ p ∈ table, p.pid ∈ visited ∨ p.pid ∈ fresh
  queue : ∀ pid ∈ queue, pid ∈ visited ∨ pid ∈ fresh

theorem Parts.visit {fresh rest : List UInt32} {pid : UInt32}
    (h : Parts table visited fresh (pid :: rest)) :
    Parts table (pid :: visited) (fresh.erase pid) (rest ++ table.children pid) := by
  have hkept : ∀ {other}, other ∈ visited ∨ other ∈ fresh →
      other ∈ pid :: visited ∨ other ∈ fresh.erase pid := by
    intro other
    by_cases hother : other = pid
    · simp [hother]
    · simp [hother, List.mem_erase_of_ne hother]
  refine ⟨h.nodup.erase pid, ?_, fun p hp => hkept (h.entries p hp), ?_⟩
  · intro other hother
    obtain ⟨hne, hmem⟩ := h.nodup.mem_erase_iff.mp hother
    simp [hne, h.apart other hmem]
  · intro other hother
    rcases List.mem_append.mp hother with hrest | hchild
    · exact hkept (h.queue other (List.mem_cons_of_mem _ hrest))
    · obtain ⟨p, hp, -, rfl⟩ := mem_children.mp hchild
      exact hkept (h.entries p hp)

/-- The walk by the pids that it has not visited is the loop with those that it has. -/
theorem walks_walk {fresh : List UInt32} (h : Parts table visited fresh queue) :
    ∃ turns, table.Walks visited queue turns (walk table fresh queue) := by
  induction fresh, queue using walk.induct table generalizing visited with
  | case1 fresh =>
    rw [walk]
    exact ⟨0, .ends⟩
  | case2 fresh pid rest hfresh ih =>
    obtain ⟨turns, hrest⟩ := ih h.visit
    rw [walk, dif_pos hfresh]
    exact ⟨turns + 1, .visits (h.apart pid hfresh) hrest⟩
  | case3 fresh pid rest hfresh ih =>
    obtain ⟨hnodup, hapart, hentries, hqueue⟩ := h
    have hvisited : pid ∈ visited := (hqueue pid List.mem_cons_self).resolve_right hfresh
    obtain ⟨turns, hrest⟩ := ih
      ⟨hnodup, hapart, hentries, fun other hother => hqueue other (List.mem_cons_of_mem _ hother)⟩
    rw [walk, dif_neg hfresh]
    exact ⟨turns + 1, .again hvisited hrest⟩

end

theorem nodup_eraseDups (pids : List UInt32) : pids.eraseDups.Nodup := by
  match pids with
  | [] => simp
  | pid :: rest =>
    rw [List.eraseDups_cons, List.nodup_cons]
    exact ⟨by simp [List.mem_eraseDups], nodup_eraseDups _⟩
termination_by pids.length
decreasing_by exact Nat.lt_succ_of_le (List.length_filter_le _ _)

theorem exists_walks_reach (table : ProcessTable) (root : UInt32) :
    ∃ turns ≤ table.length + 1, table.Walks [] [root] turns (table.reach root) := by
  have hparts : Parts table [] (root :: table.map ProcessEntry.pid).eraseDups [root] := by
    refine ⟨nodup_eraseDups _, by simp, ?_, by simp [List.mem_eraseDups]⟩
    intro p hp
    refine Or.inr (List.mem_eraseDups.mpr (List.mem_cons_of_mem _ ?_))
    exact List.mem_map_of_mem hp
  obtain ⟨turns, hwalks⟩ := walks_walk hparts
  have hentries : table.outstanding [] ≤ table.length := List.countP_le_length
  have hturns := hwalks.turns_le
  rw [List.length_singleton] at hturns
  exact ⟨turns, by omega, hwalks⟩

/-! ## The sum -/

theorem mem_usage_eq (root : UInt32) (names : List String) (table : ProcessTable) :
    (usage root names table).mem =
      UInt64.ofNat ((table.reach root).map (table.memoryOf names)).sum := by
  have hwords : (usage root names table).mem =
      wordSum (((table.reach root).filterMap (table.share names)).map ProcessEntry.mem) := rfl
  rw [hwords, wordSum_eq]
  congr 1
  induction table.reach root with
  | nil => rfl
  | cons pid rest ih =>
    rw [List.map_cons, List.sum_cons, ← ih, memoryOf_eq, List.filterMap_cons]
    cases table.share names pid <;> simp

/-- The sum over the pids below the root, whatever their order. -/
theorem mem_usage_eq_sum {root : UInt32} {table : ProcessTable} {pids : Finset UInt32}
    (h : ∀ pid, pid ∈ pids ↔ table.Below root pid) (names : List String) :
    (usage root names table).mem = UInt64.ofNat (∑ pid ∈ pids, table.memoryOf names pid) := by
  obtain ⟨turns, -, hwalks⟩ := table.exists_walks_reach root
  have hsame : (table.reach root).toFinset = pids := by
    ext pid
    rw [List.mem_toFinset, hwalks.mem_iff, h]
  rw [mem_usage_eq, ← hsame, List.sum_toFinset _ hwalks.nodup.1]

section

variable {table table' : ProcessTable} {root : UInt32}

/-- Two tables with the same pids below the root, and the same memory of each, have the same sum. -/
theorem mem_usage_congr {names : List String}
    (hbelow : ∀ pid, table'.Below root pid ↔ table.Below root pid)
    (hmemory : ∀ pid, table.Below root pid → table'.memoryOf names pid = table.memoryOf names pid) :
    (usage root names table').mem = (usage root names table).mem := by
  obtain ⟨turns, -, hwalks⟩ := table.exists_walks_reach root
  have hpids : ∀ pid, pid ∈ (table.reach root).toFinset ↔ table.Below root pid := fun pid => by
    rw [List.mem_toFinset, hwalks.mem_iff]
  have hpids' := fun pid => (hpids pid).trans (hbelow pid).symm
  rw [mem_usage_eq_sum hpids, mem_usage_eq_sum hpids']
  congr 1
  exact Finset.sum_congr rfl fun pid hpid => hmemory pid ((hpids pid).mp hpid)

/-- A chain of child entries is still there without the entries of pids that it does not lead to. -/
theorem below_filter_iff {keep : UInt32 → Bool} (h : ∀ pid, table.Below root pid → keep pid = true)
    (pid : UInt32) :
    ProcessTable.Below (table.filter fun p => keep p.pid) root pid ↔ table.Below root pid := by
  constructor
  · intro hbelow
    induction hbelow with
    | refl => exact .refl
    | tail _ hchild ih =>
      obtain ⟨p, hp, hparent, hpid⟩ := hchild
      exact .tail ih ⟨p, (List.mem_filter.mp hp).1, hparent, hpid⟩
  · intro hbelow
    induction hbelow with
    | refl => exact .refl
    | @tail parent child habove hchild ih =>
      have hkept := h child (.tail habove hchild)
      obtain ⟨p, hp, hparent, rfl⟩ := hchild
      exact .tail ih ⟨p, List.mem_filter.mpr ⟨hp, hkept⟩, hparent, rfl⟩

theorem memoryOf_filter (keep : UInt32 → Bool) {pid : UInt32} (h : keep pid = true)
    (names : List String) :
    memoryOf (table.filter fun p => keep p.pid) names pid = table.memoryOf names pid := by
  have hsame : lastOf? (table.filter fun p => keep p.pid) pid = table.lastOf? pid := by
    rw [lastOf?, lastOf?, List.filter_filter]
    congr 1
    refine List.filter_congr fun p _ => ?_
    by_cases hpid : p.pid = pid <;> simp [hpid, h]
  rw [memoryOf, memoryOf, hsame]

theorem below_perm (h : table'.Perm table) (pid : UInt32) :
    table'.Below root pid ↔ table.Below root pid := by
  have hchild : table'.IsChild = table.IsChild := by
    funext parent child
    simp only [IsChild, h.mem_iff]
  rw [Below, Below, hchild]

theorem memoryOf_perm (h : table'.Perm table) (hdistinct : (table.map ProcessEntry.pid).Nodup)
    (names : List String) (pid : UInt32) :
    table'.memoryOf names pid = table.memoryOf names pid := by
  have hsame : table'.lastOf? pid = table.lastOf? pid := by
    -- with distinct pids there is one entry of a pid at most, and one entry has no other order
    have hperm := h.filter fun p => p.pid == pid
    have hone : (table.filter fun p => p.pid == pid).length ≤ 1 := by
      have hcount := List.nodup_iff_count_le_one.mp hdistinct pid
      rw [List.count, List.countP_map, List.countP_eq_length_filter] at hcount
      exact hcount
    rw [lastOf?, lastOf?]
    rcases hentries : table.filter fun p => p.pid == pid with _ | ⟨p, _ | ⟨q, rest⟩⟩
    · rw [hentries] at hperm
      rw [hperm.eq_nil, hentries]
    · rw [hentries] at hperm
      rw [List.perm_singleton.mp hperm, hentries]
    · rw [hentries] at hone
      simp at hone
  rw [memoryOf, memoryOf, hsame]

end

/-- The usage of what is at and below a process. Whatever the table looks like, the walk ends with a
turn for each entry and one more at most, and the memory is the sum over all pids that chains of
child entries lead to from the root, each of them once: a process counts if its name is asked for,
whatever stands between it and the root, and entries of other pids make no difference. If no pid
has two entries, their order makes no difference either. -/
theorem usage_counts_each_process_below_the_root_once (root : UInt32) (names : List String)
    (table : ProcessTable) :
    (∃ turns ≤ table.length + 1, table.Walks [] [root] turns (table.reach root)) ∧
    (∃ pids : Finset UInt32, (∀ pid, pid ∈ pids ↔ table.Below root pid) ∧
      (usage root names table).mem = UInt64.ofNat (∑ pid ∈ pids, table.memoryOf names pid) ∧
      (∀ p, table.lastOf? p.pid = some p → table.Below root p.pid → p.name ∈ names →
        (usage root names table).mem =
          p.mem + UInt64.ofNat (∑ pid ∈ pids.erase p.pid, table.memoryOf names pid)) ∧
      (usage root names (table.filter fun p => p.pid ∈ pids)).mem =
        (usage root names table).mem) ∧
    ∀ table' : ProcessTable, table'.Perm table → (table.map ProcessEntry.pid).Nodup →
      (usage root names table').mem = (usage root names table).mem := by
  obtain ⟨turns, hturns, hwalks⟩ := table.exists_walks_reach root
  have hpids : ∀ pid, pid ∈ (table.reach root).toFinset ↔ table.Below root pid := fun pid => by
    rw [List.mem_toFinset, hwalks.mem_iff]
  refine ⟨⟨turns, hturns, hwalks⟩,
    ⟨(table.reach root).toFinset, hpids, mem_usage_eq_sum hpids names, ?_, ?_⟩, ?_⟩
  · intro p hlast hbelow hname
    have hmemory : table.memoryOf names p.pid = p.mem.toNat := by
      simp only [memoryOf, hlast, if_pos hname]
    rw [mem_usage_eq_sum hpids, ← Finset.add_sum_erase _ _ ((hpids p.pid).mpr hbelow),
      UInt64.ofNat_add, hmemory, UInt64.ofNat_toNat]
  · have hkeep : ∀ pid, table.Below root pid → decide (pid ∈ (table.reach root).toFinset) = true :=
      fun pid hbelow => decide_eq_true ((hpids pid).mpr hbelow)
    refine mem_usage_congr (below_filter_iff hkeep) fun pid hbelow => ?_
    exact memoryOf_filter (fun pid => decide (pid ∈ (table.reach root).toFinset)) (hkeep pid hbelow)
      names
  · intro table' hperm hdistinct
    exact mem_usage_congr (below_perm hperm) fun pid _ => memoryOf_perm hperm hdistinct names pid

/-- The daemon is its own ancestor through two shells, and the last process is its own parent. -/
def tangledTable : ProcessTable :=
  [⟨100, some 103, "dockerd", 500, 0⟩, ⟨101, some 100, "bash", 10000, 0⟩,
    ⟨102, some 101, "containerd-shim", 200, 0⟩, ⟨103, some 102, "bash", 3000, 0⟩,
    ⟨104, some 104, "dockerd", 7, 0⟩]

theorem a_tangled_table_has_one_sum_in_either_order :
    (tangledTable.map ProcessEntry.pid).Nodup ∧
    (usage 100 ["dockerd", "containerd-shim"] tangledTable).mem = 700 ∧
    (usage 100 ["dockerd", "containerd-shim"] tangledTable.reverse).mem = 700 := by
  have hdistinct : (tangledTable.map ProcessEntry.pid).Nodup := by decide
  have hreach : tangledTable.reach 100 = [100, 101, 102, 103] := by
    simp [tangledTable, reach, walk, children, List.eraseDups_cons]
  have hsum : (usage 100 ["dockerd", "containerd-shim"] tangledTable).mem = 700 := by
    rw [mem_usage_eq, hreach]
    decide
  obtain ⟨-, -, horder⟩ :=
    usage_counts_each_process_below_the_root_once 100 ["dockerd", "containerd-shim"] tangledTable
  exact ⟨hdistinct, hsum, (horder _ (List.reverse_perm _) hdistinct).trans hsum⟩

end EngineBench.ProcessTable
