-- The names that a bench gives. A name of a pass is two numbers behind the mark, each of them
-- behind a dash; the name of the trial ends in a word without a dash, and the name of a pod in one
-- that no container's name ends in. So no two things that a bench makes share a name, and each of
-- them is marked.
import EngineBench.Proofs.Containers
import EngineBench.Proofs.Sightings

namespace EngineBench

open Dialogue Worker

namespace Name

/-- The names of the containers of a bench. -/
inductive OfBench : String → Prop
  | trial : OfBench trial
  | pass (thread iteration : Nat) : OfBench (ofIteration thread iteration)

/-! ## Names of containers -/

/-- There is a dash between the numbers of a pass, and none in the word of the trial. -/
theorem ofIteration_ne_trial (t i : Nat) : ofIteration t i ≠ Name.trial := by
  intro h
  have hpass : (ofIteration t i).toList =
      (mark ++ "-").toList ++ (toString t ++ "-" ++ toString i).toList := by
    simp [ofIteration, String.append_assoc]
  have htrial : Name.trial.toList = (mark ++ "-").toList ++ "validate".toList := rfl
  rw [h, htrial] at hpass
  have hrest := List.append_cancel_left hpass
  have hdash : '-' ∈ "validate".toList := by
    rw [hrest]
    simp
  revert hdash
  decide

theorem getLast?_repr (n : Nat) : (toString n).toList.getLast? ≠ some 'd' := by
  intro h
  have hmem := List.mem_of_getLast? h
  rw [Nat.toString_eq_repr, Nat.toList_repr] at hmem
  have hdigit : 'd'.isDigit = true := Nat.isDigit_of_mem_toDigits (by omega) (by omega) hmem
  cases hdigit

theorem OfBench.getLast?_ne {name : String} (h : OfBench name) :
    name.toList.getLast? ≠ some 'd' := by
  cases h with
  | trial => decide
  | pass t i =>
    have hne : (toString i).toList ≠ [] := by
      rw [Nat.toString_eq_repr, Nat.toList_repr]
      exact Nat.toDigits_ne_nil
    rw [ofIteration, String.toList_append, List.getLast?_append_of_ne_nil _ hne]
    exact getLast?_repr i

/-! ## Names of pods -/

theorem pod_inj {x y : String} : pod x = pod y ↔ x = y := by
  constructor
  · intro h
    have hlist := congrArg String.toList h
    rw [pod, pod, String.toList_append, String.toList_append] at hlist
    exact String.toList_inj.mp (List.append_cancel_right hlist)
  · rintro rfl
    rfl

/-- The name of a pod ends like no name of a container. -/
theorem pod_ne (x : String) {y : String} (hy : OfBench y) : pod x ≠ y := by
  rintro rfl
  apply hy.getLast?_ne
  rw [pod, String.toList_append, List.getLast?_append_of_ne_nil _ (by decide)]
  decide

/-! ## Marks -/

/-- A name that starts with the mark is recognised however many slashes are put in front of it. -/
theorem isMarked_of_starts {name : List Char} (h : mark.toList <+: name) (slashes : Nat) :
    isMarked (List.replicate slashes '/' ++ name) = true := by
  obtain ⟨rest, rfl⟩ := h
  rw [isMarked_iff, Marked]
  have hdrop : (List.replicate slashes '/' ++ (mark.toList ++ rest)).dropWhile (· == '/') =
      mark.toList ++ rest := by
    rw [List.dropWhile_append_of_pos (by simp)]
    exact List.dropWhile_cons_of_neg (by decide)
  rw [hdrop]
  exact List.prefix_append _ _

theorem OfBench.starts {name : String} (h : OfBench name) : mark.toList <+: name.toList := by
  cases h with
  | trial => decide
  | pass t i =>
    rw [ofIteration, String.append_assoc, String.append_assoc, String.append_assoc,
      String.toList_append]
    exact List.prefix_append _ _

theorem starts_pod {name : String} (h : mark.toList <+: name.toList) :
    mark.toList <+: (pod name).toList := by
  rw [pod, String.toList_append]
  exact h.trans (List.prefix_append _ _)

end Name

/-! ## The names in a step -/

namespace Sweep

theorem name_of_wants {w : Workload} {threads iterations : Nat} {asked : List Wanted}
    (h : Wants w threads iterations asked) : ∀ v ∈ asked, v.name = Name.trial ∨
      ∃ t i, t < threads ∧ i < iterations ∧ v.name = Name.ofIteration t i := by
  cases h with
  | nothing => simp
  | trial =>
    intro v hv
    rw [List.mem_singleton.mp hv]
    exact Or.inl rfl
  | shift s hthreads hiterations hjob =>
    intro v hv
    rcases List.mem_cons.mp hv with rfl | hv
    · exact Or.inl rfl
    · rw [s.wanted_eq hjob] at hv
      obtain ⟨⟨t, i⟩, hp, rfl⟩ := List.mem_map.mp hv
      obtain ⟨ht, hi⟩ := Shift.mem_passes.mp hp
      have hle := Shift.begun_le ht
      exact Or.inr ⟨t, i, hthreads ▸ ht, hiterations ▸ hi.trans_le hle, rfl⟩

theorem nodup_of_wants {w : Workload} {threads iterations : Nat} {asked : List Wanted}
    (h : Wants w threads iterations asked) : (asked.map Wanted.name).Nodup := by
  cases h with
  | nothing => exact List.nodup_nil
  | trial => exact List.nodup_singleton _
  | shift s _ _ hjob =>
    have hnames : s.wanted.map Wanted.name =
        s.passes.map fun p => Name.ofIteration p.1 p.2 := by
      rw [s.wanted_eq hjob, List.map_map]
      rfl
    rw [List.map_cons, hnames, List.nodup_cons]
    constructor
    · intro hmem
      obtain ⟨p, -, hp⟩ := List.mem_map.mp hmem
      exact Name.ofIteration_ne_trial p.1 p.2 hp
    · apply s.nodup_passes.map
      intro p q h
      obtain ⟨hthread, hiteration⟩ := Name.ofIteration_inj.mp h
      exact Prod.ext hthread hiteration

/-- Names of passes are the same only for the same pass, and none is the name of a trial. Pods of
different containers have different names, none of which is the name of a container. All these names
are recognised, with any number of slashes in front. Whatever becomes of a step of a sweep, the
containers that it asks for have such names, and no two of them the same. -/
theorem names_of_a_bench_are_apart_and_marked :
    (∀ t t' i i', Name.ofIteration t i = Name.ofIteration t' i' ↔ t = t' ∧ i = i') ∧
    (∀ t i, Name.ofIteration t i ≠ Name.trial) ∧
    (∀ (ts ts' : Cri.Templates) (x y : String),
      ((ts.sandboxConfig x).podName = (ts'.sandboxConfig y).podName ↔ x = y) ∧
        (Name.OfBench y → (ts.sandboxConfig x).podName ≠ y)) ∧
    (∀ (ts : Cri.Templates) (x : String), Name.OfBench x →
      ∀ name ∈ [x, (ts.sandboxConfig x).podName], Name.isBenchmark name = true ∧
        ∀ slashes, Name.isMarked (List.replicate slashes '/' ++ name.toList) = true) ∧
    ∀ (config : EngineConfig) (inner : LifecycleBench) (e : Definition.Entry)
      (options : SweepOptions) (threads iterations : Nat) (c c' : Bool) (tr : List Happening)
      (r : Attempt Step),
      Course c (step config inner (benchFor e options inner) threads iterations).run tr c' r →
        ((wantedIn tr).map Wanted.name).Nodup ∧ ∀ v ∈ wantedIn tr, v.name = Name.trial ∨
          ∃ t i, t < threads ∧ i < iterations ∧ v.name = Name.ofIteration t i := by
  refine ⟨fun t t' i i' => Name.ofIteration_inj, Name.ofIteration_ne_trial, ?_, ?_, ?_⟩
  · intro ts ts' x y
    exact ⟨Name.pod_inj, Name.pod_ne x⟩
  · intro ts x hx name hname
    have hmark : Name.mark.toList <+: name.toList := by
      rcases List.mem_pair.mp hname with rfl | rfl
      · exact hx.starts
      · exact Name.starts_pod hx.starts
    exact ⟨Name.isMarked_of_starts hmark 0, Name.isMarked_of_starts hmark⟩
  · intro config inner e options threads iterations c c' tr r h
    have hwants := wants_of_step h
    exact ⟨nodup_of_wants hwants, name_of_wants hwants⟩

/-! ## A step of two workers -/

/-- A bench that makes containers and does nothing with them. -/
def idleBench : LifecycleBench := ⟨⟨"idle", "busybox", none, false, false, []⟩, .null⟩

def idleEntry : Definition.Entry :=
  ⟨"null", none, 2, 1, none, [], none, false, none, none, none⟩

/-- Two workers with one pass each. The first one makes its container, and the second one dies of
the call for its own. -/
def idleShift : Shift where
  threads := 2
  iterations := 1
  job := .lifecycle idleBench.workload
  cancelled := false
  events :=
    let c : Container := ⟨Name.ofIteration 0 0, "busybox", none, false, false, none⟩
    [.look 0, .look 1, .answer 0 (.call (createCall idleBench.workload c.name)) ⟨.ok c, ⟨5⟩⟩,
      .die 1, .send 0]
  pool := ⟨1, false, [⟨.done (), false, [⟨[], []⟩]⟩,
    ⟨(iterate idleBench.workload (Name.ofIteration 1 0)).bind fun r =>
      .ask (.send r) fun _ => .done (), true, []⟩]⟩
  took := ⟨9⟩
  goes := by rfl
  ended := by rfl

def idleTrace : List Happening :=
  let c : Container := ⟨Name.trial, "busybox", none, false, false, none⟩
  [.turn ⟨.look, false⟩, .turn ⟨.make (.plain .null), .ok ()⟩] ++
    answered [⟨.info, .ok ""⟩, ⟨.clean, .ok ()⟩, ⟨.create idleBench.workload.trial, .ok c⟩,
      ⟨.operate .run c, .ok .silent⟩, ⟨.operate .stop c, .ok .silent⟩] ++
    [.turn ⟨.act (.rest EngineCall.quiescence), ()⟩] ++
    answered [⟨.operate .remove c, .ok .silent⟩] ++ [.shift idleShift] ++
    answered [⟨.clean, .ok ()⟩, ⟨.close, .ok ()⟩]

/-- What the step has to show. -/
def idleStep : Step := ⟨rate (UInt64.ofNat 2) (UInt64.ofNat 1) ⟨9⟩, idleShift.pool.records⟩

/-- The step asks for three containers, and for the third one although a worker dies of it. -/
theorem two_workers_ask_for_containers_apart :
    Course false (step (.plain .null) idleBench (benchFor idleEntry noLimit idleBench) 2 1).run
      idleTrace false (.ok idleStep) ∧
    (wantedIn idleTrace).map Wanted.name =
      [Name.trial, Name.ofIteration 0 0, Name.ofIteration 1 0] ∧
    ((wantedIn idleTrace).map Wanted.name).Nodup ∧
    (Cri.Templates.standard.sandboxConfig (Name.ofIteration 1 0)).podName ≠
      Name.ofIteration 1 0 := by
  have hcourse : Course false (step (.plain .null) idleBench
      (benchFor idleEntry noLimit idleBench) 2 1).run idleTrace false (.ok idleStep) := by
    refine .look (.outside trivial (.outside trivial (.outside trivial ?_)))
    refine .outside trivial (.outside trivial (.outside trivial (.outside trivial ?_)))
    refine .outside trivial (.shift idleShift (.outside trivial (.outside trivial ?_)))
    exact .done
  obtain ⟨-, -, hpods, -, hsteps⟩ := names_of_a_bench_are_apart_and_marked
  refine ⟨hcourse, rfl, (hsteps _ _ _ _ _ _ _ _ _ _ hcourse).1, ?_⟩
  exact (hpods .standard .standard _ _).2 (.pass 1 0)

end Sweep

end EngineBench
