-- Containers in pods: every request of an iteration is about the pod that was made for it, and goes
-- to it with the settings that it was made with. With this, all operations of several requests are
-- told in one law.
import EngineBench.Host.Script
import EngineBench.Proofs.Plans

namespace EngineBench

open Dialogue

/-! ## What a request of an iteration may be about -/

/-- The pod that a request names. -/
def Cri.Request.pod? : Cri.Request → Option String
  | createContainer pod _ _ => some pod
  | stopPod pod => some pod
  | removePod pod => some pod
  | listContainers pod => pod
  | _ => none

/-- A request that follows other turns is about a pod, or about a container in it that one of these
turns has shown. Containers are made with the settings of the pod. -/
inductive AboutPod (pod : String) (sandbox : Cri.SandboxConfig) (before : List EngineTurn) :
    Ask → Prop
  | create {config : Cri.ContainerConfig} :
      AboutPod pod sandbox before (.cri (.createContainer pod config sandbox))
  | list : AboutPod pod sandbox before (.cri (.listContainers (some pod)))
  | stopPod : AboutPod pod sandbox before (.cri (.stopPod pod))
  | removePod : AboutPod pod sandbox before (.cri (.removePod pod))
  | start {config : Cri.ContainerConfig} {id : String} :
      ⟨.cri (.createContainer pod config sandbox), .ok id⟩ ∈ before →
      AboutPod pod sandbox before (.cri (.startContainer id))
  | stop {listed : List Cri.Listed} {l : Cri.Listed} :
      ⟨.cri (.listContainers (some pod)), .ok listed⟩ ∈ before → l ∈ listed →
      AboutPod pod sandbox before (.cri (.stopContainer l.id))
  | remove {listed : List Cri.Listed} {l : Cri.Listed} :
      ⟨.cri (.listContainers (some pod)), .ok listed⟩ ∈ before → l ∈ listed →
      AboutPod pod sandbox before (.cri (.removeContainer l.id))

/-- All turns are about a pod. -/
def StayInPod (pod : String) (sandbox : Cri.SandboxConfig) (turns : List EngineTurn) : Prop :=
  ∀ before t after, turns = before ++ t :: after → AboutPod pod sandbox before t.1

section

variable {pod : String} {sandbox : Cri.SandboxConfig} {before before' turns : List EngineTurn}

theorem AboutPod.mono {q : Ask} (h : AboutPod pod sandbox before q) (hsub : before ⊆ before') :
    AboutPod pod sandbox before' q := by
  cases h with
  | create => exact .create
  | list => exact .list
  | stopPod => exact .stopPod
  | removePod => exact .removePod
  | start h => exact .start (hsub h)
  | stop h hl => exact .stop (hsub h) hl
  | remove h hl => exact .remove (hsub h) hl

/-- It is enough that the first turn is about the pod and shows what all others are about. -/
theorem stayInPod_cons {first : EngineTurn} (hfirst : AboutPod pod sandbox [] first.1)
    (hrest : ∀ t ∈ turns, AboutPod pod sandbox [first] t.1) :
    StayInPod pod sandbox (first :: turns) := by
  intro before t after hturns
  cases before with
  | nil =>
    cases hturns
    exact hfirst
  | cons x before =>
    cases hturns
    refine (hrest t (List.mem_append_right _ List.mem_cons_self)).mono ?_
    exact List.cons_subset_cons _ (List.nil_subset _)

theorem StayInPod.of_prefix {turns' : List EngineTurn} (h : StayInPod pod sandbox turns)
    (hfront : turns' <+: turns) : StayInPod pod sandbox turns' := by
  obtain ⟨rest, rfl⟩ := hfront
  intro before t after hturns
  refine h before t (after ++ rest) ?_
  rw [hturns, List.append_assoc, List.cons_append]

end

/-! ## Making a pod -/

section

variable {reply : Replies Ask Ask.Answer} {past : List EngineTurn}

theorem play_cri_ok {r : Cri.Request} {v : r.Reply}
    (h : ((Work.cri r).run.play reply past).2 = .ok v) :
    ((Work.cri r).run.play reply past).1 = [⟨.cri r, .ok v⟩] := by
  have hcri : (Work.cri r).run = .ask (.cri r) fun answer =>
      .done (answer.mapError fun fault => .rpc fault.code fault.message) := by
    refine congrArg (Dialogue.ask _) (funext ?_)
    rintro (fault | v) <;> rfl
  rw [hcri] at h ⊢
  rw [play] at h ⊢
  cases hreply : reply past (.cri r) with
  | error fault =>
    rw [hreply] at h
    cases h
  | ok v' =>
    rw [hreply] at h
    cases h
    rfl

theorem mem_of_play_askAll {qs : List Ask} {t : EngineTurn}
    (ht : t ∈ ((askAll qs).play reply past).1) : t.1 ∈ qs := by
  induction qs generalizing past with
  | nil => cases ht
  | cons q qs ih =>
    rw [askAll, play] at ht
    rcases List.mem_cons.mp ht with rfl | ht
    · exact List.mem_cons_self
    · exact List.mem_cons_of_mem _ (ih ht)

namespace CriEngine

variable {e : CriEngine}

/-- A pod that could be made was asked for last, and the handle of the container names it. -/
theorem play_create {w : Wanted} {c : Container}
    (h : ((e.create w).run.play reply past).2 = .ok c) :
    ∃ pod before, ((e.create w).run.play reply past).1 =
        before ++ [⟨.cri (.runPod (e.templates.sandboxConfig w.name)), .ok pod⟩] ∧
      c = ⟨w.name, w.image, w.command, true, w.trace, some pod⟩ := by
  obtain ⟨_, -, h1, hturns⟩ := play_ok_bind h
  obtain ⟨_, -, h2, hturns1⟩ := play_ok_bind h1
  obtain ⟨pod, hpod, h3, hturns2⟩ := play_ok_bind h2
  cases h3
  rw [hturns1, hturns2, play_cri_ok hpod, ← List.append_assoc] at hturns
  exact ⟨pod, _, hturns, rfl⟩

theorem runPlan_stays (pod : String) (config : Cri.ContainerConfig) (sandbox : Cri.SandboxConfig) :
    StayInPod pod sandbox ((runPlan pod config sandbox).play reply past).1 := by
  rw [runPlan, play]
  refine stayInPod_cons .create fun t ht => ?_
  cases hreply : reply past (.cri (.createContainer pod config sandbox)) with
  | error fault =>
    rw [hreply] at ht
    cases ht
  | ok id =>
    rw [hreply] at ht
    rw [List.mem_singleton.mp (mem_of_play_askAll ht)]
    exact .start List.mem_cons_self

/-- One request for each container that the pod shows, and one for the pod. -/
theorem podPlan_stays {pod : String} {sandbox : Cri.SandboxConfig}
    {onContainer onPod : String → Cri.Request}
    (hcontainer : ∀ {before : List EngineTurn} {listed : List Cri.Listed} {l : Cri.Listed},
      ⟨.cri (.listContainers (some pod)), .ok listed⟩ ∈ before → l ∈ listed →
      AboutPod pod sandbox before (.cri (onContainer l.id)))
    (hpod : ∀ {before : List EngineTurn}, AboutPod pod sandbox before (.cri (onPod pod))) :
    StayInPod pod sandbox ((podPlan pod onContainer onPod).play reply past).1 := by
  rw [podPlan, play]
  refine stayInPod_cons .list fun t ht => ?_
  cases hreply : reply past (.cri (.listContainers (some pod))) with
  | error fault =>
    rw [hreply] at ht
    cases ht
  | ok listed =>
    rw [hreply] at ht
    rcases List.mem_append.mp (mem_of_play_askAll ht) with hasked | hasked
    · obtain ⟨l, hl, hasked⟩ := List.mem_map.mp hasked
      rw [← hasked]
      exact hcontainer List.mem_cons_self hl
    · rw [List.mem_singleton.mp hasked]
      exact hpod

/-- Whatever is done to a container, it stays in its pod. -/
theorem operate_stays (e : CriEngine) (host : Host.Surroundings) {c : Container} {pod : String}
    (hpod : c.podId = some pod) (op : Operation) :
    StayInPod pod (e.templates.sandboxConfig c.name)
      (((Engine.cri e).perform host (.operate op c)).run.play reply past).1 := by
  have hplan : ∀ {plan : Exchange Unit}, e.plan? (.operate op c) = some plan →
      StayInPod pod (e.templates.sandboxConfig c.name) (plan.play reply past).1 →
      StayInPod pod (e.templates.sandboxConfig c.name)
        (((Engine.cri e).perform host (.operate op c)).run.play reply past).1 := by
    intro plan h hstays
    have hfail : FailStop ((Engine.cri e).perform host (.operate op c)).run plan :=
      Engine.failStop_cri h
    rw [(hfail reply past).1]
    exact hstays.of_prefix (upTo_isInitial _ _)
  have hnone : StayInPod pod (e.templates.sandboxConfig c.name) [] := by
    intro before t after h
    cases before <;> cases h
  cases op with
  | run =>
    cases hconfig : e.templates.containerConfig c with
    | error cause =>
      have hrun : e.run c = throw cause := by
        rw [run, podOf, hpod, hconfig]
        rfl
      rw [Engine.perform, Engine.operate, Engine.run, hrun]
      exact hnone
    | ok config =>
      exact hplan (by simp only [plan?, hpod, hconfig]) (runPlan_stays pod config _)
  | stop =>
    exact hplan (by simp only [plan?, hpod]; rfl) (podPlan_stays .stop .stopPod)
  | remove =>
    exact hplan (by simp only [plan?, hpod]; rfl) (podPlan_stays .remove .removePod)
  | pause => exact hnone
  | unpause => exact hnone
  | wait => exact hnone
  | stats => exact hnone

end CriEngine

end

/-! ## All operations of several requests -/

/-- Whatever the answers, an operation of several requests whose own checks pass asks what it has
planned up to the first fault, and ends with this fault or with success. With pods, whatever is done
to a container after it was made is asked about the pod that was made for it. -/
theorem operations_follow_their_plan_up_to_the_first_fault :
    (∀ {host : Host.Surroundings} {e : Engine} {call : EngineCall}, e.Ready host call →
      ∃ plan, e.plan? host call = some plan ∧ FailStop (e.perform host call).run plan) ∧
    ∀ {host : Host.Surroundings} {e : CriEngine} {w : Wanted} {c : Container}
      {reply : Replies Ask Ask.Answer} {past : List EngineTurn},
      (((Engine.cri e).perform host (.create w)).run.play reply past).2 = .ok c →
      ∃ pod before,
        (((Engine.cri e).perform host (.create w)).run.play reply past).1 =
          before ++ [⟨.cri (.runPod (e.templates.sandboxConfig w.name)), .ok pod⟩] ∧
        ∀ (op : Operation) (reply' : Replies Ask Ask.Answer) (past' : List EngineTurn),
          StayInPod pod (e.templates.sandboxConfig w.name)
            (((Engine.cri e).perform host (.operate op c)).run.play reply' past').1 := by
  constructor
  · intro host e call hready
    obtain ⟨plan, hplan⟩ := Engine.exists_plan hready
    exact ⟨plan, hplan, Engine.failStop_of_plan hplan⟩
  · intro host e w c reply past hmade
    obtain ⟨pod, before, hturns, rfl⟩ := CriEngine.play_create hmade
    refine ⟨pod, before, hturns, fun op reply' past' => ?_⟩
    exact CriEngine.operate_stays e host rfl op

/-- Surroundings in which every request succeeds, with the same fields in each reply. -/
def obliging (f : Host.Fields) : (q : Ask) → q.Answer
  | .exec _ _ => .ok ⟨.exited 0, [], []⟩
  | .execSilent _ _ => .ok (.exited 0)
  | .stream _ _ => .ok []
  | .docker _ => .ok Host.notScripted
  | .containerd r => .ok (Host.containerdReply f r)
  | .cri r => .ok (Host.criReply f r)
  | .rest _ => ()

def standardPods : CriEngine := ⟨CriEngine.standardSocket, .standard⟩

def podContainer : Container := ⟨"cb-ctr-0-0", "busybox", none, true, false, some "pod-1"⟩

/-- A host without any files. -/
def bareHost : Host.Surroundings := ⟨⟨"/h", []⟩, []⟩

theorem a_pod_is_made_and_a_container_run_in_it :
    (∃ plan, (Engine.cri standardPods).plan? bareHost (.operate .run podContainer) = some plan ∧
      FailStop ((Engine.cri standardPods).perform bareHost (.operate .run podContainer)).run plan) ∧
    ∃ pod before,
      (((Engine.cri standardPods).perform bareHost
        (.create ⟨"cb-ctr-0-0", "busybox", none, true, false⟩)).run.play
          (fun _ => obliging { Host.Fields.blank with id := "pod-1" }) []).1 =
        before ++ [⟨.cri (.runPod (standardPods.templates.sandboxConfig "cb-ctr-0-0")), .ok pod⟩] ∧
      ∀ (op : Operation) (reply' : Replies Ask Ask.Answer) (past' : List EngineTurn),
        StayInPod pod (standardPods.templates.sandboxConfig "cb-ctr-0-0")
          (((Engine.cri standardPods).perform bareHost (.operate op podContainer)).run.play
            reply' past').1 := by
  constructor
  · exact operations_follow_their_plan_up_to_the_first_fault.1
      (.runInPod nofun fun _ h => nomatch h)
  · exact operations_follow_their_plan_up_to_the_first_fault.2 rfl

/-! ## Where a plan is not enough -/

/-- A bundle whose specification has no process. -/
def hostWithoutProcess : Host.Surroundings :=
  ⟨⟨"/h", [(["b"], .dir),
    (["b", "config.json"], .file "\x7b\"ociVersion\":\"1.0.2\"\x7d".toUTF8.data.toList 0o644)]⟩, []⟩

theorem a_bundle_without_a_process_is_no_start_and_a_container_is_started_by_its_own_id :
    ((∃ value, Containerd.spec hostWithoutProcess.files "b" none = .ok value) ∧
      Override.Splits (some "sleep 30") ∧
      ((Engine.containerd ⟨ContainerdEngine.standardSocket⟩).perform hostWithoutProcess
        (.operate .run ⟨"cb-ctr-0-0", "b", some "sleep 30", true, false, none⟩)).run =
          .done (.error (.config (.specWithoutProcess "b")))) ∧
    (((Engine.cri standardPods).perform hostWithoutProcess
        (.create ⟨"cb-ctr-0-0", "busybox", none, true, false⟩)).run.play
          (fun _ => obliging { Host.Fields.blank with id := "pod-1" }) []).2 = .ok podContainer ∧
    ∃ turn ∈ (((Engine.cri standardPods).perform hostWithoutProcess
        (.operate .run podContainer)).run.play
          (fun _ => obliging { Host.Fields.blank with id := "ctr-1" }) []).1,
      turn.1 = .cri (.startContainer "ctr-1") ∧
        (Cri.Request.startContainer "ctr-1").pod? ≠ some "pod-1" := by
  have hplace : hostWithoutProcess.files.find (Bundle.configPath "b") =
      .ok (.inside ["b", "config.json"]) := by
    rw [Host.Files.find, if_neg (by decide), if_neg (by simp [Bundle.configPath, Host.join])]
    rfl
  have hfailure : failure? (Containerd.spec hostWithoutProcess.files "b" (some "sleep 30")) =
      some (.config (.specWithoutProcess "b")) := by
    rw [Containerd.spec, Host.Files.read, Host.Files.findNode, hplace]
    decide +kernel
  refine ⟨⟨?_, ?_, ?_⟩, rfl, ?_⟩
  · have hok : failure? (Containerd.spec hostWithoutProcess.files "b" none) = none := by
      rw [Containerd.spec, Host.Files.read, Host.Files.findNode, hplace]
      decide +kernel
    cases hspec : Containerd.spec hostWithoutProcess.files "b" none with
    | ok value => exact ⟨value, rfl⟩
    | error cause =>
      rw [hspec] at hok
      cases hok
  · intro text htext
    cases htext
    exact ⟨["sleep", "30"], rfl⟩
  · cases hspec : Containerd.spec hostWithoutProcess.files "b" (some "sleep 30") with
    | ok value =>
      rw [hspec] at hfailure
      cases hfailure
    | error cause =>
      rw [hspec] at hfailure
      cases hfailure
      rw [Engine.perform, Engine.operate, Engine.run, ContainerdEngine.run, hspec]
      rfl
  · exact ⟨⟨.cri (.startContainer "ctr-1"), .ok ()⟩, List.mem_cons_of_mem _ List.mem_cons_self, rfl,
      by decide⟩

end EngineBench
