-- Cleaning an engine, whatever it lists and whatever fails: it opens with a list, nothing is
-- touched that was not listed before under a marked name, and whatever the first list shows under a
-- marked name is removed, unless a failure ends the cleaning.
import EngineBench.Proofs.CarefulWork
import EngineBench.Proofs.Replies

namespace EngineBench

open Dialogue Engine

/-! ## Containers of containerd -/

namespace ContainerdEngine

variable (e : ContainerdEngine)

theorem tearDown_only (id : String) :
    (tearDown id).run.Only (Handles (.containerd e) (.container id)) := by
  unfold tearDown
  refine .bind_attempt (Work.ignore_only (Work.containerd_only (Or.inr (Or.inl rfl)))) fun _ => ?_
  refine .bind_attempt (Work.ask_only (handles_rest _)) fun _ => ?_
  refine .bind_attempt (Work.ignore_only ?_) fun _ => ?_
  · refine .bind_attempt (Work.ask_only (Or.inr (Or.inl rfl))) fun answer => ?_
    cases answer with
    | ok => trivial
    | error fault =>
      dsimp only
      split <;> trivial
  · exact Work.ignore_only (Work.containerd_only (Or.inr (Or.inr rfl)))

theorem tearDown_removes (id : String) : (tearDown id).run.Until
    (Removes (.containerd e) (.container id)) (fun _ => True) Failed := by
  unfold tearDown
  refine until_of_second fun _ => until_of_second fun _ => until_of_second fun _ => ?_
  refine Work.until_of_ignore fun a => Or.inl ?_
  exact ⟨_, rfl, by simp⟩

def sighting (id : String) : Sighting := ⟨.container id, id.toList, true⟩

theorem lists_containers : Lists (.containerd e) .containers (Work.containerd .listContainers)
    fun ids => ids.map sighting := by
  refine ⟨_, _, rfl, rfl, ?_⟩
  rintro (fault | ids)
  · exact Or.inl ⟨_, rfl⟩
  · exact Or.inr ⟨ids, rfl, rfl⟩

/-- The ids that are torn down are those that the list shows with the mark. -/
theorem mem_marked_ids {ids : List String} {id : String} :
    id ∈ ids.filter Name.isBenchmark ↔ id ∈ ids ∧ Name.Marked id.toList := by
  rw [List.mem_filter, Name.isBenchmark, Name.isMarked_iff]

theorem clean_opens : Opens (.containerd e) .containers clean.run :=
  opens_of_lists (lists_containers e) _

theorem clean_careful : Careful (.containerd e) clean.run [] := by
  refine careful_of_lists (lists_containers e) fun ids known hknown => ?_
  refine careful_of_only (allows_of_forM (tearDown_only e) fun id hid => ?_)
  obtain ⟨hmem, hmarked⟩ := mem_marked_ids.mp hid
  exact hknown _ (List.mem_map_of_mem hmem) hmarked

theorem clean_thorough : Thorough (.containerd e) .containers clean.run := by
  refine thorough_of_lists (lists_containers e) fun ids s hs hmarked _ => ?_
  obtain ⟨id, hid, rfl⟩ := List.mem_map.mp hs
  exact until_of_victim (tearDown_only e) (mem_marked_ids.mpr ⟨hid, hmarked⟩)
    (tearDown_removes e id) .containers

end ContainerdEngine

/-! ## Containers and pods of a CRI engine -/

namespace CriEngine

variable (e : CriEngine)

section

variable {stop remove : Cri.Request} {v : Target}

/-- A request to stop a thing and one to remove it, whatever becomes of the first. -/
theorem stop_and_remove_only (hstop : deed? (.cri stop) = some (.touch [v]))
    (hremove : deed? (.cri remove) = some (.remove [v])) :
    (do (Work.cri stop).ignore; (Work.cri remove).ignore).run.Only (Handles (.cri e) v) :=
  .bind_attempt (Work.ignore_only (Work.cri_only (Or.inr (Or.inl hstop)))) fun _ =>
    Work.ignore_only (Work.cri_only (Or.inr (Or.inr hremove)))

theorem stop_and_remove_removes (hremove : deed? (.cri remove) = some (.remove [v])) :
    (do (Work.cri stop).ignore; (Work.cri remove).ignore).run.Until (Removes (.cri e) v)
      (fun _ => True) Failed :=
  until_of_second fun _ => Work.until_of_ignore fun _ => Or.inl ⟨_, hremove, by simp⟩

end

theorem tearDownContainer_only (l : Cri.Listed) :
    (tearDownContainer l).run.Only (Handles (.cri e) (.container l.id)) :=
  stop_and_remove_only e rfl rfl

theorem tearDownPod_only (l : Cri.Listed) :
    (tearDownPod l).run.Only (Handles (.cri e) (.pod l.id)) :=
  stop_and_remove_only e rfl rfl

theorem tearDownContainer_removes (l : Cri.Listed) : (tearDownContainer l).run.Until
    (Removes (.cri e) (.container l.id)) (fun _ => True) Failed :=
  stop_and_remove_removes e rfl

theorem tearDownPod_removes (l : Cri.Listed) : (tearDownPod l).run.Until
    (Removes (.cri e) (.pod l.id)) (fun _ => True) Failed :=
  stop_and_remove_removes e rfl

theorem lists_containers : Lists (.cri e) .containers (Work.cri (.listContainers none))
    fun listed => listed.filterMap (sighting? .container) := by
  refine ⟨_, _, rfl, rfl, ?_⟩
  rintro (fault | listed)
  · exact Or.inl ⟨_, rfl⟩
  · exact Or.inr ⟨listed, rfl, rfl⟩

theorem lists_pods : Lists (.cri e) .pods (Work.cri .listPods)
    fun listed => listed.filterMap (sighting? .pod) := by
  refine ⟨_, _, rfl, rfl, ?_⟩
  rintro (fault | listed)
  · exact Or.inl ⟨_, rfl⟩
  · exact Or.inr ⟨listed, rfl, rfl⟩

/-- What is torn down is what the list shows with the mark. -/
theorem exists_benchmark_iff {listed : List Cri.Listed} {target : String → Target} {v : Target} :
    (∃ l ∈ listed.filter isBenchmark, target l.id = v) ↔
      ∃ s ∈ listed.filterMap (sighting? target), s.target = v ∧ Name.Marked s.name := by
  simp only [List.mem_filter, List.mem_filterMap, sighting?, Option.map_eq_some_iff]
  constructor
  · rintro ⟨l, ⟨hl, hmarked⟩, rfl⟩
    unfold isBenchmark at hmarked
    split at hmarked
    · rename_i name hname
      exact ⟨_, ⟨l, hl, name, hname, rfl⟩, rfl, (Name.isMarked_iff _).mp hmarked⟩
    · cases hmarked
  · rintro ⟨_, ⟨l, hl, name, hname, rfl⟩, hv, hmarked⟩
    refine ⟨l, ⟨hl, ?_⟩, hv⟩
    rw [isBenchmark, hname]
    exact (Name.isMarked_iff _).mpr hmarked

theorem known_of_benchmark {listed : List Cri.Listed} {target : String → Target}
    {known : List Target} (hknown : ∀ s ∈ listed.filterMap (sighting? target),
      Name.Marked s.name → s.target ∈ known) {l : Cri.Listed}
    (hl : l ∈ listed.filter isBenchmark) : target l.id ∈ known := by
  obtain ⟨s, hs, hv, hmarked⟩ :=
    exists_benchmark_iff.mp ⟨l, hl, show target l.id = _ from rfl⟩
  exact hv ▸ hknown s hs hmarked

theorem clean_opens : Opens (.cri e) .containers clean.run :=
  opens_of_lists (lists_containers e) _

/-- The pods are listed once the containers are torn down. -/
theorem clean_lists_pods : clean.run.Until
    (fun x => (Engine.cri e).deed? x.1 = some (.list .pods)) (fun _ => True) Failed :=
  until_of_second fun _ => until_of_second fun _ => until_list_of_lists (lists_pods e) _

theorem clean_careful : Careful (.cri e) clean.run [] := by
  refine careful_of_lists (lists_containers e) fun containers known hknown => ?_
  refine careful_bind (allows_of_forM (tearDownContainer_only e) fun l => known_of_benchmark hknown)
    ?_ (List.Subset.refl _)
  rintro (err | _) known' -
  · trivial
  · refine careful_of_lists (lists_pods e) fun pods known hknown => ?_
    exact careful_of_only (allows_of_forM (tearDownPod_only e) fun l => known_of_benchmark hknown)

theorem clean_thorough_containers : Thorough (.cri e) .containers clean.run := by
  refine thorough_of_lists (lists_containers e) fun containers s hs hmarked _ => ?_
  obtain ⟨l, hl, hv⟩ := exists_benchmark_iff.mpr ⟨s, hs, rfl, hmarked⟩
  -- The pods are listed only after the removal.
  refine until_of_first (hv ▸ ?_)
  exact until_of_victim (tearDownContainer_only e) hl (tearDownContainer_removes e l) .containers

theorem clean_thorough_pods : Thorough (.cri e) .pods clean.run := by
  refine thorough_bind ((lists_containers e).only.mono fun q hq => by simp [hq]) ?_
  rintro (err | containers)
  · trivial
  refine thorough_bind (ne_list_of_forM (tearDownContainer_only e) .pods) ?_
  rintro (err | _)
  · trivial
  refine thorough_of_lists (lists_pods e) fun pods s hs hmarked _ => ?_
  obtain ⟨l, hl, hv⟩ := exists_benchmark_iff.mpr ⟨s, hs, rfl, hmarked⟩
  rw [← hv]
  exact until_of_victim (tearDownPod_only e) hl (tearDownPod_removes e l) .pods

end CriEngine

/-! ## Containers of Docker's client -/

namespace DockerClient

variable (e : DockerClient)

theorem lists_containers : Lists (.dockerCli e) .containers (Command.exec e.program listArgs)
    fun text => (Text.lines text.toList).filterMap sightingOfLine? :=
  lists_exec (by simp [Engine.deed?, deed?]) fun o => by simp [Engine.sightings]

/-- All are removed by one question. -/
theorem deed_of_removal (ids : List String) :
    (Engine.dockerCli e).deed? (.exec e.program (["rm", "-f"] ++ ids)) =
      some (.remove (ids.map .container)) := by
  simp [Engine.deed?, deed?, listArgs]

theorem clean_opens : Opens (.dockerCli e) .containers e.clean.run :=
  opens_of_lists (lists_containers e) _

theorem clean_careful : Careful (.dockerCli e) e.clean.run [] := by
  refine careful_of_lists (lists_containers e) fun text known hknown => ?_
  dsimp only
  split
  · trivial
  · refine careful_of_only (.bind_attempt (Command.exec_only ?_) fun _ => trivial)
    refine ⟨_, deed_of_removal e _, ?_⟩
    intro v hv
    obtain ⟨id, hid, rfl⟩ := List.mem_map.mp hv
    obtain ⟨s, hs, htarget, hmarked⟩ := mem_benchmarkIds.mp hid
    exact htarget ▸ hknown s hs hmarked

theorem clean_thorough : Thorough (.dockerCli e) .containers e.clean.run := by
  refine thorough_of_lists (lists_containers e) fun text s hs hmarked _ => ?_
  obtain ⟨id, hid⟩ : ∃ id, s.target = .container id := by
    obtain ⟨line, -, hs⟩ := List.mem_filterMap.mp hs
    rw [sightingOfLine?, Option.map_eq_some_iff] at hs
    obtain ⟨parts, -, rfl⟩ := hs
    exact ⟨_, rfl⟩
  have hmem : id ∈ benchmarkIds text := mem_benchmarkIds.mpr ⟨s, hs, hid, hmarked⟩
  dsimp only
  split
  · rename_i hempty
    rw [List.isEmpty_iff.mp hempty] at hmem
    cases hmem
  · rw [hid]
    exact until_of_first fun a => Or.inl ⟨_, deed_of_removal e _, List.mem_map_of_mem hmem⟩

end DockerClient

/-! ## Containers of Docker's daemon -/

namespace DockerApi

open Docker (Reply)

variable (e : DockerApi)

theorem eq_of_accept {r r' : Reply} (h : accept r = .ok r') : r' = r := by
  unfold accept at h
  split at h <;> cases h
  rfl

theorem documents_of_document {r : Reply} {v : JsonValue} (h : document r = .ok v) :
    r.documents = [v] := by
  unfold document at h
  split at h
  · cases h
  · rename_i hdocuments
    cases h
    exact hdocuments
  · cases h

/-- What a document shows, if it is a list. -/
def sightings : JsonValue → List Sighting
  | .list items => items.flatMap sightingsOfItem
  | _ => []

theorem lists_containers (query : List (String × String)) :
    Lists (.docker e) .containers (getDocument "/containers/json" query) sightings := by
  refine ⟨.docker ⟨.get, "/containers/json", query, none⟩, fun a =>
    (raise a >>= fun reply => raise (accept reply)) >>= fun reply => raise (document reply),
    rfl, rfl, ?_⟩
  rintro (cause | reply)
  · exact Or.inl ⟨_, rfl⟩
  show (∃ err, (raise (accept reply) >>= fun reply => raise (document reply)) = throw err) ∨
    ∃ v, (raise (accept reply) >>= fun reply => raise (document reply)) = pure v ∧ _
  cases haccept : accept reply with
  | error cause => exact Or.inl ⟨_, rfl⟩
  | ok reply' =>
    obtain rfl := eq_of_accept haccept
    show (∃ err, raise (document reply') = throw err) ∨ ∃ v, raise (document reply') = pure v ∧ _
    cases hdocument : document reply' with
    | error cause => exact Or.inl ⟨_, rfl⟩
    | ok v =>
      refine Or.inr ⟨v, rfl, ?_⟩
      obtain ⟨status, documents⟩ := reply'
      obtain rfl : documents = [v] := documents_of_document hdocument
      cases v <;> rfl

theorem deed_of_removal (id : String) (query : List (String × String)) :
    (Engine.docker e).deed? (.docker ⟨.delete, "/containers/" ++ id, query, none⟩) =
      some (.remove [.container id]) := by
  have hafter : Text.after "/containers/".toList ("/containers/" ++ id).toList =
      some id.toList := by
    rw [Text.after_eq_some_iff, String.toList_append]
  simp only [Engine.deed?, deed?, hafter, Option.map_some, String.ofList_toList]

theorem removeById_only (id : String) :
    (removeById id).run.Only (Handles (.docker e) (.container id)) := by
  unfold removeById request
  refine .bind_attempt (.bind_attempt (Work.ask_only ?_) fun answer => ?_) fun _ => trivial
  · exact Or.inr (Or.inr (deed_of_removal e id _))
  · refine .bind_attempt ?_ fun reply => ?_
    · cases answer <;> trivial
    · cases accept reply <;> trivial

theorem removeById_removes (id : String) : (removeById id).run.Until
    (Removes (.docker e) (.container id)) (fun _ => True) Failed := fun _ =>
  Or.inl ⟨_, deed_of_removal e id _, by simp⟩

theorem eq_list_of_listed {v : JsonValue} {all : List Listed} (h : listed v = .ok all) :
    ∃ items, v = .list items := by
  unfold listed at h
  split at h
  · exact ⟨_, rfl⟩
  · cases h

theorem clean_opens : Opens (.docker e) .containers clean.run :=
  opens_of_lists (lists_containers e _) _

theorem clean_careful : Careful (.docker e) clean.run [] := by
  refine careful_of_lists (lists_containers e _) fun v known hknown => ?_
  cases hlisted : listed v with
  | error cause => trivial
  | ok all =>
    obtain ⟨items, rfl⟩ := eq_list_of_listed hlisted
    refine careful_of_only (allows_of_forM (removeById_only e) fun id hid => ?_)
    obtain ⟨s, hs, htarget, hmarked⟩ := (mem_victims hlisted).mp hid
    exact htarget ▸ hknown s hs hmarked

theorem clean_thorough : Thorough (.docker e) .containers clean.run := by
  refine thorough_of_lists (lists_containers e _) fun v s hs hmarked _ => ?_
  cases hlisted : listed v with
  | error cause => exact ⟨_, rfl⟩
  | ok all =>
    obtain ⟨items, rfl⟩ := eq_list_of_listed hlisted
    obtain ⟨id, hid⟩ : ∃ id, s.target = .container id := by
      obtain ⟨item, -, hs⟩ := List.mem_flatMap.mp hs
      obtain ⟨id, _, _, -, -, -, rfl⟩ := mem_sightingsOfItem.mp hs
      exact ⟨id, rfl⟩
    rw [hid]
    exact until_of_victim (removeById_only e) ((mem_victims hlisted).mpr ⟨s, hs, hid, hmarked⟩)
      (removeById_removes e id) .containers

end DockerApi

/-! ## Containers of the runtimes -/

/-- Questions of a runtime by which it lists, stops and removes. -/
structure Removal.Fits (r : Removal) (e : Engine) : Prop where
  lists : Lists e .containers r.list fun text =>
    (Text.lines text.toList).filterMap ListedContainer.sightingOfLine?
  stops : ∀ id, (r.stop id).run.Only (e.Handles (.container id))
  resumes : ∀ id, (r.unpause id).run.Only (e.Handles (.container id))
  removes : ∀ id, (r.remove id).run.Only (e.Handles (.container id)) ∧
    (r.remove id).run.Until (e.Removes (.container id)) (fun _ => True) fun _ => False

namespace Removal

variable {e : Engine} {r : Removal} (hr : r.Fits e)

include hr

theorem tearDown_only (c : ListedContainer) :
    (r.tearDown c).run.Only (e.Handles (.container c.name)) := by
  have hsettle : Work.settle.run.Only (e.Handles (.container c.name)) :=
    Work.ask_only (handles_rest _)
  have hstop := Work.ignore_only (hr.stops c.name)
  have hremove := Work.ignore_only (hr.removes c.name).1
  unfold tearDown
  split
  · exact .bind_attempt hstop fun _ => .bind_attempt hsettle fun _ => hremove
  · split
    · exact .bind_attempt (Work.ignore_only (hr.resumes c.name)) fun _ =>
        .bind_attempt hstop fun _ => .bind_attempt hsettle fun _ => hremove
    · split
      · exact hremove
      · trivial

theorem tearDown_removes {c : ListedContainer} (hc : c.state ∈ ListedContainer.knownStates) :
    (r.tearDown c).run.Until (e.Removes (.container c.name)) (fun _ => True) Failed := by
  have hremove := Work.until_of_ignore (hr.removes c.name).2
  unfold tearDown
  split
  · exact until_of_second fun _ => until_of_second fun _ => hremove
  · split
    · exact until_of_second fun _ => until_of_second fun _ => until_of_second fun _ => hremove
    · split
      · exact hremove
      · simp_all [ListedContainer.knownStates]

/-- Every pass tears down what the list before it has shown. -/
theorem passes_careful (n : Nat) {cs : List ListedContainer} {known : List Target}
    (hcs : ∀ c ∈ cs, .container c.name ∈ known) : e.Careful (r.passes n cs).run known := by
  induction n generalizing cs known with
  | zero => trivial
  | succ n ih =>
    cases cs with
    | nil => trivial
    | cons c cs =>
      refine careful_bind (allows_of_forM (tearDown_only hr) hcs) ?_ (List.Subset.refl _)
      rintro (err | _) known' -
      · trivial
      · refine careful_of_lists hr.lists fun text known hknown => ih fun c hc => ?_
        obtain ⟨s, hs, htarget, hmarked⟩ := ListedContainer.exists_sighting hc
        exact htarget ▸ hknown s hs hmarked

theorem clean_opens : e.Opens .containers r.clean.run := opens_of_lists hr.lists _

theorem clean_careful : e.Careful r.clean.run [] := by
  refine careful_of_lists hr.lists fun text known hknown => passes_careful hr passLimit ?_
  intro c hc
  obtain ⟨s, hs, htarget, hmarked⟩ := ListedContainer.exists_sighting hc
  exact htarget ▸ hknown s hs hmarked

/-- The first pass comes to all that is listed first. -/
theorem passes_removes (n : Nat) {cs : List ListedContainer} {c : ListedContainer} (hc : c ∈ cs)
    (hstate : c.state ∈ ListedContainer.knownStates) :
    (r.passes (n + 1) cs).run.Until (e.Removes (.container c.name))
      (fun x => e.deed? x.1 ≠ some (.list .containers)) Failed := by
  cases cs with
  | nil => cases hc
  | cons c' cs =>
    exact until_of_first (until_of_victim (tearDown_only hr) hc (tearDown_removes hr hstate)
      .containers)

theorem clean_thorough : e.Thorough .containers r.clean.run := by
  refine thorough_of_lists hr.lists fun text s hs hmarked hready => ?_
  obtain ⟨c, hc, htarget, hstate⟩ := ListedContainer.exists_mem_ofText hs hmarked hready
  rw [htarget]
  exact passes_removes hr 2 hc hstate

end Removal

theorem OciRuntime.removal_fits (e : OciRuntime) : e.removal.Fits (.oci e) where
  lists := lists_exec (by simp [Engine.deed?, deed?]) fun o => by simp [Engine.sightings]
  stops id := Command.exec_only (Or.inr (Or.inl (by simp [Engine.deed?, deed?])))
  resumes id := Command.exec_only (Or.inr (Or.inl (by simp [Engine.deed?, deed?])))
  removes id := by
    have hdeed : (Engine.oci e).deed? (.exec e.program ["delete", id]) =
        some (.remove [.container id]) := by simp [Engine.deed?, deed?]
    exact ⟨Command.exec_only (Or.inr (Or.inr hdeed)), fun _ => Or.inl ⟨_, hdeed, by simp⟩⟩

theorem CtrClient.removal_fits (e : CtrClient) : e.removal.Fits (.ctr e) := by
  have hdeed : ∀ id, (Engine.ctr e).deed? (.exec e.program ["containers", "kill", id]) =
      some (.remove [.container id]) := by simp [Engine.deed?, deed?]
  exact {
    lists := lists_exec (by simp [Engine.deed?, deed?]) fun o => by simp [Engine.sightings]
    stops := fun id => Command.exec_only (Or.inr (Or.inr (hdeed id)))
    resumes := fun id => Command.exec_only (Or.inr (Or.inl (by simp [Engine.deed?, deed?])))
    removes := fun id => ⟨Command.exec_only (Or.inr (Or.inr (hdeed id))),
      fun _ => Or.inl ⟨_, hdeed id, by simp⟩⟩ }

/-! ## All engines -/

namespace Engine

/-- Every engine but the one without containers begins with a list of them. -/
theorem clean_opens {e : Engine} (he : e ≠ .null) : e.Opens .containers e.clean.run := by
  cases e with
  | dockerCli e => exact e.clean_opens
  | docker e => exact e.clean_opens
  | oci e => exact Removal.clean_opens e.removal_fits
  | ctr e => exact Removal.clean_opens e.removal_fits
  | containerd e => exact e.clean_opens
  | cri e => exact e.clean_opens
  | null => exact (he rfl).elim

theorem clean_careful (e : Engine) : e.Careful e.clean.run [] := by
  cases e with
  | dockerCli e => exact e.clean_careful
  | docker e => exact e.clean_careful
  | oci e => exact Removal.clean_careful e.removal_fits
  | ctr e => exact Removal.clean_careful e.removal_fits
  | containerd e => exact e.clean_careful
  | cri e => exact e.clean_careful
  | null => trivial

/-- Only a CRI engine has pods. -/
theorem deed?_ne_pods {e : Engine} (he : ∀ c, e ≠ .cri c) (q : Ask) :
    e.deed? q ≠ some (.list .pods) := by
  unfold deed?
  split
  · simp
  · cases e with
    | dockerCli e =>
      unfold DockerClient.deed?
      grind
    | docker e =>
      unfold DockerApi.deed?
      grind [Option.map_eq_some_iff]
    | oci e =>
      unfold OciRuntime.deed?
      grind
    | ctr e =>
      unfold CtrClient.deed?
      grind
    | containerd e =>
      unfold ContainerdEngine.deed?
      grind
    | cri e => exact (he e rfl).elim
    | null => simp

theorem clean_thorough (e : Engine) (shelf : Shelf) : e.Thorough shelf e.clean.run := by
  cases shelf with
  | containers =>
    cases e with
    | dockerCli e => exact e.clean_thorough
    | docker e => exact e.clean_thorough
    | oci e => exact Removal.clean_thorough e.removal_fits
    | ctr e => exact Removal.clean_thorough e.removal_fits
    | containerd e => exact e.clean_thorough
    | cri e => exact e.clean_thorough_containers
    | null => trivial
  | pods =>
    by_cases he : ∃ c, e = .cri c
    · obtain ⟨c, rfl⟩ := he
      exact c.clean_thorough_pods
    · exact thorough_of_never (deed?_ne_pods fun c hc => he ⟨c, hc⟩) _

/-- Whatever an engine answers, its cleaning does nothing to a container or a pod that was not
listed before under a marked name. What the first list of either kind shows under a marked name is
removed, unless the cleaning fails before that. And lists there are: the cleaning of every engine
but the one without containers begins with one, and that of a CRI engine asks for the pods as well
unless it fails before that. -/
theorem a_cleaning_removes_what_is_marked_and_touches_nothing_else (e : Engine)
    {turns : List (Turn Ask Ask.Answer)} {m : Exchange (Except EngineError Unit)}
    (h : After e.clean.run turns m) :
    (∀ before x after, turns = before ++ x :: after → ∃ deed, e.deed? x.1 = some deed ∧
      ∀ v ∈ deed.targets, ∃ y ∈ before, (∃ shelf, e.deed? y.1 = some (.list shelf)) ∧
        ∃ s ∈ e.sightings y, s.target = v ∧ Name.Marked s.name) ∧
    (∀ r, m = .done r → ∀ shelf before y after, turns = before ++ y :: after →
      (∀ x ∈ before, e.deed? x.1 ≠ some (.list shelf)) → e.deed? y.1 = some (.list shelf) →
      ∀ s ∈ e.sightings y, Name.Marked s.name → s.ready = true →
        (∃ x ∈ after, e.Removes s.target x) ∨
          (∀ x ∈ after, e.deed? x.1 ≠ some (.list shelf)) ∧ Failed r) ∧
    (e ≠ .null → (∀ x rest, turns = x :: rest → e.deed? x.1 = some (.list .containers)) ∧
      ∀ r, m = .done r → turns ≠ []) ∧
    ∀ c, e = .cri c → ∀ r, m = .done r →
      (∃ x ∈ turns, e.deed? x.1 = some (.list .pods)) ∨ Failed r := by
  refine ⟨?_, ?_, fun he => (clean_opens he).first h, ?_⟩
  · rintro before x after rfl
    obtain ⟨deed, hdeed, hknown⟩ := allows_of_after h e.clean_careful
    refine ⟨deed, hdeed, fun v hv => ?_⟩
    have hv := hknown v hv
    rw [List.nil_append] at hv
    obtain ⟨y, hy, hspotted⟩ := List.mem_flatMap.mp hv
    exact ⟨y, hy, mem_spotted e |>.mp hspotted⟩
  · rintro r rfl shelf before y after rfl hbefore hy s hs hmarked hready
    exact until_of_after h (e.clean_thorough shelf) hbefore hy hs hmarked hready
  · rintro c rfl r rfl
    exact (h.until c.clean_lists_pods).imp_right And.right

/-- Of four containers, one has the mark inside of its name and one has no name. Of the other two,
the first can neither be stopped nor removed. -/
def cleaningOfFour : List (Turn Ask Ask.Answer) :=
  let containers : List Cri.Listed :=
    [⟨"1", some "//cb-ctr-0-0"⟩, ⟨"2", some "my-cb-ctr"⟩, ⟨"3", none⟩, ⟨"4", some "cb-ctr"⟩]
  let gone : Except RpcFault Unit := .error ⟨.notFound, "not found"⟩
  let done : Except RpcFault Unit := .ok ()
  [⟨.cri (.listContainers none), (.ok containers : Except RpcFault (List Cri.Listed))⟩,
   ⟨.cri (.stopContainer "1"), gone⟩, ⟨.cri (.removeContainer "1"), gone⟩,
   ⟨.cri (.stopContainer "4"), done⟩, ⟨.cri (.removeContainer "4"), done⟩,
   ⟨.cri .listPods, (.ok [⟨"2", some "cb-ctr-pod"⟩] : Except RpcFault (List Cri.Listed))⟩,
   ⟨.cri (.stopPod "2"), gone⟩, ⟨.cri (.removePod "2"), done⟩]

def podEngine : Engine := .cri ⟨CriEngine.standardSocket, .standard⟩

/-- A host that lists a container of a benchmark and one with the mark inside of its name, the
runtimes only once, and does whatever else it is told. -/
def tidyHost : Replies Ask Ask.Answer
  | _, .exec _ ("ps" :: _) => wrote "1 cb-ctr-0-0\n2 my-cb-ctr\n"
  | [], .exec _ _ => wrote "cb-ctr-0-0 7 Paused /b\nmy-cb-ctr 8 running /b\n"
  | _, .exec _ _ => wrote ""
  | _, .execSilent _ _ => .error .notFound
  | _, .stream _ _ => .error .notFound
  | _, .docker ⟨.get, _, _, _⟩ => .ok ⟨200, [.list
      [.object [("Id", .string "1"), ("Names", .list [.string "/cb-ctr-0-0"])],
       .object [("Id", .string "2"), ("Names", .list [.string "/my-cb-ctr"])]]]⟩
  | _, .docker _ => .ok ⟨204, []⟩
  | _, .containerd .listContainers => .ok ["cb-ctr-0-0", "my-cb-ctr"]
  | _, .containerd _ => .error ⟨.notFound, ""⟩
  | _, .cri _ => .error ⟨.unavailable, ""⟩
  | _, .rest _ => ()
where
  wrote (text : String) : Except OsError Outcome :=
    .ok ⟨.exited 0, text.toList.map fun c => UInt8.ofNat c.toNat, []⟩

/-- Engines of the other kinds, with the ids under which they know the two containers. -/
def containerEngines : List (Engine × String × String) :=
  [(.dockerCli ⟨"docker", none, [], true⟩, "1", "2"),
   (.docker ⟨DockerApi.standardSocket, none, [], true⟩, "1", "2"),
   (.oci ⟨.runc, "runc"⟩, "cb-ctr-0-0", "my-cb-ctr"),
   (.ctr ⟨"ctr"⟩, "cb-ctr-0-0", "my-cb-ctr"),
   (.containerd ⟨"containerd.sock"⟩, "cb-ctr-0-0", "my-cb-ctr")]

def tidied (e : Engine) : List (Turn Ask Ask.Answer) × Except EngineError Unit :=
  e.clean.run.play tidyHost []

theorem containerEngines_ne_null : ∀ x ∈ containerEngines, x.1 ≠ .null := by
  simp [containerEngines]

theorem tidied_toBool : ∀ x ∈ containerEngines, (tidied x.1).2.toBool = true := by decide +kernel

theorem after_tidied {x : Engine × String × String} (hx : x ∈ containerEngines) :
    After x.1.clean.run (tidied x.1).1 (.done (.ok ())) := by
  have hafter : After x.1.clean.run (tidied x.1).1 (.done (tidied x.1).2) :=
    after_play tidyHost [] x.1.clean.run
  have hok := tidied_toBool x hx
  cases hr : (tidied x.1).2 with
  | error e => simp [hr, Except.toBool] at hok
  | ok _ => rwa [hr] at hafter

theorem shown_first : ∀ x ∈ containerEngines, ∀ y ∈ (tidied x.1).1.head?, ∃ s ∈ x.1.sightings y,
    s.target = .container x.2.1 ∧ Name.Marked s.name ∧ s.ready = true := by decide +kernel

theorem shown_unmarked : ∀ x ∈ containerEngines, ∀ y ∈ (tidied x.1).1, ∀ s ∈ x.1.sightings y,
    Name.Marked s.name → s.target ≠ .container x.2.2 := by decide +kernel

/-- What no list shows under a marked name is not touched. -/
theorem spared_of_unmarked {e : Engine} {turns : List (Turn Ask Ask.Answer)} {v : Target}
    (hcareful : ∀ before x after, turns = before ++ x :: after → ∃ deed, e.deed? x.1 = some deed ∧
      ∀ v ∈ deed.targets, ∃ y ∈ before, (∃ shelf, e.deed? y.1 = some (.list shelf)) ∧
        ∃ s ∈ e.sightings y, s.target = v ∧ Name.Marked s.name)
    (hunmarked : ∀ y ∈ turns, ∀ s ∈ e.sightings y, Name.Marked s.name → s.target ≠ v) :
    ∀ x ∈ turns, ∃ deed, e.deed? x.1 = some deed ∧ v ∉ deed.targets := by
  intro x hx
  obtain ⟨before, after, hsplit⟩ := List.append_of_mem hx
  obtain ⟨deed, hdeed, hshown⟩ := hcareful before x after hsplit
  refine ⟨deed, hdeed, fun hv => ?_⟩
  obtain ⟨y, hy, -, s, hs, htarget, hmarked⟩ := hshown v hv
  exact hunmarked y (hsplit ▸ List.mem_append_left _ hy) s hs hmarked htarget

/-- Two of the four are gone, and the other two are as they were; and so it is with one of two under
each of the other engines. -/
theorem a_cleaning_of_four_removes_two :
    (After podEngine.clean.run cleaningOfFour (.done (.ok ())) ∧
      (∃ x ∈ cleaningOfFour, podEngine.Removes (.container "1") x) ∧
      (∃ x ∈ cleaningOfFour, podEngine.deed? x.1 = some (.list .pods)) ∧
      (∃ x ∈ cleaningOfFour, podEngine.Removes (.pod "2") x) ∧
      ∀ v ∈ [Target.container "2", Target.container "3"], ∀ x ∈ cleaningOfFour,
        ∃ deed, podEngine.deed? x.1 = some deed ∧ v ∉ deed.targets) ∧
    ∀ x ∈ containerEngines, After x.1.clean.run (tidied x.1).1 (.done (.ok ())) ∧
      (∃ y ∈ (tidied x.1).1, x.1.Removes (.container x.2.1) y) ∧
      ∀ y ∈ (tidied x.1).1, ∃ deed, x.1.deed? y.1 = some deed ∧
        .container x.2.2 ∉ deed.targets := by
  have hfine : ¬Failed (.ok () : Except EngineError Unit) := by
    rintro ⟨_, ⟨⟩⟩
  constructor
  · have hafter : After podEngine.clean.run cleaningOfFour (.done (.ok ())) :=
      .cons (.cons (.cons (.cons (.cons (.cons (.cons (.cons .nil)))))))
    obtain ⟨hcareful, hthorough, -, hpods⟩ :=
      a_cleaning_removes_what_is_marked_and_touches_nothing_else podEngine hafter
    refine ⟨hafter, ?_, (hpods _ rfl _ rfl).resolve_right hfine, ?_, ?_⟩
    · have hlast := hthorough _ rfl .containers [] _ _ rfl (by simp) rfl
        ⟨.container "1", "//cb-ctr-0-0".toList, true⟩ (by decide) (by decide) rfl
      obtain ⟨x, hx, hremoves⟩ := hlast.resolve_right fun h => hfine h.2
      exact ⟨x, List.mem_cons_of_mem _ hx, hremoves⟩
    · have hlast := hthorough _ rfl .pods (cleaningOfFour.take 5) _ _ rfl (by decide) rfl
        ⟨.pod "2", "cb-ctr-pod".toList, true⟩ (by decide) (by decide) rfl
      obtain ⟨x, hx, hremoves⟩ := hlast.resolve_right fun h => hfine h.2
      exact ⟨x, List.mem_of_mem_drop (i := 6) hx, hremoves⟩
    · intro v hv
      have hplain : ∀ v ∈ [Target.container "2", Target.container "3"], ∀ y ∈ cleaningOfFour,
          ∀ s ∈ podEngine.sightings y, Name.Marked s.name → s.target ≠ v := by decide
      exact spared_of_unmarked hcareful (hplain v hv)
  · intro x hx
    have hafter := after_tidied hx
    obtain ⟨hcareful, hthorough, hopens, -⟩ :=
      a_cleaning_removes_what_is_marked_and_touches_nothing_else x.1 hafter
    obtain ⟨hfirst, hbegun⟩ := hopens (containerEngines_ne_null x hx)
    obtain ⟨y, rest, hturns⟩ := List.exists_cons_of_ne_nil (hbegun _ rfl)
    obtain ⟨s, hs, htarget, hmarked, hready⟩ := shown_first x hx y (by simp [hturns])
    have hlast := hthorough _ rfl .containers [] y rest hturns (by simp) (hfirst y rest hturns)
      s hs hmarked hready
    obtain ⟨z, hz, hremoves⟩ := hlast.resolve_right fun h => hfine h.2
    refine ⟨hafter, ⟨z, ?_, htarget ▸ hremoves⟩,
      spared_of_unmarked hcareful (shown_unmarked x hx)⟩
    rw [hturns]
    exact List.mem_cons_of_mem _ hz

end Engine

end EngineBench
