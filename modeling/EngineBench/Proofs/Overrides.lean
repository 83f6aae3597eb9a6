-- The command that a benchmark gives its containers in place of their own. Four engines heed it,
-- each in its own place: as arguments of a client program, in a document, in a message, in a file.
-- They agree on what its words are, and that nothing is made of a command that has none.
import EngineBench.Proofs.Plans
import EngineBench.Proofs.Tries

namespace EngineBench

open Dialogue

/-! ## Members of an object -/

theorem lookup_sortedInsert {β : Type} (k key : String) (value : β) (l : List (String × β)) :
    (Data.Decode.sortedInsert key value l).lookup k =
      if k = key then some value else l.lookup k := by
  induction l with
  | nil => rw [Data.Decode.sortedInsert, lookup_entry]
  | cons entry rest ih =>
    obtain ⟨k', v⟩ := entry
    rw [Data.Decode.sortedInsert]
    by_cases hsame : key = k'
    · subst hsame
      rw [if_pos rfl, lookup_entry, lookup_entry]
      split <;> rfl
    · rw [if_neg hsame]
      split
      · rw [lookup_entry]
      · rw [lookup_entry, lookup_entry, ih]
        by_cases hk : k = k'
        · subst hk
          rw [if_pos rfl, if_pos rfl, if_neg (Ne.symm hsame)]
        · rw [if_neg hk, if_neg hk]

namespace JsonValue

theorem isObject_of_member? {v x : JsonValue} {name : String} (h : v.member? name = some x) :
    v.isObject = true := by
  cases v with
  | object members => rfl
  | _ => cases h

/-- Setting a member of an object changes this one and no other. -/
theorem member?_setMember {v : JsonValue} (h : v.isObject = true) (name k : String)
    (value : JsonValue) :
    (v.setMember name value).member? k = if k = name then some value else v.member? k := by
  cases v with
  | object members => exact lookup_sortedInsert k name value members
  | _ => cases h

end JsonValue

/-! ## Words -/

/-- How a container with a command that cannot be split fails. -/
def Override.refusal (command : String) : EngineError := .config (.unsplittable command)

namespace Override

variable {command : String} {words : List String}

theorem words_of_none (h : Text.Words.split command = none) :
    Override.words command = .error (refusal command) := by
  rw [Override.words, h]
  rfl

theorem words_of_some (h : Text.Words.split command = some words) :
    Override.words command = .ok words := by
  rw [Override.words, h]

end Override

/-- The words of a command as a document lists them. -/
def textList (words : List String) : JsonValue := .list (words.map .string)

/-! ## The client of Docker -/

namespace DockerClient

variable {e : DockerClient} {c : Container} {command : String} {words : List String}

theorem run_of_none (hcommand : c.command = some command)
    (h : Text.Words.split command = none) :
    (e.run c).run = .done (.error (Override.refusal command)) := by
  rw [run, runArgs, hcommand, Override.words?, Override.words_of_none h]
  rfl

/-- The words stand behind the arguments of a container without a command. -/
theorem runArgs_of_some (hcommand : c.command = some command)
    (h : Text.Words.split command = some words) :
    ∃ args, e.runArgs { c with command := none } = .ok args ∧
      e.runArgs c = .ok (args ++ words) := by
  refine ⟨_, rfl, ?_⟩
  rw [runArgs, hcommand, Override.words?, Override.words_of_some h]
  simp only [Functor.map, Except.map, Bind.bind, Except.bind, pure, Except.pure,
    Option.getD_some, Option.getD_none, List.append_nil]

theorem run_of_args {args : List String} (hargs : e.runArgs c = .ok args) :
    ∃ next, (e.run c).run = .ask (.exec e.program args) next := by
  rw [run, hargs]
  exact ⟨_, rfl⟩

end DockerClient

/-! ## The interface of Docker -/

namespace DockerApi

/-- A request that is about an image, and makes and starts nothing. -/
def AboutImage (image : String) (q : Ask) : Prop :=
  q = .docker ⟨.get, "/images/" ++ image ++ "/json", [], none⟩ ∨
    q = .docker ⟨.post, "/images/create", [("fromImage", image)], none⟩

variable {e : DockerApi} {w : Wanted} {command : String} {words : List String}
  {reply : Replies Ask Ask.Answer} {past : List EngineTurn}

theorem raise_only {P : Ask → Prop} {α : Type} (r : Except ApiError α) :
    (raise r : Work α).run.Only P := by
  cases r <;> trivial

theorem ensureImage_only (image : String) : (ensureImage image).run.Only (AboutImage image) := by
  have hpull : (do
      let reply ← post "/images/create" [("fromImage", image)]
      raise (reply.documents.forM pullStep) : Work Unit).run.Only (AboutImage image) := by
    rw [post, request_bind_run ⟨.post, _, _, _⟩]
    exact ⟨Or.inr rfl, fun answer => Only.bind_attempt (raise_only _) fun _ => raise_only _⟩
  rw [ensureImage, attempt_getDocument_run]
  refine ⟨Or.inl rfl, fun answer => ?_⟩
  dsimp only
  cases (Except.bind answer accept).bind document with
  | error cause => exact hpull
  | ok v =>
    cases v with
    | object members => trivial
    | _ => exact hpull

/-- What is left of making a container once its image is there. -/
def createBody (e : DockerApi) (w : Wanted) : Work Container := do
  let command ← Work.ofExcept (Override.words? w.command)
  let reply ← request .post "/containers/create" [("name", w.name)]
    (some (e.newContainer w.image command))
  let _ ← raise (newId (← raise (document reply)))
  return ⟨w.name, w.image, w.command, w.detached, w.trace, none⟩

theorem create_eq (e : DockerApi) (w : Wanted) :
    e.create w = ensureImage w.image >>= fun _ => e.createBody w := rfl

theorem createBody_of_none (hcommand : w.command = some command)
    (h : Text.Words.split command = none) :
    (e.createBody w).run = .done (.error (Override.refusal command)) := by
  rw [createBody, hcommand, Override.words?, Override.words_of_none h]
  rfl

theorem createBody_of_some (hcommand : w.command = some command)
    (h : Text.Words.split command = some words) :
    ∃ next, (e.createBody w).run = .ask (.docker ⟨.post, "/containers/create", [("name", w.name)],
      some (e.newContainer w.image (some words))⟩) next ∧
      ∀ answer, (next answer).Only fun _ => False := by
  rw [createBody, hcommand, Override.words?, Override.words_of_some h]
  refine ⟨_, request_bind_run ⟨.post, "/containers/create", [("name", w.name)],
    some (e.newContainer w.image (some words))⟩ _, fun answer => ?_⟩
  refine Only.bind_attempt (raise_only _) fun reply => ?_
  refine Only.bind_attempt (raise_only _) fun v => ?_
  exact Only.bind_attempt (raise_only _) fun _ => trivial

/-- Before a command that cannot be split is refused, nothing but the image is asked for. -/
theorem play_create_of_none (hcommand : w.command = some command)
    (h : Text.Words.split command = none) :
    (∀ t ∈ ((e.create w).run.play reply past).1, AboutImage w.image t.1) ∧
      (((ensureImage w.image).run.play reply past).2 = .ok () →
        ((e.create w).run.play reply past).2 = .error (Override.refusal command)) := by
  have hbody := createBody_of_none (e := e) hcommand h
  constructor
  · have honly : (e.create w).run.Only (AboutImage w.image) := by
      rw [create_eq]
      refine Only.bind_attempt (ensureImage_only w.image) fun _ => ?_
      rw [hbody]
      trivial
    exact ((after_play reply past (e.create w).run).only honly).1
  · intro himage
    rw [create_eq, play_of_ok himage, hbody]
    rfl

/-- With the image in place, a container is made with the words of its command. -/
theorem play_create_of_some (hcommand : w.command = some command)
    (h : Text.Words.split command = some words)
    (himage : ((ensureImage w.image).run.play reply past).2 = .ok ()) :
    ∃ body answer, ((e.create w).run.play reply past).1 =
        ((ensureImage w.image).run.play reply past).1 ++
          [⟨.docker ⟨.post, "/containers/create", [("name", w.name)], some body⟩, answer⟩] ∧
      body.member? "Cmd" = some (textList words) := by
  obtain ⟨next, hnext, hsilent⟩ := createBody_of_some (e := e) hcommand h
  rw [create_eq, play_of_ok himage, hnext, play, play_of_silent (hsilent _)]
  exact ⟨_, _, rfl, rfl⟩

end DockerApi

/-! ## Pods -/

namespace CriEngine

variable {e : CriEngine} {c : Container} {pod command : String} {words : List String}

theorem run_of_none (hpod : c.podId = some pod) (hcommand : c.command = some command)
    (h : Text.Words.split command = none) :
    (e.run c).run = .done (.error (Override.refusal command)) := by
  have hconfig : e.templates.containerConfig c = .error (Override.refusal command) := by
    rw [Cri.Templates.containerConfig, hcommand]
    simp only [Override.words_of_none h]
    rfl
  rw [run, podOf, hpod, hconfig]
  rfl

/-- The words take the place of the command of the template; all else stays as it is without a
command, and so do the arguments. -/
theorem containerConfig_of_some (t : Cri.Templates) (hcommand : c.command = some command)
    (h : Text.Words.split command = some words) :
    ∃ config, t.containerConfig { c with command := none } = .ok config ∧
      config.command = t.container.command ∧ config.args = t.container.args ∧
      t.containerConfig c = .ok { config with command := words } := by
  refine ⟨_, rfl, rfl, rfl, ?_⟩
  rw [Cri.Templates.containerConfig, hcommand]
  simp only [Override.words_of_some h]
  rfl

theorem run_of_config {config : Cri.ContainerConfig} (hpod : c.podId = some pod)
    (hconfig : e.templates.containerConfig c = .ok config) :
    ∃ next, (e.run c).run = .ask (.cri (.createContainer pod config
      (e.templates.sandboxConfig c.name))) next := by
  rw [run, podOf, hpod, hconfig]
  exact ⟨_, rfl⟩

end CriEngine

/-! ## Containerd -/

namespace ContainerdEngine

variable {host : Host.Surroundings} {c : Container} {command : String} {words : List String}

theorem run_of_none (hcommand : c.command = some command)
    (hreadable : Containerd.Readable host.files c.image c.command)
    (h : Text.Words.split command = none) :
    (run host c).run = .done (.error (Override.refusal command)) := by
  obtain ⟨value, hvalue, -⟩ := hreadable
  have hspec : Containerd.spec host.files c.image c.command =
      .error (Override.refusal command) := by
    rw [hcommand, Containerd.spec_of_readable hvalue, Override.words_of_none h]
    rfl
  rw [run, hspec]
  rfl

/-- The words take the place of the arguments of the process; all else in the specification stays as
it is without a command. -/
theorem spec_of_some {files : Host.Files} {bundle : String}
    (hreadable : Containerd.Readable files bundle (some command))
    (h : Text.Words.split command = some words) :
    ∃ bare process spec process', Containerd.spec files bundle none = .ok bare ∧
      bare.member? "process" = some process ∧
      Containerd.spec files bundle (some command) = .ok spec ∧
      (∀ k, spec.member? k = if k = "process" then some process' else bare.member? k) ∧
      ∀ k, process'.member? k =
        if k = "args" then some (textList words) else process.member? k := by
  obtain ⟨bare, hbare, hprocess⟩ := hreadable
  obtain ⟨process, hmember, hobject⟩ := hprocess nofun
  have hargs : Containerd.setArgs words bare = some (bare.setMember "process"
      (process.setMember "args" (textList words))) := by
    simp only [Containerd.setArgs, hmember, hobject, if_true, textList]
  have hspec : Containerd.spec files bundle (some command) = .ok (bare.setMember "process"
      (process.setMember "args" (textList words))) := by
    rw [Containerd.spec_of_readable hbare, Override.words_of_some h]
    simp only [Except.bind, hargs]
  refine ⟨bare, process, _, process.setMember "args" (textList words), hbare, hmember, hspec,
    fun k => ?_, fun k => ?_⟩
  · exact JsonValue.member?_setMember (JsonValue.isObject_of_member? hmember) "process" k _
  · exact JsonValue.member?_setMember hobject "args" k _

theorem run_of_spec {spec : JsonValue}
    (hspec : Containerd.spec host.files c.image c.command = .ok spec) :
    ∃ next, (run host c).run =
      .ask (.containerd (.createContainer (newContainer c.name spec))) next := by
  rw [run, hspec]
  exact ⟨_, rfl⟩

end ContainerdEngine

/-! ## All four -/

/-- A command that cannot be split fails as a setting on each engine, before anything is made or
started. One that can be split becomes the same words on each of them, and changes nothing else. -/
theorem engines_agree_on_a_command (command : String) :
    (Text.Words.split command = none →
      (∀ (e : DockerClient) (c : Container), c.command = some command →
        (e.run c).run = .done (.error (Override.refusal command))) ∧
      (∀ (e : DockerApi) (w : Wanted) (reply : Replies Ask Ask.Answer) (past : List EngineTurn),
        w.command = some command →
        (∀ t ∈ ((e.create w).run.play reply past).1, DockerApi.AboutImage w.image t.1) ∧
        (((DockerApi.ensureImage w.image).run.play reply past).2 = .ok () →
          ((e.create w).run.play reply past).2 = .error (Override.refusal command))) ∧
      (∀ (e : CriEngine) (c : Container) (pod : String), c.podId = some pod →
        c.command = some command → (e.run c).run = .done (.error (Override.refusal command))) ∧
      ∀ (host : Host.Surroundings) (c : Container), c.command = some command →
        Containerd.Readable host.files c.image c.command →
        (ContainerdEngine.run host c).run = .done (.error (Override.refusal command))) ∧
    ∀ words, Text.Words.split command = some words →
      (∀ (e : DockerClient) (c : Container), c.command = some command →
        ∃ args next, e.runArgs { c with command := none } = .ok args ∧
          e.runArgs c = .ok (args ++ words) ∧
          (e.run c).run = .ask (.exec e.program (args ++ words)) next) ∧
      (∀ (e : DockerApi) (w : Wanted) (reply : Replies Ask Ask.Answer) (past : List EngineTurn),
        w.command = some command →
        ((DockerApi.ensureImage w.image).run.play reply past).2 = .ok () →
        ∃ body answer, ((e.create w).run.play reply past).1 =
            ((DockerApi.ensureImage w.image).run.play reply past).1 ++
              [⟨.docker ⟨.post, "/containers/create", [("name", w.name)], some body⟩, answer⟩] ∧
          body.member? "Cmd" = some (textList words)) ∧
      (∀ (e : CriEngine) (c : Container) (pod : String), c.podId = some pod →
        c.command = some command →
        ∃ config next, e.templates.containerConfig { c with command := none } = .ok config ∧
          config.command = e.templates.container.command ∧
          config.args = e.templates.container.args ∧
          (e.run c).run = .ask (.cri (.createContainer pod { config with command := words }
            (e.templates.sandboxConfig c.name))) next) ∧
      ∀ (host : Host.Surroundings) (c : Container), c.command = some command →
        Containerd.Readable host.files c.image c.command →
        ∃ bare process spec process' next,
          Containerd.spec host.files c.image none = .ok bare ∧
          bare.member? "process" = some process ∧
          (∀ k, spec.member? k = if k = "process" then some process' else bare.member? k) ∧
          (∀ k, process'.member? k =
            if k = "args" then some (textList words) else process.member? k) ∧
          (ContainerdEngine.run host c).run = .ask (.containerd
            (.createContainer (ContainerdEngine.newContainer c.name spec))) next := by
  refine ⟨fun h => ⟨?_, ?_, ?_, ?_⟩, fun words h => ⟨?_, ?_, ?_, ?_⟩⟩
  · intro e c hcommand
    exact DockerClient.run_of_none hcommand h
  · intro e w reply past hcommand
    exact DockerApi.play_create_of_none hcommand h
  · intro e c pod hpod hcommand
    exact CriEngine.run_of_none hpod hcommand h
  · intro host c hcommand hreadable
    exact ContainerdEngine.run_of_none hcommand hreadable h
  · intro e c hcommand
    obtain ⟨args, hbare, hargs⟩ := DockerClient.runArgs_of_some hcommand h
    obtain ⟨next, hnext⟩ := DockerClient.run_of_args hargs
    exact ⟨args, next, hbare, hargs, hnext⟩
  · intro e w reply past hcommand himage
    exact DockerApi.play_create_of_some hcommand h himage
  · intro e c pod hpod hcommand
    obtain ⟨config, hbare, hcommand', hargs, hconfig⟩ :=
      CriEngine.containerConfig_of_some e.templates hcommand h
    obtain ⟨next, hnext⟩ := CriEngine.run_of_config hpod hconfig
    exact ⟨config, next, hbare, hcommand', hargs, hnext⟩
  · intro host c hcommand hreadable
    rw [hcommand] at hreadable
    obtain ⟨bare, process, spec, process', hbare, hmember, hspec, hall, hargs⟩ :=
      ContainerdEngine.spec_of_some hreadable h
    rw [← hcommand] at hspec
    obtain ⟨next, hnext⟩ := ContainerdEngine.run_of_spec hspec
    exact ⟨bare, process, spec, process', next, hbare, hmember, hall, hargs, hnext⟩

/-- A host with a bundle that runs a shell. -/
def hostWithBundle : Host.Surroundings :=
  ⟨⟨"/h", [(["b"], .dir), (["b", "config.json"],
    .file "\x7b\"process\":\x7b\"args\":[\"sh\"]\x7d\x7d".toUTF8.data.toList 0o644)]⟩, []⟩

theorem readable_bundle (command : Option String) :
    Containerd.Readable hostWithBundle.files "b" command := by
  have hplace : hostWithBundle.files.find (Bundle.configPath "b") =
      .ok (.inside ["b", "config.json"]) := by
    rw [Host.Files.find, if_neg (by decide), if_neg (by simp [Bundle.configPath, Host.join])]
    rfl
  have hprocess : ((Containerd.spec hostWithBundle.files "b" none).toOption.bind
      (·.member? "process")).any (·.isObject) = true := by
    rw [Containerd.spec, Host.Files.read, Host.Files.findNode, hplace]
    decide +kernel
  cases hspec : Containerd.spec hostWithBundle.files "b" none with
  | error cause =>
    rw [hspec] at hprocess
    cases hprocess
  | ok value =>
    rw [hspec] at hprocess
    obtain ⟨process, hmember, hobject⟩ := Option.any_eq_true _ _ |>.mp hprocess
    exact ⟨value, hspec, fun _ => ⟨process, hmember, hobject⟩⟩

/-- A container with this command, in a pod where there are pods. -/
def sleeper (command : String) : Container := ⟨"c", "b", some command, true, false, some "pod"⟩

def wantedSleeper (command : String) : Wanted := ⟨"c", "b", some command, true, false⟩

def bareClient : DockerClient := ⟨"docker", none, [], true⟩

def bareDaemon : DockerApi := ⟨DockerApi.standardSocket, none, [], true⟩

def barePods : CriEngine := ⟨CriEngine.standardSocket, .standard⟩

/-- A daemon that knows every image and makes every container. -/
def readyDaemon : Replies Ask Ask.Answer
  | _, .docker ⟨.get, _, _, _⟩ => .ok ⟨200, [.object []]⟩
  | _, .docker _ => .ok ⟨201, [.object [("Id", .string "1")]]⟩
  | _, .exec _ _ => .error .notFound
  | _, .execSilent _ _ => .error .notFound
  | _, .stream _ _ => .error .notFound
  | _, .containerd _ => .error ⟨.unavailable, ""⟩
  | _, .cri _ => .error ⟨.unavailable, ""⟩
  | _, .rest _ => ()

/-- All four engines take the one command for two words, and none of them starts the other one. -/
theorem an_open_quote_is_refused_and_two_words_are_passed_on :
    ((bareClient.run (sleeper "sleep '30")).run = .done (.error (Override.refusal "sleep '30")) ∧
      ((bareDaemon.create (wantedSleeper "sleep '30")).run.play readyDaemon []).2 =
        .error (Override.refusal "sleep '30") ∧
      (barePods.run (sleeper "sleep '30")).run =
        .done (.error (Override.refusal "sleep '30")) ∧
      (ContainerdEngine.run hostWithBundle (sleeper "sleep '30")).run =
        .done (.error (Override.refusal "sleep '30"))) ∧
    let c := sleeper "sleep 30"
    (∃ args next, bareClient.runArgs { c with command := none } = .ok args ∧
      (bareClient.run c).run = .ask (.exec "docker" (args ++ ["sleep", "30"])) next) ∧
    (∃ asked body answer,
      ((bareDaemon.create (wantedSleeper "sleep 30")).run.play readyDaemon []).1 = asked ++
        [⟨.docker ⟨.post, "/containers/create", [("name", "c")], some body⟩, answer⟩] ∧
      body.member? "Cmd" = some (textList ["sleep", "30"])) ∧
    (∃ config next, barePods.templates.containerConfig { c with command := none } = .ok config ∧
      (barePods.run c).run = .ask (.cri (.createContainer "pod"
        { config with command := ["sleep", "30"] }
        (barePods.templates.sandboxConfig "c"))) next) ∧
    ∃ bare process spec process' next,
      Containerd.spec hostWithBundle.files "b" none = .ok bare ∧
      bare.member? "process" = some process ∧
      (∀ k, spec.member? k = if k = "process" then some process' else bare.member? k) ∧
      (∀ k, process'.member? k =
        if k = "args" then some (textList ["sleep", "30"]) else process.member? k) ∧
      (ContainerdEngine.run hostWithBundle c).run =
        .ask (.containerd (.createContainer (ContainerdEngine.newContainer "c" spec))) next := by
  have himage : ((DockerApi.ensureImage "b").run.play readyDaemon []).2 = .ok () := rfl
  constructor
  · obtain ⟨hclient, hdaemon, hpods, hbundle⟩ :=
      (engines_agree_on_a_command "sleep '30").1 (by decide +kernel)
    exact ⟨hclient bareClient _ rfl, (hdaemon bareDaemon _ readyDaemon [] rfl).2 himage,
      hpods barePods _ "pod" rfl rfl, hbundle hostWithBundle _ rfl (readable_bundle _)⟩
  · obtain ⟨hclient, hdaemon, hpods, hbundle⟩ :=
      (engines_agree_on_a_command "sleep 30").2 ["sleep", "30"] (by decide +kernel)
    refine ⟨?_, ?_, ?_, hbundle hostWithBundle (sleeper "sleep 30") rfl (readable_bundle _)⟩
    · obtain ⟨args, next, hargs, -, hrun⟩ := hclient bareClient (sleeper "sleep 30") rfl
      exact ⟨args, next, hargs, hrun⟩
    · obtain ⟨body, answer, hasked, hbody⟩ :=
        hdaemon bareDaemon (wantedSleeper "sleep 30") readyDaemon [] rfl himage
      exact ⟨_, body, answer, hasked, hbody⟩
    · obtain ⟨config, next, hconfig, -, -, hrun⟩ :=
        hpods barePods (sleeper "sleep 30") "pod" rfl rfl
      exact ⟨config, next, hconfig, hrun⟩

end EngineBench
