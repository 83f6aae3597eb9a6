-- Operations that take several requests. Each has a plan, which says what is to be asked as long as
-- nothing goes wrong, and an operation stops at the first request that fails. Whoever reads a plan
-- need not know where the operation looks at an answer and where it gives up.
import EngineBench.Engine.Engine
import EngineBench.Proofs.Replies

namespace EngineBench

open Dialogue

variable {α β : Type}

/-! ## Requests that fail -/

abbrev EngineTurn : Type := Turn Ask Ask.Answer

/-- What a reply of the daemon comes to: pulling an image fails in any of its steps, and a new
container has an id. -/
def DockerApi.verdict (r : Docker.Request) (reply : Docker.Reply) : Except ApiError Unit :=
  (accept reply).bind fun reply =>
    if r.path = "/images/create" then reply.documents.forM pullStep
    else
      (document reply).bind fun v =>
        if r.path = "/containers/create" then (newId v).map fun _ => () else .ok ()

/-- The error that the answer to a request stands for. -/
def errorOf? : EngineTurn → Option EngineError
  | ⟨.cri _, .error fault⟩ => some (.rpc fault.code fault.message)
  | ⟨.containerd _, .error fault⟩ => some (.rpc fault.code fault.message)
  | ⟨.docker r, answer⟩ =>
    match Except.bind answer (DockerApi.verdict r) with
    | .ok _ => none
    | .error cause => some (.docker cause)
  | _ => none

/-- Whether an operation goes on after a request, however it was answered: an image that is not
found is pulled, and a task that is not there need not be deleted. -/
def isTolerated : EngineTurn → Bool
  | ⟨.cri (.imageStatus _), _⟩ => true
  | ⟨.docker r, _⟩ => decide (r.verb = .get)
  | ⟨.containerd (.deleteTask _), .error fault⟩ => decide (fault.code = .notFound)
  | _ => false

/-- The error that a request stops an operation with. -/
def fault? (t : EngineTurn) : Option EngineError := if isTolerated t then none else errorOf? t

def failure? {ε : Type} : Except ε α → Option ε
  | .ok _ => none
  | .error e => some e

/-! ## Stopping at the first fault -/

/-- Whatever it is answered, an operation asks what is planned, up to the first fault, and ends with
that fault or with success. -/
def FailStop (m : Exchange (Except EngineError α)) (plan : Exchange Unit) : Prop :=
  ∀ reply past,
    (m.play reply past).1 = upTo (fun t => (fault? t).isSome) (plan.play reply past).1 ∧
      failure? (m.play reply past).2 = (plan.play reply past).1.findSome? fault?

theorem failStop_done {r : Except EngineError α} (h : failure? r = none) :
    FailStop (.done r) (.done ()) := fun _ _ => ⟨rfl, h⟩

/-- One request: with a fault the operation ends, and without one both go on. -/
theorem failStop_ask {q : Ask} {next : q.Answer → Exchange (Except EngineError α)}
    {plan : q.Answer → Exchange Unit}
    (h : ∀ a, (∃ e, fault? ⟨q, a⟩ = some e ∧ next a = .done (.error e)) ∨
      (fault? ⟨q, a⟩ = none ∧ FailStop (next a) (plan a))) :
    FailStop (.ask q next) (.ask q plan) := by
  intro reply past
  rw [play, play]
  obtain ⟨e, hfault, hnext⟩ | ⟨hfault, hgo⟩ := h (reply past q)
  · rw [upTo_cons_of_pos (by rw [hfault]; rfl), List.findSome?_cons, hfault, hnext]
    exact ⟨rfl, rfl⟩
  · obtain ⟨hasked, hended⟩ := hgo reply (past ++ [⟨q, reply past q⟩])
    rw [upTo_cons_of_neg (by rw [hfault]; rfl), List.findSome?_cons_of_isNone (by rw [hfault]; rfl),
      hasked, hended]
    exact ⟨rfl, rfl⟩

/-- What is made of a success changes nothing else. -/
theorem FailStop.map {w : Work α} {plan : Exchange Unit} (h : FailStop w.run plan) (f : α → β) :
    FailStop (f <$> w).run plan := by
  have hrun : (f <$> w).run = w.run.bind fun r => .done (r.map f) := by
    rw [ExceptT.run_map]
    rfl
  intro reply past
  obtain ⟨hasked, hended⟩ := h reply past
  rw [hrun, play_bind]
  refine ⟨by rw [← hasked]; exact List.append_nil _, ?_⟩
  rw [← hended]
  cases (w.run.play reply past).2 <;> rfl

theorem ask_bind_run (q : Ask) (f : q.Answer → Work α) :
    (Work.ask q >>= f).run = .ask q fun a => (f a).run := rfl

/-- A request whose failures are not tolerated, and what comes after it. -/
theorem failStop_cri {r : Cri.Request} {f : r.Reply → Work α}
    {plan : Except RpcFault r.Reply → Exchange Unit}
    (hr : ∀ fault, isTolerated ⟨.cri r, .error fault⟩ = false)
    (h : ∀ v, FailStop (f v).run (plan (.ok v))) :
    FailStop (Work.cri r >>= f).run (.ask (.cri r) plan) := by
  refine failStop_ask (q := .cri r) ?_
  rintro (fault | v)
  · exact Or.inl ⟨_, by rw [fault?, hr]; rfl, rfl⟩
  · exact Or.inr ⟨by rw [fault?]; split <;> rfl, h v⟩

theorem failStop_containerd {r : Containerd.Request} {f : r.Reply → Work α}
    {plan : Except RpcFault r.Reply → Exchange Unit}
    (hr : ∀ fault, isTolerated ⟨.containerd r, .error fault⟩ = false)
    (h : ∀ v, FailStop (f v).run (plan (.ok v))) :
    FailStop (Work.containerd r >>= f).run (.ask (.containerd r) plan) := by
  refine failStop_ask (q := .containerd r) ?_
  rintro (fault | v)
  · exact Or.inl ⟨_, by rw [fault?, hr]; rfl, rfl⟩
  · exact Or.inr ⟨by rw [fault?]; split <;> rfl, h v⟩

/-! ## The plans -/

/-- Asks one question after the other, whatever the answers. -/
def askAll : List Ask → Exchange Unit
  | [] => .done ()
  | q :: rest => .ask q fun _ => askAll rest

namespace CriEngine

/-- An image is pulled unless the engine says that it has it. -/
def imagePlan (image : String) (rest : Exchange Unit) : Exchange Unit :=
  .ask (.cri (.imageStatus image)) fun answer =>
    match answer with
    | .ok true => rest
    | _ => .ask (.cri (.pullImage image)) fun _ => rest

def createPlan (e : CriEngine) (w : Wanted) : Exchange Unit :=
  imagePlan w.image <| imagePlan e.templates.sandbox.podImage <|
    askAll [.cri (.runPod (e.templates.sandboxConfig w.name))]

/-- The container that was created is started. -/
def runPlan (pod : String) (config : Cri.ContainerConfig) (sandbox : Cri.SandboxConfig) :
    Exchange Unit :=
  .ask (.cri (.createContainer pod config sandbox)) fun answer =>
    match answer with
    | .ok id => askAll [.cri (.startContainer id)]
    | .error _ => .done ()

/-- One request for each container that the pod is said to hold, and one for the pod. -/
def podPlan (pod : String) (onContainer onPod : String → Cri.Request) : Exchange Unit :=
  .ask (.cri (.listContainers (some pod))) fun answer =>
    match answer with
    | .ok listed => askAll (listed.map (fun l => .cri (onContainer l.id)) ++ [.cri (onPod pod)])
    | .error _ => .done ()

theorem failStop_ensureImage {image : String} {w : Work α} {rest : Exchange Unit}
    (h : FailStop w.run rest) :
    FailStop (ensureImage image >>= fun _ => w).run (imagePlan image rest) := by
  have hpull : FailStop (Work.cri (.pullImage image) >>= fun _ => w).run
      (.ask (.cri (.pullImage image)) fun _ => rest) := failStop_cri (fun _ => rfl) fun _ => h
  refine failStop_ask (q := .cri (.imageStatus image)) ?_
  rintro (fault | _ | _)
  · exact Or.inr ⟨rfl, hpull⟩
  · exact Or.inr ⟨rfl, hpull⟩
  · exact Or.inr ⟨rfl, h⟩

theorem failStop_create (e : CriEngine) (w : Wanted) : FailStop (e.create w).run (e.createPlan w) :=
  failStop_ensureImage (failStop_ensureImage
    (failStop_cri (r := .runPod _) (fun _ => rfl) fun _ => failStop_done rfl))

theorem failStop_run {e : CriEngine} {c : Container} {pod : String} {config : Cri.ContainerConfig}
    (hpod : c.podId = some pod) (hconfig : e.templates.containerConfig c = .ok config) :
    FailStop (e.run c).run (runPlan pod config (e.templates.sandboxConfig c.name)) := by
  have hrun : e.run c = do
      let id ← Work.cri (.createContainer pod config (e.templates.sandboxConfig c.name))
      Work.cri (.startContainer id)
      return id := by
    rw [run, podOf, hpod, hconfig]
    rfl
  rw [hrun]
  refine failStop_cri (r := .createContainer _ _ _) (fun _ => rfl) fun id => ?_
  exact failStop_cri (r := .startContainer id) (fun _ => rfl) fun _ => failStop_done rfl

/-- One request for each member of a list, and then the rest. -/
theorem failStop_forM {l : List Cri.Listed} {f : Cri.Listed → Work Unit}
    {r : Cri.Listed → Cri.Request} {w : Work α} {rest : List Ask}
    (hf : ∀ x (w : Work α), (f x >>= fun _ => w) = (Work.cri (r x) >>= fun _ => w))
    (hr : ∀ x fault, isTolerated ⟨.cri (r x), .error fault⟩ = false)
    (h : FailStop w.run (askAll rest)) :
    FailStop (l.forM f >>= fun _ => w).run (askAll (l.map (fun x => .cri (r x)) ++ rest)) := by
  induction l with
  | nil => exact h
  | cons x l ih =>
    have hcons : ((x :: l).forM f >>= fun _ => w) =
        Work.cri (r x) >>= fun _ => l.forM f >>= fun _ => w := by
      rw [show (x :: l).forM f = (f x >>= fun _ => l.forM f) from rfl, LawfulMonad.bind_assoc]
      exact hf x _
    rw [hcons]
    exact failStop_cri (hr x) fun _ => ih

theorem failStop_throughPod {c : Container} {pod : String} {onContainer onPod : String → Work Unit}
    (container sandbox : String → Cri.Request) (hpod : c.podId = some pod)
    (hcontainer : ∀ id (w : Work String),
      (onContainer id >>= fun _ => w) = (Work.cri (container id) >>= fun _ => w))
    (hsandbox : ∀ (w : Work String),
      (onPod pod >>= fun _ => w) = (Work.cri (sandbox pod) >>= fun _ => w))
    (htolerated : ∀ id fault, isTolerated ⟨.cri (container id), .error fault⟩ = false)
    (htolerated' : ∀ fault, isTolerated ⟨.cri (sandbox pod), .error fault⟩ = false) :
    FailStop (throughPod c onContainer onPod).run (podPlan pod container sandbox) := by
  have hrun : throughPod c onContainer onPod = do
      let containers ← Work.cri (.listContainers (some pod))
      containers.forM fun l => onContainer l.id
      onPod pod
      return "" := by
    rw [throughPod, podOf, hpod]
    rfl
  rw [hrun]
  refine failStop_cri (r := .listContainers (some pod)) (fun _ => rfl) fun listed => ?_
  refine failStop_forM (fun x w => hcontainer x.id w) (fun x => htolerated x.id) ?_
  rw [hsandbox]
  exact failStop_cri htolerated' fun _ => failStop_done rfl

theorem failStop_stop {c : Container} {pod : String} (hpod : c.podId = some pod) :
    FailStop (stop c).run (podPlan pod .stopContainer .stopPod) :=
  failStop_throughPod .stopContainer .stopPod hpod (fun _ _ => rfl) (fun _ => rfl) (fun _ _ => rfl)
    fun _ => rfl

theorem failStop_remove {c : Container} {pod : String} (hpod : c.podId = some pod) :
    FailStop (remove c).run (podPlan pod .removeContainer .removePod) :=
  failStop_throughPod .removeContainer .removePod hpod (fun _ _ => rfl) (fun _ => rfl)
    (fun _ _ => rfl) fun _ => rfl

end CriEngine

namespace ContainerdEngine

theorem failStop_run {host : Host.Surroundings} {c : Container} {spec : JsonValue}
    (hspec : Containerd.spec host.files c.image c.command = .ok spec) :
    FailStop (run host c).run (askAll [.containerd (.createContainer (newContainer c.name spec)),
      .containerd (.createTask c.name [rootfs c.image]), .containerd (.startTask c.name)]) := by
  have hrun : run host c = do
      Work.containerd (.createContainer (newContainer c.name spec))
      Work.containerd (.createTask c.name [rootfs c.image])
      let pid ← Work.containerd (.startTask c.name)
      return "pid " ++ toString pid := by
    rw [run, hspec]
    rfl
  rw [hrun]
  refine failStop_containerd (r := .createContainer _) (fun _ => rfl) fun _ => ?_
  refine failStop_containerd (r := .createTask _ _) (fun _ => rfl) fun _ => ?_
  exact failStop_containerd (r := .startTask _) (fun _ => rfl) fun _ => failStop_done rfl

theorem failStop_stop (name : String) : FailStop (stop name).run
    (askAll [.containerd (.killTask name killSignal true), .containerd (.waitTask name)]) := by
  refine failStop_containerd (r := .killTask _ _ _) (fun _ => rfl) fun _ => ?_
  exact failStop_containerd (r := .waitTask name) (fun _ => rfl) fun _ => failStop_done rfl

/-- A task that is not there does not keep its container from being deleted. -/
theorem failStop_remove (name : String) : FailStop (remove name).run
    (askAll [.containerd (.deleteTask name), .containerd (.deleteContainer name)]) := by
  have hrest : FailStop (do deleteContainer name; return "" : Work String).run
      (askAll [.containerd (.deleteContainer name)]) :=
    failStop_containerd (r := .deleteContainer name) (fun _ => rfl) fun _ => failStop_done rfl
  rw [remove, deleteTask, LawfulMonad.bind_assoc, ask_bind_run]
  refine failStop_ask (q := .containerd (.deleteTask name)) ?_
  rintro (fault | v)
  · by_cases hcode : fault.code = .notFound
    · refine Or.inr ⟨by simp [fault?, isTolerated, hcode], ?_⟩
      simp only [hcode, if_true]
      exact hrest
    · refine Or.inl ⟨.rpc fault.code fault.message, ?_, ?_⟩
      · simp [fault?, isTolerated, errorOf?, hcode]
      · simp only [hcode, if_false]
        rfl
  · exact Or.inr ⟨rfl, hrest⟩

end ContainerdEngine

namespace DockerApi

/-- An image is pulled unless the daemon can describe it. -/
def imagePlan (image : String) (rest : Exchange Unit) : Exchange Unit :=
  .ask (.docker ⟨.get, "/images/" ++ image ++ "/json", [], none⟩) fun answer =>
    match (Except.bind answer accept).bind document with
    | .ok (.object _) => rest
    | _ => .ask (.docker ⟨.post, "/images/create", [("fromImage", image)], none⟩) fun _ => rest

def createPlan (e : DockerApi) (w : Wanted) (words : Option (List String)) : Exchange Unit :=
  imagePlan w.image (askAll [.docker ⟨.post, "/containers/create", [("name", w.name)],
    some (e.newContainer w.image words)⟩])

/-- Two readings of a reply, one after the other. -/
theorem raise_bind {γ : Type} (r : Except ApiError β) (f : β → Except ApiError γ) (g : γ → Work α) :
    (raise (r.bind f) >>= g) = (raise r >>= fun a => raise (f a) >>= g) := by
  cases r <;> rfl

theorem request_bind_run (r : Docker.Request) (f : Docker.Reply → Work α) :
    (request r.verb r.path r.query r.body >>= f).run =
      .ask (.docker r) fun answer => (raise (Except.bind answer accept) >>= f).run := by
  rw [request, LawfulMonad.bind_assoc, ask_bind_run]
  refine congrArg (Dialogue.ask _) (funext ?_)
  rintro (cause | reply)
  · rfl
  · rw [LawfulMonad.bind_assoc]
    rfl

/-- A request that is no lookup, its verdict, and what comes after it. -/
theorem failStop_docker {r : Docker.Request} {f : Docker.Reply → Work α} {w : Work α}
    {plan : Exchange Unit} (hverb : r.verb ≠ .get)
    (hf : ∀ answer, (raise (Except.bind answer accept) >>= f) =
      (raise (Except.bind answer (verdict r)) >>= fun _ => w))
    (h : FailStop w.run plan) :
    FailStop (request r.verb r.path r.query r.body >>= f).run (.ask (.docker r) fun _ => plan) := by
  have hfault : ∀ answer, fault? ⟨.docker r, answer⟩ =
      (failure? (Except.bind answer (verdict r))).map .docker := by
    intro answer
    rw [fault?, isTolerated, decide_eq_false hverb]
    simp only [errorOf?]
    cases Except.bind answer (verdict r) <;> rfl
  rw [request_bind_run]
  refine failStop_ask (q := .docker r) fun answer => ?_
  rw [hfault, hf]
  cases Except.bind answer (verdict r) with
  | ok u => exact Or.inr ⟨rfl, h⟩
  | error cause => exact Or.inl ⟨.docker cause, rfl, rfl⟩

theorem verdict_pull (image : String) (answer : Except ApiError Docker.Reply) :
    Except.bind answer (verdict ⟨.post, "/images/create", [("fromImage", image)], none⟩) =
      (Except.bind answer accept).bind fun reply => reply.documents.forM pullStep := by
  rcases answer with (cause | reply) <;> rfl

theorem verdict_create (query : List (String × String)) (body : Option JsonValue)
    (answer : Except ApiError Docker.Reply) :
    Except.bind answer (verdict ⟨.post, "/containers/create", query, body⟩) =
      (((Except.bind answer accept).bind document).bind newId).bind fun _ => .ok () := by
  rcases answer with (cause | reply)
  · rfl
  · rw [Except.bind, Except.bind, verdict]
    cases accept reply with
    | error cause => rfl
    | ok reply =>
      rw [Except.bind, Except.bind, if_neg (show "/containers/create" ≠ "/images/create" by decide)]
      cases document reply <;> rfl

theorem attempt_getDocument_run (path : String) (f : Except EngineError JsonValue → Work α) :
    (Work.attempt (getDocument path []) >>= f).run =
      .ask (.docker ⟨.get, path, [], none⟩) fun answer =>
        match (Except.bind answer accept).bind document with
        | .ok v => (f (.ok v)).run
        | .error cause => (f (.error (.docker cause))).run := by
  have hrun : (Work.attempt (getDocument path []) >>= f).run =
      (getDocument path []).run.bind fun r => (f r).run := by
    rw [show (Work.attempt (getDocument path []) >>= f).run =
      ((getDocument path []).run.bind fun r => .done (.ok r)).bind (ExceptT.bindCont f) from rfl,
      Dialogue.bind_assoc]
    rfl
  rw [hrun, getDocument, get, request_bind_run ⟨.get, path, [], none⟩]
  refine congrArg (Dialogue.ask _) (funext fun answer => ?_)
  show (raise (Except.bind answer accept) >>= fun reply => raise (document reply)).run.bind _ = _
  cases Except.bind answer accept with
  | error cause => rfl
  | ok reply =>
    show (raise (document reply)).run.bind _ = _
    rw [Except.bind]
    cases document reply <;> rfl

theorem failStop_ensureImage {image : String} {w : Work α} {rest : Exchange Unit}
    (h : FailStop w.run rest) :
    FailStop (ensureImage image >>= fun _ => w).run (imagePlan image rest) := by
  have hpull : FailStop ((do
      let reply ← post "/images/create" [("fromImage", image)]
      raise (reply.documents.forM pullStep)
      : Work Unit) >>= fun _ => w).run
      (.ask (.docker ⟨.post, "/images/create", [("fromImage", image)], none⟩) fun _ => rest) := by
    rw [LawfulMonad.bind_assoc]
    refine failStop_docker (r := ⟨.post, _, _, _⟩) nofun (fun answer => ?_) h
    simp only [verdict_pull, raise_bind]
  rw [ensureImage, LawfulMonad.bind_assoc, attempt_getDocument_run]
  refine failStop_ask (q := .docker _) fun answer => Or.inr ⟨rfl, ?_⟩
  cases (Except.bind answer accept).bind document with
  | error cause => exact hpull
  | ok v =>
    cases v with
    | object members => exact h
    | _ => exact hpull

theorem failStop_create {e : DockerApi} {w : Wanted} {words : Option (List String)}
    (hwords : Override.words? w.command = .ok words) :
    FailStop (e.create w).run (e.createPlan w words) := by
  let handle : Container := ⟨w.name, w.image, w.command, w.detached, w.trace, none⟩
  have hcreate : e.create w = ensureImage w.image >>= fun _ => (do
      let reply ← request .post "/containers/create" [("name", w.name)]
        (some (e.newContainer w.image words))
      let _ ← raise (newId (← raise (document reply)))
      return handle : Work Container) := by
    rw [create, hwords]
    rfl
  have hhandle : FailStop (return handle : Work Container).run (.done ()) := failStop_done rfl
  rw [hcreate]
  refine failStop_ensureImage ?_
  refine failStop_docker (r := ⟨.post, _, _, _⟩) nofun (fun answer => ?_) hhandle
  simp only [verdict_create, raise_bind]
  rfl

end DockerApi

/-! ## Operations with a plan -/

/-- A command that can be split into words, or none. -/
def Override.Splits (command : Option String) : Prop :=
  ∀ text, command = some text → ∃ words, Override.words text = .ok words

/-- The specification of a bundle can be read, and has room for a command if there is one. -/
def Containerd.Readable (files : Host.Files) (bundle : String) (command : Option String) : Prop :=
  ∃ value, spec files bundle none = .ok value ∧
    (command ≠ none → ∃ process, value.member? "process" = some process ∧ process.isObject = true)

theorem Containerd.spec_of_readable {files : Host.Files} {bundle : String} {value : JsonValue}
    (h : spec files bundle none = .ok value) (command : String) :
    spec files bundle (some command) = (Override.words command).bind fun words =>
      match setArgs words value with
      | some value => .ok value
      | none => .error (.config (.specWithoutProcess bundle)) := by
  rw [spec] at h ⊢
  simp only [Bind.bind, Except.bind, pure, Except.pure, throw, throwThe, MonadExceptOf.throw] at h ⊢
  cases hread : files.read (Bundle.configPath bundle) with
  | error cause => simp [hread] at h
  | ok bytes =>
    cases hdecode : Text.Utf8.decode bytes with
    | error fault => simp [hread, hdecode] at h
    | ok text =>
      cases hparse : JsonValue.parse? text.toList with
      | none => simp [hread, hdecode, hparse] at h
      | some read =>
        simp only [hread, hdecode, hparse, Except.ok.injEq] at h ⊢
        subst h
        cases Override.words command with
        | error cause => rfl
        | ok words => cases setArgs words read <;> rfl

/-! ## All of them -/

/-- What an operation of several requests asks as long as nothing goes wrong. -/
def CriEngine.plan? (e : CriEngine) : EngineCall → Option (Exchange Unit)
  | .create w => some (e.createPlan w)
  | .operate .run c =>
    match c.podId, e.templates.containerConfig c with
    | some pod, .ok config => some (runPlan pod config (e.templates.sandboxConfig c.name))
    | _, _ => none
  | .operate .stop c => c.podId.map fun pod => podPlan pod .stopContainer .stopPod
  | .operate .remove c => c.podId.map fun pod => podPlan pod .removeContainer .removePod
  | _ => none

def ContainerdEngine.plan? (host : Host.Surroundings) : EngineCall → Option (Exchange Unit)
  | .operate .run c =>
    match Containerd.spec host.files c.image c.command with
    | .ok spec => some (askAll [.containerd (.createContainer (newContainer c.name spec)),
        .containerd (.createTask c.name [rootfs c.image]), .containerd (.startTask c.name)])
    | .error _ => none
  | .operate .stop c =>
    some (askAll [.containerd (.killTask c.name killSignal true), .containerd (.waitTask c.name)])
  | .operate .remove c =>
    some (askAll [.containerd (.deleteTask c.name), .containerd (.deleteContainer c.name)])
  | _ => none

def DockerApi.plan? (e : DockerApi) : EngineCall → Option (Exchange Unit)
  | .create w =>
    match Override.words? w.command with
    | .ok words => some (e.createPlan w words)
    | .error _ => none
  | _ => none

namespace Engine

open Host (Surroundings)

variable {host : Surroundings} {call : EngineCall} {plan : Exchange Unit}

def plan? (host : Surroundings) (call : EngineCall) : Engine → Option (Exchange Unit)
  | docker e => e.plan? call
  | containerd _ => ContainerdEngine.plan? host call
  | cri e => e.plan? call
  | _ => none

/-- An operation of several requests, and what it checks before it makes anything. -/
inductive Ready (host : Surroundings) : Engine → EngineCall → Prop
  | makePod {e : CriEngine} {w : Wanted} : Ready host (cri e) (.create w)
  | runInPod {e : CriEngine} {c : Container} :
      c.podId ≠ none → Override.Splits c.command → Ready host (cri e) (.operate .run c)
  | stopPod {e : CriEngine} {c : Container} : c.podId ≠ none → Ready host (cri e) (.operate .stop c)
  | removePod {e : CriEngine} {c : Container} :
      c.podId ≠ none → Ready host (cri e) (.operate .remove c)
  | runTask {e : ContainerdEngine} {c : Container} :
      Override.Splits c.command → Containerd.Readable host.files c.image c.command →
      Ready host (containerd e) (.operate .run c)
  | stopTask {e : ContainerdEngine} {c : Container} : Ready host (containerd e) (.operate .stop c)
  | removeTask {e : ContainerdEngine} {c : Container} :
      Ready host (containerd e) (.operate .remove c)
  | create {e : DockerApi} {w : Wanted} :
      Override.Splits w.command → Ready host (docker e) (.create w)

theorem failStop_docker {e : DockerApi} (h : e.plan? call = some plan) :
    FailStop ((docker e).perform host call).run plan := by
  cases call with
  | create w =>
    cases hwords : Override.words? w.command with
    | error cause => simp [DockerApi.plan?, hwords] at h
    | ok words =>
      simp only [DockerApi.plan?, hwords, Option.some.injEq] at h
      subst h
      exact DockerApi.failStop_create hwords
  | _ => cases h

theorem failStop_containerd {e : ContainerdEngine}
    (h : ContainerdEngine.plan? host call = some plan) :
    FailStop ((containerd e).perform host call).run plan := by
  cases call with
  | operate op c =>
    cases op with
    | run =>
      cases hspec : Containerd.spec host.files c.image c.command with
      | error cause => simp [ContainerdEngine.plan?, hspec] at h
      | ok spec =>
        simp only [ContainerdEngine.plan?, hspec, Option.some.injEq] at h
        subst h
        exact (ContainerdEngine.failStop_run hspec).map _
    | stop =>
      cases h
      exact (ContainerdEngine.failStop_stop c.name).map _
    | remove =>
      cases h
      exact (ContainerdEngine.failStop_remove c.name).map _
    | _ => cases h
  | _ => cases h

theorem failStop_cri {e : CriEngine} (h : e.plan? call = some plan) :
    FailStop ((cri e).perform host call).run plan := by
  cases call with
  | create w =>
    cases h
    exact e.failStop_create w
  | operate op c =>
    cases op with
    | run =>
      cases hpod : c.podId with
      | none => simp [CriEngine.plan?, hpod] at h
      | some pod =>
        cases hconfig : e.templates.containerConfig c with
        | error cause => simp [CriEngine.plan?, hpod, hconfig] at h
        | ok config =>
          simp only [CriEngine.plan?, hpod, hconfig, Option.some.injEq] at h
          subst h
          exact (CriEngine.failStop_run hpod hconfig).map _
    | stop =>
      obtain ⟨pod, hpod, rfl⟩ := Option.map_eq_some_iff.mp h
      exact (CriEngine.failStop_stop hpod).map _
    | remove =>
      obtain ⟨pod, hpod, rfl⟩ := Option.map_eq_some_iff.mp h
      exact (CriEngine.failStop_remove hpod).map _
    | _ => cases h
  | _ => cases h

theorem failStop_of_plan {e : Engine} (h : e.plan? host call = some plan) :
    FailStop (e.perform host call).run plan := by
  cases e with
  | docker e => exact failStop_docker h
  | containerd e => exact failStop_containerd h
  | cri e => exact failStop_cri h
  | _ => cases h

/-! ## Checks that pass -/

theorem words?_of_splits {command : Option String} (h : Override.Splits command) :
    ∃ words, Override.words? command = .ok words := by
  cases command with
  | none => exact ⟨none, rfl⟩
  | some text =>
    obtain ⟨words, hwords⟩ := h text rfl
    exact ⟨some words, by rw [Override.words?, hwords]; rfl⟩

theorem containerConfig_of_splits (t : Cri.Templates) {c : Container}
    (h : Override.Splits c.command) : ∃ config, t.containerConfig c = .ok config := by
  cases hcommand : c.command with
  | none => exact ⟨_, by rw [Cri.Templates.containerConfig, hcommand]; rfl⟩
  | some text =>
    obtain ⟨words, hwords⟩ := h text hcommand
    exact ⟨_, by rw [Cri.Templates.containerConfig, hcommand]; simp only [hwords]; rfl⟩

theorem spec_of_checks {files : Host.Files} {bundle : String} {command : Option String}
    (hsplits : Override.Splits command) (hreadable : Containerd.Readable files bundle command) :
    ∃ spec, Containerd.spec files bundle command = .ok spec := by
  obtain ⟨value, hvalue, hprocess⟩ := hreadable
  cases command with
  | none => exact ⟨value, hvalue⟩
  | some text =>
    obtain ⟨words, hwords⟩ := hsplits text rfl
    obtain ⟨process, hmember, hobject⟩ := hprocess nofun
    refine ⟨value.setMember "process" (process.setMember "args" (.list (words.map .string))), ?_⟩
    rw [Containerd.spec_of_readable hvalue, hwords]
    simp only [Except.bind, Containerd.setArgs, hmember, hobject, if_true]

theorem exists_plan {e : Engine} (h : Ready host e call) :
    ∃ plan, e.plan? host call = some plan := by
  cases h with
  | makePod => exact ⟨_, rfl⟩
  | @runInPod e c hpod hsplits =>
    obtain ⟨pod, hpod⟩ := Option.ne_none_iff_exists'.mp hpod
    obtain ⟨config, hconfig⟩ := containerConfig_of_splits e.templates hsplits
    exact ⟨_, by simp only [plan?, CriEngine.plan?, hpod, hconfig]; rfl⟩
  | stopPod hpod =>
    obtain ⟨pod, hpod⟩ := Option.ne_none_iff_exists'.mp hpod
    exact ⟨_, by simp only [plan?, CriEngine.plan?, hpod]; rfl⟩
  | removePod hpod =>
    obtain ⟨pod, hpod⟩ := Option.ne_none_iff_exists'.mp hpod
    exact ⟨_, by simp only [plan?, CriEngine.plan?, hpod]; rfl⟩
  | runTask hsplits hreadable =>
    obtain ⟨spec, hspec⟩ := spec_of_checks hsplits hreadable
    exact ⟨_, by simp only [plan?, ContainerdEngine.plan?, hspec]; rfl⟩
  | stopTask => exact ⟨_, rfl⟩
  | removeTask => exact ⟨_, rfl⟩
  | create hsplits =>
    obtain ⟨words, hwords⟩ := words?_of_splits hsplits
    exact ⟨_, by simp only [plan?, DockerApi.plan?, hwords]; rfl⟩

end Engine

end EngineBench
