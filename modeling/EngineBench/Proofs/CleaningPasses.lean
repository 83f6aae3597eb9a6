-- The cleaning of a runtime, which lists again and again what it cannot control: it comes to an
-- end, what it asks is told by what its list commands showed, and only a list command that fails
-- makes it fail.
import EngineBench.Engine.Engine
import EngineBench.Proofs.Replies
import Mathlib

namespace EngineBench

open Dialogue

/-! ## Work without a choice -/

/-- Whatever it is answered, the work asks these questions and succeeds. -/
def Work.Asks (w : Work Unit) (questions : List Ask) : Prop :=
  ∀ reply past, (w.run.play reply past).1.map Sigma.fst = questions ∧
    (w.run.play reply past).2 = .ok ()

namespace Work

theorem asks_settle : Work.settle.Asks [.rest EngineCall.quiescence] := fun _ _ => ⟨rfl, rfl⟩

theorem asks_pure : (pure () : Work Unit).Asks [] := fun _ _ => ⟨rfl, rfl⟩

/-- A command whose failure is ignored. -/
theorem asks_ignore_exec (program : String) (args : List String) :
    (Command.exec program args).ignore.Asks [.exec program args] := fun _ _ => ⟨rfl, rfl⟩

theorem Asks.bind {w : Work Unit} {f : Unit → Work Unit} {xs ys : List Ask} (hw : w.Asks xs)
    (hf : (f ()).Asks ys) : (w >>= f).Asks (xs ++ ys) := by
  intro reply past
  obtain ⟨hasked, hended⟩ := hw reply past
  rw [play_of_ok hended f, List.map_append, hasked]
  obtain ⟨hasked', hended'⟩ := hf reply (past ++ (w.run.play reply past).1)
  exact ⟨by rw [hasked'], hended'⟩

theorem asks_forM {β : Type} {f : β → Work Unit} {questions : β → List Ask}
    (h : ∀ x, (f x).Asks (questions x)) (l : List β) : (l.forM f).Asks (l.flatMap questions) := by
  induction l with
  | nil => exact asks_pure
  | cons x l ih =>
    rw [List.flatMap_cons]
    exact (h x).bind ih

end Work

/-! ## The command lines of a runtime -/

/-- How a runtime is told to list containers and to do something to one of them. -/
structure CommandLines where
  program : String
  list : List String
  stop : String → List String
  remove : String → List String
  unpause : String → List String
  list_apart : ∀ name, stop name ≠ list ∧ remove name ≠ list ∧ unpause name ≠ list

namespace CommandLines

variable (l : CommandLines)

def ask (args : List String) : Ask := .exec l.program args

def removal : Removal :=
  let exec := Command.exec l.program
  ⟨exec l.list, fun name => exec (l.stop name), fun name => exec (l.remove name),
    fun name => exec (l.unpause name)⟩

/-- What a list command came to, if the turn is one. -/
def listing? : Turn Ask Ask.Answer → Option (Except EngineError String)
  | ⟨.exec program args, answer⟩ =>
    if program = l.program ∧ args = l.list then some (Command.output program args answer) else none
  | _ => none

/-- What all list commands came to, in their order. -/
def listings (turns : List (Turn Ask Ask.Answer)) : List (Except EngineError String) :=
  turns.filterMap l.listing?

/-- The containers of benchmarks that a list command has shown. -/
def shown : Except EngineError String → List ListedContainer
  | .ok text => ListedContainer.ofText text
  | .error _ => []

/-- What is asked to be rid of a container. After it was stopped it is left to come to rest. -/
def handling (c : ListedContainer) : List Ask :=
  if c.state = "running" ∨ c.state = "created" then
    [l.ask (l.stop c.name), .rest EngineCall.quiescence, l.ask (l.remove c.name)]
  else if c.state = "paused" then
    [l.ask (l.unpause c.name), l.ask (l.stop c.name), .rest EngineCall.quiescence,
      l.ask (l.remove c.name)]
  else if c.state = "stopped" then [l.ask (l.remove c.name)]
  else []

/-- What is asked when the list commands come to this: after each list but the last, one container
after the other is handled, and the next list is asked for. -/
def asked (listings : List (Except EngineError String)) : List Ask :=
  l.ask l.list :: listings.dropLast.flatMap fun x =>
    (shown x).flatMap l.handling ++ [l.ask l.list]

variable {l}

theorem tearDown_asks (c : ListedContainer) : (l.removal.tearDown c).Asks (l.handling c) := by
  have hstop := Work.asks_ignore_exec l.program (l.stop c.name)
  have hremove := Work.asks_ignore_exec l.program (l.remove c.name)
  have hunpause := Work.asks_ignore_exec l.program (l.unpause c.name)
  unfold Removal.tearDown handling
  by_cases hrunning : c.state = "running" ∨ c.state = "created"
  · rw [if_pos (by simpa using hrunning), if_pos hrunning]
    exact hstop.bind (Work.asks_settle.bind hremove)
  rw [if_neg (by simpa using hrunning), if_neg hrunning]
  by_cases hpaused : c.state = "paused"
  · rw [if_pos (by simpa using hpaused), if_pos hpaused]
    exact hunpause.bind (hstop.bind (Work.asks_settle.bind hremove))
  rw [if_neg (by simpa using hpaused), if_neg hpaused]
  by_cases hstopped : c.state = "stopped"
  · rw [if_pos (by simpa using hstopped), if_pos hstopped]
    exact hremove
  rw [if_neg (by simpa using hstopped), if_neg hstopped]
  exact Work.asks_pure

/-- Nothing that is asked about a container is a list command. -/
theorem ne_list_of_handling {c : ListedContainer} {q : Ask} (h : q ∈ l.handling c) :
    q ≠ l.ask l.list := by
  obtain ⟨hstop, hremove, hunpause⟩ := l.list_apart c.name
  have hask : ∀ {args}, args ≠ l.list → l.ask args ≠ l.ask l.list := by
    intro args hne heq
    exact hne (Ask.exec.inj heq).2
  unfold handling at h
  split at h
  · simp only [List.mem_cons, List.not_mem_nil, or_false] at h
    rcases h with rfl | rfl | rfl
    · exact hask hstop
    · exact Ask.noConfusion
    · exact hask hremove
  split at h
  · simp only [List.mem_cons, List.not_mem_nil, or_false] at h
    rcases h with rfl | rfl | rfl | rfl
    · exact hask hunpause
    · exact hask hstop
    · exact Ask.noConfusion
    · exact hask hremove
  split at h
  · rw [List.mem_singleton.mp h]
    exact hask hremove
  · cases h

theorem listings_of_handling {turns : List (Turn Ask Ask.Answer)} {listed : List ListedContainer}
    (h : turns.map Sigma.fst = listed.flatMap l.handling) : l.listings turns = [] := by
  rw [listings, List.filterMap_eq_nil_iff]
  intro x hx
  have hasked : x.1 ∈ listed.flatMap l.handling := h ▸ List.mem_map_of_mem hx
  obtain ⟨c, -, hc⟩ := List.mem_flatMap.mp hasked
  have hne := ne_list_of_handling hc
  obtain ⟨q, answer⟩ := x
  unfold listing?
  split
  · rename_i program args answer heq
    cases heq
    rw [if_neg]
    rintro ⟨rfl, rfl⟩
    exact hne rfl
  · rfl

theorem listings_cons (answer : (l.ask l.list).Answer) (turns : List (Turn Ask Ask.Answer)) :
    l.listings (⟨l.ask l.list, answer⟩ :: turns) =
      Command.output l.program l.list answer :: l.listings turns :=
  List.filterMap_cons_some (if_pos ⟨rfl, rfl⟩)

/-! ## Passes -/

variable (l) in
/-- A run of a cleaning that may make so many passes: what its list commands came to, what it asked,
and how it ended. -/
structure Cleans (passes : Nat) (listings : List (Except EngineError String))
    (questions : List Ask) (result : Except EngineError Unit) : Prop where
  few : listings.length ≤ passes + 1
  questions : questions = l.asked listings
  /-- Each list but the last one was there and has shown a container. -/
  going : ∀ x ∈ listings.dropLast, shown x ≠ []
  ended : listings.length = passes + 1 ∨ ∃ x, listings.getLast? = some x ∧ shown x = []
  failed : ∀ e, result = .error e ↔ .error e ∈ listings
  atOnce : ∀ e, .error e ∈ listings → listings.getLast? = some (.error e)

theorem cleans_of_error (passes : Nat) (e : EngineError) :
    l.Cleans passes [.error e] [l.ask l.list] (.error e) where
  few := by simp
  questions := rfl
  going := by simp
  ended := Or.inr ⟨.error e, rfl, rfl⟩
  failed e' := by simp [eq_comm]
  atOnce e' := by simp [eq_comm]

/-- With no pass or no container left, a cleaning ends. -/
theorem cleans_of_end {passes : Nat} {text : String}
    (h : passes = 0 ∨ ListedContainer.ofText text = []) :
    l.Cleans passes [.ok text] [l.ask l.list] (.ok ()) where
  few := by simp
  questions := rfl
  going := by simp
  ended := h.imp (fun hpasses => by simp [hpasses]) fun hnone => ⟨.ok text, rfl, hnone⟩
  failed e := by simp
  atOnce e := by simp

theorem Cleans.pass {passes : Nat} {text : String} {listings : List (Except EngineError String)}
    {questions : List Ask} {result : Except EngineError Unit}
    (h : l.Cleans passes listings questions result) (hshown : ListedContainer.ofText text ≠ []) :
    l.Cleans (passes + 1) (.ok text :: listings)
      (l.ask l.list :: (ListedContainer.ofText text).flatMap l.handling ++ questions) result := by
  obtain ⟨hfew, rfl, hgoing, hended, hfailed, hatOnce⟩ := h
  have hne : listings ≠ [] := by
    rintro rfl
    rcases hended with hlength | ⟨x, hlast, -⟩
    · cases hlength
    · cases hlast
  constructor
  · exact Nat.succ_le_succ hfew
  · rw [asked, asked, List.dropLast_cons_of_ne_nil hne, List.flatMap_cons]
    simp [shown]
  · rw [List.dropLast_cons_of_ne_nil hne]
    intro x hx
    rcases List.mem_cons.mp hx with rfl | hx
    · exact hshown
    · exact hgoing x hx
  · refine hended.imp (fun hlength => by simp [hlength]) ?_
    rintro ⟨x, hlast, hnone⟩
    exact ⟨x, by rw [List.getLast?_cons, hlast]; rfl, hnone⟩
  · intro e
    rw [hfailed e]
    simp
  · intro e he
    have hrest : .error e ∈ listings := by simpa using he
    rw [List.getLast?_cons, hatOnce e hrest]
    rfl

/-- A run that begins with a list command: if that fails, nothing comes after it. -/
theorem cleans_of_list {passes : Nat} {f : String → Work Unit}
    (h : ∀ text reply past, let made := (f text).run.play reply past
      l.Cleans passes (.ok text :: l.listings made.1) (l.ask l.list :: made.1.map Sigma.fst) made.2)
    (reply : Replies Ask Ask.Answer) (past : List (Turn Ask Ask.Answer)) :
    let made := (l.removal.list >>= f).run.play reply past
    l.Cleans passes (l.listings made.1) (made.1.map Sigma.fst) made.2 := by
  have hlist : l.removal.list.run.play reply past =
      ([⟨l.ask l.list, reply past (l.ask l.list)⟩],
        Command.output l.program l.list (reply past (l.ask l.list))) := rfl
  cases houtput : Command.output l.program l.list (reply past (l.ask l.list)) with
  | error e =>
    have hbind : (l.removal.list >>= f).run.play reply past = _ :=
      play_bind reply past l.removal.list.run (ExceptT.bindCont f)
    rw [hbind, hlist, houtput]
    show l.Cleans passes (l.listings (⟨l.ask l.list, reply past (l.ask l.list)⟩ :: [])) _ _
    rw [listings_cons, houtput]
    exact cleans_of_error passes e
  | ok text =>
    rw [houtput] at hlist
    rw [play_of_ok (congrArg Prod.snd hlist), hlist]
    dsimp only [List.cons_append, List.nil_append]
    rw [listings_cons, houtput]
    exact h text reply _

/-- One list command, and the passes after it. -/
theorem cleans_passes (passes : Nat) : ∀ (reply : Replies Ask Ask.Answer)
    (past : List (Turn Ask Ask.Answer)),
    let made := (l.removal.list >>= fun text =>
      l.removal.passes passes (ListedContainer.ofText text)).run.play reply past
    l.Cleans passes (l.listings made.1) (made.1.map Sigma.fst) made.2 := by
  induction passes with
  | zero => exact cleans_of_list fun text reply past => cleans_of_end (Or.inl rfl)
  | succ passes ih =>
    refine cleans_of_list fun text reply past => ?_
    cases hshown : ListedContainer.ofText text with
    | nil => exact cleans_of_end (Or.inr hshown)
    | cons c rest =>
      have hpasses : l.removal.passes (passes + 1) (c :: rest) =
          ((c :: rest).forM l.removal.tearDown >>= fun _ =>
            l.removal.list >>= fun text =>
              l.removal.passes passes (ListedContainer.ofText text)) := rfl
      obtain ⟨hhandled, hended⟩ := Work.asks_forM l.tearDown_asks (c :: rest) reply past
      have hnone := listings_of_handling hhandled
      have hne : ListedContainer.ofText text ≠ [] := hshown ▸ List.cons_ne_nil c rest
      have hlater := (ih reply (past ++
        (((c :: rest).forM l.removal.tearDown).run.play reply past).1)).pass hne
      rw [hshown] at hlater
      rw [hpasses, play_of_ok hended]
      dsimp only
      rw [listings, List.filterMap_append, ← listings, hnone, List.map_append, hhandled]
      exact hlater

/-- Two runs whose list commands came to the same, as long as both listed, are the same. -/
theorem Cleans.eq_of_initial {passes : Nat} {listings listings' : List (Except EngineError String)}
    {questions questions' : List Ask} {result result' : Except EngineError Unit}
    (h : l.Cleans passes listings questions result)
    (h' : l.Cleans passes listings' questions' result') (hinitial : listings <+: listings') :
    questions = questions' ∧ result = result' := by
  have hsame : listings = listings' := by
    obtain ⟨more, rfl⟩ := hinitial
    cases more with
    | nil => rw [List.append_nil]
    | cons x more =>
      -- the second run lists once more, so what the first one was shown last has shown something
      have hlonger := h'.few
      rw [List.length_append, List.length_cons] at hlonger
      rcases h.ended with hlength | ⟨y, hlast, hnone⟩
      · omega
      · refine (h'.going y ?_ hnone).elim
        rw [List.dropLast_append_of_ne_nil (List.cons_ne_nil x more)]
        exact List.mem_append_left _ (List.mem_of_getLast? hlast)
  subst hsame
  refine ⟨h.questions.trans h'.questions.symm, ?_⟩
  have hfailed : ∀ e, result = .error e ↔ result' = .error e := fun e =>
    (h.failed e).trans (h'.failed e).symm
  cases result with
  | error e => exact ((hfailed e).mp rfl).symm
  | ok _ =>
    cases result' with
    | error e => exact (hfailed e).mpr rfl
    | ok _ => rfl

end CommandLines

/-! ## The runtimes -/

def OciRuntime.commandLines (e : OciRuntime) : CommandLines where
  program := e.program
  list := ["list"]
  stop name := ["kill", name, "KILL"]
  remove name := ["delete", name]
  unpause name := ["resume", name]
  list_apart := by simp

def CtrClient.commandLines (e : CtrClient) : CommandLines where
  program := e.program
  list := ["containers"]
  stop name := ["containers", "kill", name]
  remove name := ["containers", "kill", name]
  unpause name := ["containers", "resume", name]
  list_apart := by simp

namespace Engine

/-- The command lines of an engine that cleans what it lists. -/
def commandLines? : Engine → Option CommandLines
  | oci e => some e.commandLines
  | ctr e => some e.commandLines
  | _ => none

theorem clean_eq {e : Engine} {l : CommandLines} (h : e.commandLines? = some l) :
    e.clean = l.removal.clean := by
  cases e <;> cases h <;> rfl

/-- The cleaning of a runtime, whatever its commands are answered. It lists four times at most, and
so makes three passes at most; what it asks, and whether it fails, is told by what its list commands
came to. As long as a list shows a container of a benchmark and a pass is left, the containers of
that list are handled one after the other, as the state of each one asks for; at the first list
that shows none the cleaning is over. It fails just with a list command that fails, and that one is
its last. Commands of other kinds may fail or not: a run whose list commands come to the same asks
the same and ends in the same way. -/
theorem a_cleaning_lists_four_times_at_most_and_follows_its_lists {e : Engine} {l : CommandLines}
    (h : e.commandLines? = some l) (reply : Replies Ask Ask.Answer)
    (past : List (Turn Ask Ask.Answer)) :
    let made := e.clean.run.play reply past
    l.Cleans 3 (l.listings made.1) (made.1.map Sigma.fst) made.2 ∧
    ∀ reply' past', let made' := e.clean.run.play reply' past'
      l.listings made.1 <+: l.listings made'.1 →
        made.1.map Sigma.fst = made'.1.map Sigma.fst ∧ made.2 = made'.2 := by
  rw [clean_eq h]
  have hcleans := CommandLines.cleans_passes (l := l) Removal.passLimit
  exact ⟨hcleans reply past, fun reply' past' hinitial =>
    (hcleans reply past).eq_of_initial (hcleans reply' past') hinitial⟩

/-- A host on which a paused container is listed again and again, and every other command comes to
the same. -/
def stubbornHost (other : Except OsError Outcome) : Replies Ask Ask.Answer
  | _, .exec _ ["list"] =>
    .ok ⟨.exited 0, "cb-ctr-0-0 7 Paused /b".toList.map fun c => UInt8.ofNat c.toNat, []⟩
  | _, .exec _ _ => other
  | _, .execSilent _ _ => .error .notFound
  | _, .stream _ _ => .error .notFound
  | _, .docker _ => .error .unreachable
  | _, .containerd _ => .error ⟨.unavailable, ""⟩
  | _, .cri _ => .error ⟨.unavailable, ""⟩
  | _, .rest _ => ()

def runcLines : CommandLines := OciRuntime.commandLines ⟨.runc, "runc"⟩

/-- The cleaning of a runtime on such a host. -/
def stubbornRun (other : Except OsError Outcome) :
    List (Turn Ask Ask.Answer) × Except EngineError Unit :=
  (Engine.oci ⟨.runc, "runc"⟩).clean.run.play (stubbornHost other) []

/-- Nothing but listing succeeds, or everything does: three passes are made, and none is a
failure. -/
theorem a_container_that_stays_is_handled_three_times :
    (Engine.oci ⟨.runc, "runc"⟩).commandLines? = some runcLines ∧
    (stubbornRun (.error .notFound)).1.map Sigma.fst = runcLines.ask ["list"] ::
      (List.replicate 3 [runcLines.ask ["resume", "cb-ctr-0-0"],
        runcLines.ask ["kill", "cb-ctr-0-0", "KILL"], .rest EngineCall.quiescence,
        runcLines.ask ["delete", "cb-ctr-0-0"], runcLines.ask ["list"]]).flatten ∧
    (stubbornRun (.error .notFound)).2 = .ok () ∧
    (stubbornRun (.ok ⟨.exited 0, [], []⟩)).1.map Sigma.fst =
      (stubbornRun (.error .notFound)).1.map Sigma.fst ∧
    (stubbornRun (.ok ⟨.exited 0, [], []⟩)).2 = .ok () := by
  have hlines : (Engine.oci ⟨.runc, "runc"⟩).commandLines? = some runcLines := rfl
  have hfailing : runcLines.listings (stubbornRun (.error .notFound)).1 =
      List.replicate 4 (.ok "cb-ctr-0-0 7 Paused /b") := by cbv
  have hfine : runcLines.listings (stubbornRun (.ok ⟨.exited 0, [], []⟩)).1 =
      List.replicate 4 (.ok "cb-ctr-0-0 7 Paused /b") := by cbv
  obtain ⟨hruns, hsame⟩ := a_cleaning_lists_four_times_at_most_and_follows_its_lists hlines
    (stubbornHost (.error .notFound)) []
  have hcleans : runcLines.Cleans 3 (runcLines.listings (stubbornRun (.error .notFound)).1)
      ((stubbornRun (.error .notFound)).1.map Sigma.fst) (stubbornRun (.error .notFound)).2 := hruns
  rw [hfailing] at hcleans
  obtain ⟨hasked, hended⟩ := hsame (stubbornHost (.ok ⟨.exited 0, [], []⟩)) []
    ((hfailing.trans hfine.symm) ▸ List.prefix_rfl)
  have hok : (stubbornRun (.error .notFound)).2 = .ok () := by
    cases hresult : (stubbornRun (.error .notFound)).2 with
    | ok _ => rfl
    | error e => simpa using (hcleans.failed e).mp hresult
  exact ⟨hlines, hcleans.questions.trans (by cbv), hok, hasked.symm, hended.symm.trans hok⟩

end Engine

end EngineBench
