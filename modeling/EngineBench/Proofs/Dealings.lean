-- What is asked of engines in the course of a sweep: to be made, to tell which daemon is behind
-- them, and to answer the calls of the sweep and of its workers. A sweep that nobody disturbs asks
-- it part by part, and the first part that is cut short is the last one.
import EngineBench.Proofs.Calls
import EngineBench.Proofs.Courses
import EngineBench.Proofs.Progress
import EngineBench.Proofs.Replies
import Mathlib.Data.List.Forall2

namespace EngineBench

open Dialogue

variable {α β γ : Type}

/-! ## Dealings with engines -/

inductive EngineAsk where
  | make (config : EngineConfig)
  | findDaemon
  | call (c : EngineCall)

/-- What an engine answers that does not fail. -/
@[reducible] def EngineAsk.Answer : EngineAsk → Type
  | make _ => Unit
  | findDaemon => DaemonProcess
  | call c => c.Answer

/-- What is asked of an engine, with its answer. -/
abbrev Dealing : Type := (q : EngineAsk) × Except EngineError q.Answer

namespace Dealing

def failed (d : Dealing) : Bool := !d.2.isOk

/-- A call of a worker, whatever time it took. -/
def ofCall (x : CallTurn) : Dealing := ⟨.call x.1, x.2.answer⟩

def ofTurn? : Turn SweepAsk SweepAsk.Answer → Option Dealing
  | ⟨.make config, a⟩ => some ⟨.make config, a⟩
  | ⟨.act .findDaemon, a⟩ => some ⟨.findDaemon, a⟩
  | ⟨.act (.call c), a⟩ => some ⟨.call c, a⟩
  | _ => none

end Dealing

def Happening.dealings : Happening → List Dealing
  | .turn x => (Dealing.ofTurn? x).toList
  | .shift s => (Pool.calls s.events).map Dealing.ofCall

/-- What is asked of engines in a course, by the sweep and by its workers, in its order. -/
def dealings (tr : List Happening) : List Dealing := tr.flatMap Happening.dealings

theorem dealings_append (xs ys : List Happening) :
    dealings (xs ++ ys) = dealings xs ++ dealings ys :=
  List.flatMap_append

/-! ## Sweeps that nobody disturbs -/

/-- No call takes a worker down. -/
def Spares (tr : List Happening) : Prop := ∀ s ∈ shifts tr, ∀ t, .die t ∉ s.events

/-- The sweep does not hear of a cancellation, its workers do not either, and none of them dies. -/
structure Undisturbed (tr : List Happening) : Prop where
  unstopped : .turn ⟨.look, true⟩ ∉ tr
  uncancelled : ∀ s ∈ shifts tr, s.pool.cancelled = false
  spared : Spares tr

theorem undisturbed_append {xs ys : List Happening} :
    Undisturbed (xs ++ ys) ↔ Undisturbed xs ∧ Undisturbed ys := by
  constructor
  · intro h
    obtain ⟨hstop, hcancel, hspared⟩ := h
    rw [List.mem_append, not_or] at hstop
    rw [shifts_append, List.forall_mem_append] at hcancel
    rw [Spares, shifts_append, List.forall_mem_append] at hspared
    exact ⟨⟨hstop.1, hcancel.1, hspared.1⟩, ⟨hstop.2, hcancel.2, hspared.2⟩⟩
  · rintro ⟨hxs, hys⟩
    refine ⟨?_, ?_, ?_⟩
    · rw [List.mem_append, not_or]
      exact ⟨hxs.unstopped, hys.unstopped⟩
    · rw [shifts_append, List.forall_mem_append]
      exact ⟨hxs.uncancelled, hys.uncancelled⟩
    · rw [Spares, shifts_append, List.forall_mem_append]
      exact ⟨hxs.spared, hys.spared⟩

section

variable {c c' : Bool} {tr : List Happening} {x : α}

theorem course_look {next : Bool → Dialogue SweepAsk SweepAsk.Answer α}
    (h : Course c (ask .look next) tr c' x) :
    ∃ b stop rest, tr = .turn ⟨.look, stop⟩ :: rest ∧ Course b (next stop) rest c' x := by
  generalize hm : (ask .look next : Dialogue SweepAsk SweepAsk.Answer α) = m at h
  induction h with
  | done => cases hm
  | cancel _ ih => exact ih hm
  | look h =>
    cases hm
    exact ⟨_, _, _, rfl, h⟩
  | outside hq =>
    cases hm
    exact hq.elim
  | shift => cases hm

/-- A sweep that is not cancelled in the end has never been told to stop. -/
theorem unstopped_of_calm {m : Dialogue SweepAsk SweepAsk.Answer α} (h : Course c m tr c' x)
    (hc : c' = false) : .turn ⟨.look, true⟩ ∉ tr := by
  induction h with
  | done => simp
  | cancel _ ih => exact ih hc
  | look hrest ih =>
    obtain ⟨rfl, -⟩ := course_calm hrest hc
    simpa using ih hc
  | outside hq _ ih =>
    rw [List.mem_cons, not_or]
    refine ⟨?_, ih hc⟩
    rintro ⟨⟩
    exact hq.elim
  | shift s _ ih => simpa using ih hc

theorem undisturbed_of_calm {m : Dialogue SweepAsk SweepAsk.Answer α} (h : Course c m tr false x)
    (hspared : Spares tr) : Undisturbed tr :=
  ⟨unstopped_of_calm h rfl, (course_calm h rfl).2, hspared⟩

end

/-! ## One part after the other -/

/-- Each part has a say in what the dealings with it are and whether it is whole. The parts come one
after the other, and after one that is not whole there is none. -/
inductive InTurn (P : β → List Dealing → Bool → Prop) : List β → List Dealing → Bool → Prop
  | none : InTurn P [] [] true
  | cut {y : β} {ys : List β} {l : List Dealing} : P y l false → InTurn P (y :: ys) l false
  | next {y : β} {ys : List β} {l rest : List Dealing} {whole : Bool} : P y l true →
      InTurn P ys rest whole → InTurn P (y :: ys) (l ++ rest) whole

namespace InTurn

variable {P : β → List Dealing → Bool → Prop} {xs ys : List β} {l l' : List Dealing}
  {whole : Bool}

theorem append_cut (h : InTurn P xs l false) (ys : List β) : InTurn P (xs ++ ys) l false := by
  generalize hwhole : false = whole at h
  induction h with
  | none => cases hwhole
  | cut hy => exact .cut hy
  | next hy _ ih => exact .next hy (ih hwhole)

theorem append (h : InTurn P xs l true) (h' : InTurn P ys l' whole) :
    InTurn P (xs ++ ys) (l ++ l') whole := by
  generalize hwhole : true = before at h
  induction h with
  | none => exact h'
  | cut => cases hwhole
  | next hy _ ih =>
    rw [List.append_assoc]
    exact .next hy (ih hwhole)

/-- Parts that come in parts themselves. -/
theorem flatMap {f : γ → List β} {parts : List γ}
    (h : InTurn (fun y => InTurn P (f y)) parts l whole) : InTurn P (parts.flatMap f) l whole := by
  induction h with
  | none => exact .none
  | cut hy => exact hy.append_cut _
  | next hy _ ih => exact hy.append ih

theorem map {f : γ → β} {parts : List γ} (h : InTurn (fun y => P (f y)) parts l whole) :
    InTurn P (parts.map f) l whole := by
  induction h with
  | none => exact .none
  | cut hy => exact .cut hy
  | next hy _ ih => exact .next hy ih

end InTurn

/-- How an attempt goes: it fails and its dealings are cut short, or it succeeds and they are whole.
-/
inductive Goes (P : List Dealing → Bool → Prop) (Q : α → Prop) : List Dealing → Attempt α → Prop
  | cut {l : List Dealing} {f : Failure} : P l false → Goes P Q l (.error f)
  | whole {l : List Dealing} {a : α} : P l true → Q a → Goes P Q l (.ok a)

/-- Attempts one after the other, each of which goes like this. -/
theorem goes_mapM {P : β → List Dealing → Bool → Prop} {Q : β → α → Prop} {f : β → SweepWork α}
    {l : List β} {c c' : Bool} {tr : List Happening} {r : Attempt (List α)}
    (hf : ∀ y ∈ l, ∀ {b b' part x}, Course b (f y).run part b' x → Undisturbed part →
      Goes (P y) (Q y) (dealings part) x)
    (h : Course c (l.mapM f).run tr c' r) (hcalm : Undisturbed tr) :
    Goes (InTurn P l) (List.Forall₂ Q l) (dealings tr) r := by
  induction l generalizing c c' tr r with
  | nil =>
    rw [List.mapM_nil] at h
    obtain ⟨rfl, rfl⟩ := course_done h
    exact .whole .none .nil
  | cons y l ih =>
    rw [List.mapM_cons] at h
    have hl : ∀ z ∈ l, ∀ {b b' part x}, Course b (f z).run part b' x → Undisturbed part →
        Goes (P z) (Q z) (dealings part) x := fun z hz => hf z (List.mem_cons_of_mem _ hz)
    obtain ⟨_, e, hfirst, rfl⟩ | ⟨tr1, _, a, tr2, rfl, hfirst, hrest⟩ := course_attempt h
    · cases hf y List.mem_cons_self hfirst hcalm with
      | cut hy => exact .cut (.cut hy)
    · obtain ⟨hcalm1, hcalm2⟩ := undisturbed_append.mp hcalm
      rw [dealings_append]
      cases hf y List.mem_cons_self hfirst hcalm1 with
      | whole hy ha =>
        obtain ⟨_, e, hmore, rfl⟩ | ⟨tr3, _, as, tr4, rfl, hmore, hend⟩ := course_attempt hrest
        · cases ih hl hmore hcalm2 with
          | cut hys => exact .cut (.next hy hys)
        · obtain ⟨rfl, rfl⟩ := course_done hend
          rw [List.append_nil] at hcalm2 ⊢
          cases ih hl hmore hcalm2 with
          | whole hys has => exact .whole (.next hy hys) (.cons ha has)

/-! ## Surroundings that follow a script -/

/-- What the surroundings of a sweep answer to it and to its workers, after all that has happened
so far. -/
structure SweepScript where
  outside : List Happening → (q : SweepAsk) → q.Answer
  worker : List Happening → Pool.Answers

namespace SweepScript

variable (script : SweepScript)

/-- Whatever is answered from outside is answered as the script says, nobody cancels anything, and
no worker dies. -/
def Leads : (past : List Happening) → List Happening → Prop
  | _, [] => True
  | past, h :: rest =>
    (match h with
      | .turn x => x.1.IsOutside → x.2 = script.outside past x.1
      | .shift s => (script.worker past).Lead [] s.events) ∧ Leads (past ++ [h]) rest

variable {script}

theorem Leads.spares {past tr : List Happening} (h : script.Leads past tr) : Spares tr := by
  induction tr generalizing past with
  | nil => simp [Spares, shifts]
  | cons x tr ih =>
    intro s hs
    cases x with
    | turn x => exact ih h.2 s hs
    | shift s' =>
      rcases List.mem_cons.mp hs with rfl | hs
      · exact (Pool.Answers.Lead.calm h.1).2
      · exact ih h.2 s hs

variable (script)

/-- A script leads workers to the end of a shift. -/
theorem exists_shift (past : List Happening) (threads iterations : Nat) (job : Job) :
    ∃ s : Shift, s.threads = threads ∧ s.iterations = iterations ∧ s.job = job ∧
      s.cancelled = false ∧ s.pool.cancelled = false ∧ (script.worker past).Lead [] s.events := by
  have hstart : (Pool.start threads iterations job false).steps [] =
    some (Pool.start threads iterations job false) := rfl
  obtain ⟨events, pool, hgoes, hended, hlead⟩ :=
    Pool.exists_end_of_answers (script.worker past) hstart
  rw [List.nil_append] at hgoes
  have hcalm : pool.cancelled = false := by
    rw [(Pool.steps_shape hgoes).2.2, hlead.calm.1]
    rfl
  exact ⟨⟨threads, iterations, job, false, events, pool, Duration.zero, hgoes, hended⟩,
    rfl, rfl, rfl, rfl, hcalm, hlead⟩

/-- Whatever the surroundings answer, a program comes to its end. -/
theorem exists_course (m : Dialogue SweepAsk SweepAsk.Answer α) (past : List Happening) :
    ∃ tr x, Course false m tr false x ∧ script.Leads past tr := by
  induction m generalizing past with
  | done a => exact ⟨[], a, .done, trivial⟩
  | ask q next ih =>
    have hout : q.IsOutside → ∃ tr x, Course false (ask q next) tr false x ∧
        script.Leads past tr := by
      intro hq
      obtain ⟨tr, x, hcourse, hleads⟩ := ih (script.outside past q)
        (past ++ [.turn ⟨q, script.outside past q⟩])
      exact ⟨_, x, .outside hq hcourse, fun _ => rfl, hleads⟩
    cases q with
    | look =>
      obtain ⟨tr, x, hcourse, hleads⟩ := ih false (past ++ [.turn ⟨.look, false⟩])
      exact ⟨_, x, .look hcourse, fun hq => hq.elim, hleads⟩
    | make config => exact hout trivial
    | act a =>
      cases a with
      | work threads iterations job =>
        obtain ⟨s, rfl, rfl, rfl, hcancelled, hpool, hlead⟩ :=
          script.exists_shift past threads iterations job
        obtain ⟨tr, x, hcourse, hleads⟩ := ih (s.pool.records, s.took) (past ++ [.shift s])
        have hshift : Course s.cancelled (ask (.act (.work s.threads s.iterations s.job)) next)
            (.shift s :: tr) false x := .shift s (by rwa [hpool])
        rw [hcancelled] at hshift
        exact ⟨.shift s :: tr, x, hshift, hlead, hleads⟩
      | _ => exact hout trivial

end SweepScript

end EngineBench
