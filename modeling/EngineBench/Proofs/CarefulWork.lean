-- Properties of the programs of an engine: a careful one touches nothing that it was not shown
-- before under a marked name, and a thorough one removes whatever the first list shows under a
-- marked name, or fails. A program that opens with a list has asked for one before anything else.
import EngineBench.Proofs.Sightings

namespace EngineBench

open Dialogue

/-! ## Programs that reach a turn -/

section

variable {Q : Type} {A : Q → Type} {α β ε : Type} {G : Turn Q A → Prop}

/-- A work that has failed. -/
def Failed (r : Except ε α) : Prop := ∃ e, r = .error e

variable {P : Turn Q A → Prop} {w : ExceptT ε (Dialogue Q A) β} {f : β → ExceptT ε (Dialogue Q A) α}

/-- Work whose first part reaches the turn or fails does so itself. -/
theorem until_of_first (h : w.run.Until G P Failed) : (w >>= f).run.Until G P Failed := by
  refine Until.bind h ?_
  rintro _ ⟨e, rfl⟩
  exact ⟨e, rfl⟩

/-- Work whose second part reaches the turn or fails does so itself, whatever it asks before. -/
theorem until_of_second (h : ∀ b, (f b).run.Until G (fun _ => True) Failed) :
    (w >>= f).run.Until G (fun _ => True) Failed := by
  refine Until.bind (w.run.until_any (G := G)) ?_
  rintro (e | b) -
  · exact ⟨e, rfl⟩
  · exact h b

theorem until_of_forM {f : β → ExceptT ε (Dialogue Q A) PUnit} {l : List β} {y : β} (hy : y ∈ l)
    (h : (f y).run.Until G (fun _ => True) Failed) :
    (l.forM f).run.Until G (fun _ => True) Failed := by
  induction l with
  | nil => cases hy
  | cons x l ih =>
    show (f x >>= fun _ => l.forM f).run.Until G (fun _ => True) Failed
    rcases List.mem_cons.mp hy with rfl | hy
    · exact until_of_first h
    · exact until_of_second fun _ => ih hy

theorem only_of_forM {P : Q → Prop} {f : β → ExceptT ε (Dialogue Q A) PUnit} {l : List β}
    (h : ∀ y ∈ l, (f y).run.Only P) : (l.forM f).run.Only P := by
  induction l with
  | nil => trivial
  | cons x l ih =>
    show (f x >>= fun _ => l.forM f).run.Only P
    exact .bind_attempt (h x List.mem_cons_self) fun _ =>
      ih fun y hy => h y (List.mem_cons_of_mem _ hy)

end

/-! ## Single questions -/

namespace Work

variable {P : Ask → Prop} {α : Type}

theorem ask_only {q : Ask} (hq : P q) : (Work.ask q).run.Only P := ⟨hq, fun _ => trivial⟩

theorem containerd_only {r : Containerd.Request} (hr : P (.containerd r)) :
    (Work.containerd r).run.Only P := by
  refine .bind_attempt (ask_only hr) fun answer => ?_
  cases answer <;> trivial

theorem cri_only {r : Cri.Request} (hr : P (.cri r)) : (Work.cri r).run.Only P := by
  refine .bind_attempt (ask_only hr) fun answer => ?_
  cases answer <;> trivial

theorem ignore_only {w : Work α} (hw : w.run.Only P) : w.ignore.run.Only P :=
  .bind_attempt (Only.bind hw fun _ => trivial) fun _ => trivial

theorem until_of_ignore {G : Turn Ask Ask.Answer → Prop} {w : Work α}
    (hw : w.run.Until G (fun _ => True) fun _ => False) :
    w.ignore.run.Until G (fun _ => True) Failed := by
  refine until_of_first ?_
  exact Until.bind hw fun _ h => h.elim

end Work

theorem Command.exec_only {P : Ask → Prop} {program : String} {args : List String}
    (h : P (.exec program args)) : (Command.exec program args).run.Only P :=
  .bind_attempt (Work.ask_only h) fun _ => trivial

/-! ## Careful programs -/

namespace Engine

variable (e : Engine)

/-- The targets that an answer shows under a marked name, if it is one to a listing. -/
def spotted (x : Turn Ask Ask.Answer) : List Target :=
  match e.deed? x.1 with
  | some (.list _) => ((e.sightings x).filter fun s => Name.isMarked s.name).map Sighting.target
  | _ => []

theorem mem_spotted {x : Turn Ask Ask.Answer} {v : Target} : v ∈ e.spotted x ↔
    (∃ shelf, e.deed? x.1 = some (.list shelf)) ∧
      ∃ s ∈ e.sightings x, s.target = v ∧ Name.Marked s.name := by
  unfold spotted
  split
  · rename_i shelf hdeed
    simp only [List.mem_map, List.mem_filter, Name.isMarked_iff]
    constructor
    · rintro ⟨s, ⟨hs, hmarked⟩, hv⟩
      exact ⟨⟨shelf, hdeed⟩, s, hs, hv, hmarked⟩
    · rintro ⟨-, s, hs, hv, hmarked⟩
      exact ⟨s, ⟨hs, hmarked⟩, hv⟩
  · rename_i hnone
    constructor
    · intro h
      cases h
    · rintro ⟨⟨shelf, hshelf⟩, -⟩
      exact (hnone shelf hshelf).elim

/-- One who knows these targets may ask this: it is part of a cleaning, and whatever it touches is
known. -/
def Allows (known : List Target) (q : Ask) : Prop :=
  ∃ deed, e.deed? q = some deed ∧ ∀ v ∈ deed.targets, v ∈ known

/-- A program that asks only what it is allowed to. It gets to know what it is shown. -/
def Careful {α : Type} : Exchange α → (known : List Target) → Prop
  | .done _, _ => True
  | .ask q next, known => e.Allows known q ∧ ∀ a, Careful (next a) (known ++ e.spotted ⟨q, a⟩)

variable {e} {α β : Type} {known known' : List Target}

theorem Allows.mono {q : Ask} (h : e.Allows known q) (hsub : known ⊆ known') :
    e.Allows known' q := by
  obtain ⟨deed, hdeed, hall⟩ := h
  exact ⟨deed, hdeed, fun v hv => hsub (hall v hv)⟩

/-- After questions that need no more than is known, a careful program knows at least as much. -/
theorem careful_bind {m : Exchange α} {f : α → Exchange β} (hm : m.Only (e.Allows known))
    (hf : ∀ a known', known ⊆ known' → e.Careful (f a) known') (hsub : known ⊆ known') :
    e.Careful (m.bind f) known' := by
  induction m generalizing known' with
  | done a => exact hf a known' hsub
  | ask q next ih =>
    exact ⟨hm.1.mono hsub, fun a =>
      ih a (hm.2 a) fun v hv => List.mem_append_left _ (hsub hv)⟩

theorem careful_of_only {m : Exchange α} (hm : m.Only (e.Allows known)) : e.Careful m known := by
  rw [← m.bind_done]
  exact careful_bind hm (fun _ _ _ => trivial) (List.Subset.refl _)

/-- Every question of a careful program is about things that it was shown before. -/
theorem allows_of_after {m m' : Exchange α} {before after : List (Turn Ask Ask.Answer)}
    {x : Turn Ask Ask.Answer} (h : After m (before ++ x :: after) m') (hm : e.Careful m known) :
    e.Allows (known ++ before.flatMap e.spotted) x.1 := by
  induction before generalizing m known with
  | nil =>
    cases h with
    | cons _ =>
      rw [List.flatMap_nil, List.append_nil]
      exact hm.1
  | cons y before ih =>
    cases h with
    | cons h =>
      have hrest := ih h (hm.2 _)
      rwa [List.append_assoc, ← List.flatMap_cons] at hrest

/-! ## Thorough programs -/

/-- A question that removes this. -/
def Removes (e : Engine) (v : Target) (x : Turn Ask Ask.Answer) : Prop :=
  ∃ targets, e.deed? x.1 = some (.remove targets) ∧ v ∈ targets

/-- A program that removes whatever the first list of this kind shows under a marked name, before
it lists again. If it does not, it fails. -/
def Thorough (e : Engine) (shelf : Shelf) : Exchange (Except EngineError Unit) → Prop
  | .done _ => True
  | .ask q next =>
    (e.deed? q = some (.list shelf) → ∀ a, ∀ s ∈ e.sightings ⟨q, a⟩, Name.Marked s.name →
      s.ready = true → (next a).Until (e.Removes s.target)
        (fun x => e.deed? x.1 ≠ some (.list shelf)) Failed) ∧
    (e.deed? q ≠ some (.list shelf) → ∀ a, Thorough e shelf (next a))

theorem until_of_after {shelf : Shelf} {m : Exchange (Except EngineError Unit)}
    {r : Except EngineError Unit} {before after : List (Turn Ask Ask.Answer)}
    {y : Turn Ask Ask.Answer} (h : After m (before ++ y :: after) (done r))
    (hm : e.Thorough shelf m) (hfirst : ∀ x ∈ before, e.deed? x.1 ≠ some (.list shelf))
    (hy : e.deed? y.1 = some (.list shelf)) {s : Sighting} (hs : s ∈ e.sightings y)
    (hmarked : Name.Marked s.name) (hready : s.ready = true) :
    (∃ x ∈ after, e.Removes s.target x) ∨
      (∀ x ∈ after, e.deed? x.1 ≠ some (.list shelf)) ∧ Failed r := by
  induction before generalizing m with
  | nil =>
    cases h with
    | cons h => exact h.until (hm.1 hy _ s hs hmarked hready)
  | cons x before ih =>
    cases h with
    | cons h =>
      have hx := hfirst _ List.mem_cons_self
      exact ih h (hm.2 hx _) fun z hz => hfirst z (List.mem_cons_of_mem _ hz)

theorem thorough_bind {shelf : Shelf} {m : Exchange α}
    {f : α → Exchange (Except EngineError Unit)}
    (hm : m.Only fun q => e.deed? q ≠ some (.list shelf)) (hf : ∀ a, e.Thorough shelf (f a)) :
    e.Thorough shelf (m.bind f) := by
  induction m with
  | done a => exact hf a
  | ask q next ih =>
    exact ⟨fun hq => (hm.1 hq).elim, fun _ a => ih a (hm.2 a)⟩

theorem thorough_of_never {shelf : Shelf} (h : ∀ q, e.deed? q ≠ some (.list shelf))
    (m : Exchange (Except EngineError Unit)) : e.Thorough shelf m := by
  induction m with
  | done r => trivial
  | ask q next ih => exact ⟨fun hq => (h q hq).elim, fun _ a => ih a⟩

/-! ## Programs that list -/

/-- A program whose first question is one for a list of this kind. -/
def Opens (e : Engine) (shelf : Shelf) : Exchange α → Prop
  | .done _ => False
  | .ask q _ => e.deed? q = some (.list shelf)

/-- A run of a program that opens with a list is empty only if it has not begun. -/
theorem Opens.first {shelf : Shelf} {m m' : Exchange α} {turns : List (Turn Ask Ask.Answer)}
    (hm : e.Opens shelf m) (h : After m turns m') :
    (∀ x rest, turns = x :: rest → e.deed? x.1 = some (.list shelf)) ∧
      ∀ r, m' = .done r → turns ≠ [] := by
  cases h with
  | nil =>
    refine ⟨nofun, ?_⟩
    rintro r rfl
    exact hm.elim
  | cons h =>
    refine ⟨?_, fun _ _ => List.cons_ne_nil _ _⟩
    rintro x rest ⟨⟩
    exact hm

/-! ## Questions about one thing -/

/-- A question of the tearing down of one thing. -/
def Handles (e : Engine) (v : Target) (q : Ask) : Prop :=
  e.deed? q = some .rest ∨ e.deed? q = some (.touch [v]) ∨ e.deed? q = some (.remove [v])

theorem Handles.allows {v : Target} {q : Ask} (h : e.Handles v q) (hv : v ∈ known) :
    e.Allows known q := by
  rcases h with h | h | h
  · exact ⟨_, h, by simp [Deed.targets]⟩
  · exact ⟨_, h, by simpa [Deed.targets] using hv⟩
  · exact ⟨_, h, by simpa [Deed.targets] using hv⟩

theorem Handles.ne_list {v : Target} {q : Ask} (h : e.Handles v q) (shelf : Shelf) :
    e.deed? q ≠ some (.list shelf) := by
  rcases h with h | h | h <;> simp [h]

theorem handles_rest {v : Target} (d : Duration) : e.Handles v (.rest d) := Or.inl rfl

variable {f : α → Work Unit} {target : α → Target} {victims : List α}

/-- Things that are known may be torn down one after the other. -/
theorem allows_of_forM (hf : ∀ y, (f y).run.Only (e.Handles (target y)))
    (hvictims : ∀ y ∈ victims, target y ∈ known) : (victims.forM f).run.Only (e.Allows known) :=
  only_of_forM fun y hy => (hf y).mono fun _ hq => hq.allows (hvictims y hy)

theorem ne_list_of_forM (hf : ∀ y, (f y).run.Only (e.Handles (target y))) (shelf : Shelf) :
    (victims.forM f).run.Only fun q => e.deed? q ≠ some (.list shelf) :=
  only_of_forM fun y _ => (hf y).mono fun _ hq => hq.ne_list shelf

/-- Among things that are torn down one after the other, each one is removed or a failure comes
first. -/
theorem until_of_victim (hf : ∀ y, (f y).run.Only (e.Handles (target y))) {y : α}
    (hy : y ∈ victims)
    (hremoves : (f y).run.Until (e.Removes (target y)) (fun _ => True) Failed) (shelf : Shelf) :
    (victims.forM f).run.Until (e.Removes (target y))
      (fun x => e.deed? x.1 ≠ some (.list shelf)) Failed :=
  (until_of_forM hy hremoves).and_only (ne_list_of_forM hf shelf)

/-! ## Asking for a list -/

/-- Work of a single question, one for a list of this kind. It fails, or what it is answered shows
these things. -/
def Lists (e : Engine) (shelf : Shelf) (w : Work α) (shows : α → List Sighting) : Prop :=
  ∃ (q : Ask) (f : q.Answer → Work α), w = (Work.ask q >>= f) ∧ e.deed? q = some (.list shelf) ∧
    ∀ a, (∃ err, f a = throw err) ∨ ∃ b, f a = pure b ∧ e.sightings ⟨q, a⟩ = shows b

variable {shelf : Shelf} {w : Work α} {shows : α → List Sighting}

theorem Lists.only (hw : e.Lists shelf w shows) :
    w.run.Only fun q => e.deed? q = some (.list shelf) := by
  obtain ⟨q, f, rfl, hq, hf⟩ := hw
  refine ⟨hq, fun a => ?_⟩
  show Only _ (f a)
  rcases hf a with ⟨err, hfa⟩ | ⟨b, hfa, -⟩
  · rw [hfa]
    trivial
  · rw [hfa]
    trivial

theorem careful_of_lists (hw : e.Lists shelf w shows) {g : α → Work β}
    (hg : ∀ b known', (∀ s ∈ shows b, Name.Marked s.name → s.target ∈ known') →
      e.Careful (g b).run known') : e.Careful (w >>= g).run known := by
  obtain ⟨q, f, rfl, hq, hf⟩ := hw
  refine ⟨⟨_, hq, by simp [Deed.targets]⟩, fun a => ?_⟩
  show e.Careful (f a >>= g).run _
  rcases hf a with ⟨err, hfa⟩ | ⟨b, hfa, hshows⟩
  · rw [hfa]
    trivial
  · rw [hfa]
    refine hg b _ fun s hs hmarked => List.mem_append_right _ ?_
    rw [mem_spotted]
    exact ⟨⟨shelf, hq⟩, s, hshows ▸ hs, rfl, hmarked⟩

theorem thorough_of_lists (hw : e.Lists shelf w shows) {g : α → Work Unit}
    (hg : ∀ b, ∀ s ∈ shows b, Name.Marked s.name → s.ready = true →
      (g b).run.Until (e.Removes s.target) (fun x => e.deed? x.1 ≠ some (.list shelf)) Failed) :
    e.Thorough shelf (w >>= g).run := by
  obtain ⟨q, f, rfl, hq, hf⟩ := hw
  refine ⟨fun _ a s hs hmarked hready => ?_, fun hne => (hne hq).elim⟩
  show Until _ _ _ (f a >>= g).run
  rcases hf a with ⟨err, hfa⟩ | ⟨b, hfa, hshows⟩
  · rw [hfa]
    exact ⟨err, rfl⟩
  · rw [hfa]
    exact hg b s (hshows ▸ hs) hmarked hready

theorem opens_of_lists (hw : e.Lists shelf w shows) (g : α → Work β) :
    e.Opens shelf (w >>= g).run := by
  obtain ⟨q, f, rfl, hq, -⟩ := hw
  exact hq

theorem until_list_of_lists (hw : e.Lists shelf w shows) (g : α → Work β) :
    (w >>= g).run.Until (fun x => e.deed? x.1 = some (.list shelf)) (fun _ => True) Failed := by
  obtain ⟨q, f, rfl, hq, -⟩ := hw
  exact fun _ => Or.inl hq

theorem lists_exec {program : String} {args : List String} {shows : String → List Sighting}
    (hq : e.deed? (.exec program args) = some (.list shelf))
    (hshows : ∀ o, e.sightings ⟨.exec program args, .ok o⟩ = shows (String.ofList o.text)) :
    e.Lists shelf (Command.exec program args) shows := by
  refine ⟨_, _, rfl, hq, fun a => ?_⟩
  cases hout : Command.output program args a with
  | error err => exact Or.inl ⟨err, rfl⟩
  | ok text =>
    refine Or.inr ⟨text, rfl, ?_⟩
    cases a with
    | error cause => cases hout
    | ok o =>
      rw [hshows]
      simp only [Command.output] at hout
      split at hout
      · cases hout
        simp [Outcome.text]
      · cases hout

end Engine

end EngineBench
