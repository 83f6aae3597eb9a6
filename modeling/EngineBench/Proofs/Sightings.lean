-- What a cleaning does and what it gets to see, told apart from how it is programmed: what each
-- request does to which container or pod, and what each reply to a listing shows under which name.
import EngineBench.Engine.Engine
import EngineBench.Proofs.Turns

namespace EngineBench

open Dialogue

/-! ## Marked names -/

theorem Text.after_eq_some_iff {front s rest : List Char} :
    Text.after front s = some rest ↔ s = front ++ rest := by
  induction front generalizing s with
  | nil => simp [after]
  | cons c front ih =>
    cases s with
    | nil => simp [after]
    | cons d s =>
      by_cases hc : c = d
      · simp [after, hc, ih]
      · simp [after, hc, Ne.symm hc]

/-- Slashes in front of it aside, a name starts with the mark of benchmarks. -/
def Name.Marked (name : List Char) : Prop := mark.toList <+: name.dropWhile (· == '/')

instance (name : List Char) : Decidable (Name.Marked name) :=
  inferInstanceAs (Decidable (_ <+: _))

theorem Name.isMarked_iff (name : List Char) : isMarked name = true ↔ Marked name := by
  rw [isMarked, Option.isSome_iff_exists, Marked]
  constructor
  · rintro ⟨rest, hrest⟩
    exact ⟨rest, (Text.after_eq_some_iff.mp hrest).symm⟩
  · rintro ⟨rest, hrest⟩
    exact ⟨rest, Text.after_eq_some_iff.mpr hrest.symm⟩

/-! ## What is done to the things that an engine keeps -/

inductive Target where
  | container (id : String)
  | pod (id : String)
  deriving DecidableEq

/-- What can be listed. -/
inductive Shelf where
  | containers
  | pods
  deriving DecidableEq

inductive Deed where
  | list (shelf : Shelf)
  | rest
  /-- Kills, stops or resumes, or deletes what runs in a container. -/
  | touch (targets : List Target)
  | remove (targets : List Target)
  deriving DecidableEq

def Deed.targets : Deed → List Target
  | touch targets => targets
  | remove targets => targets
  | _ => []

def DockerClient.deed? (e : DockerClient) : Ask → Option Deed
  | .exec program args =>
    if program ≠ e.program then none
    else if args = listArgs then some (.list .containers)
    else match args with
      | "rm" :: "-f" :: ids => some (.remove (ids.map .container))
      | _ => none
  | _ => none

def DockerApi.deed? : Ask → Option Deed
  | .docker ⟨.get, path, _, _⟩ =>
    if path = "/containers/json" then some (.list .containers) else none
  | .docker ⟨.delete, path, _, _⟩ =>
    (Text.after "/containers/".toList path.toList).map fun id =>
      .remove [.container (String.ofList id)]
  | _ => none

def OciRuntime.deed? (e : OciRuntime) : Ask → Option Deed
  | .exec program args =>
    if program ≠ e.program then none
    else match args with
      | ["list"] => some (.list .containers)
      | ["kill", id, "KILL"] => some (.touch [.container id])
      | ["resume", id] => some (.touch [.container id])
      | ["delete", id] => some (.remove [.container id])
      | _ => none
  | _ => none

/-- A container that is killed is gone, so killing is how this client removes. -/
def CtrClient.deed? (e : CtrClient) : Ask → Option Deed
  | .exec program args =>
    if program ≠ e.program then none
    else match args with
      | ["containers"] => some (.list .containers)
      | ["containers", "resume", id] => some (.touch [.container id])
      | ["containers", "kill", id] => some (.remove [.container id])
      | _ => none
  | _ => none

def ContainerdEngine.deed? : Ask → Option Deed
  | .containerd .listContainers => some (.list .containers)
  | .containerd (.killTask id _ _) => some (.touch [.container id])
  | .containerd (.deleteTask id) => some (.touch [.container id])
  | .containerd (.deleteContainer id) => some (.remove [.container id])
  | _ => none

def CriEngine.deed? : Ask → Option Deed
  | .cri (.listContainers none) => some (.list .containers)
  | .cri .listPods => some (.list .pods)
  | .cri (.stopContainer id) => some (.touch [.container id])
  | .cri (.removeContainer id) => some (.remove [.container id])
  | .cri (.stopPod id) => some (.touch [.pod id])
  | .cri (.removePod id) => some (.remove [.pod id])
  | _ => none

/-- What a question does, if it is one that a cleaning may ask. -/
def Engine.deed? (e : Engine) (q : Ask) : Option Deed :=
  match q with
  | .rest _ => some .rest
  | q =>
    match e with
    | dockerCli e => e.deed? q
    | docker _ => DockerApi.deed? q
    | oci e => e.deed? q
    | ctr e => e.deed? q
    | containerd _ => ContainerdEngine.deed? q
    | cri _ => CriEngine.deed? q
    | null => none

/-! ## What a listing shows -/

structure Sighting where
  target : Target
  /-- A name under which the target is listed. -/
  name : List Char
  /-- Whether the list says enough of the target for it to be removed. -/
  ready : Bool
  deriving DecidableEq

/-- The words of a program. -/
def Outcome.text (o : Outcome) : List Char :=
  (Text.Utf8.decodeLossy o.out ++ Text.Utf8.decodeLossy o.err).toList

/-- A line with an id, a blank and a name. -/
def DockerClient.sightingOfLine? (line : List Char) : Option Sighting :=
  (Text.cutAt Text.isBlank line).map fun (id, name) =>
    ⟨.container (String.ofList id), Text.trim name, true⟩

namespace ListedContainer

/-- The states in which a container can be removed. -/
def knownStates : List String := ["running", "created", "paused", "stopped"]

/-- A container can be removed if there are four columns and its state, the third one, is known. -/
def isReady : (columns : List (List Char)) → Bool
  | _ :: _ :: state :: _ :: _ => knownStates.contains (String.ofList (Text.lowercase state))
  | _ => false

/-- A line with the name of a container in its first column. -/
def sightingOfLine? (line : List Char) : Option Sighting :=
  (Text.columns line).head?.map fun name =>
    ⟨.container (String.ofList name), name, isReady (Text.columns line)⟩

end ListedContainer

/-- An object with an id and names. -/
def DockerApi.sightingsOfItem (item : JsonValue) : List Sighting :=
  match item.member? "Id", item.member? "Names" with
  | some (.string id), some (.list names) => names.filterMap fun
    | .string name => some ⟨.container id, name.toList, true⟩
    | _ => none
  | _, _ => []

/-- An entry with an id, and a name if it has one. -/
def CriEngine.sighting? (target : String → Target) (l : Cri.Listed) : Option Sighting :=
  l.name.map fun name => ⟨target l.id, name.toList, true⟩

/-- What the answer to a listing shows. -/
def Engine.sightings (e : Engine) (x : Turn Ask Ask.Answer) : List Sighting :=
  match e, x with
  | dockerCli _, ⟨.exec _ _, .ok o⟩ => (Text.lines o.text).filterMap DockerClient.sightingOfLine?
  | docker _, ⟨.docker _, .ok ⟨_, [.list items]⟩⟩ => items.flatMap DockerApi.sightingsOfItem
  | oci _, ⟨.exec _ _, .ok o⟩ => (Text.lines o.text).filterMap ListedContainer.sightingOfLine?
  | ctr _, ⟨.exec _ _, .ok o⟩ => (Text.lines o.text).filterMap ListedContainer.sightingOfLine?
  | containerd _, ⟨.containerd .listContainers, .ok ids⟩ =>
    ids.map fun id => ⟨.container id, id.toList, true⟩
  | cri _, ⟨.cri (.listContainers _), .ok listed⟩ =>
    listed.filterMap (CriEngine.sighting? .container)
  | cri _, ⟨.cri .listPods, .ok listed⟩ => listed.filterMap (CriEngine.sighting? .pod)
  | _, _ => []

/-! ## What the engines make of it -/

namespace DockerClient

theorem idOfLine?_eq_some_iff {line : List Char} {id : String} : idOfLine? line = some id ↔
    ∃ front name, Text.cutAt Text.isBlank line = some (front, name) ∧
      Name.Marked (Text.trim name) ∧ id = String.ofList front := by
  simp only [idOfLine?, Option.bind_eq_bind, Option.bind_eq_some_iff,
    Option.ite_none_right_eq_some, Name.isMarked_iff, Option.some.injEq, Prod.exists,
    eq_comm (a := id)]

theorem mem_benchmarkIds {output id : String} : id ∈ benchmarkIds output ↔
    ∃ s ∈ (Text.lines output.toList).filterMap sightingOfLine?,
      s.target = .container id ∧ Name.Marked s.name := by
  simp only [benchmarkIds, List.mem_filterMap, idOfLine?_eq_some_iff]
  constructor
  · rintro ⟨line, hline, front, name, hcut, hmarked, rfl⟩
    exact ⟨_, ⟨line, hline, by rw [sightingOfLine?, hcut]; rfl⟩, rfl, hmarked⟩
  · rintro ⟨s, ⟨line, hline, hs⟩, htarget, hmarked⟩
    rw [sightingOfLine?, Option.map_eq_some_iff] at hs
    obtain ⟨⟨front, name⟩, hcut, rfl⟩ := hs
    cases htarget
    exact ⟨line, hline, front, name, hcut, hmarked, rfl⟩

end DockerClient

namespace ListedContainer

/-- The line above a list has no container in it. -/
theorem columns_of_heading {line rest : List Char} (h : Text.after "ID ".toList line = some rest) :
    Text.columns line = "ID".toList :: Text.columns rest := by
  rw [Text.after_eq_some_iff] at h
  subst h
  simp [Text.columns, Text.columns.go, Text.openColumn, Text.isBlank]

theorem after_heading_of_marked {line name : List Char} {columns : List (List Char)}
    (h : Text.columns line = name :: columns) (hmarked : Name.Marked name) :
    Text.after "ID ".toList line = none := by
  rw [Option.eq_none_iff_forall_ne_some]
  intro rest hheading
  rw [columns_of_heading hheading] at h
  obtain rfl : "ID".toList = name := List.head_eq_of_cons_eq h
  have hplain : ¬Name.Marked "ID".toList := by decide
  exact hplain hmarked

/-- The line above a list needs no exception, since its first column is no name of a container. -/
theorem ofLine?_eq_some_iff {line : List Char} {c : ListedContainer} : ofLine? line = some c ↔
    ∃ name process state fourth more,
      Text.columns line = name :: process :: state :: fourth :: more ∧ Name.Marked name ∧
        c = ⟨String.ofList name, String.ofList (Text.lowercase state)⟩ := by
  constructor
  · intro h
    unfold ofLine? at h
    split at h
    · cases h
    · split at h
      · rename_i name process state fourth more hcolumns
        split at h
        · rename_i hmarked
          cases h
          exact ⟨name, process, state, fourth, more, hcolumns,
            (Name.isMarked_iff _).mp hmarked, rfl⟩
        · cases h
      · cases h
  · rintro ⟨name, process, state, fourth, more, hcolumns, hmarked, rfl⟩
    unfold ofLine?
    rw [after_heading_of_marked hcolumns hmarked]
    simp [hcolumns, (Name.isMarked_iff _).mpr hmarked]

theorem exists_sighting {output : String} {c : ListedContainer} (h : c ∈ ofText output) :
    ∃ s ∈ (Text.lines output.toList).filterMap sightingOfLine?,
      s.target = .container c.name ∧ Name.Marked s.name := by
  obtain ⟨line, hline, hc⟩ := List.mem_filterMap.mp h
  obtain ⟨name, process, state, fourth, more, hcolumns, hmarked, rfl⟩ := ofLine?_eq_some_iff.mp hc
  exact ⟨_, List.mem_filterMap.mpr ⟨line, hline, by rw [sightingOfLine?, hcolumns]; rfl⟩, rfl,
    hmarked⟩

theorem exists_mem_ofText {output : String} {s : Sighting}
    (hs : s ∈ (Text.lines output.toList).filterMap sightingOfLine?) (hmarked : Name.Marked s.name)
    (hready : s.ready = true) :
    ∃ c ∈ ofText output, s.target = .container c.name ∧ c.state ∈ knownStates := by
  obtain ⟨line, hline, hs⟩ := List.mem_filterMap.mp hs
  rw [sightingOfLine?, Option.map_eq_some_iff] at hs
  obtain ⟨first, hfirst, rfl⟩ := hs
  simp only [isReady] at hready
  split at hready
  · rename_i name process state fourth more hcolumns
    rw [hcolumns] at hfirst
    cases hfirst
    refine ⟨⟨String.ofList first, String.ofList (Text.lowercase state)⟩, ?_, rfl,
      by simpa using hready⟩
    exact List.mem_filterMap.mpr ⟨line, hline, ofLine?_eq_some_iff.mpr
      ⟨first, process, state, fourth, more, hcolumns, hmarked, rfl⟩⟩
  · cases hready

end ListedContainer

theorem bind_eq_ok {ε α β : Type} {r : Except ε α} {f : α → Except ε β} {b : β} :
    r >>= f = .ok b ↔ ∃ a, r = .ok a ∧ f a = .ok b := by
  cases r <;> simp [Bind.bind, Except.bind]

theorem map_eq_ok {ε α β : Type} {r : Except ε α} {f : α → β} {b : β} :
    f <$> r = .ok b ↔ ∃ a, r = .ok a ∧ f a = b := by
  cases r <;> simp [Functor.map, Except.map]

theorem mem_of_mapM_ok {ε α β : Type} {f : α → Except ε β} {l : List α} {ys : List β}
    (h : l.mapM f = .ok ys) :
    (∀ y ∈ ys, ∃ x ∈ l, f x = .ok y) ∧ ∀ x ∈ l, ∃ y ∈ ys, f x = .ok y := by
  induction l generalizing ys with
  | nil =>
    cases h
    simp
  | cons x l ih =>
    rw [List.mapM_cons] at h
    obtain ⟨y, hx, h⟩ := bind_eq_ok.mp h
    obtain ⟨rest, hl, h⟩ := bind_eq_ok.mp h
    cases h
    obtain ⟨hof, hto⟩ := ih hl
    constructor
    · intro z hz
      rcases List.mem_cons.mp hz with rfl | hz
      · exact ⟨x, List.mem_cons_self, hx⟩
      · obtain ⟨x', hx', hf⟩ := hof z hz
        exact ⟨x', List.mem_cons_of_mem _ hx', hf⟩
    · intro x' hx'
      rcases List.mem_cons.mp hx' with rfl | hx'
      · exact ⟨y, List.mem_cons_self, hx⟩
      · obtain ⟨z, hz, hf⟩ := hto x' hx'
        exact ⟨z, List.mem_cons_of_mem _ hz, hf⟩

namespace DockerApi

theorem textMember_eq_some {name text : String} {v : JsonValue} :
    textMember name v = .ok (some text) ↔ v.member? name = some (.string text) := by
  unfold textMember JsonValue.member?
  cases v with
  | object members =>
    cases hvalue : members.lookup name with
    | none => simp [hvalue]
    | some value => cases value <;> simp [hvalue, Docker.Shape.misfit]
  | _ => simp [Docker.Shape.misfit]

theorem mem_of_textsMember {name text : String} {v : JsonValue} {texts : List String}
    (h : textsMember name v = .ok texts) :
    text ∈ texts ↔ ∃ items, v.member? name = some (.list items) ∧ .string text ∈ items := by
  unfold textsMember at h
  split at h
  · rename_i hnone
    cases h
    simp [hnone]
  · rename_i hnull
    cases h
    simp [hnull]
  · rename_i items hitems
    obtain ⟨hof, hto⟩ := mem_of_mapM_ok h
    rw [hitems]
    constructor
    · intro htext
      obtain ⟨item, hitem, hread⟩ := hof text htext
      refine ⟨items, rfl, ?_⟩
      split at hread
      · cases hread
        exact hitem
      · cases hread
    · rintro ⟨_, ⟨⟩, hitem⟩
      obtain ⟨text', htext', ⟨⟩⟩ := hto _ hitem
      exact htext'
  · cases h

theorem mem_sightingsOfItem {item : JsonValue} {s : Sighting} : s ∈ sightingsOfItem item ↔
    ∃ id names name, item.member? "Id" = some (.string id) ∧
      item.member? "Names" = some (.list names) ∧ .string name ∈ names ∧
      s = ⟨.container id, name.toList, true⟩ := by
  unfold sightingsOfItem
  constructor
  · intro h
    split at h
    · rename_i id names hid hnames
      obtain ⟨value, hvalue, hs⟩ := List.mem_filterMap.mp h
      split at hs
      · cases hs
        exact ⟨id, names, _, hid, hnames, hvalue, rfl⟩
      · cases hs
    · cases h
  · rintro ⟨id, names, name, hid, hnames, hname, rfl⟩
    rw [hid, hnames]
    exact List.mem_filterMap.mpr ⟨_, hname, rfl⟩

/-- A container goes if it is listed with an id and with a marked name among its names. -/
theorem victim_eq_some {item : JsonValue} {c : Listed} {id : String}
    (hid : textMember "Id" item = .ok c.id) (hnames : textsMember "Names" item = .ok c.names) :
    c.victim? = some id ↔
      ∃ s ∈ sightingsOfItem item, s.target = .container id ∧ Name.Marked s.name := by
  have hread : c.id = some id ↔ item.member? "Id" = some (.string id) := by
    rw [← textMember_eq_some, hid, Except.ok.injEq]
  have hvictim : c.victim? = some id ↔ c.names.any Name.isBenchmark = true ∧ c.id = some id := by
    unfold Listed.victim?
    split
    · rename_i hany
      simp [hany]
    · rename_i hany
      simp [hany]
  rw [hvictim, hread, List.any_eq_true]
  constructor
  · rintro ⟨⟨name, hname, hmarked⟩, hmember⟩
    obtain ⟨items, hitems, hitem⟩ := (mem_of_textsMember hnames).mp hname
    exact ⟨_, mem_sightingsOfItem.mpr ⟨id, items, name, hmember, hitems, hitem, rfl⟩, rfl,
      (Name.isMarked_iff _).mp hmarked⟩
  · rintro ⟨s, hs, htarget, hmarked⟩
    obtain ⟨id', items, name, hmember, hitems, hitem, rfl⟩ := mem_sightingsOfItem.mp hs
    cases htarget
    exact ⟨⟨name, (mem_of_textsMember hnames).mpr ⟨items, hitems, hitem⟩,
      (Name.isMarked_iff _).mpr hmarked⟩, hmember⟩

theorem mem_victims {items : List JsonValue} {all : List Listed} {id : String}
    (h : listed (.list items) = .ok all) : id ∈ all.filterMap Listed.victim? ↔
      ∃ s ∈ items.flatMap sightingsOfItem, s.target = .container id ∧ Name.Marked s.name := by
  have hread : ∀ {item c}, (do
      return ⟨← textMember "Id" item, ← textsMember "Names" item⟩ :
        Except ApiError Listed) = .ok c →
      textMember "Id" item = .ok c.id ∧ textsMember "Names" item = .ok c.names := by
    intro item c hc
    obtain ⟨id, hid, hc⟩ := bind_eq_ok.mp hc
    obtain ⟨names, hnames, hc⟩ := bind_eq_ok.mp hc
    cases hc
    exact ⟨hid, hnames⟩
  obtain ⟨hof, hto⟩ := mem_of_mapM_ok h
  rw [List.mem_filterMap]
  constructor
  · rintro ⟨c, hc, hvictim⟩
    obtain ⟨item, hitem, hitem'⟩ := hof c hc
    obtain ⟨hid, hnames⟩ := hread hitem'
    obtain ⟨s, hs, hsight⟩ := (victim_eq_some hid hnames).mp hvictim
    exact ⟨s, List.mem_flatMap.mpr ⟨item, hitem, hs⟩, hsight⟩
  · rintro ⟨s, hs, hsight⟩
    obtain ⟨item, hitem, hs⟩ := List.mem_flatMap.mp hs
    obtain ⟨c, hc, hitem'⟩ := hto item hitem
    obtain ⟨hid, hnames⟩ := hread hitem'
    exact ⟨c, hc, (victim_eq_some hid hnames).mpr ⟨s, hs, hsight⟩⟩

end DockerApi

end EngineBench
