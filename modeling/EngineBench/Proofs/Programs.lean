-- The programs that names are resolved to. A name of one part stands for the first file of that
-- name along the search path, a longer one for the path that it is, and an empty one for nothing.
-- Either way what is given out is a path from the root without links and dots. It is that of a file
-- if the name has one part, and if it has more, whatever the name leads to.
import EngineBench.Engine.Engine
import EngineBench.Proofs.Locations

namespace EngineBench

namespace Host

/-! ## Names without parts -/

theorem head?_of_cut {s : List Char} (h : (names.cut s).head? = some []) :
    s = [] ∨ ∃ t, s = '/' :: t := by
  cases s with
  | nil => exact Or.inl rfl
  | cons c s =>
    rw [names.cut] at h
    split at h
    · next hc => exact Or.inr ⟨s, by rw [hc]⟩
    · cases hcut : names.cut s <;> simp [hcut, Text.openColumn] at h

/-- The first name of a path that does not begin with a slash. -/
theorem mem_names {c : Char} {s : List Char} (hc : c ≠ '/') :
    ∃ n, (names.cut s).head? = some n ∧ String.ofList (c :: n) ∈ names (c :: s) := by
  cases hcut : names.cut s with
  | nil => exact absurd hcut (cut_ne_nil s)
  | cons n ns =>
    refine ⟨n, rfl, ?_⟩
    have hpieces : names.cut (c :: s) = (c :: n) :: ns := by
      rw [names.cut, if_neg hc, hcut]
      rfl
    have hmem : c :: n ∈ ((c :: n) :: ns).filter (· ≠ []) :=
      List.mem_filter.mpr ⟨List.mem_cons_self, by simp⟩
    rw [names, hpieces]
    apply List.mem_map_of_mem
    split
    · exact List.mem_append_left _ hmem
    · exact hmem

/-- Only the empty name has no part. -/
theorem eq_empty_of_partCount {name : String} (h : partCount name = 0) : name = "" := by
  unfold partCount at h
  dsimp only at h
  obtain ⟨hstart, hsteps⟩ := Nat.add_eq_zero_iff.mp h
  rw [List.length_eq_zero_iff, List.filter_eq_nil_iff] at hsteps
  cases htext : name.toList with
  | nil => exact String.toList_eq_nil_iff.mp htext
  | cons c s =>
    rw [htext] at hstart hsteps
    have hc : c ≠ '/' := by
      rintro rfl
      cases hstart
    obtain ⟨n, hn, hmem⟩ := mem_names (s := s) hc
    have hdot : String.ofList (c :: n) = "." := by simpa using hsteps _ hmem
    have hlist : c :: n = ['.'] := by
      rw [← String.toList_ofList (l := c :: n), hdot]
      rfl
    obtain ⟨rfl, rfl⟩ := List.cons.inj hlist
    -- a name that begins with a dot by itself has a part for that dot
    rcases head?_of_cut hn with rfl | ⟨t, rfl⟩ <;> cases hstart

namespace Files

variable {f : Files}

theorem isFile_iff {path : String} : f.isFile path = true ↔
    ∃ l bytes mode, f.find path = .ok l ∧ f.node? l = some (.file bytes mode) := by
  unfold isFile findNode
  cases hfind : f.find path with
  | error e => simp [bind, Except.bind]
  | ok l =>
    cases hnode : f.node? l with
    | none => simp [bind, Except.bind, throw, throwThe, MonadExceptOf.throw, hnode]
    | some n => cases n <;> simp [bind, Except.bind, pure, Except.pure, hnode]

/-- Two paths to the same location are both paths of a file, or neither is. -/
theorem isFile_congr {path path' : String} (h : f.find path = f.find path') :
    f.isFile path = f.isFile path' := by
  unfold isFile findNode
  rw [h]

theorem join_empty (d : String) : join d "" = "" ∨ ∃ s, (join d "").toList = s ++ ['/'] := by
  rw [join]
  split
  · exact Or.inl rfl
  split
  · next hlast =>
    obtain ⟨s, hs⟩ := List.getLast?_eq_some_iff.mp (eq_of_beq hlast)
    exact Or.inr ⟨s, by rw [String.append_empty, hs]⟩
  · exact Or.inr ⟨d.toList, by rw [String.append_empty, String.toList_append]; rfl⟩

/-- The empty name is that of no file. -/
theorem not_isFile_join_empty (f : Files) (d : String) : f.isFile (join d "") = false := by
  rw [← Bool.not_eq_true, isFile_iff]
  rintro ⟨l, bytes, mode, hfind, hnode⟩
  rcases join_empty d with hnone | ⟨s, hs⟩
  · rw [hnone] at hfind
    cases hfind
  · have hdir := isDirectory_of_find hs hfind
    rw [isDirectory, hnode] at hdir
    cases hdir

end Files

namespace Surroundings

/-! ## The path that a name stands for -/

/-- A name of one part stands for the first file of that name along the search path, and a longer
name for itself. -/
inductive StandsFor (h : Surroundings) (name : String) : (path : String) → Prop
  | path : 1 < partCount name → StandsFor h name name
  | search {before after : List String} {d : String} : partCount name = 1 →
      h.directories = before ++ d :: after →
      (∀ d' ∈ before, h.files.isFile (join d' name) = false) →
      h.files.isFile (join d name) = true → StandsFor h name (join d name)

variable {h : Surroundings} {name path : String}

theorem find?_of_standsFor (hname : partCount name = 1) (hpath : h.StandsFor name path) :
    (h.directories.map fun d => join d name).find? h.files.isFile = some path := by
  cases hpath with
  | path hparts => omega
  | @search before after d _ hdirs hbefore hfile =>
    rw [List.find?_eq_some_iff_append]
    refine ⟨hfile, before.map (fun d => join d name), after.map (fun d => join d name), ?_, ?_⟩
    · rw [hdirs, List.map_append, List.map_cons]
    · intro x hx
      obtain ⟨d', hd', rfl⟩ := List.mem_map.mp hx
      simpa using hbefore d' hd'

/-- What is found along the search path is what the name stands for; so the name is not empty. -/
theorem standsFor_of_find? (hname : ¬1 < partCount name)
    (hfound : (h.directories.map fun d => join d name).find? h.files.isFile = some path) :
    h.StandsFor name path ∧ h.files.isFile path = true := by
  obtain ⟨hfile, xs, ys, hmap, hbefore⟩ := List.find?_eq_some_iff_append.mp hfound
  obtain ⟨before, rest, hdirs, rfl, hrest⟩ := List.map_eq_append_iff.mp hmap
  obtain ⟨d, after, rfl, rfl, -⟩ := List.map_eq_cons_iff.mp hrest
  have hnone : partCount name ≠ 0 := by
    intro hzero
    rw [eq_empty_of_partCount hzero, Files.not_isFile_join_empty] at hfile
    cases hfile
  refine ⟨.search (by omega) hdirs ?_ hfile, hfile⟩
  · intro d' hd'
    simpa using hbefore _ (List.mem_map_of_mem hd')

/-! ## What a name is resolved to -/

theorem canonical_eq_ok_iff {f : Files} {path p : String} :
    f.canonical path = .ok p ↔ ∃ l, f.find path = .ok l ∧ f.pathOf l = p := map_eq_ok

theorem resolveProgram_of_path (hparts : 1 < partCount name) {p : String} :
    h.resolveProgram name = .ok p ↔ h.files.canonical name = .ok p := by
  rw [resolveProgram, if_pos hparts]
  cases h.files.canonical name <;> simp

theorem resolveProgram_of_search (hparts : ¬1 < partCount name) {p : String} :
    h.resolveProgram name = .ok p ↔ ∃ path, (h.directories.map fun d => join d name).find?
      h.files.isFile = some path ∧ h.files.canonical path = .ok p := by
  rw [resolveProgram, if_neg hparts]
  cases (h.directories.map fun d => join d name).find? h.files.isFile with
  | none => simp
  | some path =>
    dsimp only
    cases hcanonical : h.files.canonical path <;> simp [hcanonical]

/-- A name is resolved just if the path that it stands for leads somewhere. -/
theorem resolveProgram_eq_ok_iff {p : String} : h.resolveProgram name = .ok p ↔
    ∃ path l, h.StandsFor name path ∧ h.files.find path = .ok l ∧ h.files.pathOf l = p := by
  by_cases hparts : 1 < partCount name
  · rw [resolveProgram_of_path hparts, canonical_eq_ok_iff]
    constructor
    · rintro ⟨l, hfind, hp⟩
      exact ⟨name, l, .path hparts, hfind, hp⟩
    · rintro ⟨path, l, hpath, hfind, hp⟩
      cases hpath with
      | path => exact ⟨l, hfind, hp⟩
      | search hone => omega
  · rw [resolveProgram_of_search hparts]
    constructor
    · rintro ⟨path, hfound, hcanonical⟩
      obtain ⟨l, hfind, hp⟩ := canonical_eq_ok_iff.mp hcanonical
      exact ⟨path, l, (standsFor_of_find? hparts hfound).1, hfind, hp⟩
    · rintro ⟨path, l, hpath, hfind, hp⟩
      have hone : partCount name = 1 := by
        cases hpath with
        | path hlong => exact absurd hlong hparts
        | search hone => exact hone
      exact ⟨path, find?_of_standsFor hone hpath, canonical_eq_ok_iff.mpr ⟨l, hfind, hp⟩⟩

theorem resolveProgram_eq_error {e : EngineError} (he : h.resolveProgram name = .error e) :
    ∃ s, e = .config s := by
  unfold resolveProgram at he
  split at he
  · split at he <;> cases he
    exact ⟨_, rfl⟩
  · split at he
    · split at he <;> cases he
      exact ⟨_, rfl⟩
    · cases he
      exact ⟨_, rfl⟩

end Surroundings

end Host

/-- The program that an engine runs for each of its operations. -/
def Engine.program? : Engine → Option String
  | dockerCli e => some e.program
  | oci e => some e.program
  | ctr e => some e.program
  | _ => none

section

variable {h : Host.Surroundings} {config : EngineConfig}

theorem DockerClient.exists_name_of_make {e : DockerClient} (hmade : make h config = .ok e) :
    ∃ name, h.resolveProgram name = .ok e.program := by
  obtain ⟨program, hname, he⟩ := bind_eq_ok.mp hmade
  cases he
  exact ⟨_, hname⟩

theorem OciRuntime.exists_name_of_make {e : OciRuntime} (hmade : make h config = .ok e) :
    ∃ name, h.resolveProgram name = .ok e.program := by
  unfold make at hmade
  split at hmade
  · obtain ⟨program, hname, he⟩ := bind_eq_ok.mp hmade
    cases he
    exact ⟨_, hname⟩
  · cases hmade

theorem CtrClient.exists_name_of_make {e : CtrClient} (hmade : make h config = .ok e) :
    ∃ name, h.resolveProgram name = .ok e.program := by
  obtain ⟨program, hname, he⟩ := bind_eq_ok.mp hmade
  cases he
  exact ⟨_, hname⟩

theorem Engine.exists_name_of_make {e : Engine} {program : String} (hmade : make h config = .ok e)
    (he : e.program? = some program) : ∃ name, h.resolveProgram name = .ok program := by
  unfold make at hmade
  split at hmade
  case h_9 =>
    cases hmade
    cases he
  all_goals
    obtain ⟨engine, hengine, rfl⟩ := map_eq_ok.mp hmade
    cases he
  · exact DockerClient.exists_name_of_make hengine
  · exact OciRuntime.exists_name_of_make hengine
  · exact OciRuntime.exists_name_of_make hengine
  · exact OciRuntime.exists_name_of_make hengine
  · exact CtrClient.exists_name_of_make hengine

end

namespace Host

namespace Surroundings

/-- What a name is resolved to is the path, from the root and without links and dots, of what the
name stands for. It is the path of a file if the name has one part, and if it has more, just if that
is a file. A name that stands for nothing that is there is an error of the settings. The program of
an engine is what some name was resolved to. -/
theorem a_program_is_resolved_to_what_its_name_stands_for {h : Surroundings}
    (hf : h.files.IsSound) (name : String) :
    (∀ p, h.resolveProgram name = .ok p → ∃ path l, h.StandsFor name path ∧
      h.files.find path = .ok l ∧ h.files.IsCanonical p l ∧
        (h.files.isFile p = true ↔ (1 < partCount name → h.files.isFile name = true))) ∧
    (∀ path l, h.StandsFor name path → h.files.find path = .ok l →
      h.resolveProgram name = .ok (h.files.pathOf l)) ∧
    (∀ e, h.resolveProgram name = .error e → ∃ s, e = .config s) ∧
    ∀ config e program, Engine.make h config = .ok e → e.program? = some program →
      ∃ word, h.resolveProgram word = .ok program := by
  refine ⟨?_, ?_, fun e => resolveProgram_eq_error, fun _ _ _ => Engine.exists_name_of_make⟩
  · intro p hp
    obtain ⟨path, l, hpath, hfind, rfl⟩ := resolveProgram_eq_ok_iff.mp hp
    have hcanonical := Files.isCanonical_of_find hf hfind
    refine ⟨path, l, hpath, hfind, hcanonical, ?_⟩
    rw [Files.isFile_congr (hcanonical.found.trans hfind.symm)]
    cases hpath with
    | path hparts => exact ⟨fun hfile _ => hfile, fun hfile => hfile hparts⟩
    | search hone _ _ hfile =>
      refine ⟨fun _ hparts => ?_, fun _ => hfile⟩
      omega
  · intro path l hpath hfind
    exact resolveProgram_eq_ok_iff.mpr ⟨path, l, hpath, hfind, rfl⟩

/-! ## A link to a program -/

/-- A host with a directory `d` and a program that is linked to from the search path. -/
def hostWithTool : Surroundings where
  files := ⟨"/work", [(["bin"], .dir), (["bin", "tool"], .link "../opt/tool"), (["opt"], .dir),
    (["opt", "tool"], .file [] 0o755), (["d"], .dir)]⟩
  searchPath := ["none", "bin"]

theorem hostWithTool_isSound : hostWithTool.files.IsSound := by
  refine ⟨⟨["work"], ?_, rfl⟩, ?_⟩ <;> decide

/-- The program is looked for in the second directory, and its path is not that of the link. -/
theorem a_linked_program_is_resolved_to_its_own_path :
    hostWithTool.files.IsSound ∧ hostWithTool.resolveProgram "tool" = .ok "/work/opt/tool" ∧
      (∃ l, hostWithTool.files.IsCanonical "/work/opt/tool" l) ∧
      hostWithTool.files.isFile "/work/opt/tool" = true := by
  have hnone : hostWithTool.files.isFile (join "none" "tool") = false := by
    rw [Files.isFile, Files.findNode, Files.find_eq_walk (by decide) (by decide)]
    rfl
  have hfind : hostWithTool.files.find (join "bin" "tool") = .ok (.inside ["opt", "tool"]) := by
    rw [Files.find_eq_walk (by decide) (by decide)]
    rfl
  have hfile : hostWithTool.files.isFile (join "bin" "tool") = true :=
    Files.isFile_iff.mpr ⟨_, _, _, hfind, rfl⟩
  have hdirs : hostWithTool.directories = ["none"] ++ "bin" :: [] := rfl
  have hpath : hostWithTool.StandsFor "tool" (join "bin" "tool") :=
    .search (by decide) hdirs (by simpa using hnone) hfile
  obtain ⟨hresolved, hok, -, -⟩ :=
    a_program_is_resolved_to_what_its_name_stands_for hostWithTool_isSound "tool"
  have hprogram : hostWithTool.resolveProgram "tool" = .ok "/work/opt/tool" := hok _ _ hpath hfind
  obtain ⟨_, l, -, -, hcanonical, hfile⟩ := hresolved _ hprogram
  exact ⟨hostWithTool_isSound, hprogram, ⟨l, hcanonical⟩, hfile.mpr (by decide)⟩

/-- A name that is the path of a directory is resolved to the directory. -/
theorem a_directory_is_resolved_like_a_program :
    hostWithTool.resolveProgram "./d" = .ok "/work/d" ∧
      hostWithTool.files.findNode "/work/d" = .ok .dir ∧
      hostWithTool.files.isFile "/work/d" = false := by
  have hname : hostWithTool.files.find "./d" = .ok (.inside ["d"]) := by
    rw [Files.find_eq_walk (by decide) (by decide)]
    rfl
  have hfind : hostWithTool.files.find "/work/d" = .ok (.inside ["d"]) := by
    rw [Files.find_eq_walk (by decide) (by decide)]
    rfl
  refine ⟨resolveProgram_eq_ok_iff.mpr ⟨_, _, .path (by decide), hname, rfl⟩, ?_, ?_⟩
  · rw [Files.findNode, hfind]
    rfl
  · rw [Files.isFile, Files.findNode, hfind]
    rfl

end Surroundings

end Host

end EngineBench
