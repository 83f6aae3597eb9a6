-- The runtime specification that a container is made from: the one of its bundle as it stands, or
-- with the arguments of its process replaced. Every cause for which there is none has its own
-- failure, and the file counts before the command.
import EngineBench.Proofs.WrittenValues

namespace EngineBench

open JsonValue (ChangedAt ofBytes?)

namespace Containerd

/-- A specification with a process that a command can be put into. -/
def HasProcess (v : JsonValue) : Prop :=
  ∃ process, v.member? "process" = some process ∧ process.isObject = true

/-- Where the arguments of the process stand. -/
def argsPlace : List JsonValue.Step := [.member "process", .member "args"]

variable {files : Host.Files} {bundle : String} {bytes : List UInt8} {v : JsonValue}

/-! ## From the file -/

theorem spec_of_unreadable {cause : OsError}
    (h : files.read (Bundle.configPath bundle) = .error cause) (command : Option String) :
    spec files bundle command = .error (.io cause) := by
  rw [spec, h]
  rfl

theorem spec_of_malformed (h : files.read (Bundle.configPath bundle) = .ok bytes)
    (hbytes : ofBytes? bytes = none) (command : Option String) :
    spec files bundle command = .error (.config (.badSpec bundle .malformed)) := by
  rw [spec, h]
  simp only [bind, Except.bind, pure, Except.pure, throw, throwThe, MonadExceptOf.throw]
  cases hdecode : Text.Utf8.decode bytes with
  | error fault => rfl
  | ok text =>
    cases hparse : JsonValue.parse? text.toList with
    | none => simp only [hparse]
    | some v =>
      have hsome : ofBytes? bytes = some v := by
        rw [ofBytes?, hdecode]
        exact hparse
      rw [hbytes] at hsome
      cases hsome

theorem spec_of_bytes (h : files.read (Bundle.configPath bundle) = .ok bytes)
    (hbytes : ofBytes? bytes = some v) : spec files bundle none = .ok v := by
  obtain ⟨text, hdecode, hparse⟩ := Option.bind_eq_some_iff.mp hbytes
  rw [spec, h]
  simp only [bind, Except.bind, pure, Except.pure, throw, throwThe, MonadExceptOf.throw]
  cases hresult : Text.Utf8.decode bytes with
  | error fault =>
    rw [hresult] at hdecode
    cases hdecode
  | ok text' =>
    rw [hresult] at hdecode
    cases hdecode
    simp only [hparse]

/-! ## With a command -/

theorem setArgs_of_process {process : JsonValue} (words : List String)
    (hprocess : v.member? "process" = some process) (hobject : process.isObject = true) :
    setArgs words v =
      some (v.setMember "process" (process.setMember "args" (textList words))) := by
  simp only [setArgs, hprocess, hobject, if_true, textList]

theorem setArgs_of_no_process (words : List String) (h : ¬ HasProcess v) :
    setArgs words v = none := by
  unfold setArgs
  split
  · rename_i process hprocess
    rw [if_neg (fun hobject => h ⟨process, hprocess, hobject⟩)]
  · rfl

/-- A command changes the arguments of a specification with a process, and nothing else. The value
stays one that a text can spell. -/
theorem exists_setArgs (words : List String) (h : HasProcess v)
    (hfits : v.Fits JsonValue.depthLimit) :
    ∃ w, setArgs words v = some w ∧ ChangedAt argsPlace (textList words) v w ∧
      w.Fits JsonValue.depthLimit := by
  obtain ⟨process, hprocess, hobject⟩ := h
  have hwords : (textList words).Fits 125 := by
    refine .list fun w hw => ?_
    obtain ⟨word, -, rfl⟩ := List.mem_map.mp hw
    exact .string word
  refine ⟨_, setArgs_of_process words hprocess hobject, ?_, ?_⟩
  · exact (JsonValue.changedAt_setMember hobject "args" _).setMember hprocess
  · exact hfits.setMember ((hfits.member hprocess).setMember hwords "args") "process"

theorem encoded_of_spec {command : Option String} (h : spec files bundle command = .ok v) :
    encoded files bundle command = .ok (Text.Utf8.encode v.text) := by
  rw [encoded, h]
  rfl

theorem encoded_of_error {command : Option String} {cause : EngineError}
    (h : spec files bundle command = .error cause) :
    encoded files bundle command = .error cause := by
  rw [encoded, h]
  rfl

end Containerd

open Containerd in
/-- The bytes of a specification decode to what the file of the bundle holds, with the arguments of
its process replaced if there is a command; a file that cannot be read or decoded, a command that
cannot be split and a specification without a process each have their own failure. -/
theorem a_command_replaces_the_arguments_and_nothing_else (files : Host.Files) (bundle : String) :
    (∀ cause, files.read (Bundle.configPath bundle) = .error cause →
      ∀ command, encoded files bundle command = .error (.io cause)) ∧
    ∀ bytes, files.read (Bundle.configPath bundle) = .ok bytes →
      (ofBytes? bytes = none →
        ∀ command, encoded files bundle command = .error (.config (.badSpec bundle .malformed))) ∧
      ∀ v, ofBytes? bytes = some v →
        (∃ out, encoded files bundle none = .ok out ∧
          (v.RealsReadBack → ofBytes? out = some v)) ∧
        ∀ command,
          (Text.Words.split command = none →
            encoded files bundle (some command) = .error (.config (.unsplittable command))) ∧
          ∀ words, Text.Words.split command = some words →
            (¬ HasProcess v → encoded files bundle (some command) =
              .error (.config (.specWithoutProcess bundle))) ∧
            (HasProcess v → ∃ out, encoded files bundle (some command) = .ok out ∧
              (v.RealsReadBack →
                ∃ w, ofBytes? out = some w ∧ ChangedAt argsPlace (textList words) v w)) := by
  refine ⟨fun cause h command => encoded_of_error (spec_of_unreadable h command), ?_⟩
  intro bytes hread
  constructor
  · intro hbytes command
    exact encoded_of_error (spec_of_malformed hread hbytes command)
  intro v hbytes
  have hfits := JsonValue.fits_of_bytes? hbytes
  have hplain := spec_of_bytes hread hbytes
  refine ⟨⟨_, encoded_of_spec hplain, JsonValue.ofBytes?_encode hfits⟩, fun command => ⟨?_, ?_⟩⟩
  · intro hsplit
    refine encoded_of_error ?_
    rw [spec_of_readable hplain, Override.words_of_none hsplit]
    rfl
  intro words hsplit
  constructor
  · intro hnone
    refine encoded_of_error ?_
    rw [spec_of_readable hplain, Override.words_of_some hsplit]
    simp only [Except.bind, setArgs_of_no_process words hnone]
  · intro hprocess
    obtain ⟨w, hargs, hchanged, hw⟩ := exists_setArgs words hprocess hfits
    have hspec : spec files bundle (some command) = .ok w := by
      rw [spec_of_readable hplain, Override.words_of_some hsplit]
      simp only [Except.bind, hargs]
    refine ⟨_, encoded_of_spec hspec, fun hreals => ⟨w, ?_, hchanged⟩⟩
    exact JsonValue.ofBytes?_encode hw
      (hchanged.realsReadBack hreals (JsonValue.realsReadBack_textList words))

/-- A specification whose process runs a shell. -/
def shellSpec : JsonValue :=
  (JsonValue.object []).setMember "process"
    ((JsonValue.object []).setMember "args" (textList ["sh"]))

theorem fits_shellSpec : shellSpec.Fits JsonValue.depthLimit := by
  have hempty : ∀ depth, (JsonValue.object []).Fits (depth + 1) := fun _ => .object nofun .nil
  have hwords : (textList ["sh"]).Fits 125 := .list fun w hw => by
    cases List.mem_singleton.mp hw
    exact .string "sh"
  exact (hempty 126).setMember ((hempty 125).setMember hwords "args") "process"

theorem realsReadBack_shellSpec : shellSpec.RealsReadBack := by
  have hempty : (JsonValue.object []).RealsReadBack :=
    JsonValue.realsReadBack_of_children nofun fun step w hw => by cases step <;> cases hw
  have hprocess := (JsonValue.changedAt_setMember rfl "args" _).realsReadBack hempty
    (JsonValue.realsReadBack_textList ["sh"])
  exact (JsonValue.changedAt_setMember rfl "process" _).realsReadBack hempty hprocess

/-- A host with a bundle that runs a shell, a bundle with an empty file and one without a
process. -/
def hostWithBundles : Host.Files :=
  ⟨"/h", [(["b"], .dir), (["b", "config.json"], .file (Text.Utf8.encode shellSpec.text) 0o644),
    (["c"], .dir), (["c", "config.json"], .file [] 0o644),
    (["d"], .dir), (["d", "config.json"], .file (Text.Utf8.encode JsonValue.null.text) 0o644)]⟩

theorem read_hostWithBundles :
    hostWithBundles.read (Bundle.configPath "b") = .ok (Text.Utf8.encode shellSpec.text) ∧
    hostWithBundles.read (Bundle.configPath "c") = .ok [] ∧
    hostWithBundles.read (Bundle.configPath "d") = .ok (Text.Utf8.encode JsonValue.null.text) ∧
    hostWithBundles.read (Bundle.configPath "e") = .error .notFound := by
  refine ⟨?_, ?_, ?_, ?_⟩
  all_goals
    rw [Host.Files.read, Host.Files.findNode, Host.Files.find, if_neg (by decide),
      if_neg (by simp [Bundle.configPath, Host.join])]
    rfl

open Containerd in
theorem a_shell_becomes_a_sleep_and_keeps_the_rest :
    encoded hostWithBundles "e" none = .error (.io .notFound) ∧
    encoded hostWithBundles "c" none = .error (.config (.badSpec "c" .malformed)) ∧
    encoded hostWithBundles "d" (some "sleep 30") = .error (.config (.specWithoutProcess "d")) ∧
    encoded hostWithBundles "b" (some "sleep '30") =
      .error (.config (.unsplittable "sleep '30")) ∧
    (∃ out, encoded hostWithBundles "b" none = .ok out ∧ ofBytes? out = some shellSpec) ∧
    ∃ out w, encoded hostWithBundles "b" (some "sleep 30") = .ok out ∧ ofBytes? out = some w ∧
      ChangedAt argsPlace (textList ["sleep", "30"]) shellSpec w := by
  obtain ⟨hreadb, hreadc, hreadd, hreade⟩ := read_hostWithBundles
  have hshell := JsonValue.ofBytes?_encode fits_shellSpec realsReadBack_shellSpec
  have hnull := JsonValue.ofBytes?_encode .null
    (JsonValue.realsReadBack_of_children nofun fun step w hw => by cases step <;> cases hw)
  have hnone : ¬ HasProcess .null := by
    rintro ⟨process, hprocess, -⟩
    cases hprocess
  have hsplit : Text.Words.split "sleep 30" = some ["sleep", "30"] := by decide +kernel
  have hb := (a_command_replaces_the_arguments_and_nothing_else hostWithBundles "b").2 _ hreadb
  have hc := (a_command_replaces_the_arguments_and_nothing_else hostWithBundles "c").2 _ hreadc
  have hd := (a_command_replaces_the_arguments_and_nothing_else hostWithBundles "d").2 _ hreadd
  have he := (a_command_replaces_the_arguments_and_nothing_else hostWithBundles "e").1 _ hreade
  obtain ⟨hplain, hcommand⟩ := hb.2 shellSpec hshell
  refine ⟨he none, hc.1 rfl none, (((hd.2 .null hnull).2 "sleep 30").2 _ hsplit).1 hnone,
    (hcommand "sleep '30").1 (by decide +kernel), ?_, ?_⟩
  · obtain ⟨out, hout, hdecoded⟩ := hplain
    exact ⟨out, hout, hdecoded realsReadBack_shellSpec⟩
  · obtain ⟨out, hout, hdecoded⟩ := ((hcommand "sleep 30").2 _ hsplit).2 ⟨_, rfl, rfl⟩
    obtain ⟨w, hw, hchanged⟩ := hdecoded realsReadBack_shellSpec
    exact ⟨out, w, hout, hw, hchanged⟩

end EngineBench
