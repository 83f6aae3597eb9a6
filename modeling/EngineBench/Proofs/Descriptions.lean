-- The short description of a Docker engine, from what the client prints about versions and about
-- the host. The first two sections about versions are the client's and the engine's. What the
-- sections behind them say about versions is added to the engine's part, which was to hold the
-- engine's own version only.
import EngineBench.Engine.Docker.Client
import Mathlib

namespace EngineBench.DockerClient

/-! ## What the lines say -/

/-- What a line says about a version. -/
inductive Stated where
  | version (value : List Char)
  | api (value : List Char)
  deriving DecidableEq, Repr

def stated? (line : List Char) : Option Stated :=
  match setting? line with
  | some ("Version", value) => some (.version value)
  | some ("API version", value) => some (.api value)
  | _ => none

/-- How a part of a description shows it. -/
def Stated.text : Stated → List Char
  | version value => value
  | api value => "|API:".toList ++ value

theorem Stated.text_version (value : List Char) : (version value).text = value := rfl

theorem Stated.text_api (value : List Char) : (api value).text = "|API:".toList ++ value := rfl

/-- A field of a description, from a line about the host. -/
def field? (line : List Char) : Option (List Char) :=
  match setting? line with
  | some ("Kernel Version", value) => some ("|Kernel:".toList ++ value)
  | some ("Storage Driver", value) => some ("|Storage:".toList ++ value)
  | some ("Backing Filesystem", value) => some ("|BackingFS:".toList ++ value)
  | _ => none

/-- The lines say what the version and then what the interface of one program is, and nothing
else about versions. -/
def Gives (lines : List (List Char)) (version api : String) : Prop :=
  lines.filterMap stated? = [.version version.toList, .api api.toList]

/-- The text of all that some lines say about versions. -/
def statedText (lines : List (List Char)) : List Char :=
  (lines.filterMap stated?).flatMap Stated.text

/-- The fields of a description that a text about the host has, in its own order. -/
def fieldsText (info : String) : List Char :=
  ((Text.lines info.toList).filterMap field?).flatten

/-! ## What a line adds -/

def Description.add (d : Description) : Stated → Description
  | .version value =>
    if d.client.isEmpty then { d with client := value } else { d with server := d.server ++ value }
  | .api value =>
    if d.sawClientApi then { d with server := d.server ++ "|API:".toList ++ value }
    else { d with client := d.client ++ "|API:".toList ++ value, sawClientApi := true }

theorem addVersion_eq (d : Description) (line : List Char) :
    d.addVersion line = (stated? line).elim d d.add := by
  fun_cases stated? line with
  | case1 value h => simp [Description.addVersion, Description.add, h]
  | case2 value h => simp [Description.addVersion, Description.add, h]
  | case3 hversion hapi =>
    unfold Description.addVersion
    split
    · rename_i h
      exact absurd h (hversion _)
    · rename_i h
      exact absurd h (hapi _)
    · rfl

/-- Only what the lines say about versions matters. -/
theorem foldl_addVersion (lines : List (List Char)) (d : Description) :
    lines.foldl Description.addVersion d = (lines.filterMap stated?).foldl Description.add d := by
  rw [List.foldl_filterMap]
  congr 1
  funext d line
  rw [addVersion_eq]
  cases stated? line <;> rfl

/-- Once the client has both, each line adds to the server. -/
theorem foldl_add_of_seen (said : List Stated) {d : Description} (hclient : d.client ≠ [])
    (hapi : d.sawClientApi = true) :
    said.foldl Description.add d = { d with server := d.server ++ said.flatMap Stated.text } := by
  induction said generalizing d with
  | nil => simp
  | cons s said ih =>
    have hadd : d.add s = { d with server := d.server ++ s.text } := by
      cases s with
      | version value => rw [Description.add, List.isEmpty_eq_false_iff.mpr hclient]; rfl
      | api value => rw [Description.add, hapi, List.append_assoc]; rfl
    have hrest := @ih { d with server := d.server ++ s.text } hclient hapi
    rw [List.foldl_cons, hadd, hrest, List.flatMap_cons, List.append_assoc]

theorem addInfo_eq (d : Description) (line : List Char) :
    d.addInfo line = { d with server := d.server ++ (field? line).getD [] } := by
  fun_cases field? line <;> simp [Description.addInfo, *]

theorem foldl_addInfo (lines : List (List Char)) (d : Description) :
    lines.foldl Description.addInfo d =
      { d with server := d.server ++ (lines.filterMap field?).flatten } := by
  induction lines generalizing d with
  | nil => simp
  | cons line lines ih =>
    rw [List.foldl_cons, ih, addInfo_eq]
    cases h : field? line with
    | none => simp [List.filterMap_cons_none h]
    | some field => simp [List.filterMap_cons_some h]

/-! ## Descriptions -/

/-- The short description of a client and an engine, with `rest` behind what the engine is. -/
def shortForm (clientVersion clientApi version api : String) (rest : List Char) : String :=
  "[CLIENT:" ++ clientVersion ++ "|API:" ++ clientApi ++ "][SERVER:" ++ version ++ "|API:" ++ api ++
    String.ofList rest ++ "]"

theorem shortForm_inj {clientVersion clientApi version api : String} {rest rest' : List Char} :
    shortForm clientVersion clientApi version api rest =
      shortForm clientVersion clientApi version api rest' ↔ rest = rest' := by
  unfold shortForm
  rw [String.append_left_inj, String.append_right_inj, String.ofList_inj]

/-- A line that says nothing about a version, or that it is empty. -/
def Silent (line : List Char) : Prop :=
  stated? line = none ∨ stated? line = some (.version [])

theorem statedText_eq_nil_iff (lines : List (List Char)) :
    statedText lines = [] ↔ ∀ line ∈ lines, Silent line := by
  simp only [statedText, List.flatMap_eq_nil_iff, List.mem_filterMap]
  constructor
  · intro hnil line hline
    cases h : stated? line with
    | none => exact .inl h
    | some s =>
      have htext := hnil s ⟨line, hline, h⟩
      cases s with
      | version value => exact .inr (h.trans (by rw [show value = [] from htext]))
      | api value => exact absurd (List.append_eq_nil_iff.mp htext).1 (by decide)
  · rintro hsilent s ⟨line, hline, h⟩
    obtain hnone | hempty := hsilent line hline
    · simp [hnone] at h
    · obtain rfl : .version [] = s := Option.some.inj (hempty.symm.trans h)
      rfl

section Sections

variable {client engine others : List (List Char)} {clientVersion clientApi version api : String}

/-- The first section is the client's part, and all that follows is the server's. -/
theorem foldl_addVersion_of_gives (of_client : Gives client clientVersion clientApi)
    (of_engine : Gives engine version api) :
    (client ++ engine ++ others).foldl Description.addVersion ⟨[], [], false⟩ =
      ⟨clientVersion.toList ++ "|API:".toList ++ clientApi.toList,
        version.toList ++ "|API:".toList ++ api.toList ++ statedText others, true⟩ := by
  rw [foldl_addVersion, List.filterMap_append, List.filterMap_append, of_client, of_engine,
    List.append_assoc, List.foldl_append]
  -- with its interface the client has a text even if its version is empty, so it takes in no other
  have hclient :
      [Stated.version clientVersion.toList, .api clientApi.toList].foldl Description.add
        ⟨[], [], false⟩ =
      ⟨clientVersion.toList ++ "|API:".toList ++ clientApi.toList, [], true⟩ := rfl
  rw [hclient, foldl_add_of_seen _ (by simp) rfl]
  simp only [statedText, List.flatMap_append, List.flatMap_cons, List.flatMap_nil,
    Stated.text_version, Stated.text_api, List.append_assoc, List.nil_append, List.append_nil]

theorem describe_of_gives {text : String}
    (sections : Text.lines text.toList = client ++ engine ++ others)
    (of_client : Gives client clientVersion clientApi) (of_engine : Gives engine version api)
    (info : String) :
    describe text info =
      shortForm clientVersion clientApi version api (statedText others ++ fieldsText info) := by
  unfold describe shortForm fieldsText
  rw [sections, foldl_addVersion_of_gives of_client of_engine]
  simp only [foldl_addInfo, String.ofList_append, String.ofList_toList, String.append_assoc]

/-- Every version that a section behind the engine's gives is added to the engine's part, so the
description is as it should be if and only if those sections are silent, and a text that goes on
behind the engine's section has the same description only if it goes on silently. -/
theorem the_server_part_takes_in_every_further_version {text : String}
    (sections : Text.lines text.toList = client ++ engine ++ others)
    (of_client : Gives client clientVersion clientApi) (of_engine : Gives engine version api)
    (info : String) :
    describe text info =
        shortForm clientVersion clientApi version api (statedText others ++ fieldsText info) ∧
      (describe text info = shortForm clientVersion clientApi version api (fieldsText info) ↔
        ∀ line ∈ others, Silent line) ∧
      (text.toList.getLast? = some '\n' → ∀ more,
        (describe (text ++ more) info = describe text info ↔
          ∀ line ∈ Text.lines more.toList, Silent line)) := by
  have hdescribe := describe_of_gives sections of_client of_engine info
  refine ⟨hdescribe, ?_, ?_⟩
  · rw [hdescribe, shortForm_inj, List.append_left_eq_self, statedText_eq_nil_iff]
  · intro ended more
    have hmore : Text.lines (text ++ more).toList =
        client ++ engine ++ (others ++ Text.lines more.toList) := by
      rw [String.toList_append, Text.lines_append ended, sections, List.append_assoc]
    rw [hdescribe, describe_of_gives hmore of_client of_engine info, shortForm_inj,
      List.append_cancel_right_eq, ← statedText_eq_nil_iff]
    simp [statedText]

end Sections

/-! ## A host with all its parts -/

def sampleClient : String :=
  "Client: Docker Engine - Community\n Version:           24.0.7\n API version:       1.43\n\n"

def sampleEngine : String :=
  "Server: Docker Engine - Community\n Engine:\n  Version:          24.0.7\n" ++
  "  API version:      1.43 (minimum version 1.12)\n"

/-- The programs the engine starts, with versions of their own. -/
def sampleParts : String :=
  " containerd:\n  Version:          1.6.24\n runc:\n  Version:          1.1.9\n" ++
  " docker-init:\n  Version:          0.19.0\n"

def sampleInfo : String :=
  "Server:\n Storage Driver: overlay2\n  Backing Filesystem: extfs\n" ++
  " Kernel Version: 6.5.0-14-generic\n"

theorem sampleClient_gives : Gives (Text.lines sampleClient.toList) "24.0.7" "1.43" := by
  unfold Gives
  cbv

theorem sampleEngine_gives :
    Gives (Text.lines sampleEngine.toList) "24.0.7" "1.43 (minimum version 1.12)" := by
  unfold Gives
  cbv

theorem fieldsText_sampleInfo : fieldsText sampleInfo =
    "|Storage:overlay2|BackingFS:extfs|Kernel:6.5.0-14-generic".toList := by
  cbv

theorem lines_sample : Text.lines (sampleClient ++ sampleEngine).toList =
    Text.lines sampleClient.toList ++ Text.lines sampleEngine.toList ++ [] := by
  have ended : sampleClient.toList.getLast? = some '\n' := by cbv
  rw [String.toList_append, Text.lines_append ended, List.append_nil]

theorem a_host_with_no_parts_is_described_as_it_is :
    Text.lines (sampleClient ++ sampleEngine).toList =
        Text.lines sampleClient.toList ++ Text.lines sampleEngine.toList ++ [] ∧
      Gives (Text.lines sampleClient.toList) "24.0.7" "1.43" ∧
      Gives (Text.lines sampleEngine.toList) "24.0.7" "1.43 (minimum version 1.12)" ∧
      describe (sampleClient ++ sampleEngine) sampleInfo =
        shortForm "24.0.7" "1.43" "24.0.7" "1.43 (minimum version 1.12)"
          "|Storage:overlay2|BackingFS:extfs|Kernel:6.5.0-14-generic".toList := by
  have h := the_server_part_takes_in_every_further_version lines_sample sampleClient_gives
    sampleEngine_gives sampleInfo
  refine ⟨lines_sample, sampleClient_gives, sampleEngine_gives, ?_⟩
  rw [← fieldsText_sampleInfo]
  exact h.2.1.mpr (by simp)

/-- The versions of its parts stand right behind the engine's, as if they were the engine's too. -/
theorem the_parts_of_a_host_spoil_its_description :
    Gives (Text.lines sampleClient.toList) "24.0.7" "1.43" ∧
      Gives (Text.lines sampleEngine.toList) "24.0.7" "1.43 (minimum version 1.12)" ∧
      Text.lines (sampleClient ++ sampleEngine ++ sampleParts).toList =
        Text.lines sampleClient.toList ++ Text.lines sampleEngine.toList ++
          Text.lines sampleParts.toList ∧
      describe (sampleClient ++ sampleEngine ++ sampleParts) sampleInfo =
        shortForm "24.0.7" "1.43" "24.0.7" "1.43 (minimum version 1.12)"
          "1.6.241.1.90.19.0|Storage:overlay2|BackingFS:extfs|Kernel:6.5.0-14-generic".toList ∧
      describe (sampleClient ++ sampleEngine ++ sampleParts) sampleInfo ≠
        shortForm "24.0.7" "1.43" "24.0.7" "1.43 (minimum version 1.12)" (fieldsText sampleInfo) ∧
      describe (sampleClient ++ sampleEngine ++ sampleParts) sampleInfo ≠
        describe (sampleClient ++ sampleEngine) sampleInfo := by
  have ended : (sampleClient ++ sampleEngine).toList.getLast? = some '\n' := by
    have hengine : sampleEngine.toList.getLast? = some '\n' := by cbv
    rw [String.toList_append, List.getLast?_append, hengine, Option.some_or]
  have sections : Text.lines (sampleClient ++ sampleEngine ++ sampleParts).toList =
      Text.lines sampleClient.toList ++ Text.lines sampleEngine.toList ++
        Text.lines sampleParts.toList := by
    rw [String.toList_append, Text.lines_append ended, lines_sample, List.append_nil]
  have hparts : statedText (Text.lines sampleParts.toList) = "1.6.241.1.90.19.0".toList := by cbv
  have hwith := describe_of_gives sections sampleClient_gives sampleEngine_gives sampleInfo
  have hwithout := describe_of_gives lines_sample sampleClient_gives sampleEngine_gives sampleInfo
  refine ⟨sampleClient_gives, sampleEngine_gives, sections, ?_, ?_, ?_⟩
  · rw [hwith, hparts, fieldsText_sampleInfo, ← String.toList_append]
    rfl
  · rw [hwith, ne_eq, shortForm_inj, List.append_left_eq_self, hparts]
    decide
  · rw [hwith, hwithout, ne_eq, shortForm_inj, List.append_cancel_right_eq, hparts]
    decide

end EngineBench.DockerClient
