-- Definitions of benchmarks as text, in YAML or TOML.
import EngineBench.Definition.Benchmark
import EngineBench.Toml.Document
import EngineBench.Yaml.Document

namespace EngineBench.Definition

open Data (Decode Document Format Datum)
open Data.Decode (Draft Field field)

variable {σ : Type}

/-! ## The fields -/

def wordMax : Nat := UInt64.size - 1

def readText (f : Format σ) (d : Document σ) : Datum σ → Decode String := Decode.text f d "a string"

def readWord? (f : Format σ) (d : Document σ) : Datum σ → Decode (Option String) :=
  Decode.optional f d (readText f d)

def readPath? (f : Format σ) (d : Document σ) : Datum σ → Decode (Option String) :=
  Decode.optional f d (Decode.text f d "path string")

def readCount (f : Format σ) (d : Document σ) : Datum σ → Decode Nat :=
  Decode.natural f d wordMax "usize"

def entryFields (f : Format σ) (d : Document σ) : List (Field σ (Draft Entry)) :=
  [field "type" false (readText f d) fun v e => { e with engine := v },
   field "clientpath" false (readWord? f d) fun v e => { e with clientPath := v },
   field "threads" false (readCount f d) fun v e => { e with threads := v },
   field "iterations" false (readCount f d) fun v e => { e with iterations := v },
   field "logDriver" false (readWord? f d) fun v e => { e with logDriver := v },
   field "logOpts" true (Decode.table f d) fun v e => { e with logOptions := v },
   field "cgroupPath" false (readWord? f d) fun v e => { e with cgroupPath := v },
   field "streamStats" true (Decode.bool f d) fun v e => { e with streamStats := v },
   field "statsIntervalSec" false (Decode.optional f d (Decode.natural f d wordMax "u64"))
     fun v e => { e with statsSeconds := v },
   field "sandboxConfig" false (readPath? f d) fun v e => { e with sandboxFile := v },
   field "containerConfig" false (readPath? f d) fun v e => { e with containerFile := v }]

def blankEntry : Entry := ⟨"", none, 0, 0, none, [], none, false, none, none, none⟩

def readEntry (f : Format σ) (d : Document σ) : Datum σ → Decode Entry :=
  Decode.record f d "struct DriverEntry" (entryFields f d) ["type", "threads", "iterations"]
    blankEntry

def benchmarkFields (f : Format σ) (d : Document σ) : List (Field σ (Draft Benchmark)) :=
  [field "name" false (readText f d) fun v b => { b with name := v },
   field "image" true (readText f d) fun v b => { b with image := v },
   field "rootfs" false (readWord? f d) fun v b => { b with rootfs := v },
   field "command" false (readWord? f d) fun v b => { b with command := v },
   field "detached" true (Decode.bool f d) fun v b => { b with detached := v },
   field "drivers" false (Decode.sequence f d (readEntry f d)) fun v b => { b with entries := v },
   field "commands" false (Decode.sequence f d (readText f d)) fun v b => { b with commands := v }]

def blankBenchmark : Benchmark := ⟨"", "", none, none, false, [], []⟩

def readBenchmark (f : Format σ) (d : Document σ) : Datum σ → Decode Benchmark :=
  Decode.record f d "struct Benchmark" (benchmarkFields f d) ["name", "drivers", "commands"]
    blankBenchmark

/-! ## Texts -/

def Language.decode : Language → List Char → Except Data.Fault Benchmark
  | .yaml => Yaml.decode (readBenchmark Yaml.format)
  | .toml => Toml.decode (readBenchmark Toml.format)

/-- Reads a definition and checks it. -/
def Benchmark.ofText (language : Language) (text : String) : Attempt Benchmark := do
  match language.decode text.toList with
  | .error fault => throw (.ofProblem (.unreadable language fault))
  | .ok b =>
    b.check
    return b

end EngineBench.Definition
