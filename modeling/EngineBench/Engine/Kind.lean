-- The engines that a benchmark can drive, and their names.
import EngineBench.Text.Lowercase

namespace EngineBench

inductive Kind where
  | dockerCli
  | docker
  | runc
  | crun
  | youki
  | containerd
  | ctr
  | cri
  | null
  deriving DecidableEq, Repr

namespace Kind

def all : List Kind := [dockerCli, docker, runc, crun, youki, containerd, ctr, cri, null]

/-- Engines that run an unpacked bundle and not an image from a registry. -/
def needsBundle : Kind → Bool
  | runc | crun | youki | ctr | containerd => true
  | dockerCli | docker | cri | null => false

/-- The name shown to the user. -/
def name : Kind → String
  | dockerCli => "DockerCLI"
  | docker => "Docker"
  | runc => "Runc"
  | crun => "Crun"
  | youki => "Youki"
  | containerd => "Containerd"
  | ctr => "Ctr"
  | cri => "CRI"
  | null => "Null"

/-- The word that stands for the engine in a benchmark, in lowercase. -/
def word : Kind → String
  | dockerCli => "dockercli"
  | docker => "docker"
  | runc => "runc"
  | crun => "crun"
  | youki => "youki"
  | containerd => "containerd"
  | ctr => "ctr"
  | cri => "cri"
  | null => "null"

/-- The engine that a text names, letter case aside. -/
def parse? (text : String) : Option Kind := all.find? fun k => Text.isWord text k.word

theorem mem_all (k : Kind) : k ∈ all := by cases k <;> decide

end Kind

end EngineBench
