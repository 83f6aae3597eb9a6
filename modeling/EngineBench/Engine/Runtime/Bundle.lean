-- Unpacked bundles: the directory of a container's root file system and its configuration.
import EngineBench.Host.Search
import EngineBench.Engine.Container

namespace EngineBench.Bundle

def configPath (bundle : String) : String := Host.join bundle "config.json"

def rootfsPath (bundle : String) : String := Host.join bundle "rootfs"

/-- A bundle is a directory with a configuration file. -/
def check (files : Host.Files) (bundle : String) : Except EngineError Unit :=
  if files.isFile (configPath bundle) then .ok ()
  else .error (.config (.notABundle bundle (configPath bundle)))

/-- The handle of a container in a bundle. -/
def create (files : Host.Files) (w : Wanted) (command : Option String) (detached : Bool) :
    Except EngineError Container := do
  check files w.image
  return ⟨w.name, w.image, command, detached, w.trace, none⟩

end EngineBench.Bundle
