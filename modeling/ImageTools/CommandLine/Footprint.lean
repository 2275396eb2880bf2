import ImageTools.Archiver
import ImageTools.CommandLine.Command
import ImageTools.ScriptSet

/-!
# What a command looks at

The paths a command reads or writes and the programs it starts are known
from its words and the settings, before it runs. Whoever runs it has to hand
over no other files.
-/

set_option autoImplicit false

namespace ImageTools.CommandLine.Command

def paths : Command → List String
  | .mergeLibs _ target sources => target :: sources
  | .buildScripts _ _ outDir _ =>
    (ScriptSet.scriptNames ++ [ScriptSet.debuggerFileName]).map (Path.join outDir)
  | _ => []

def programs (s : Settings) : Command → List String
  | .mergeLibs _ _ _ => Arch.all.map Archiver.defaultProgram
  | .doctor _ =>
    Arch.all.flatMap (fun a => [Archiver.defaultProgram a, (Emulator.ofArch a "." s).program]) ++
      hostTools
  | _ => []

end ImageTools.CommandLine.Command
