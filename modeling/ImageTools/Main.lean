import ImageTools.CommandLine.Footprint
import ImageTools.CommandLine.Run
import ImageTools.FileSystem.Tree
import ImageTools.Tool.Launch

/-!
# The program

What a command looks at is read from the host, the command runs on that, and
what it has changed is written back. The programs that are known by themselves
stand in for those of the host. The host does not show permission bits
here, so files count as plain ones, and those on the search path as programs;
a file that cannot be read counts as missing.
-/

set_option autoImplicit false

namespace ImageTools.Program

def addPath (mode : Nat) (fs : FileSystem) (path : String) : IO FileSystem := do
  try
    let real ← IO.FS.realPath path
    let item ←
      if ← real.isDir then pure FileSystem.Item.directory
      else FileSystem.Item.file mode <$> IO.FS.readBinFile real
    let fs := fs.place [(real.toString, item)]
    return if fs.pathExists path then fs else fs.place [(path, .link real.toString)]
  catch _ => return fs

def addPaths (mode : Nat) (fs : FileSystem) (paths : List String) : IO FileSystem :=
  paths.foldlM (fun fs path => (Path.ancestors path).reverse.foldlM (addPath mode) fs) fs

def readHost (here : String) (env : Environment) (searchPath words : List String) :
    IO FileSystem := do
  let fs ← addPaths 0o644 { Tool.systemFiles with workDir := here }
    ((Path.ancestors here).map Manifest.candidate)
  match CommandLine.read words with
  | .run flags command =>
    let settings := match Manifest.resolve fs here flags env with
      | .ok resolved => resolved.settings
      | .error _ => {}
    let fs ← addPaths 0o644 fs (command.paths.map (Path.join here))
    let programs := (command.programs settings).flatMap (Tool.places searchPath)
    addPaths 0o755 fs (programs.map (Path.join here))
  | _ => return fs

def accessRight (bits : Nat) : IO.AccessRight :=
  { read := bits &&& 4 != 0, write := bits &&& 2 != 0, execution := bits &&& 1 != 0 }

def fileRight (mode : Nat) : IO.FileRight :=
  { user := accessRight (mode / 64), group := accessRight (mode / 8), other := accessRight mode }

def writeChange (change : String × Option FileSystem.Sight) : IO Unit := do
  let path := "/" ++ change.1
  match change.2 with
  | none => IO.FS.removeFile path
  | some .directory => IO.FS.createDirAll path
  | some (.link _) => pure ()
  | some (.file mode bytes) =>
    IO.FS.writeBinFile path bytes
    if mode &&& 0o111 != 0 then IO.setAccessRights path (fileRight mode)

def finish : CommandLine.Report → IO UInt32
  | .usage => do
    IO.eprint CommandLine.usageText
    return 2
  | .help => do
    IO.print CommandLine.usageText
    return 0
  | .ended status output errors => do
    IO.print output
    IO.eprint errors
    return status.toUInt32

def passedOn (root emulator : Option String) : Tool.Surrounding :=
  (root.toList.map fun v => (Settings.rootVariable, v)) ++
    emulator.toList.map fun v => (Settings.emulatorVariable, v)

def run (args : List String) : IO UInt32 := do
  let here := (← IO.currentDir).toString
  let root ← IO.getEnv Settings.rootVariable
  let emulator ← IO.getEnv Settings.emulatorVariable
  let env : Environment := fun name =>
    if name = Settings.rootVariable then root
    else if name = Settings.emulatorVariable then emulator
    else none
  let searchPath := ((← IO.getEnv "PATH").getD "").splitOn ":"
  let first ← IO.rand 0 1000000000
  let before ← readHost here env searchPath args
  let surroundings : CommandLine.Surroundings :=
    { env := env, runner := Tool.runner searchPath (passedOn root emulator)
      draw := fun n => Directive.variablePart (first + n) }
  let (report, host) := CommandLine.run surroundings args { files := before }
  let changes := FileSystem.changes (before.view "/") (host.files.view "/")
  try
    changes.forM writeChange
    finish report
  catch e =>
    IO.eprintln ("error: " ++ toString e)
    return 1

end ImageTools.Program

def main (args : List String) : IO UInt32 := ImageTools.Program.run args
