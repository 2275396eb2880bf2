import ImageTools.Emulator
import ImageTools.Script.Step

/-!
# The script set of an output tree

Six scripts and a debugger file: `sync.sh` fills the disk image from the
base tree and the built tree, `build.sh` builds, `run.sh` and `debug.sh`
boot the image, `all.sh` and `dll.sh` do everything in turn.
-/

set_option autoImplicit false

namespace ImageTools

structure GeneratedFile where
  name : String
  contents : String
  deriving DecidableEq, Repr

namespace ScriptSet

def scriptNames : List String :=
  ["sync.sh", "build.sh", "run.sh", "debug.sh", "all.sh", "dll.sh"]

def debuggerFileName : String := ".gdbinit"

/-- Mounts the image, copies the base tree and then the built tree into it,
so that the built one wins, and unmounts it again on every way out. -/
def sync (base out : String) : Script :=
  let mountpoint := base ++ "/mountpoint"
  { elevated := true
    steps := [
      .makeDirectory (base ++ "/base/dev"),
      .makeDirectory (base ++ "/base/proc"),
      .blank,
      .makeDirectory mountpoint,
      .mount (Emulator.diskImagePath out) mountpoint,
      .abortOnFailure ("Can't mount one.img to " ++ mountpoint),
      .makeDirectory (mountpoint ++ "/boot"),
      .makeDirectory (mountpoint ++ "/proc"),
      .copyTree (base ++ "/base") mountpoint,
      .unmountOnFailure mountpoint ("Can't copy " ++ base ++ "/base to " ++ mountpoint),
      .copyTree (out ++ "/base") mountpoint,
      .unmountOnFailure mountpoint ("Can't copy " ++ out ++ "/base to " ++ mountpoint),
      .unmount mountpoint,
      .abortOnFailure ("Can't umount " ++ mountpoint),
      .announce "Sync"] }

def checkedChain (commands : List (List String × String)) : Script :=
  commands.foldl (fun s c => s.addChecked c.1 c.2) {}

def build (arch : Arch) : Script :=
  (checkedChain [(["ninja"], "Can't build for arch: " ++ arch.tag)]).add
    (.announce ("Build for arch: " ++ arch.tag))

def chain (last message : String) : Script :=
  checkedChain [(["./build.sh"], message), (["./sync.sh"], message), ([last], message)]

def debuggerFile (out : String) : String :=
  "file " ++ Emulator.kernelPath out ++ "\ntarget remote :" ++ toString Emulator.debugPort ++ "\n"

def render (arch : Arch) (baseDir outDir : String) (s : Settings) : List GeneratedFile :=
  let base := Path.dropSlash baseDir
  let out := Path.dropSlash outDir
  let emulator := Emulator.ofArch arch out s
  [ { name := "sync.sh", contents := (sync base out).render },
    { name := "build.sh", contents := (build arch).render },
    { name := "run.sh",
      contents := (checkedChain [(emulator.words, "Run command failed")]).render },
    { name := "debug.sh",
      contents :=
        (checkedChain [(emulator.withDebugStub.words, "Debug Run command failed")]).render },
    { name := "all.sh", contents := (chain "./run.sh" "All command failed").render },
    { name := "dll.sh", contents := (chain "./debug.sh" "Debug All command failed").render },
    { name := debuggerFileName, contents := debuggerFile out } ]

end ScriptSet

end ImageTools
