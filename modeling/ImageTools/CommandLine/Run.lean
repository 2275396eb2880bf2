import ImageTools.CommandLine.Command
import ImageTools.Merge
import ImageTools.ScriptSet.Write

/-!
# Running a command

Each command starts from the settings that hold in the working directory
and leaves a report: what it prints, or the one line that says what went
wrong. Nothing is printed before a command has succeeded.
-/

set_option autoImplicit false

namespace ImageTools.CommandLine

inductive Report
  | usage
  | help
  | ended (status : Nat) (output errors : String)
  deriving DecidableEq, Repr

structure Surroundings where
  env : Environment
  runner : Runner
  draw : Nat → String

def versionText : String := "0.1.0"

def unlines (lines : List String) : String := String.join (lines.map (· ++ "\n"))

def succeed (lines : List String) : Report := .ended 0 (unlines lines) ""

def fail (chain : List String) : Report :=
  .ended 1 "" ("error: " ++ ": ".intercalate chain ++ "\n")

def padRight (width : Nat) (text : String) : String :=
  text ++ String.ofList (List.replicate (width - text.length) ' ')

def listLines : List String :=
  ["Supported architectures:", ""] ++
  Arch.all.map (fun a =>
    "  " ++ padRight 10 a.tag ++ " archiver: " ++ padRight 18 (Archiver.defaultProgram a) ++
      " emulator: " ++ Emulator.defaultProgram a) ++
  ["", "Use 'xos-build arch describe <arch>' for details."]

def archiverLines (a : Arch) (s : Settings) : List String :=
  match Archiver.ofArch a s with
  | .error e =>
    ["  Program: " ++ Archiver.defaultProgram a,
      "  Runtime libraries: unresolved (" ++ e.message ++ ")"]
  | .ok archiver =>
    ("  Program: " ++ archiver.program) ::
      match archiver.runtimeLibs with
      | [] => ["  Runtime libraries: (none)"]
      | libs => "  Runtime libraries:" :: libs.map ("    " ++ ·)

def describeLines (a : Arch) (s : Settings) : List String :=
  let out := "<out>"
  ["=== Architecture: " ++ a.tag ++ " ===", "", "--- Archiver ---"] ++
  archiverLines a s ++
  ["", "--- Emulator ---",
    "  Run:    " ++ " ".intercalate (Emulator.ofArch a out s).words,
    "  Debug:  adds -s -S, gdb stub on :" ++ toString Emulator.debugPort,
    "  Kernel: " ++ Emulator.kernelPath out]

def firstLine? (text : String) : Option String :=
  match text.toList with
  | [] => none
  | cs =>
    let line := cs.takeWhile (· != '\n')
    if line.length < cs.length ∧ line.getLast? = some '\r' then some (String.ofList line.dropLast)
    else some (String.ofList line)

def toolLine (runner : Runner) (program : String) (h : Host) : String × Host :=
  let (result, h) := h.start runner { program := program, args := ["--version"], input := none }
  let shown := match result with
    | .ok outcome => (firstLine? outcome.output).getD "(unknown version)"
    | .error _ => "not found"
  ("  " ++ program ++ ": " ++ shown, h)

def toolLines (runner : Runner) : List String → Host → List String × Host
  | [], h => ([], h)
  | program :: r, h =>
    let (line, h) := toolLine runner program h
    let (lines, h) := toolLines runner r h
    (line :: lines, h)

def archToolLines (runner : Runner) (s : Settings) : List Arch → Host → List String × Host
  | [], h => ([], h)
  | a :: r, h =>
    let (own, h) :=
      toolLines runner [Archiver.defaultProgram a, (Emulator.ofArch a "." s).program] h
    let (lines, h) := archToolLines runner s r h
    (("--- " ++ a.tag ++ " ---") :: own ++ "" :: lines, h)

def shownSetting (value : Option String) : String := value.getD "(unset)"

def doctorLines (runner : Runner) (resolved : Manifest.Resolved) (archs : List Arch) (h : Host) :
    List String × Host :=
  let s := resolved.settings
  let (archs, h) := archToolLines runner s archs h
  let (tools, h) := toolLines runner hostTools h
  (["=== xos-build doctor ===", "", "Version: " ++ versionText, "", "--- Configuration ---",
      "  Manifest:       " ++ resolved.manifest.getD "not found",
      "  Toolchain root: " ++ shownSetting s.toolchainRoot,
      "  Runtime lib:    " ++ shownSetting s.runtimeLib,
      "  Emulator:       " ++ shownSetting s.emulator, ""] ++
    archs ++ "--- Host Tools ---" :: tools, h)

def runMergeLibs (sur : Surroundings) (s : Settings) (tag target : String) (sources : List String)
    (h : Host) : Report × Host :=
  let merger : Merger :=
    { settings := s, runner := sur.runner, workDir := h.files.workDir, draw := sur.draw }
  match merger.merge tag target sources h with
  | (.ok _, h) => (succeed [], h)
  | (.error e, h) =>
    (fail (("merging " ++ toString sources.length ++ " archive(s) into " ++ target) :: e.chain), h)

def runBuildScripts (s : Settings) (tag baseDir outDir : String) (executable : Bool) (h : Host) :
    Report × Host :=
  match ScriptSet.generate tag baseDir outDir s h.files with
  | (.error e, files) =>
    (fail (("generating scripts in " ++ outDir) :: e.chain), { h with files := files })
  | (.ok written, files) =>
    let done :=
      succeed ["Generated " ++ toString written.length ++ " files in " ++ outDir]
    if executable then
      match ScriptSet.makeExecutable outDir files with
      | (.error e, files) => (fail e.chain, { h with files := files })
      | (.ok _, files) => (done, { h with files := files })
    else (done, { h with files := files })

def runDescribe (s : Settings) (tag : String) : Report :=
  match Arch.require tag with
  | .error e => fail e.chain
  | .ok a => succeed (describeLines a s)

def runDoctor (sur : Surroundings) (resolved : Manifest.Resolved) (tag : Option String) (h : Host) :
    Report × Host :=
  match tag.mapM Arch.require with
  | .error e => (fail e.chain, h)
  | .ok chosen =>
    let archs := match chosen with
      | some a => [a]
      | none => Arch.all
    let (lines, h) := doctorLines sur.runner resolved archs h
    (succeed lines, h)

def withSettings (sur : Surroundings) (flags : Manifest.Flags) (h : Host)
    (use : Manifest.Resolved → Report × Host) : Report × Host :=
  match Manifest.resolve h.files h.files.workDir flags sur.env with
  | .error e => (fail e.chain, h)
  | .ok resolved => use resolved

def runCommand (sur : Surroundings) (flags : Manifest.Flags) (h : Host) : Command → Report × Host
  | .listArchs => (succeed listLines, h)
  | .describeArch tag =>
    withSettings sur flags h fun resolved => (runDescribe resolved.settings tag, h)
  | .mergeLibs tag target sources =>
    withSettings sur flags h fun resolved =>
      runMergeLibs sur resolved.settings tag target sources h
  | .buildScripts tag baseDir outDir executable =>
    withSettings sur flags h fun resolved =>
      runBuildScripts resolved.settings tag baseDir outDir executable h
  | .doctor tag => withSettings sur flags h fun resolved => runDoctor sur resolved tag h

def run (sur : Surroundings) (words : List String) (h : Host) : Report × Host :=
  match read words with
  | .usage => (.usage, h)
  | .help => (.help, h)
  | .version => (succeed ["xos-build " ++ versionText], h)
  | .run flags command => runCommand sur flags h command

end ImageTools.CommandLine
