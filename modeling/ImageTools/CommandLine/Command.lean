import ImageTools.CommandLine.Grammar

/-!
# Commands

The commands of the program and how the words of the command line name one.
-/

set_option autoImplicit false

namespace ImageTools.CommandLine

inductive Command
  | mergeLibs (tag target : String) (sources : List String)
  | buildScripts (tag baseDir outDir : String) (executable : Bool)
  | listArchs
  | describeArch (tag : String)
  | doctor (tag : Option String)
  deriving DecidableEq, Repr

def hostTools : List String := ["ninja", "fuse-ext2", "gdb"]

inductive Request
  | usage
  | help
  | version
  | run (flags : Manifest.Flags) (command : Command)
  deriving DecidableEq, Repr

def top : Grammar :=
  { version := true, commands := ["merge-libs", "build-scripts", "arch", "doctor", "help"] }

def mergeLibs : Grammar := { operands := [.text, .path, .path], repeats := true }

def buildScripts : Grammar := { switches := ["executable"], operands := [.text, .text, .text] }

def arch : Grammar := { commands := ["list", "describe", "help"] }

def archList : Grammar := {}

def archDescribe : Grammar := { operands := [.text] }

def doctor : Grammar := { options := [("arch", .text)] }

def layer (above : Manifest.Flags) (given : Given) : Manifest.Flags :=
  { toolchainRoot := given.values.lookup "toolchain-root" <|> above.toolchainRoot
    emulator := given.values.lookup "emulator" <|> above.emulator }

def readLeaf (g : Grammar) (above : Manifest.Flags) (words : List String)
    (command? : Given → Option Command) : Request :=
  match g.scan {} none words with
  | .usage => .usage
  | .help => .help
  | .version => .version
  | .command _ _ _ _ => .usage
  | .finished given =>
    match command? given with
    | some command => .run (layer above given) command
    | none => .usage

/-- A level's own values put below what a deeper level has read; they are
checked only now. -/
def within (g : Grammar) (above : Manifest.Flags) (given : Given)
    (unchecked : Option (String × String)) (deeper : Manifest.Flags → Request) : Request :=
  match g.settle? given unchecked with
  | some given => deeper (layer above given)
  | none =>
    match deeper above with
    | .help => .help
    | .version => .version
    | _ => .usage

def readHelp (levels : List (String × List String)) : List String → Request
  | [] => .help
  | name :: rest =>
    match levels.lookup name with
    | none => .usage
    | some deeper =>
      match rest with
      | [] => .help
      | [name] => if name ∈ deeper then .help else .usage
      | _ => .usage

def readArch (above : Manifest.Flags) (words : List String) : Request :=
  match arch.scan {} none words with
  | .usage => .usage
  | .help => .help
  | .version => .version
  | .finished _ => .usage
  | .command given unchecked name rest =>
    if name = "help" then readHelp (arch.commands.map fun c => (c, [])) rest
    else
      within arch above given unchecked fun flags =>
        if name = "list" then readLeaf archList flags rest fun _ => some .listArchs
        else
          readLeaf archDescribe flags rest fun given =>
            given.operands.head?.map .describeArch

def mergeCommand? (given : Given) : Option Command :=
  match given.operands with
  | tag :: target :: sources => some (.mergeLibs tag target sources)
  | _ => none

def buildCommand? (given : Given) : Option Command :=
  match given.operands with
  | [tag, baseDir, outDir] =>
    some (.buildScripts tag baseDir outDir (given.switches.contains "executable"))
  | _ => none

def readCommand (name : String) (rest : List String) (flags : Manifest.Flags) : Request :=
  if name = "merge-libs" then readLeaf mergeLibs flags rest mergeCommand?
  else if name = "build-scripts" then readLeaf buildScripts flags rest buildCommand?
  else if name = "arch" then readArch flags rest
  else readLeaf doctor flags rest fun given => some (.doctor (given.values.lookup "arch"))

def commandTree : List (String × List String) :=
  top.commands.map fun c => (c, if c = "arch" then arch.commands else [])

def read (words : List String) : Request :=
  match top.scan {} none words with
  | .usage => .usage
  | .help => .help
  | .version => .version
  | .finished _ => .usage
  | .command given unchecked name rest =>
    if name = "help" then readHelp commandTree rest
    else within top {} given unchecked (readCommand name rest)

def usageText : String :=
  "Build helpers for the xOS image\n\n" ++
  "Usage: xos-build [OPTIONS] <COMMAND>\n\n" ++
  "Commands:\n" ++
  "  merge-libs <ARCH> <TARGET> <SOURCES>...           Merge static archives into one\n" ++
  "  build-scripts <ARCH> <BASE_DIR> <OUT_DIR> [--executable]\n" ++
  "                                                    Generate the scripts of an image\n" ++
  "  arch list                                         List supported architectures\n" ++
  "  arch describe <ARCH>                              Show the tools of an architecture\n" ++
  "  doctor [--arch <ARCH>]                            Check host tools and configuration\n\n" ++
  "Options:\n" ++
  "  -v, --verbose                                     Increase log verbosity\n" ++
  "      --toolchain-root <TOOLCHAIN_ROOT>             Cross toolchain root\n" ++
  "      --emulator <EMULATOR>                         Emulator program\n" ++
  "  -h, --help                                        Print help\n" ++
  "  -V, --version                                     Print version\n"

end ImageTools.CommandLine
