import ImageTools.Script.Word

/-!
# Scripts

A script is a list of steps, each rendered as one line, below a header that
names the shell and sets the colours of its messages. A flag that may be set
at any time puts `sudo` before the commands that touch the file system.
-/

set_option autoImplicit false

namespace ImageTools

inductive Step
  | blank
  /-- A command, word by word. -/
  | command (words : List String)
  /-- Ends the script if the command before failed. -/
  | abortOnFailure (message : String)
  /-- Unmounts and ends the script if the command before failed. -/
  | unmountOnFailure (mountpoint message : String)
  | makeDirectory (path : String)
  /-- Mounts a disk image for reading and writing. -/
  | mount (image mountpoint : String)
  /-- Copies what is in one directory into another. -/
  | copyTree (source target : String)
  | unmount (mountpoint : String)
  | announce (message : String)
  deriving DecidableEq, Repr

structure Script where
  elevated : Bool := false
  steps : List Step := []
  deriving DecidableEq, Repr

namespace Script

def elevate (s : Script) : Script := { s with elevated := true }

def add (s : Script) (step : Step) : Script := { s with steps := s.steps ++ [step] }

def addChecked (s : Script) (words : List String) (message : String) : Script :=
  (s.add (.command words)).add (.abortOnFailure message)

def header : String :=
  "#!/bin/bash\n" ++
  "GREEN='\\033[0;32m'\n" ++
  "RED='\\033[0;31m'\n" ++
  "NC='\\033[0m'\n" ++
  "ERROR=\"$\x7bRED\x7d[ERROR]$\x7bNC\x7d\"\n" ++
  "SUCCESS=\"$\x7bGREEN\x7d[SUCCESS]$\x7bNC\x7d\"\n" ++
  "\n"

def abortText (message : String) : String :=
  "echo -e \"$\x7bERROR\x7d " ++ escape message ++ "\" && exit 1; fi"

def testText : String := "if [ $? -ne 0 ]; then "

def line (elevated : Bool) : Step → String
  | .blank => ""
  | .command words => " ".intercalate (words.map word)
  | .abortOnFailure message => testText ++ abortText message
  | .unmountOnFailure mountpoint message =>
    testText ++ privilege ++ "umount " ++ word mountpoint ++ "; " ++ abortText message
  | .makeDirectory path => privilege ++ "mkdir -p " ++ word path
  | .mount image mountpoint =>
    privilege ++ "fuse-ext2 " ++ word image ++ " " ++ word mountpoint ++ " -o rw+"
  -- The star stays outside the quotes: the shell has to expand it.
  | .copyTree source target => privilege ++ "cp -r " ++ word source ++ "/* " ++ word target ++ "/"
  | .unmount mountpoint => privilege ++ "umount " ++ word mountpoint
  | .announce message => "echo -e \"$\x7bSUCCESS\x7d " ++ escape message ++ "\""
where
  privilege : String := if elevated then "sudo " else ""

def body (s : Script) : String :=
  String.join (s.steps.map fun step => line s.elevated step ++ "\n")

def render (s : Script) : String := header ++ s.body

end Script

end ImageTools
