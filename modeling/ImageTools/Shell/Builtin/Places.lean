import ImageTools.FileSystem.Tree
import ImageTools.Shell.Options

/-!
# Commands on the working directory and on new files

The working directory is known by the path that was asked for, with `.` and
`..` taken away, which may lead through symbolic links. New files do not get
the permission bits of the mask, which is a number or written in signs.
-/

set_option autoImplicit false

namespace ImageTools.Shell.Builtin

def simplify (names : List String) : List String :=
  names.foldl
    (fun done name =>
      if name = "" ∨ name = "." then done
      else if name = ".." then done.dropLast
      else done ++ [name])
    []

def rootOf (path : String) : String :=
  match path.toList with
  | ['/', '/'] => "//"
  | '/' :: '/' :: c :: _ => if c = '/' then "/" else "//"
  | _ => "/"

def pathFrom (here path : String) : String :=
  let whole := if Path.isAbsolute path then path else here ++ "/" ++ path
  rootOf (if Path.isAbsolute path then path else here) ++
    "/".intercalate (simplify (Path.names whole))

def settleAt (here : String) : Action Unit := do
  let old := (← get).here
  Action.change "OLDPWD" fun v => { v with value := some old, exported := true }
  modify fun m => { m with here := here }
  Action.change "PWD" fun v => { v with value := some here, exported := true }

def enter (physical : Bool) (path : String) : Action Bool := do
  let m ← get
  let path := if physical then path else pathFrom m.here path
  match m.system.files.resolve (Text.gather path) with
  | .error _ => return false
  | .ok trail =>
    if !m.system.files.isDirectory trail.last then return false
    Action.modifyFiles fun fs => { fs with workDir := trail.path }
    settleAt (if physical then Text.spread trail.path else path)
    return true

def isSearched (path : String) : Bool :=
  !Path.isAbsolute path && !([".", ".."].contains ((Path.names path).headD ""))

/-- Tries the directories of a search path in turn; whether one of them has
the directory, and whether its name is to be shown. -/
def enterAny (physical : Bool) (path : String) : List String → Action (Bool × Bool)
  | [] => return (false, false)
  | dir :: dirs => do
    let candidate := if dir = "" then path else dir ++ "/" ++ path
    if (← get).system.files.leadsToDirectory (Text.gather candidate) then
      return (← enter physical candidate, dir ≠ "")
    else enterAny physical path dirs

def isPhysical (given : List Given) : Bool := given.getLast?.any (·.letter == 'P')

def doCd (args : List String) : Action Nat := do
  let (given, words) ← Action.options [('L', false), ('P', false)] args
  let physical := isPhysical given
  let m ← get
  let (path, back) := match words with
    | [] => ((m.valueOf? "HOME").getD "", false)
    | "-" :: _ => ((m.valueOf? "OLDPWD").getD "", true)
    | w :: _ => (w, false)
  let target := if path = "" then "." else path
  let (found, shown) ← match m.valueOf? "CDPATH" with
    | some dirs => if isSearched path then enterAny physical target (dirs.splitOn ":") else
        pure (false, false)
    | none => pure (false, false)
  unless found do
    unless ← enter physical target do Action.fail ("can\x27t cd to " ++ path)
  if back || shown then Action.print ((← get).here ++ "\n")
  return 0

def doPwd (args : List String) : Action Nat := do
  let (given, _) ← Action.options [('L', false), ('P', false)] args
  let m ← get
  let path := if isPhysical given then Text.spread m.system.files.workDir else m.here
  Action.print (path ++ "\n")
  return 0

/-! ## The mask -/

def rightsText (bits : Nat) : String :=
  (if bits &&& 4 ≠ 0 then "r" else "") ++ (if bits &&& 2 ≠ 0 then "w" else "") ++
    (if bits &&& 1 ≠ 0 then "x" else "")

def maskText (mask : Nat) : String :=
  let left := mask ^^^ 0o777
  "u=" ++ rightsText (left / 64 % 8) ++ ",g=" ++ rightsText (left / 8 % 8) ++ ",o=" ++
    rightsText (left % 8) ++ "\n"

def octalText (n width : Nat) : String :=
  let digits := Nat.toDigits 8 n
  String.ofList (List.replicate (width - digits.length) '0' ++ digits)

def classBits (letters : List Char) : Nat :=
  let bits := letters.foldl
    (fun n c => n ||| match c with
      | 'u' => 0o100
      | 'g' => 0o010
      | 'o' => 0o001
      | _ => 0o111)
    0
  if bits = 0 then 0o111 else bits

def rightBits (now : Nat) (letters : List Char) : Nat :=
  letters.foldl
    (fun n c => n ||| match c with
      | 'r' => 4
      | 'w' => 2
      | 'x' => 1
      | 'u' => now / 64 % 8
      | 'g' => now / 8 % 8
      | 'o' => now % 8
      | 'X' => if now &&& 0o111 ≠ 0 then 1 else 0
      | _ => 0)
    0

def changedRights (now : Nat) : Nat → Nat → Nat → List Char → Option Nat
  | 0, _, _, _ => none
  | _, _, rights, [] => some rights
  | n + 1, classes, rights, cs =>
    let letters := cs.takeWhile ['a', 'u', 'g', 'o'].contains
    let classes := if letters.isEmpty ∧ classes ≠ 0 then classes else classBits letters
    match cs.drop letters.length with
    | op :: r =>
      let named := r.takeWhile ['r', 'w', 'x', 'u', 'g', 'o', 'X', 's'].contains
      let bits := rightBits now named % 8 * classes
      let rest := r.drop named.length
      let next (rights : Nat) : Option Nat :=
        match rest with
        | [] => some rights
        | ',' :: rest => changedRights now n 0 rights rest
        | c :: _ =>
          if ['=', '+', '-'].contains c then changedRights now n classes rights rest else none
      if op = '-' then next (rights &&& (0o777 ^^^ bits))
      else if op = '=' then next (bits ||| (rights &&& (0o777 ^^^ (classes * 7))))
      else if op = '+' then next (rights ||| bits)
      else none
    | [] => none

def doUmask (args : List String) : Action Nat := do
  let (given, words) ← Action.options [('S', false)] args
  let mask := (← get).system.files.mask
  match words with
  | [] =>
    Action.print (if given.isEmpty then octalText mask 4 ++ "\n" else maskText mask)
    return 0
  | w :: _ =>
    let cs := w.toList
    let isNumber := (cs.head?).any Char.isDigit
    if isNumber && !cs.all (isDigitOf 8) then Action.failNumber w
    let rights := if isNumber then some ((valueIn 8 cs % 512) ^^^ 0o777)
      else changedRights (mask ^^^ 0o777) (cs.length + 1) 0 (mask ^^^ 0o777) cs
    match rights with
    | some rights =>
      Action.modifyFiles fun fs => { fs with mask := rights ^^^ 0o777 }
      return 0
    | none => Action.fail ("Illegal mode: " ++ w)

end ImageTools.Shell.Builtin
