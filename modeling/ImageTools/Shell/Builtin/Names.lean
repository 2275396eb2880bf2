import ImageTools.Shell.Builtin.Variables
import ImageTools.Shell.Lookup

/-!
# Commands on names

Aliases, and what the names of commands stand for.
-/

set_option autoImplicit false

namespace ImageTools.Shell.Builtin

def aliasPlace (name : String) : Nat :=
  match name.toList with
  | [] => 0
  | c :: r => ((c.toNat * 16 + c.toNat) + r.foldl (fun n c => n + c.toNat) 0) % 39

def showAlias (a : String × String) : String := a.1 ++ "=" ++ quoted a.2 ++ "\n"

def useAlias (word : String) : Action Nat := do
  let m ← get
  match splitAssignment word with
  | (name, some value) =>
    let aliases :=
      if (m.aliases.lookup name).isSome then
        m.aliases.map fun a => if a.1 = name then (name, value) else a
      else m.aliases ++ [(name, value)]
    set { m with aliases := aliases }
    return 0
  | (name, none) =>
    match m.aliases.lookup name with
    | some value =>
      Action.print (showAlias (name, value))
      return 0
    | none =>
      Action.printError ("alias: " ++ name ++ " not found\n")
      return 1

def doAlias (args : List String) : Action Nat := do
  if args.isEmpty then
    let sorted := (← get).aliases.mergeSort fun a b => decide (aliasPlace a.1 ≤ aliasPlace b.1)
    Action.print (String.join (sorted.map showAlias))
    return 0
  else args.foldlM (fun status word => return max status (← useAlias word)) 0

def doUnalias (args : List String) : Action Nat := do
  let (given, names) ← Action.firstOption ['a'] args
  if given.isNone then
    names.foldlM (fun status name => do
      let m ← get
      if (m.aliases.lookup name).isNone then
        Action.printError ("unalias: " ++ name ++ " not found\n")
        return 1
      set { m with aliases := m.aliases.filter fun a => a.1 != name }
      return status) 0
  else
    modify fun m => { m with aliases := [] }
    return 0

/-- What a name stands for, in a sentence or as what could be written
instead; none if it stands for nothing. Unless another search path is given,
programs that were found before are known. -/
def describe? (m : Machine) (path : Option String) (name : String) (verbose : Bool) :
    Option String :=
  let say (sentence short : String) : Option String :=
    some (if verbose then name ++ sentence else short)
  if keywords.contains name then say " is a shell keyword" name
  else
    match m.aliases.lookup name with
    | some value => say (" is an alias for " ++ value) ("alias " ++ name ++ "=" ++ quoted value)
    | none =>
      let known := if path.isNone then m.known.lookup name else none
      match m.meaning true (path.getD m.searchPath) name, known with
      | .function _, _ => say " is a shell function" name
      | .builtin, _ =>
        say (" is a " ++ (if isSpecial name then "special " else "") ++ "shell builtin") name
      | _, some place => say (" is a tracked alias for " ++ place) place
      | .program (found :: _), none =>
        if !name.toList.contains '/' then say (" is " ++ found) found
        else if m.system.files.pathExists (Text.gather name) then say (" is " ++ name) name
        else none
      | _, none => none

def keepPlace (name : String) : Action Unit :=
  modify fun m =>
    match m.meaning true m.searchPath name with
    | .program paths => m.remember name paths
    | _ => m

def doType (args : List String) : Action Nat :=
  args.foldlM (fun status name => do
    let m ← get
    match describe? m none name true with
    | some text =>
      Action.print (text ++ "\n")
      keepPlace name
      return status
    | none =>
      Action.print (name ++ ": not found\n")
      return 127) 0

def doCommand (args : List String) : Action Nat := do
  let (given, words) ← Action.options [('p', false), ('v', false), ('V', false)] args
  let m ← get
  let path := if given.any (·.letter == 'p') then some standardPath else none
  let verbose := given.any (·.letter == 'V')
  match words with
  | name :: _ =>
    if verbose || given.any (·.letter == 'v') then
      match describe? m path name verbose with
      | some text =>
        Action.print (text ++ "\n")
        if path.isNone then keepPlace name
        return 0
      | none =>
        if verbose then Action.print (name ++ ": not found\n")
        return 127
    else return 0
  | [] => return 0

def doHash (args : List String) : Action Nat := do
  let (given, names) ← Action.options [('r', false)] args
  if !given.isEmpty then
    modify fun m => { m with known := [] }
    return 0
  if names.isEmpty then Action.print (String.join ((← get).known.map (·.2 ++ "\n")))
  names.foldlM (fun status name => do
    let m ← get
    match m.meaning true m.searchPath name with
    | .unknown e =>
      Action.complain (name ++ ": " ++ missingText e)
      modify fun m => m.forget name
      return 1
    | .program paths =>
      modify fun m => (m.forget name).remember name paths
      return status
    | _ => return status) 0

end ImageTools.Shell.Builtin
