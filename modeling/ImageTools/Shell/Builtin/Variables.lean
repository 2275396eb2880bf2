import ImageTools.Shell.Line
import ImageTools.Shell.Options

/-!
# Commands on variables

The commands that mark, remove and fill variables, and those that set the
options and the arguments of the shell. Each gives its exit status.
-/

set_option autoImplicit false

namespace ImageTools.Shell.Builtin

def quotedRuns : Nat → List Char → List Char
  | 0, _ => []
  | n + 1, cs =>
    let plain := '\x27' :: cs.takeWhile (· != '\x27') ++ ['\x27']
    let rest := cs.dropWhile (· != '\x27')
    match rest.takeWhile (· == '\x27') with
    | [] => plain
    | quotes =>
      let after := rest.drop quotes.length
      plain ++ '\x22' :: quotes ++ ['\x22'] ++ if after.isEmpty then [] else quotedRuns n after

def quoted (text : String) : String := String.ofList (quotedRuns (text.length + 1) text.toList)

def splitAssignment (word : String) : String × Option String :=
  let cs := word.toList
  let name := String.ofList (cs.takeWhile (· != '='))
  (name, if cs.contains '=' then some (String.ofList (cs.drop (name.length + 1))) else none)

def requireName (name : String) : Action Unit := do
  unless isNamed name do Action.fail (name ++ ": bad variable name")

def nameIn (word : String) : Action String := do
  let name := (splitAssignment word).1
  requireName name
  return name

def sorted (m : Machine) : List (String × Variable) :=
  m.bindings.mergeSort fun a b => decide (a.1 ≤ b.1)

def showBinding (command : String) (b : String × Variable) : String :=
  command ++ b.1 ++ (b.2.value.elim "" fun v => "=" ++ quoted v) ++ "\n"

def printBindings (command : String) (shown : Variable → Bool) : Action Unit := do
  let m ← get
  Action.print (String.join (((sorted m).filter fun b => shown b.2).map (showBinding command)))

def declare (command : String) (mark : Variable → Variable) (isMarked : Variable → Bool)
    (args : List String) : Action Nat := do
  let (given, words) ← Action.firstOption ['p'] args
  if given.isNone && !words.isEmpty then
    words.forM fun word => do
      let (name, value) := splitAssignment word
      match value, (← get).binding? name with
      | none, some v => modify fun m => m.setVariable name (mark v)
      | none, none =>
        requireName name
        Action.change name mark
      | some value, _ =>
        requireName name
        Action.change name fun v => mark { v with value := some value }
  else printBindings (command ++ " ") isMarked
  return 0

def doExport : List String → Action Nat :=
  declare "export" (fun v => { v with exported := true }) (·.exported)

def doReadonly : List String → Action Nat :=
  declare "readonly" (fun v => { v with readOnly := true }) (·.readOnly)

def doUnset (args : List String) : Action Nat := do
  let (given, names) ← Action.options [('v', false), ('f', false)] args
  names.forM fun name => do
    if given.getLast?.any (·.letter == 'f') then
      modify fun m => { m with functions := m.functions.filter fun f => f.1 != name }
    else
      let name ← nameIn name
      if ((← get).binding? name).any (·.readOnly) then Action.fail (name ++ ": is read only")
      unless Action.suits name (some "") do Action.failNumber ""
      modify fun m => m.dropVariable name
  return 0

def makeLocal (word : String) : Action Unit := do
  if word = "-" then
    modify fun m =>
      match m.frames with
      | frame :: r => { m with frames := (.options m.options :: frame) :: r }
      | [] => m
  else
    let (name, value) := splitAssignment word
    requireName name
    Action.save name
    match value, (← get).binding? name with
    | some value, _ => Action.assign name value
    | none, none => Action.change name id
    | none, some _ => return

def doLocal (args : List String) : Action Nat := do
  if (← get).frames.isEmpty then Action.fail "not in a function"
  args.forM makeLocal
  return 0

/-! ## Options and arguments -/

def optionList (m : Machine) (on : Bool) : String :=
  let line (o : Char × String) : String :=
    if on then
      o.2 ++ String.ofList (List.replicate (16 - o.2.length) ' ') ++
        (if m.isOn o.1 then "on" else "off") ++ "\n"
    else "set " ++ (if m.isOn o.1 then "-o " else "+o ") ++ o.2 ++ "\n"
  (if on then "Current option settings\n" else "") ++ String.join (Machine.optionNames.map line)

def putOption (letter : Char) (on : Bool) : Action Unit :=
  if letter = 'm' ∧ on then Action.complain "can\x27t access tty; job control turned off"
  else modify fun m => m.withOption letter on

def setNamedOption (name : String) (on : Bool) : Action Unit := do
  match Machine.optionNames.find? fun o => o.2 = name with
  | some o => putOption o.1 on
  | none => Action.fail ("Illegal option -o " ++ name)

def setOption (letter : Char) (on : Bool) : Action Unit := do
  if letter.isAlpha && (Machine.optionNames.any fun o => o.1 = letter) then
    putOption letter on
  else Action.fail ("Illegal option -" ++ String.ofList [letter])

structure Setup where
  /-- None if the arguments are to stay as they are. -/
  args : Option (List String) := none
  /-- A text with commands comes first. -/
  hasText : Bool := false

def setLetters (starting on : Bool) : List Char → List String → Action (List String × Bool)
  | [], ws => return (ws, false)
  | c :: r, ws => do
    if starting && c = 'c' then
      let (ws, _) ← setLetters starting on r ws
      return (ws, true)
    else if starting && c = 'l' then setLetters starting on r ws
    else if c = 'o' then
      match ws with
      | [] =>
        Action.print (optionList (← get) on)
        setLetters starting on r []
      | name :: ws =>
        setNamedOption name on
        setLetters starting on r ws
    else
      setOption c on
      setLetters starting on r ws

def readSetup (starting : Bool) : Nat → List String → Action Setup
  | 0, _ => return {}
  | _, [] => return {}
  | n + 1, w :: ws => do
    let letters (on : Bool) (cs : List Char) : Action Setup := do
      let (ws, hasText) ← setLetters starting on cs ws
      let s ← readSetup starting n ws
      return { s with hasText := s.hasText || hasText }
    match w.toList with
    | ['-'] =>
      unless starting do modify fun m => (m.withOption 'x' false).withOption 'v' false
      return { args := if ws.isEmpty then none else some ws }
    | ['-', '-'] => return { args := some ws }
    | '-' :: cs => letters true cs
    | '+' :: cs => letters false cs
    | _ => return { args := some (w :: ws) }

def setArgs (args : List String) : Action Unit :=
  modify fun m => { m with args := args, optionIndex := 1, optionPlace := none }

def doSet (args : List String) : Action Nat := do
  if args.isEmpty then printBindings "" fun v => v.value.isSome
  else
    match (← readSetup false (args.length + 1) args).args with
    | some args => setArgs args
    | none => return 0
  return 0

def doShift (args : List String) : Action Nat := do
  let n ← match args with
    | [] => pure 1
    | w :: _ => Action.number w
  let m ← get
  if m.args.length < n then Action.fail "can\x27t shift that many"
  setArgs (m.args.drop n)
  return 0

/-! ## Options of scripts -/

inductive Letter
  | unknown
  | plain
  | valued

def letterIn (known : List Char) (c : Char) : Letter :=
  match known.dropWhile (· == ':') |>.dropWhile (· != c) with
  | [] => .unknown
  | _ :: ':' :: _ => .valued
  | _ => .plain

def nextOption (known : String) (name : String) (words : List String) : Action Nat := do
  let m ← get
  let quiet := known.toList.head? == some ':'
  let index := if m.optionIndex > words.length + 1 then 1 else m.optionIndex
  let place := if m.optionIndex > words.length + 1 then none else m.optionPlace
  let finish (index : Nat) (place : Option Nat) (letter : Char) (status : Nat) : Action Nat := do
    Action.assign "OPTIND" (toString index)
    modify fun m => { m with optionIndex := index, optionPlace := place }
    Action.assign (← nameIn name) (String.ofList [letter])
    return status
  let pending := match place with
    | some p => ((words[index - 2]?).getD "").toList.drop p
    | none => []
  let (letters, index, place) :=
    if !pending.isEmpty then (pending, index, place.getD 0)
    else
      match words[index - 1]? with
      | some w => if w.length ≥ 2 && w.startsWith "-" then (w.toList.drop 1, index + 1, 1)
        else ([], index, 0)
      | none => ([], index, 0)
  match letters with
  | [] => finish index none '?' 1
  | ['-'] => if place = 1 then finish index none '?' 1 else use quiet index place '-' [] finish
  | c :: r => use quiet index place c r finish
where
  use (quiet : Bool) (index place : Nat) (c : Char) (r : List Char)
      (finish : Nat → Option Nat → Char → Nat → Action Nat) : Action Nat := do
    let isLast := r.isEmpty
    match letterIn known.toList c with
    | .unknown =>
      if quiet then Action.assign "OPTARG" (String.ofList [c])
      else
        Action.printError ("Illegal option -" ++ String.ofList [c] ++ "\n")
        modify fun m => m.dropVariable "OPTARG"
      finish index (if isLast then none else some (place + 1)) '?' 0
    | .plain =>
      Action.assign "OPTARG" ""
      finish index (if isLast then none else some (place + 1)) c 0
    | .valued =>
      match r, words[index - 1]? with
      | [], none =>
        if quiet then
          Action.assign "OPTARG" (String.ofList [c])
          finish index none ':' 0
        else
          Action.printError ("No arg for -" ++ String.ofList [c] ++ " option\n")
          modify fun m => m.dropVariable "OPTARG"
          finish index none '?' 0
      | [], some value =>
        Action.assign "OPTARG" value
        finish (index + 1) none c 0
      | r, _ =>
        Action.assign "OPTARG" (String.ofList r)
        finish index none c 0

def doGetopts (args : List String) : Action Nat := do
  match args with
  | [known, name] => nextOption known name (← get).args
  | known :: name :: words => nextOption known name words
  | _ => Action.fail "Usage: getopts optstring var [arg...]"

/-! ## Input -/

def fillVariables : List String → List String → Action Unit
  | [], _ => return
  | name :: names, fields => do
    Action.assign (← nameIn name) (fields.headD "")
    fillVariables names fields.tail

def doRead (args : List String) : Action Nat := do
  let (given, names) ← Action.options [('p', true), ('r', false)] args
  if names.isEmpty then Action.fail "arg count"
  let raw := given.any (·.letter == 'r')
  let m ← get
  let line ← match m.own.get? 0 with
    | none => pure {}
    | some c =>
      match m.system.unread c with
      | .ok (bytes, _) =>
        let line := Line.ofBytes raw false bytes.toList
        set { m with system := m.system.skip c line.used }
        pure line
      | .error _ => pure {}
  fillVariables names (line.fields m.separators names.length)
  return if line.ended then 0 else 1

end ImageTools.Shell.Builtin
