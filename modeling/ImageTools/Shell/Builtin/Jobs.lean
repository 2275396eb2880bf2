import ImageTools.Shell.Options

/-!
# Commands on jobs

Commands in the background are jobs with small numbers, the latest of which
is the current one. A number is free again when the shell knows how its job
has ended.
-/

set_option autoImplicit false

namespace ImageTools.Shell.Builtin

def statusOf : Ending → Nat
  | .exited code => code
  | .killed signal => 128 + signal

def report : Ending → Action Unit
  | .exited _ => return
  | .killed signal => do
    if signal ≠ Signal.interrupt && signal ≠ Signal.brokenPipe then
      Action.printError (Signal.text signal ++ "\n")

def freeSlot (jobs : List Job) : Nat :=
  let isFree (n : Nat) : Bool := !jobs.any fun j => j.slot = n && !j.isNoted
  (((List.range (jobs.length + 1)).map (· + 1)).find? isFree).getD (jobs.length + 1)

def makeRoom : Action Unit :=
  modify fun m => { m with jobs := m.jobs.filter fun j => j.slot != freeSlot m.jobs }

def jobOf (word : String) : Action Job := do
  let m ← get
  let none (text : String) : Action Job := Action.fail text
  match word.toList.drop 1 with
  | [] => (m.jobs[0]?).elim (none "No current job") pure
  | ['+'] => (m.jobs[0]?).elim (none "No current job") pure
  | ['%'] => (m.jobs[0]?).elim (none "No current job") pure
  | ['-'] => (m.jobs[1]?).elim (none "No previous job") pure
  | cs =>
    let found := (digits? (String.ofList cs)).bind fun n => m.jobs.find? fun j => j.slot = n
    found.elim (none ("No such job: " ++ word)) pure

def setProgress (process : Nat) (progress : Progress) : Action Unit :=
  modify fun m =>
    { m with jobs := m.jobs.map fun j =>
        if j.process = process then { j with progress := progress } else j }

def runJob (job : Job) : Action Unit := do
  match job.progress with
  | .started run =>
    let m ← get
    let (after, ending) := run m.system
    set { m with system := (after.endProcess job.process).seenFrom m.system }
    setProgress job.process (.ended ending)
    Action.noteEnd
  | _ => return

def runJobs : Action Unit := do (← get).jobs.reverse.forM runJob

def noteJob (job : Job) : Action Unit :=
  match job.progress with
  | .ended ending => setProgress job.process (.noted (statusOf ending))
  | _ => return

def waitForJob (process : Nat) : Action Nat := do
  if (← get).jobs.any fun j => j.process = process then runJobs
  match (← get).jobs.find? fun j => j.process = process with
  | some job =>
    noteJob job
    match job.progress with
    | .ended ending =>
      report ending
      return statusOf ending
    | .noted status => return status
    | .started _ => return 127
  | none => return 127

def waitFor : List String → Nat → Action Nat
  | [], status => return status
  | w :: ws, _ => do
    let process ← if w.startsWith "%" then (·.process) <$> jobOf w else Action.number w
    waitFor ws (← waitForJob process)

def doWait (args : List String) : Action Nat := do
  let (_, words) ← Action.options [] args
  if words.isEmpty then
    runJobs
    (← get).jobs.forM noteJob
  waitFor words 0

/-! ## Lists of jobs -/

def doneText (status : Nat) : String :=
  if status = 0 then "Done" else "Done(" ++ toString status ++ ")"

def progressText : Progress → String
  | .started _ => "Running"
  | .ended (.exited status) => doneText status
  | .ended (.killed signal) => Signal.text signal
  | .noted status =>
    if status ≤ 128 then doneText status else Signal.text (status - 128)

def isOver (job : Job) : Bool :=
  match job.progress with
  | .started _ => false
  | _ => true

def showJob (withProcess : Bool) (job : Job) : Action Unit := do
  let m ← get
  let sign :=
    if m.jobs[0]?.any (·.slot == job.slot) then "+ "
    else if m.jobs[1]?.any (·.slot == job.slot) then "- "
    else "  "
  let text := "[" ++ toString job.slot ++ "] " ++ sign ++
    (if withProcess then toString job.process ++ " " else "") ++ progressText job.progress
  let space := String.ofList (List.replicate (max 1 (33 - text.length)) ' ')
  Action.print (text ++ space ++ "\n")
  if isOver job then
    modify fun m => { m with jobs := m.jobs.filter fun j => j.slot != job.slot }

def doJobs (args : List String) : Action Nat := do
  let (given, words) ← Action.options [('l', false), ('p', false)] args
  let letter := given.getLast?.map (·.letter)
  let jobs ← if words.isEmpty then pure (← get).jobs else words.mapM jobOf
  jobs.forM fun job =>
    if letter == some 'p' then Action.print (toString job.process ++ "\n")
    else showJob (letter == some 'l') job
  return 0

def doForeground (args : List String) : Action Nat := do
  let (_, words) ← Action.options [] args
  let _ ← jobOf (words.headD "%")
  Action.fail ("job " ++ words.headD "(null)" ++ " not created under job control")

end ImageTools.Shell.Builtin
