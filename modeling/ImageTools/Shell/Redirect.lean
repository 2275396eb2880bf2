import ImageTools.Shell.Expand

/-!
# Redirections

The names of files and the numbers of channels are expanded before the first
redirection of a command is done, a here-document only when its turn comes. A
redirection that cannot be done leaves those before it in
force; whoever asked for them restores the channels.
-/

set_option autoImplicit false

namespace ImageTools.Shell

inductive Destination
  | file (path : String) (opening : System.Opening)
  /-- Where another number leads. -/
  | same (descriptor : Nat)
  | closed
  | document (text : Word)
  deriving Repr

namespace Redirect

def openingOf (keep : Bool) : Direction → System.Opening
  | .input => .input
  | .append => .append
  | .update => .update
  | .output => if keep then .fresh else .output
  | _ => .output

def channelOf (text : String) : Action Destination := do
  match text.toList with
  | ['-'] => return .closed
  | [c] => if c.isDigit then return .same (c.toNat - 48) else bad
  | _ => bad
where
  bad : Action Destination := do
    modify fun m => { m with line := m.reached }
    Action.fail "Syntax error: Bad fd number"

def destination (run : Substitute) (r : Redirect) : Action Destination := do
  match r.direction with
  | .document _ => return .document (((← get).documents[r.document]?).getD [])
  | .duplicateInput => channelOf (← expandText run r.target)
  | .duplicateOutput => channelOf (← expandText run r.target)
  | direction =>
    let path ← expandText run r.target
    return .file path (openingOf ((← get).isOn 'C') direction)

def refusal (path : String) (opening : System.Opening) (e : SystemError) : String :=
  let isMissing := e = .noEntry ∨ e = .notDirectory
  match opening with
  | .input => "cannot open " ++ path ++ ": " ++ if isMissing then "No such file" else e.plainText
  | _ =>
    "cannot create " ++ path ++ ": " ++ if isMissing then "Directory nonexistent" else e.plainText

def connect (descriptor channel : Nat) (s : System) : Action Bool := do
  modify fun m => { m with system := s, own := m.own.set descriptor channel }
  return true

def documentText (run : Substitute) (w : Word) : Action (Option String) := do
  match ← Action.attempt (expandText run w) with
  | .ok text => return some text
  | .error .fail => return none
  | .error jump => throw jump

def establish (run : Substitute) (aside : Bool) (descriptor : Nat) (d : Destination) :
    Action Bool := do
  let m ← get
  match d with
  | .closed =>
    set { m with own := m.own.close descriptor }
    return true
  | .same other =>
    if other = descriptor then return true
    match m.own.get? other with
    | some c => connect descriptor c m.system
    | none =>
      unless aside && descriptor = 2 do
        Action.complain (toString other ++ ": " ++ SystemError.badDescriptor.plainText)
      return false
  | .document w =>
    match ← documentText run w with
    | none => return false
    | some text =>
      let (c, s) := (← get).system.addText (ByteArray.mk (Text.bytesOf text).toArray)
      connect descriptor c s
  | .file path opening =>
    match m.system.openPath m.own path opening with
    | .ok (c, s) => connect descriptor c s
    | .error e =>
      Action.complain (refusal path opening e)
      return false

/-- Does them in turn, up to the first that cannot be done. Those that will be
undone put the channels aside, each once. -/
def establishAll (run : Substitute) (undone : Bool) (aside : List Nat) :
    List (Nat × Destination) → Action Bool
  | [] => return true
  | (descriptor, d) :: r => do
    if ← establish run (undone && !aside.contains descriptor) descriptor d then
      establishAll run undone (descriptor :: aside) r
    else return false

def prepare (run : Substitute) (rs : List Redirect) : Action (List (Nat × Destination)) :=
  rs.mapM fun r => return (r.descriptor, ← r.destination run)

end Redirect

def withChannels {α : Type} (targets : List (Nat × Destination)) (action : Action α) :
    Action α := do
  let own := (← get).own
  Action.afterwards action fun m =>
    { m with own := targets.foldl (fun now t => now.restore own t.1) m.own }

end ImageTools.Shell
