import ImageTools.Proofs.Parsing
import ImageTools.Shell.Expand
import ImageTools.Shell.Test

/-!
# The commands that a text runs

A run of a text by a shell that does one command after the other, as the list
of the commands that have run. Unlike the shell that runs real programs on a
file system, this one knows nothing of what the commands do: their statuses
and the names that patterns stand for are given by a world. There is a meaning
for simple commands, tests of the last status, `exit`, lists and branches, and
none for anything else.
-/

set_option autoImplicit false

namespace ImageTools.Shell

/-- What the commands of a run do. It may depend on how many have run before. -/
structure World where
  statuses : Nat → UInt8
  /-- The names that fit a pattern, in order. -/
  names : Nat → Pattern → List String

structure Event where
  words : List String
  status : UInt8
  deriving DecidableEq, Repr

structure Trace where
  bindings : List (String × List Char) := []
  status : UInt8 := 0
  events : List Event := []
  ended : Bool := false
  deriving DecidableEq, Repr

namespace Trace
open Parse

/-! ## Words -/

def value? (t : Trace) (name : String) : Option (List Char) :=
  if name = "?" then some (toString t.status.toNat).toList
  else if isNamed name then some ((t.bindings.lookup name).getD [])
  else none

def isReplaced (c : Char) : Bool := ['~', '\x7b', '\x7d'].contains c

def pieceGlyphs? (t : Trace) : Piece → Option (List Glyph)
  | .char c quoted => if !quoted && isReplaced c then none else some [.char c quoted]
  | .mark => some [.mark]
  | .parameter name .value quoted [] => (t.value? name).map (valueGlyphs quoted)
  | _ => none

def glyphs? (t : Trace) : Word → Option (List Glyph)
  | [] => some []
  | piece :: word => do return (← t.pieceGlyphs? piece) ++ (← t.glyphs? word)

def separators : List Char := [' ', '\t', '\n']

/-- A pattern can stand for names if it has a star, a question mark or
brackets that are closed. -/
def isOpen : Pattern → Bool
  | [] => false
  | s :: r =>
    (!s.quoted && (s.char == '*' || s.char == '?' ||
      (s.char == '[' && r.any fun t => t.char == ']'))) || isOpen r

def namesOf (w : World) (t : Trace) (p : Pattern) : List String :=
  if isOpen p then
    match w.names t.events.length p with
    | [] => [p.text]
    | names => names
  else [p.text]

def fields? (w : World) (t : Trace) (word : Word) : Option (List String) :=
  (t.glyphs? word).map fun glyphs => (fieldsOf separators glyphs).flatMap (namesOf w t)

def arguments? (w : World) (t : Trace) : List Word → Option (List String)
  | [] => some []
  | word :: words => do return (← fields? w t word) ++ (← arguments? w t words)

/-! ## Commands -/

def call (w : World) (t : Trace) (words : List String) : Trace :=
  { t with
    events := t.events ++ [⟨words, w.statuses t.events.length⟩]
    status := w.statuses t.events.length }

def print (t : Trace) (args : List String) : Trace :=
  { t with events := t.events ++ [⟨"echo" :: args, 0⟩], status := 0 }

def withStatus (t : Trace) (status : UInt8) : Trace := { t with status := status }

def test? : List String → Option Bool
  | [a, "-ne", b, "]"] => (Test.compare a b fun x y => x != y).toOption
  | _ => none

def exitStatus? : List String → Option UInt8
  | [n] => (natural? n).map UInt8.ofNat
  | _ => none

def perform? (w : World) (t : Trace) : List String → Option Trace
  | [] => some (t.withStatus 0)
  | name :: args =>
    if name = "exit" then
      (exitStatus? args).map fun status => { t with status := status, ended := true }
    else if name = "[" then
      (test? args).map fun holds => t.withStatus (if holds then 0 else 1)
    else if name = "echo" then some (t.print args)
    else some (t.call w (name :: args))

def assign? (t : Trace) (name : String) (word : Word) : Option Trace :=
  (t.glyphs? word).map fun glyphs =>
    { t with bindings := (name, (signsOf glyphs).map (·.char)) :: t.bindings, status := 0 }

def goOn (next : Trace → Option Trace) (t : Trace) : Option Trace :=
  if t.ended then some t else next t

def simpleBy? (w : World) (act : Trace → List String → Option Trace) (t : Trace) :
    List (String × Word) → List Word → List Redirect → Option Trace
  | [], words, [] => (arguments? w t words).bind (act t)
  | [(name, word)], [], [] => t.assign? name word
  | _, _, _ => none

def execBy? (w : World) (act : Trace → List String → Option Trace) :
    Command → Trace → Option Trace
  | .nothing, t => some t
  | .simple _ assignments words redirects, t => simpleBy? w act t assignments words redirects
  | .both a b, t =>
    (execBy? w act a t).bind (goOn fun t => if t.status = 0 then execBy? w act b t else some t)
  | .sequence a b, t => (execBy? w act a t).bind (goOn (execBy? w act b))
  | .branch test yes .nothing, t =>
    (execBy? w act test t).bind (goOn fun t =>
      if t.status = 0 then execBy? w act yes t else some (t.withStatus 0))
  | _, _ => none

def runBy? (w : World) (act : Trace → List String → Option Trace) (text : String) :
    Option Trace :=
  match commandsOf 1 text.toList false #[] with
  | .ok (c, _) => execBy? w act c {}
  | .error _ => none

def run? (w : World) (text : String) : Option Trace := runBy? w (perform? w) text

theorem run_parsed (w : World) (act : Trace → List String → Option Trace) (text : String)
    (c : Command) (documents : Array Word)
    (h : commandsOf 1 text.toList false #[] = .ok (c, documents)) :
    runBy? w act text = execBy? w act c {} := by
  delta runBy?
  rw [h]

/-! ## Lists of commands -/

section Lists
variable (w : World) (act : Trace → List String → Option Trace)

theorem exec_unlined (c : Command) (t : Trace) :
    execBy? w act c.unlined t = execBy? w act c t := by
  induction c generalizing t with
  | both a b iha ihb => simp only [Command.unlined, execBy?, iha, ihb]
  | sequence a b iha ihb => simp only [Command.unlined, execBy?, iha, funext ihb]
  | branch test yes no ihtest ihyes ihno =>
    cases no <;> simp only [Command.unlined, execBy?, ihtest, ihyes]
  | _ => rfl

def execAllBy? : List Command → Trace → Option Trace
  | [], t => some t
  | c :: cs, t => (execBy? w act c t).bind (goOn (execAllBy? cs))

theorem goOn_running (next : Trace → Option Trace) (t : Trace) (h : t.ended = false) :
    goOn next t = next t := by
  rw [goOn, h]
  rfl

theorem goOn_some (t : Trace) : goOn some t = some t := by
  unfold goOn
  split <;> rfl

theorem goOn_bind (f g : Trace → Option Trace) (t : Trace) :
    (goOn f t).bind (goOn g) = goOn (fun t => (f t).bind (goOn g)) t := by
  unfold goOn
  split
  · rename_i h
    simp [h]
  · rfl

theorem exec_join (a b : Command) (t : Trace) (h : t.ended = false) :
    execBy? w act (join a b) t = (execBy? w act a t).bind (goOn (execBy? w act b)) := by
  cases a with
  | nothing => simp [join, execBy?, goOn_running _ _ h]
  | _ => rfl

theorem exec_joined (cs : List Command) (c : Command) (t : Trace) (h : t.ended = false) :
    execBy? w act (cs.foldl join c) t =
      (execBy? w act c t).bind (goOn (execAllBy? w act cs)) := by
  induction cs generalizing c with
  | nil =>
    have hnext : goOn (execAllBy? w act []) = some := funext goOn_some
    rw [hnext, Option.bind_fun_some]
    rfl
  | cons d cs ih =>
    rw [List.foldl_cons, ih, exec_join w act c d t h, Option.bind_assoc]
    simp only [goOn_bind, execAllBy?]

theorem execAll_append (cs ds : List Command) (t : Trace) (h : t.ended = false) :
    execAllBy? w act (cs ++ ds) t =
      (execAllBy? w act cs t).bind (goOn (execAllBy? w act ds)) := by
  induction cs generalizing t with
  | nil => simp [execAllBy?, goOn_running _ _ h]
  | cons c cs ih =>
    rw [List.cons_append, execAllBy?, execAllBy?, Option.bind_assoc]
    congr 1
    funext u
    rw [goOn_bind]
    unfold goOn
    split
    · rfl
    · rename_i hu
      rw [ih u (by simpa using hu)]
      rfl

end Lists

end Trace

end ImageTools.Shell
