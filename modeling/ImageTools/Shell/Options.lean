import ImageTools.Shell.Machine

/-!
# Options of commands

Options are letters after a dash, of which some take a value: the rest of
their word, or else the next word. They end before the first other word, or
after two dashes.
-/

set_option autoImplicit false

namespace ImageTools.Shell

structure Given where
  letter : Char
  value : String := ""
  deriving DecidableEq, Repr

def readLetters (known : List (Char × Bool)) :
    List Char → List String → Except String (List Given × List String)
  | [], ws => .ok ([], ws)
  | c :: r, ws =>
    match known.lookup c, r, ws with
    | none, _, _ => .error ("Illegal option -" ++ String.ofList [c])
    | some false, _, _ => (readLetters known r ws).map fun p => ({ letter := c } :: p.1, p.2)
    | some true, _ :: _, ws => .ok ([{ letter := c, value := String.ofList r }], ws)
    | some true, [], w :: ws => .ok ([{ letter := c, value := w }], ws)
    | some true, [], [] => .error ("No arg for -" ++ String.ofList [c] ++ " option")

theorem length_readLetters_le {known : List (Char × Bool)} {cs : List Char} {ws : List String}
    {given : List Given} {rest : List String} (h : readLetters known cs ws = .ok (given, rest)) :
    rest.length ≤ ws.length := by
  induction cs generalizing given ws with
  | nil =>
    simp only [readLetters, Except.ok.injEq, Prod.mk.injEq] at h
    simp [h.2]
  | cons c r ih =>
    unfold readLetters at h
    split at h
    · simp at h
    · rename_i r ws _ _ _ _
      cases hr : readLetters known r ws with
      | error e => simp [hr, Except.map] at h
      | ok p =>
        simp only [hr, Except.map, Except.ok.injEq, Prod.mk.injEq] at h
        exact ih (hr.trans (congrArg Except.ok (Prod.ext rfl h.2)))
    · simp only [Except.ok.injEq, Prod.mk.injEq] at h
      simp [h.2]
    · simp only [Except.ok.injEq, Prod.mk.injEq] at h
      simp [h.2]
    · simp at h

def readOptions (known : List (Char × Bool)) :
    List String → Except String (List Given × List String)
  | [] => .ok ([], [])
  | "--" :: ws => .ok ([], ws)
  | w :: ws =>
    match w.toList with
    | '-' :: c :: cs =>
      match h : readLetters known (c :: cs) ws with
      | .error e => .error e
      | .ok (given, rest) => do
        have := length_readLetters_le h
        let (more, rest) ← readOptions known rest
        .ok (given ++ more, rest)
    | _ => .ok ([], w :: ws)
termination_by ws => ws.length
decreasing_by
  simp only [List.length_cons]
  omega

namespace Action

def options (known : List (Char × Bool)) (ws : List String) : Action (List Given × List String) :=
  match readOptions known ws with
  | .ok r => return r
  | .error text => fail text

def firstOption (known : List Char) (ws : List String) : Action (Option Char × List String) :=
  match ws with
  | [] => return (none, [])
  | w :: r =>
    match w.toList with
    | ['-', '-'] => return (none, r)
    | '-' :: c :: _ =>
      if known.contains c then return (some c, r)
      else fail ("Illegal option -" ++ String.ofList [c])
    | _ => return (none, w :: r)

def number (word : String) : Action Nat :=
  match natural? word with
  | some n => return n
  | none => failNumber word

end Action

end ImageTools.Shell
