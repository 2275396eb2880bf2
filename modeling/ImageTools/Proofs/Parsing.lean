import ImageTools.Shell.Command

/-!
# Parsing commands

What a parser reads is said with the tokens it takes off and those it leaves.
Lines are not looked at: a command is known up to the lines in it.
-/

set_option autoImplicit false

namespace ImageTools.Shell

def Command.unlined : Command → Command
  | .simple _ assignments words redirects => .simple 0 assignments words redirects
  | .both a b => .both a.unlined b.unlined
  | .sequence a b => .sequence a.unlined b.unlined
  | .branch test yes no => .branch test.unlined yes.unlined no.unlined
  | c => c

namespace Parse

/-! ## Before a list of tokens -/

def isQuiet : Token → Bool
  | .document _ => false
  | .failure _ _ => false
  | _ => true

structure Before (s : Reader) (ts : List Token) : Prop where
  tokens : s.rest.map Located.token = ts
  quiet : ∀ t ∈ ts, isQuiet t = true
  aliases : s.aliases = []
  documents : s.documents = #[]

/-- The parser takes the tokens off, leaves the rest and returns what has the
property. -/
def Parses {α : Type} (p : Parse α) (ts rest : List Token) (P : α → Prop) : Prop :=
  ∀ s, Before s (ts ++ rest) → ∃ a s', p s = .ok (a, s') ∧ Before s' rest ∧ P a

section
variable {α β : Type} {ts us rest : List Token}

theorem parses_pure {P : α → Prop} (a : α) (h : P a) : Parses (pure a) [] rest P :=
  fun s hs => ⟨a, s, rfl, hs, h⟩

theorem Parses.bind {p : Parse α} {f : α → Parse β} {P : α → Prop} {Q : β → Prop}
    (hp : Parses p ts (us ++ rest) P) (hf : ∀ a, P a → Parses (f a) us rest Q) :
    Parses (p >>= f) (ts ++ us) rest Q := by
  intro s hs
  rw [List.append_assoc] at hs
  obtain ⟨a, s', hps, hs', ha⟩ := hp s hs
  obtain ⟨b, s'', hfs, hs'', hb⟩ := hf a ha s' hs'
  refine ⟨b, s'', ?_, hs'', hb⟩
  change (p s).bind (fun r => f r.1 r.2) = .ok (b, s'')
  rw [hps]
  exact hfs

theorem Parses.imp {p : Parse α} {P Q : α → Prop} (h : Parses p ts rest P)
    (hi : ∀ a, P a → Q a) : Parses p ts rest Q := by
  intro s hs
  obtain ⟨a, s', hps, hs', ha⟩ := h s hs
  exact ⟨a, s', hps, hs', hi a ha⟩

/-- A parser that takes nothing off, before another. -/
theorem Parses.look {p : Parse α} {f : α → Parse β} {P : α → Prop} {Q : β → Prop}
    (hp : Parses p [] (ts ++ rest) P) (hf : ∀ a, P a → Parses (f a) ts rest Q) :
    Parses (p >>= f) ts rest Q :=
  Parses.bind hp hf

/-- A parser that takes one token off, before another. -/
theorem Parses.next {p : Parse α} {f : α → Parse β} {P : α → Prop} {Q : β → Prop} {t : Token}
    (hp : Parses p [t] (ts ++ rest) P) (hf : ∀ a, P a → Parses (f a) ts rest Q) :
    Parses (p >>= f) (t :: ts) rest Q :=
  Parses.bind hp hf

/-- A parser that takes everything off, before another. -/
theorem Parses.last {p : Parse α} {f : α → Parse β} {P : α → Prop} {Q : β → Prop}
    (hp : Parses p ts rest P) (hf : ∀ a, P a → Parses (f a) [] rest Q) :
    Parses (p >>= f) ts rest Q := by
  rw [← List.append_nil ts]
  exact Parses.bind hp hf

theorem Before.cons {s : Reader} {t : Token} {ts : List Token} (h : Before s (t :: ts)) :
    ∃ l r, s.rest = l :: r ∧ l.token = t ∧ r.map Located.token = ts := by
  have ht := h.tokens
  cases hr : s.rest with
  | nil => simp [hr] at ht
  | cons l r =>
    simp only [hr, List.map_cons, List.cons.injEq] at ht
    exact ⟨l, r, rfl, ht.1, ht.2⟩

theorem parses_peek (t : Token) : Parses peek [] (t :: rest) fun l => l.token = t := by
  intro s hs
  obtain ⟨l, r, hr, hl, -⟩ := hs.cons
  have hrun : peek s = .ok (s.rest.headD { line := 1, token := .ending }, s) := rfl
  rw [hr, List.headD_cons] at hrun
  exact ⟨l, s, hrun, hs, hl⟩

theorem absorb_quiet (expected line : Nat) (r : List Located) (documents : Array Word)
    (h : ∀ t ∈ r.map Located.token, isQuiet t = true) :
    absorb expected line r documents = .ok (line, r, documents) := by
  cases r with
  | nil => rfl
  | cons l r =>
    have hl := h l.token (by simp)
    obtain ⟨line, token, within⟩ := l
    cases token with
    | document w => simp [isQuiet] at hl
    | failure text before => simp [isQuiet] at hl
    | word w => rfl
    | operator o => rfl
    | redirect descriptor direction => rfl
    | ending => rfl

theorem parses_advance (t : Token) : Parses advance [t] rest fun _ => True := by
  intro s hs
  obtain ⟨l, r, hr, hl, hmap⟩ := hs.cons
  have hq : ∀ u ∈ r.map Located.token, isQuiet u = true := by
    intro u hu
    rw [hmap] at hu
    exact hs.quiet u (List.mem_cons_of_mem t hu)
  have habsorb := fun expected documents => absorb_quiet expected l.line r documents hq
  obtain ⟨latest, hlatest⟩ : ∃ latest, advance s =
      .ok ((), { s with rest := r, line := l.line, latest := latest }) := by
    simp only [advance, hr, habsorb, bind, StateT.bind, Except.bind, get, getThe,
      MonadStateOf.get, StateT.get, pure, Except.pure, liftM, monadLift,
      MonadLift.monadLift, StateT.lift, List.headD_cons, List.tail_cons]
    exact ⟨_, rfl⟩
  exact ⟨(), _, hlatest, ⟨hmap, fun u hu => hs.quiet u (List.mem_cons_of_mem t hu), hs.aliases,
    hs.documents⟩, trivial⟩

theorem parses_unalias : Parses unalias [] rest fun _ => True := by
  intro s hs
  have hrun : unalias s = .ok ((), if s.aliases.isEmpty then s
      else { s with rest := replaceAliases s.aliases aliasLimit s.rest }) := rfl
  rw [hs.aliases] at hrun
  exact ⟨(), s, hrun, hs, trivial⟩

theorem parses_isKeyword (text : String) (t : Token) :
    Parses (isKeyword text) [] (t :: rest) fun b => b = (keyword? t == some text) := by
  refine (parses_peek t).look fun l hl => ?_
  exact parses_pure _ (by rw [hl])

theorem parses_isOperator (o : Operator) (t : Token) :
    Parses (isOperator o) [] (t :: rest) fun b =>
      b = match t with
        | .operator p => o == p
        | _ => false := by
  refine (parses_peek t).look fun l hl => ?_
  rw [hl]
  cases t <;> exact parses_pure _ rfl

theorem parses_expectKeyword (text : String) (t : Token) (h : keyword? t = some text) :
    Parses (expectKeyword text) [t] rest fun _ => True := by
  refine (parses_isKeyword text t).look fun b hb => ?_
  rw [h, beq_self_eq_true] at hb
  rw [hb]
  exact parses_advance t

/-! ## Words -/

def isSpelled : Piece → Bool
  | .char _ _ => true
  | .mark => true
  | .parameter _ _ _ [] => true
  | _ => false

def isSpelledWord (w : Word) : Bool := w.all isSpelled

theorem parses_checkWord (list : Parse Command) (n : Nat) (w : Word)
    (h : isSpelledWord w = true) : Parses (checkWord list n w) [] rest fun _ => True := by
  induction n generalizing w with
  | zero =>
    unfold checkWord
    exact parses_pure () trivial
  | succ n ih =>
    cases w with
    | nil =>
      unfold checkWord
      exact parses_pure () trivial
    | cons p w =>
      rw [isSpelledWord, List.all_cons, Bool.and_eq_true] at h
      have hw := ih w h.2
      unfold checkWord
      cases p with
      | char c quoted => exact hw
      | mark => exact hw
      | parameter name operation quoted operand =>
        cases operand with
        | nil => exact (ih [] rfl).look fun _ _ => hw
        | cons p operand => simp [isSpelled] at h
      | command text line closed quoted => simp [isSpelled] at h
      | arithmetic expression quoted => simp [isSpelled] at h

theorem parses_get : Parses get [] rest fun s => Before s rest :=
  fun s hs => ⟨s, s, rfl, hs, hs⟩

/-- A loop whose turns each take one newline off and that ends where there is
none. -/
theorem parses_turns (f : Located → Option Unit × Unit → Parse (ForInStep (Option Unit × Unit)))
    (t : Token)
    (hstop : ∀ l b, Parses (f l b) [] (t :: rest) fun r => r = .done (some (), ()))
    (hturn : ∀ l b us, Parses (f l b) [.operator .newline] us fun r => r = .yield (none, ()))
    (ls : List Located) (b : Option Unit × Unit) (k : Nat) (hk : k ≤ ls.length) :
    Parses (forIn ls b f) (List.replicate k (.operator .newline)) (t :: rest) fun _ => True := by
  induction ls generalizing k b with
  | nil =>
    obtain rfl : k = 0 := by simpa using hk
    exact parses_pure _ trivial
  | cons l ls ih =>
    rw [List.forIn_cons]
    cases k with
    | zero =>
      refine (hstop l b).look fun r hr => ?_
      rw [hr]
      exact parses_pure _ trivial
    | succ k =>
      refine (hturn l b _).bind fun r hr => ?_
      rw [hr]
      exact ih _ k (by simpa using hk)

theorem parses_skipNewlines (k : Nat) (t : Token) (ht : t ≠ .operator .newline) :
    Parses skipNewlines (List.replicate k (.operator .newline)) (t :: rest) fun _ => True := by
  unfold skipNewlines
  refine parses_get.look fun s hs => ?_
  have hlen : k ≤ s.rest.length := by
    have h := congrArg List.length hs.tokens
    simp at h
    omega
  refine (parses_turns _ t ?_ ?_ s.rest _ k hlen).last fun r _ => ?_
  · intro l b
    refine (parses_peek t).look fun l hl => ?_
    rw [hl]
    split
    · exact absurd rfl ht
    · exact parses_pure _ rfl
  · intro l b us
    refine (parses_peek (.operator .newline)).look fun l hl => ?_
    rw [hl]
    exact (parses_advance (.operator .newline)).last fun _ _ => parses_pure _ rfl
  · dsimp only
    split <;> exact parses_pure _ trivial

def endsSimple : Token → Bool
  | .operator o => o != .openParen
  | .ending => true
  | _ => false

theorem parses_unaliasIf {P : β → Prop} (b : Prop) [Decidable b] (f : Unit → Parse β)
    (h : Parses (f ()) ts rest P) :
    Parses (if b then (unalias >>= f) else f ()) ts rest P := by
  split
  · exact parses_unalias.look fun _ _ => h
  · exact h

theorem parses_simple (list command : Parse Command) (line n : Nat) (s : Simple) (ws : List Word)
    (t : Token) (hn : ws.length < n) (hs : ∀ w ∈ ws, isSpelledWord w = true)
    (ha : s.words = [] → ∀ w, ws.head? = some w → assignment? w = none)
    (ht : endsSimple t = true) :
    Parses (simple list command line n s) (ws.map .word) (t :: rest) fun c =>
      c.unlined = .simple 0 s.assignments (s.words ++ ws) s.redirects := by
  induction n generalizing s ws with
  | zero => simp at hn
  | succ n ih =>
    unfold simple
    dsimp only
    refine parses_unaliasIf _ _ ?_
    cases ws with
    | nil =>
      refine (parses_peek t).look fun l hl => ?_
      have hreturn : Parses (pure (Command.simple line s.assignments s.words s.redirects)) []
          (t :: rest) fun c => c.unlined = .simple 0 s.assignments (s.words ++ []) s.redirects :=
        parses_pure _ (by simp [Command.unlined])
      rw [hl]
      cases t with
      | operator o =>
        cases o with
        | openParen => simp [endsSimple] at ht
        | newline => exact hreturn
        | semicolon => exact hreturn
        | ampersand => exact hreturn
        | pipe => exact hreturn
        | andThen => exact hreturn
        | orElse => exact hreturn
        | closeParen => exact hreturn
        | caseEnd => exact hreturn
      | ending => exact hreturn
      | word w => simp [endsSimple] at ht
      | redirect descriptor direction => simp [endsSimple] at ht
      | document w => simp [endsSimple] at ht
      | failure text before => simp [endsSimple] at ht
    | cons w ws =>
      have hnone : (if s.words.isEmpty = true then assignment? w else none) = none := by
        split
        · rename_i hempty
          exact ha (by simpa using hempty) w rfl
        · rfl
      refine (parses_peek (.word w)).look fun l hl => ?_
      simp only [hl, hnone]
      refine (parses_checkWord list n w (hs w (by simp))).look fun _ _ => ?_
      refine (parses_advance (.word w)).next fun _ _ => ?_
      have hrest := ih { s with words := s.words ++ [w] } ws (by simp at hn; omega)
        (fun v hv => hs v (by simp [hv])) (by simp)
      simpa using hrest

/-! ## Single commands -/

def endsCommand : Token → Bool
  | .operator .newline => true
  | .operator .semicolon => true
  | .operator .andThen => true
  | .ending => true
  | _ => false

theorem endsSimple_of_endsCommand (t : Token) (h : endsCommand t = true) :
    endsSimple t = true := by
  cases t with
  | operator o => cases o <;> simp_all [endsCommand, endsSimple]
  | ending => rfl
  | word w => simp [endsCommand] at h
  | redirect descriptor direction => simp [endsCommand] at h
  | document w => simp [endsCommand] at h
  | failure text before => simp [endsCommand] at h

def ReadsAs (p : Parse Command) (ts : List Token) (c : Command) : Prop :=
  ∀ t rest, endsCommand t = true → Parses p ts (t :: rest) fun c' => c'.unlined = c

def ListsAs (p : Parse Command) (ts : List Token) (c : Command) : Prop :=
  ∀ t rest, endsList t = true → Parses p ts (t :: rest) fun c' => c'.unlined = c

theorem command_word {list optional self : Parse Command} {n : Nat} {P : Command → Prop}
    (w : Word) (ts : List Token) (hk : keyword? (.word w) = none)
    (h : ∀ line, Parses (simple list self line n {}) (.word w :: ts) rest P) :
    Parses (command list optional self n) (.word w :: ts) rest P := by
  unfold command
  refine parses_unalias.look fun _ _ => ?_
  refine (parses_peek (.word w)).look fun l hl => ?_
  simp only [hl, hk]
  exact h l.line

theorem command_simple (list optional self : Parse Command) (n : Nat) (w : Word) (ws : List Word)
    (hn : ws.length + 1 < n) (hk : keyword? (.word w) = none) (ha : assignment? w = none)
    (hs : ∀ v ∈ w :: ws, isSpelledWord v = true) :
    ReadsAs (command list optional self n) ((w :: ws).map .word) (.simple 0 [] (w :: ws) []) := by
  intro t rest ht
  refine command_word w (ws.map .word) hk fun line => ?_
  exact parses_simple list self line n {} (w :: ws) t hn hs (by simp [ha])
    (endsSimple_of_endsCommand t ht)

theorem command_assignment (list optional self : Parse Command) (n : Nat) (w : Word)
    (a : String × Word) (hn : 1 < n) (hk : keyword? (.word w) = none)
    (ha : assignment? w = some a) (hs : isSpelledWord w = true) :
    ReadsAs (command list optional self n) [.word w] (.simple 0 [a] [] []) := by
  intro t rest ht
  refine command_word w [] hk fun line => ?_
  obtain ⟨m, rfl⟩ : ∃ m, n = m + 1 := ⟨n - 1, by omega⟩
  unfold simple
  dsimp only
  refine parses_unaliasIf _ _ ?_
  refine (parses_peek (.word w)).look fun l hl => ?_
  simp only [hl, List.isEmpty_nil, if_true, ha]
  refine (parses_checkWord list m w hs).look fun _ _ => ?_
  refine (parses_advance (.word w)).last fun _ _ => ?_
  exact parses_simple list self line m { assignments := [a] } [] t (by simp; omega) (by simp)
    (by simp) (endsSimple_of_endsCommand t ht)

theorem parses_redirects (list : Parse Command) (n : Nat) (t : Token) (h : endsCommand t = true) :
    Parses (redirects list n) [] (t :: rest) fun rs => rs = [] := by
  unfold redirects
  cases n with
  | zero => exact parses_pure _ rfl
  | succ n =>
    refine (parses_peek t).look fun l hl => ?_
    rw [hl]
    cases t <;> first | exact parses_pure _ rfl | simp [endsCommand] at h

/-- A branch without an alternative. -/
theorem command_branch (list optional self : Parse Command) (n : Nat) (ts us : List Token)
    (test yes : Command) (tIf tThen tFi : Token) (hn : 0 < n)
    (hIf : keyword? tIf = some "if") (hThen : keyword? tThen = some "then")
    (hFi : keyword? tFi = some "fi") (htest : ListsAs list ts test) (hyes : ListsAs list us yes) :
    ReadsAs (command list optional self n) (tIf :: (ts ++ tThen :: (us ++ [tFi])))
      (.branch test yes .nothing) := by
  intro t rest ht
  obtain ⟨m, rfl⟩ : ∃ m, n = m + 1 := ⟨n - 1, by omega⟩
  have hcloses : ∀ t text, keyword? t = some text → closers.contains text = true →
      endsList t = true := by
    intro t text hk hc
    cases t <;> simp_all [keyword?, endsList]
  have hbranches : Parses (branches list (m + 1)) (ts ++ tThen :: (us ++ [tFi])) (t :: rest)
      fun c => c.unlined = .branch test yes .nothing := by
    unfold branches
    refine (htest tThen _ (hcloses _ _ hThen rfl)).bind fun a ha => ?_
    refine (parses_expectKeyword "then" tThen hThen).next fun _ _ => ?_
    refine (hyes tFi _ (hcloses _ _ hFi rfl)).bind fun b hb => ?_
    refine (parses_isKeyword "elif" tFi).look fun isElif he => ?_
    have helif : isElif = false := by rw [he, hFi]; rfl
    simp only [helif, Bool.false_eq_true, if_false]
    refine (parses_isKeyword "else" tFi).look fun isElse he => ?_
    have helse : isElse = false := by rw [he, hFi]; rfl
    simp only [helse, Bool.false_eq_true, if_false]
    refine (parses_expectKeyword "fi" tFi hFi).last fun _ _ => ?_
    exact parses_pure _ (by simp [Command.unlined, ha, hb])
  unfold command
  refine parses_unalias.look fun _ _ => ?_
  refine (parses_peek tIf).look fun l hl => ?_
  simp only [hl, hIf]
  refine (parses_advance tIf).next fun _ _ => ?_
  refine hbranches.last fun c hc => ?_
  unfold withRedirects
  refine (parses_redirects list (m + 1) t ht).look fun rs hrs => ?_
  rw [hrs]
  exact parses_pure c hc

end

end Parse

end ImageTools.Shell
