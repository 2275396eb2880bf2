import ImageTools.Proofs.Parsing

/-!
# Parsing lists of commands

A text of clauses, each ended by its separator, is read as the list of their
commands, at any depth that the parser's fuel allows.
-/

set_option autoImplicit false

namespace ImageTools.Shell.Parse

section
variable {α β : Type} {ts us rest : List Token}

/-! ## Chains -/

theorem pipeline_readsAs (command : Parse Command) (n : Nat) (t₀ : Token) (ts : List Token)
    (c : Command) (hn : 0 < n) (h₀ : keyword? t₀ ≠ some "!")
    (h : ReadsAs command (t₀ :: ts) c) : ReadsAs (pipeline command n) (t₀ :: ts) c := by
  intro t rest ht
  obtain ⟨m, rfl⟩ : ∃ m, n = m + 1 := ⟨n - 1, by omega⟩
  unfold pipeline
  refine (parses_isKeyword "!" t₀).look fun b hb => ?_
  have hfalse : b = false := by simp [hb, h₀]
  simp only [hfalse, Bool.false_eq_true, if_false]
  unfold pipes
  refine (h t rest ht).last fun first hf => ?_
  refine (parses_isOperator .pipe t).look fun b hb => ?_
  have hpipe : b = false := by
    rw [hb]
    cases t with
    | operator o => cases o <;> simp_all [endsCommand]
    | _ => rfl
  simp only [hpipe, Bool.false_eq_true, if_false]
  exact parses_pure first hf

def endsChain : Token → Bool
  | .operator .newline => true
  | .operator .semicolon => true
  | .ending => true
  | _ => false

def ChainsAs (p : Parse Command) (ts : List Token) (c : Command) : Prop :=
  ∀ t rest, endsChain t = true → Parses p ts (t :: rest) fun c' => c'.unlined = c

theorem endsCommand_of_endsChain (t : Token) (h : endsChain t = true) : endsCommand t = true := by
  cases t with
  | operator o => cases o <;> simp_all [endsChain, endsCommand]
  | ending => rfl
  | word w => simp [endsChain] at h
  | redirect descriptor direction => simp [endsChain] at h
  | document w => simp [endsChain] at h
  | failure text before => simp [endsChain] at h

theorem chain_stops (one : Parse Command) (n : Nat) (c : Command) (t : Token) (hn : 0 < n)
    (ht : endsChain t = true) : Parses (chain one n c) [] (t :: rest) fun c' => c' = c := by
  obtain ⟨m, rfl⟩ : ∃ m, n = m + 1 := ⟨n - 1, by omega⟩
  unfold chain
  refine (parses_isOperator .andThen t).look fun b hb => ?_
  have hand : b = false := by
    rw [hb]
    cases t with
    | operator o => cases o <;> simp_all [endsChain]
    | _ => rfl
  simp only [hand, Bool.false_eq_true, if_false]
  refine (parses_isOperator .orElse t).look fun b hb => ?_
  have hor : b = false := by
    rw [hb]
    cases t with
    | operator o => cases o <;> simp_all [endsChain]
    | _ => rfl
  simp only [hor, Bool.false_eq_true, if_false]
  exact parses_pure c rfl

theorem chain_one (one : Parse Command) (n : Nat) (ts : List Token) (c : Command) (hn : 0 < n)
    (h : ReadsAs one ts c) : ChainsAs (one >>= chain one n) ts c := by
  intro t rest ht
  refine (h t rest (endsCommand_of_endsChain t ht)).last fun first hf => ?_
  refine (chain_stops one n first t hn ht).imp fun c' hc => ?_
  rw [hc, hf]

theorem chain_both (one : Parse Command) (n : Nat) (ts us : List Token) (u : Token)
    (c d : Command) (hn : 1 < n) (hu : u ≠ .operator .newline) (h : ReadsAs one ts c)
    (h' : ReadsAs one (u :: us) d) :
    ChainsAs (one >>= chain one n) (ts ++ .operator .andThen :: u :: us) (.both c d) := by
  intro t rest ht
  obtain ⟨m, rfl⟩ : ∃ m, n = m + 1 := ⟨n - 1, by omega⟩
  refine (h (.operator .andThen) _ rfl).bind fun first hf => ?_
  unfold chain
  refine (parses_isOperator .andThen (.operator .andThen)).look fun b hb => ?_
  have hand : b = true := by rw [hb]; rfl
  simp only [hand, if_true]
  refine (parses_advance (.operator .andThen)).next fun _ _ => ?_
  refine (parses_skipNewlines 0 u hu).look fun _ _ => ?_
  refine (h' t rest (endsCommand_of_endsChain t ht)).last fun second hs => ?_
  refine (chain_stops one m (.both first second) t (by omega) ht).imp fun c' hc => ?_
  rw [hc, Command.unlined, hf, hs]

theorem unlined_join (a b : Command) : (join a b).unlined = join a.unlined b.unlined := by
  cases a <;> rfl

def opensCommand (t : Token) : Bool :=
  match t with
  | .word _ => (keyword? t).all fun k => !closers.contains k
  | _ => false

theorem opensCommand_of_keyword (w : Word) (h : keyword? (.word w) = none) :
    opensCommand (.word w) = true := by
  change (keyword? (.word w)).all _ = true
  rw [h]
  rfl

theorem endsList_of_opensCommand (t : Token) (h : opensCommand t = true) : endsList t = false := by
  cases t with
  | word w =>
    simp only [opensCommand] at h
    simp only [endsList]
    cases hk : keyword? (.word w) with
    | none => rfl
    | some text => simpa [hk] using h
  | _ => simp [opensCommand] at h

theorem commands_end (p : Parse Command) (n k : Nat) (mayEnd : Bool) (done : Command) (t : Token)
    (hn : 0 < n) (ht : endsList t = true) (hm : mayEnd = true ∨ t = .ending) :
    Parses (commands p false n mayEnd done) (List.replicate k (.operator .newline)) (t :: rest)
      fun c => c = done := by
  obtain ⟨m, rfl⟩ : ∃ m, n = m + 1 := ⟨n - 1, by omega⟩
  have hnewline : t ≠ .operator .newline := by
    rintro rfl
    simp [endsList, keyword?] at ht
  unfold commands
  dsimp only
  simp only [Bool.not_false, if_true]
  refine (parses_skipNewlines k t hnewline).last fun _ _ => ?_
  refine (parses_peek t).look fun l hl => ?_
  rw [hl]
  split
  · exact absurd rfl hnewline
  · exact parses_pure done rfl
  · rename_i hending
    have hmay : mayEnd = true := hm.resolve_right hending
    simp only [hmay, ht, Bool.and_self, if_true]
    exact parses_pure done rfl

def Separates (sep : Token) (us next : List Token) : Prop :=
  (sep = .operator .semicolon ∧ next = us) ∨ (sep = .operator .newline ∧ next = sep :: us)

theorem commands_step {P : Command → Prop} (p : Parse Command) (n k : Nat) (mayEnd : Bool)
    (done c : Command) (t sep : Token) (ts us next : List Token) (ht : opensCommand t = true)
    (h : ChainsAs p (t :: ts) c) (hsep : Separates sep us next)
    (hnext : ∀ d, d.unlined = join done.unlined c →
      Parses (commands p false n true d) next rest P) :
    Parses (commands p false (n + 1) mayEnd done)
      (List.replicate k (.operator .newline) ++ (t :: ts ++ sep :: us)) rest P := by
  obtain ⟨w, rfl⟩ : ∃ w, t = .word w := by
    cases t <;> simp_all [opensCommand]
  have hends := endsList_of_opensCommand (.word w) ht
  unfold commands
  dsimp only
  simp only [Bool.not_false, if_true]
  refine (parses_skipNewlines k (.word w) (by simp)).bind fun _ _ => ?_
  refine (parses_peek (.word w)).look fun l hl => ?_
  simp only [hl, hends, Bool.and_false, Bool.false_eq_true, if_false]
  have hchain : endsChain sep = true := by
    rcases hsep with ⟨rfl, -⟩ | ⟨rfl, -⟩ <;> rfl
  refine (h sep _ hchain).bind fun c' hc => ?_
  refine (parses_isOperator .ampersand sep).look fun b hb => ?_
  have hbackground : b = false := by
    rw [hb]
    rcases hsep with ⟨rfl, -⟩ | ⟨rfl, -⟩ <;> rfl
  simp only [hbackground, Bool.false_eq_true, if_false]
  refine (parses_peek sep).look fun l hl => ?_
  have hjoin : (join done c').unlined = join done.unlined c := by rw [unlined_join, hc]
  rw [hl]
  rcases hsep with ⟨rfl, rfl⟩ | ⟨rfl, rfl⟩
  · exact (parses_advance (.operator .semicolon)).next fun _ _ => hnext _ hjoin
  · exact hnext _ hjoin

/-- A part of a list of commands: a line end, or a chain of commands and the
sign that ends it. -/
inductive Clause
  | blank
  | chain (tokens : List Token) (c : Command) (sign : Operator)

def Clause.tokens : Clause → List Token
  | .blank => [.operator .newline]
  | .chain ts _ sign => ts ++ [.operator sign]

def Clause.command? : Clause → Option Command
  | .blank => none
  | .chain _ c _ => some c

def Clause.Reads (p : Parse Command) : Clause → Prop
  | .blank => True
  | .chain ts c sign => ChainsAs p ts c ∧ (∃ t r, ts = t :: r ∧ opensCommand t = true) ∧
      (sign = .semicolon ∨ sign = .newline)

/-- A list of clauses is read as their commands, joined. -/
theorem commands_clauses (p : Parse Command) (clauses : List Clause) (n k : Nat) (mayEnd : Bool)
    (done : Command) (t : Token) (hn : clauses.length < n) (hc : ∀ c ∈ clauses, c.Reads p)
    (ht : endsList t = true)
    (hm : mayEnd = true ∨ t = .ending ∨ clauses.any (fun c => c.command?.isSome) = true) :
    Parses (commands p false n mayEnd done)
      (List.replicate k (.operator .newline) ++ clauses.flatMap Clause.tokens) (t :: rest)
      fun c => c.unlined = (clauses.filterMap Clause.command?).foldl join done.unlined := by
  induction clauses generalizing n k mayEnd done with
  | nil =>
    simp only [List.any_nil, Bool.false_eq_true, or_false] at hm
    simp only [List.flatMap_nil, List.append_nil]
    refine (commands_end p n k mayEnd done t (by simpa using hn) ht hm).imp fun c hc => ?_
    rw [hc]
    rfl
  | cons clause clauses ih =>
    have hrest : ∀ c ∈ clauses, c.Reads p := fun c h => hc c (by simp [h])
    rw [List.length_cons] at hn
    cases clause with
    | blank =>
      have hk := ih n (k + 1) mayEnd done (by omega) hrest hm
      rw [List.replicate_succ', List.append_assoc] at hk
      exact hk
    | chain ts c sign =>
      obtain ⟨hchain, ⟨t₀, ts, rfl, ht₀⟩, hsign⟩ := hc _ List.mem_cons_self
      obtain ⟨m, rfl⟩ : ∃ m, n = m + 1 := ⟨n - 1, by omega⟩
      have hstep := fun j d => ih m j true d (by omega) hrest (Or.inl rfl)
      simp only [List.flatMap_cons, Clause.tokens, List.append_assoc, List.singleton_append,
        List.filterMap_cons, Clause.command?, List.foldl_cons]
      rcases hsign with rfl | rfl
      · refine commands_step p m k mayEnd done c t₀ (.operator .semicolon) ts _ _ ht₀ hchain
          (Or.inl ⟨rfl, rfl⟩) fun d hd => ?_
        rw [← hd]
        exact hstep 0 d
      · refine commands_step p m k mayEnd done c t₀ (.operator .newline) ts _ _ ht₀ hchain
          (Or.inr ⟨rfl, rfl⟩) fun d hd => ?_
        rw [← hd]
        exact hstep 1 d

/-! ## Whole texts -/

def pipelineOf (n : Nat) : Parse Command :=
  pipeline (commandWith (list false false n) (list false true n) n n) n

def chainOf (n : Nat) : Parse Command := pipelineOf n >>= chain (pipelineOf n) n

theorem list_clauses (clauses : List Clause) (n : Nat) (mayEnd : Bool)
    (hn : clauses.length < n) (hc : ∀ c ∈ clauses, c.Reads (chainOf n))
    (hsome : clauses.any (fun c => c.command?.isSome) = true) :
    ListsAs (list false mayEnd (n + 1)) (clauses.flatMap Clause.tokens)
      ((clauses.filterMap Clause.command?).foldl join .nothing) := by
  intro t rest ht
  exact commands_clauses (chainOf n) clauses n 0 mayEnd .nothing t hn hc ht (Or.inr (Or.inr hsome))

theorem pipelineOf_readsAs (n : Nat) (t₀ : Token) (ts : List Token) (c : Command) (hn : 0 < n)
    (h₀ : keyword? t₀ ≠ some "!")
    (h : ∀ optional self, ReadsAs (command (list false false n) optional self n) (t₀ :: ts) c) :
    ReadsAs (pipelineOf n) (t₀ :: ts) c := by
  obtain ⟨m, rfl⟩ : ∃ m, n = m + 1 := ⟨n - 1, by omega⟩
  exact pipeline_readsAs _ (m + 1) t₀ ts c hn h₀ (h _ _)

theorem whole_ok {P : Command → Prop} (list : Parse Command) (line : Nat) (text : List Char)
    (k : Nat) (t : Token) (ts : List Token)
    (ht : opensCommand t = true) (hlist : Parses list (t :: ts) [.ending] P)
    (htokens : (tokens line text).map Located.token =
      List.replicate k (.operator .newline) ++ (t :: ts ++ [.ending]))
    (hquiet : ∀ u ∈ (tokens line text).map Located.token, isQuiet u = true) :
    ∃ c documents, whole list line text false #[] = .ok (c, documents) ∧ P c := by
  have hnewline : t ≠ .operator .newline := by
    rintro rfl
    simp [opensCommand] at ht
  have hread : Parses (skipNewlines >>= fun _ => peek >>= fun l =>
      if endsList l.token = true then pure .nothing >>= fun c => pure c
      else list >>= fun c => pure c)
      (List.replicate k (.operator .newline) ++ t :: ts) [.ending] P := by
    refine (parses_skipNewlines k t hnewline).bind fun _ _ => ?_
    refine (parses_peek t).look fun l hl => ?_
    simp only [hl, endsList_of_opensCommand t ht, Bool.false_eq_true, if_false]
    exact hlist.last fun c hc => parses_pure c hc
  obtain ⟨c, s, hrun, -, hc⟩ := hread
    { rest := tokens line text, line := line, announced := (#[] : Array Word).size
      documents := #[] }
    ⟨by rw [htokens, List.append_assoc], by rwa [List.append_assoc, ← htokens], rfl, rfl⟩
  refine ⟨c, s.documents, ?_, hc⟩
  unfold whole
  dsimp only
  simp only [Bool.false_eq_true, if_false]
  rw [hrun]
  rfl

/-- A text whose tokens are line ends and then clauses is read as the clauses'
commands. -/
theorem commandsOf_clauses (line : Nat) (text : List Char) (k : Nat) (first : Clause)
    (clauses : List Clause) (hfirst : first.command?.isSome = true)
    (htokens : (tokens line text).map Located.token = List.replicate k (.operator .newline) ++
      ((first :: clauses).flatMap Clause.tokens ++ [.ending]))
    (hquiet : ∀ t ∈ (tokens line text).map Located.token, isQuiet t = true)
    (hn : clauses.length + 1 < 2 * text.length + 7)
    (hc : ∀ c ∈ first :: clauses, c.Reads (chainOf (2 * text.length + 7))) :
    ∃ c documents, commandsOf line text false #[] = .ok (c, documents) ∧
      c.unlined = ((first :: clauses).filterMap Clause.command?).foldl join .nothing := by
  have hlist := list_clauses (first :: clauses) _ true hn hc (by simp [hfirst]) .ending [] rfl
  obtain ⟨t, ts, ht, hopens⟩ : ∃ t ts, (first :: clauses).flatMap Clause.tokens = t :: ts ∧
      opensCommand t = true := by
    cases first with
    | blank => simp [Clause.command?] at hfirst
    | chain us c sign =>
      obtain ⟨-, ⟨t, us, rfl, ht⟩, -⟩ := hc _ List.mem_cons_self
      exact ⟨t, _, rfl, ht⟩
  rw [ht] at hlist htokens
  exact whole_ok _ line text k t ts hopens hlist htokens hquiet

/-! ## Line by line -/

/-- A clause that is a line of its own. -/
def Clause.IsLine : Clause → Prop
  | .blank => True
  | .chain _ _ sign => sign = .newline

theorem list_line (clause : Clause) (n : Nat) (hn : 1 < n) (h : clause.Reads (chainOf n))
    (hline : clause.IsLine) :
    Parses (list true false (n + 1)) clause.tokens rest
      fun c => c.unlined = clause.command?.getD .nothing := by
  obtain ⟨m, rfl⟩ : ∃ m, n = m + 2 := ⟨n - 2, by omega⟩
  change Parses (commands (chainOf (m + 2)) true (m + 2) false .nothing) _ _ _
  cases clause with
  | blank =>
    unfold commands
    refine (parses_peek (.operator .newline)).look fun l hl => ?_
    simp only [hl]
    exact (parses_advance (.operator .newline)).last fun _ _ => parses_pure _ rfl
  | chain ts c sign =>
    obtain rfl : sign = .newline := hline
    obtain ⟨hchain, ⟨t, ts, rfl, ht⟩, -⟩ := h
    obtain ⟨w, rfl⟩ : ∃ w, t = .word w := by
      cases t <;> simp_all [opensCommand]
    unfold commands
    refine (parses_peek (.word w)).look fun l hl => ?_
    simp only [hl, Bool.not_true, Bool.false_and, Bool.false_eq_true, if_false]
    refine (hchain (.operator .newline) rest rfl).bind fun c' hc => ?_
    refine (parses_isOperator .ampersand (.operator .newline)).look fun b hb => ?_
    have hbackground : b = false := hb
    simp only [hbackground, Bool.false_eq_true, if_false]
    refine (parses_peek (.operator .newline)).look fun l hl => ?_
    simp only [hl]
    unfold commands
    refine (parses_peek (.operator .newline)).look fun l hl => ?_
    simp only [hl]
    exact (parses_advance (.operator .newline)).last fun _ _ => parses_pure _ hc

theorem parses_checkDocuments (p : Parse Command) (n first : Nat) :
    Parses (checkDocuments p n first) [] rest fun _ => True := by
  intro s hs
  refine ⟨(), s, ?_, hs, trivial⟩
  have hrun : checkDocuments p n first s =
      ((s.documents.toList.drop first).forM (checkWord p n)) s := rfl
  rw [hrun, hs.documents, List.drop_nil]
  rfl

theorem next_line (clause : Clause) (n : Nat) (hn : 1 < n) (h : clause.Reads (chainOf n))
    (hline : clause.IsLine) (s : Reader) (hs : Before s (clause.tokens ++ rest)) :
    ∃ c s', s.next (n + 1) = .ok (some c, s') ∧ Before s' rest ∧
      c.unlined = clause.command?.getD .nothing := by
  obtain ⟨t, ts, ht, hending⟩ : ∃ t ts, clause.tokens ++ rest = t :: ts ∧ t ≠ .ending := by
    cases clause with
    | blank => exact ⟨_, _, rfl, by simp⟩
    | chain us c sign =>
      obtain ⟨-, ⟨t, us, rfl, ht⟩, -⟩ := h
      exact ⟨t, _, rfl, by rintro rfl; cases ht⟩
  obtain ⟨c, s', hread, hs', hc⟩ := ((list_line clause n hn h hline).last fun c hc =>
    (parses_checkDocuments (list false false (n + 1)) (n + 1) s.documents.size).look fun _ _ =>
      parses_pure c hc) s hs
  refine ⟨c, s', ?_, hs', hc⟩
  rw [ht] at hs
  obtain ⟨l, r, hr, hl, -⟩ := hs.cons
  unfold Reader.next
  rw [hr, List.headD_cons, hl]
  split
  · exact absurd rfl hending
  · exact congrArg (fun result => result.map fun p => (some p.1, p.2)) hread

theorem next_none (fuel : Nat) (s : Reader) (hs : Before s [.ending]) :
    s.next fuel = .ok (none, s) := by
  obtain ⟨l, r, hr, hl, -⟩ := hs.cons
  unfold Reader.next
  rw [hr, List.headD_cons, hl]

end

end ImageTools.Shell.Parse
