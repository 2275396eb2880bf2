import ImageTools.Proofs.CommandLists
import ImageTools.Proofs.StepTokens

/-!
# The commands of a script

A script is read as the assignments of its header and then the command of
every step, in turn. The only steps that a shell could read as something else
are commands that begin with a keyword or an assignment.
-/

set_option autoImplicit false

namespace ImageTools.Script
open Shell Shell.Lexer Shell.Parse

/-! ## The header -/

theorem adds_comment (c : Char) (h : c ≠ '\n') : Adds .comment false [c] [] .comment false := by
  intro line word tokens
  exists line
  by_cases hb : c = '\\'
  · subst hb
    rfl
  · refine (feed_reading _ _ _ _ _ c hb h).trans ?_
    have hstep : (reading .comment false line word tokens).stepInside c =
        reading .comment false line word tokens := by
      simp [stepInside, reading, h]
    exact hstep

theorem reads_comment (cs : List Char) (h : '\n' ∉ cs) :
    Reads ('#' :: cs ++ ['\n']) [.operator .newline] := by
  intro line tokens
  have hcs := adds_flatMap .comment false (fun c => [c]) (fun _ => []) cs
    fun c hc => adds_comment c (by rintro rfl; exact h hc)
  rw [List.flatMap_singleton'] at hcs
  obtain ⟨l, hl⟩ := hcs line [] tokens
  refine ⟨l + 1, [{ line := l + 1, token := .operator .newline }], rfl, ?_⟩
  have hopen : (reading .blank false line [] tokens).run ['#'] =
      reading .comment false line [] tokens := rfl
  have hclose : (reading .comment false l [] tokens).run ['\n'] =
      reading .blank false (l + 1) []
        ({ line := l + 1, token := .operator .newline } :: tokens) := rfl
  have hnil : cs.flatMap (fun _ => ([] : Word)) = [] := by simp
  rw [hnil] at hl
  rw [← List.singleton_append, run_append, run_append, hopen, hl]
  exact hclose

def colourValue (text : String) : Word := .mark :: quotedText text ++ [.mark]

def labelValue (colour text : String) : Word :=
  .mark :: .parameter colour .value true [] :: quotedText text ++
    [.parameter "NC" .value true [], .mark]

def settingWord (start : String) (value : Word) : Word :=
  bareWord start ++ value

theorem reads_colour (start text : String) (hs : isBareText start = true)
    (ht : '\x27' ∉ text.toList) :
    Reads (start.toList ++ '\x27' :: text.toList ++ ['\x27', '\n'])
      [.word (settingWord start (colourValue text)), .operator .newline] := by
  have htext : Adds .single false text.toList (quotedText text) .single false := by
    have h := adds_flatMap .single false (fun c => [c]) (fun c => [Piece.char c true]) text.toList
      fun c hc => adds_single c (by rintro rfl; exact ht hc)
    rwa [List.flatMap_singleton', ← List.map_eq_flatMap] at h
  have hall := (begins_bare start hs).append (opens_single.append (htext.append closes_single))
  exact reads_of_eq (reads_lastWord hall) (by simp) (by simp [settingWord, colourValue])

theorem reads_label (start colour text : String) (hs : isBareText start = true)
    (hc : isLabel colour.toList = true) (ht : text.toList.all (fun c => !isSpecial c) = true) :
    Reads (start.toList ++ '\x22' :: '$' :: '\x7b' :: colour.toList ++ '\x7d' :: text.toList ++
        '$' :: '\x7b' :: "NC".toList ++ ['\x7d', '\x22', '\n'])
      [.word (settingWord start (labelValue colour text)), .operator .newline] := by
  have htext : Adds .double true text.toList (quotedText text) .double true := by
    have h := adds_flatMap .double true (fun c => [c]) (fun c => [Piece.char c true]) text.toList
      fun c hc => adds_double c (by simpa using List.all_eq_true.1 ht c hc)
    rwa [List.flatMap_singleton', ← List.map_eq_flatMap] at h
  have hopen : Adds .word false ['\x22'] [.mark] .double true := fun line _ _ => ⟨line, rfl⟩
  have hclose : Adds .double true ['\x22'] [.mark] .word false := fun line _ _ => ⟨line, rfl⟩
  have hall := (begins_bare start hs).append (hopen.append ((adds_label colour.toList hc).append
    (htext.append ((adds_label "NC".toList (by decide)).append hclose))))
  exact reads_of_eq (reads_lastWord hall) (by simp) (by simp [settingWord, labelValue])

def settings : List (String × Word) :=
  [("GREEN", colourValue "\\033[0;32m"), ("RED", colourValue "\\033[0;31m"),
    ("NC", colourValue "\\033[0m"), ("ERROR", labelValue "RED" "[ERROR]"),
    ("SUCCESS", labelValue "GREEN" "[SUCCESS]")]

def headerTokens : List Token :=
  .operator .newline ::
    settings.flatMap (fun v => [.word (settingWord (v.1 ++ "=") v.2), .operator .newline]) ++
      [.operator .newline]

theorem reads_header : Reads header.toList headerTokens := by
  have hcolours := ((reads_colour "GREEN=" "\\033[0;32m" (by decide) (by decide)).append
    (reads_colour "RED=" "\\033[0;31m" (by decide) (by decide))).append
      (reads_colour "NC=" "\\033[0m" (by decide) (by decide))
  have hlabels := (reads_label "ERROR=" "RED" "[ERROR]" (by decide) (by decide) (by decide)).append
    (reads_label "SUCCESS=" "GREEN" "[SUCCESS]" (by decide) (by decide) (by decide))
  have hall := ((reads_comment "!/bin/bash".toList (by decide)).append hcolours).append
    (hlabels.append reads_newline)
  exact reads_of_eq hall (by delta header; simp) (by simp [headerTokens, settings])

/-! ## The command of a step -/

def simpleCommand (words : List Word) : Command := .simple 0 [] words []

def privilegeWords (elevated : Bool) : List Word := if elevated then [bareWord "sudo"] else []

def testCommand : Command :=
  simpleCommand [bareWord "[", [.parameter "?" .value false []], bareWord "-ne", bareWord "0",
    bareWord "]"]

def abortCommand (message : String) : Command :=
  .both (simpleCommand [bareWord "echo", bareWord "-e", messageWord "ERROR" message])
    (simpleCommand [bareWord "exit", bareWord "1"])

def stepCommand (elevated : Bool) : Step → Option Command
  | .blank => none
  | .command [] => none
  | .command (w :: ws) => some (simpleCommand ((w :: ws).map wordPieces))
  | .abortOnFailure message => some (.branch testCommand (abortCommand message) .nothing)
  | .unmountOnFailure mountpoint message =>
    some (.branch testCommand (.sequence
      (simpleCommand (privilegeWords elevated ++ [bareWord "umount", wordPieces mountpoint]))
      (abortCommand message)) .nothing)
  | .makeDirectory path =>
    some (simpleCommand
      (privilegeWords elevated ++ [bareWord "mkdir", bareWord "-p", wordPieces path]))
  | .mount image mountpoint =>
    some (simpleCommand (privilegeWords elevated ++ [bareWord "fuse-ext2", wordPieces image,
      wordPieces mountpoint, bareWord "-o", bareWord "rw+"]))
  | .copyTree source target =>
    some (simpleCommand (privilegeWords elevated ++ [bareWord "cp", bareWord "-r",
      wordPieces source ++ [.char '/' false, .char '*' false],
      wordPieces target ++ [.char '/' false]]))
  | .unmount mountpoint =>
    some (simpleCommand (privilegeWords elevated ++ [bareWord "umount", wordPieces mountpoint]))
  | .announce message =>
    some (simpleCommand [bareWord "echo", bareWord "-e", messageWord "SUCCESS" message])

def IsPlain : Step → Prop
  | .command (w :: _) =>
    keyword? (wordToken w) = none ∧ assignment? (wordPieces w) = none
  | _ => True

def stepClause (elevated : Bool) (step : Step) : Clause :=
  match stepCommand elevated step with
  | none => .blank
  | some c => .chain (stepTokens elevated step) c .newline

theorem stepClause_tokens (elevated : Bool) (step : Step) :
    (stepClause elevated step).tokens = stepTokens elevated step ++ [.operator .newline] := by
  unfold stepClause
  split
  · rename_i h
    cases step with
    | blank => rfl
    | command words =>
      cases words with
      | nil => rfl
      | cons w ws => simp [stepCommand] at h
    | _ => simp [stepCommand] at h
  · rfl

/-! ## Reading a step -/

@[simp] theorem bareWord_spelled (text : String) : isSpelledWord (bareWord text) = true := by
  simp [isSpelledWord, bareWord, isSpelled]

@[simp] theorem messageWord_spelled (label message : String) :
    isSpelledWord (messageWord label message) = true := by
  simp [isSpelledWord, messageWord, quotedText, isSpelled]

@[simp] theorem wordPieces_spelled (text : String) :
    isSpelledWord (wordPieces text) = true := by
  unfold wordPieces
  split
  · exact bareWord_spelled text
  · have hquoted : (text.toList.flatMap quotedPieces).all isSpelled = true := by
      rw [List.all_flatMap, List.all_eq_true]
      intro c _
      unfold quotedPieces
      split <;> rfl
    simp [isSpelledWord, hquoted, isSpelled]

/-- A command is read as it is, unless it begins with a keyword or an
assignment. -/
theorem reads_simple (n : Nat) (w : Word) (ws : List Word) (hn : ws.length + 1 < n)
    (hk : keyword? (.word w) = none) (ha : assignment? w = none)
    (hs : ∀ v ∈ w :: ws, isSpelledWord v = true) :
    ReadsAs (pipelineOf n) ((w :: ws).map .word) (simpleCommand (w :: ws)) :=
  pipelineOf_readsAs n (.word w) (ws.map .word) _ (by omega) (by simp [hk]) fun optional self =>
    command_simple _ optional self n w ws hn hk ha hs

theorem reads_bareCommand (n : Nat) (name : String) (ws : List Word) (hn : ws.length + 1 < n)
    (hk : keyword? (bareToken name) = none) (ha : assignment? (bareWord name) = none)
    (hs : ∀ v ∈ ws, isSpelledWord v = true) :
    ReadsAs (pipelineOf n) ((bareWord name :: ws).map .word)
      (simpleCommand (bareWord name :: ws)) :=
  reads_simple n (bareWord name) ws hn hk ha (by simpa using hs)

theorem reads_privileged (n : Nat) (elevated : Bool) (name : String) (ws : List Word)
    (hn : ws.length + 2 < n) (hk : keyword? (bareToken name) = none)
    (ha : assignment? (bareWord name) = none) (hs : ∀ v ∈ ws, isSpelledWord v = true) :
    ReadsAs (pipelineOf n) ((privilegeWords elevated ++ bareWord name :: ws).map .word)
      (simpleCommand (privilegeWords elevated ++ bareWord name :: ws)) := by
  cases elevated with
  | false => exact reads_bareCommand n name ws (by omega) hk ha hs
  | true =>
    exact reads_bareCommand n "sudo" (bareWord name :: ws) (by simpa using hn) rfl rfl
      (by simpa using hs)

theorem clause_reads (n : Nat) (t : Token) (ts : List Token) (c : Command) (sign : Operator)
    (hn : 0 < n) (ht : opensCommand t = true) (hsign : sign = .semicolon ∨ sign = .newline)
    (h : ReadsAs (pipelineOf n) (t :: ts) c) :
    (Clause.chain (t :: ts) c sign).Reads (chainOf n) :=
  ⟨chain_one (pipelineOf n) n (t :: ts) c hn h, ⟨t, ts, rfl, ht⟩, hsign⟩

theorem privileged_reads (n : Nat) (elevated : Bool) (name : String) (ws : List Word)
    (sign : Operator) (hsign : sign = .semicolon ∨ sign = .newline)
    (hn : ws.length + 2 < n) (hk : keyword? (bareToken name) = none)
    (ha : assignment? (bareWord name) = none) (hs : ∀ v ∈ ws, isSpelledWord v = true) :
    (Clause.chain ((privilegeWords elevated ++ bareWord name :: ws).map .word)
      (simpleCommand (privilegeWords elevated ++ bareWord name :: ws)) sign).Reads (chainOf n) := by
  have h := reads_privileged n elevated name ws hn hk ha hs
  cases elevated with
  | false =>
    exact clause_reads n (bareToken name) _ _ sign (by omega) (opensCommand_of_keyword _ hk) hsign h
  | true => exact clause_reads n (bareToken "sudo") _ _ sign (by omega) rfl hsign h

def abortClause (message : String) : Clause :=
  .chain ([bareToken "echo", bareToken "-e", messageToken "ERROR" message] ++
    .operator .andThen :: bareToken "exit" :: [bareToken "1"]) (abortCommand message) .semicolon

theorem abort_reads (n : Nat) (message : String) (hn : 4 < n) :
    (abortClause message).Reads (chainOf n) := by
  have hecho := reads_bareCommand n "echo" [bareWord "-e", messageWord "ERROR" message]
    (by simp; omega) rfl rfl (by simp)
  have hexit := reads_bareCommand n "exit" [bareWord "1"] (by simp; omega) rfl rfl
    (by simp)
  exact ⟨chain_both (pipelineOf n) n _ _ _ _ _ (by omega) (by simp [bareToken]) hecho hexit,
    ⟨bareToken "echo", _, rfl, rfl⟩, Or.inl rfl⟩

theorem test_reads (n : Nat) (hn : 6 < n) :
    (Clause.chain [bareToken "[", .word [.parameter "?" .value false []], bareToken "-ne",
      bareToken "0", bareToken "]"] testCommand .semicolon).Reads (chainOf n) := by
  have hstatus : isSpelledWord [.parameter "?" .value false []] = true := rfl
  have htest := reads_bareCommand n "[" [[.parameter "?" .value false []], bareWord "-ne",
    bareWord "0", bareWord "]"] (by simp; omega) rfl rfl (by simp [hstatus])
  exact clause_reads n (bareToken "[") _ _ .semicolon (by omega) rfl (Or.inl rfl) htest

/-- A branch on the last status, whose commands are given as clauses. -/
theorem branch_reads (n : Nat) (clauses : List Clause) (yes : Command) (hn : 7 < n)
    (hl : clauses.length + 1 < n) (hc : ∀ c ∈ clauses, c.Reads (chainOf (n - 1)))
    (hsome : clauses.any (fun c => c.command?.isSome) = true)
    (hyes : (clauses.filterMap Clause.command?).foldl join .nothing = yes) :
    (Clause.chain (testTokens ++ clauses.flatMap Clause.tokens ++ [bareToken "fi"])
      (.branch testCommand yes .nothing) .newline).Reads (chainOf n) := by
  obtain ⟨m, rfl⟩ : ∃ m, n = m + 1 := ⟨n - 1, by omega⟩
  have htest : ListsAs (list false false (m + 1)) _ testCommand :=
    list_clauses [_] m false (by simp; omega) (by simpa using test_reads m (by omega)) rfl
  have hlist := list_clauses clauses m false (by omega) hc hsome
  rw [hyes] at hlist
  have hbranch := fun optional self => command_branch (list false false (m + 1)) optional self
    (m + 1) _ _ _ _ (bareToken "if") (bareToken "then") (bareToken "fi") (by omega) rfl rfl rfl
    htest hlist
  have hpipeline := pipelineOf_readsAs (m + 1) (bareToken "if") _ _ (by omega) (by decide) hbranch
  have hclause := clause_reads (m + 1) (bareToken "if") _ _ .newline (by omega) rfl (Or.inr rfl)
    hpipeline
  simpa [testTokens, Clause.tokens] using hclause

theorem stepClause_reads (n : Nat) (elevated : Bool) (step : Step) (hp : IsPlain step)
    (hn : (stepTokens elevated step).length + 8 < n) :
    (stepClause elevated step).Reads (chainOf n) := by
  have hslash : ∀ target, isSpelledWord (wordPieces target ++ [.char '/' false]) = true := by
    intro target
    have h := wordPieces_spelled target
    simp_all [isSpelledWord, isSpelled]
  have hstar : ∀ source,
      isSpelledWord (wordPieces source ++ [.char '/' false, .char '*' false]) = true := by
    intro source
    have h := wordPieces_spelled source
    simp_all [isSpelledWord, isSpelled]
  cases step with
  | blank => trivial
  | command words =>
    cases words with
    | nil => trivial
    | cons w ws =>
      obtain ⟨hk, ha⟩ := hp
      have hreads := reads_simple n (wordPieces w) (ws.map wordPieces)
        (by simp [stepTokens] at hn ⊢; omega) hk ha (by simp)
      have hclause := clause_reads n (wordToken w) _ _ .newline (by omega)
        (opensCommand_of_keyword _ hk) (Or.inr rfl) hreads
      have htokens : stepTokens elevated (.command (w :: ws)) =
          (wordPieces w :: ws.map wordPieces).map .word := by
        simp [stepTokens, wordToken, Function.comp_def]
      simp only [stepClause, stepCommand, htokens]
      exact hclause
  | abortOnFailure message =>
    have h := branch_reads n [abortClause message] (abortCommand message) (by omega)
      (by simp; omega) (by simpa using abort_reads (n - 1) message (by omega)) rfl rfl
    exact h
  | unmountOnFailure mountpoint message =>
    have hunmount := privileged_reads (n - 1) elevated "umount" [wordPieces mountpoint] .semicolon
      (Or.inl rfl) (by simp; omega) rfl rfl (by simp)
    have h := branch_reads n [_, abortClause message] _ (by omega) (by simp; omega)
      (by simpa using ⟨hunmount, abort_reads (n - 1) message (by omega)⟩) rfl rfl
    cases elevated <;> exact h
  | makeDirectory path =>
    have h := privileged_reads n elevated "mkdir" [bareWord "-p", wordPieces path] .newline
      (Or.inr rfl) (by simp; omega) rfl rfl (by simp)
    cases elevated <;> exact h
  | mount image mountpoint =>
    have h := privileged_reads n elevated "fuse-ext2"
      [wordPieces image, wordPieces mountpoint, bareWord "-o", bareWord "rw+"] .newline (Or.inr rfl)
      (by simp; omega) rfl rfl (by simp)
    cases elevated <;> exact h
  | copyTree source target =>
    have h := privileged_reads n elevated "cp"
      [bareWord "-r", wordPieces source ++ [.char '/' false, .char '*' false],
        wordPieces target ++ [.char '/' false]] .newline (Or.inr rfl) (by simp; omega) rfl rfl
      (by simp [hslash, hstar])
    cases elevated <;> exact h
  | unmount mountpoint =>
    have h := privileged_reads n elevated "umount" [wordPieces mountpoint] .newline
      (Or.inr rfl) (by simp; omega) rfl rfl (by simp)
    cases elevated <;> exact h
  | announce message =>
    have h := reads_bareCommand n "echo" [bareWord "-e", messageWord "SUCCESS" message]
      (by simp; omega) rfl rfl (by simp)
    exact clause_reads n (bareToken "echo") _ _ .newline (by omega) rfl (Or.inr rfl) h

/-! ## Reading a script -/

def settingClause (v : String × Word) : Clause :=
  .chain [.word (settingWord (v.1 ++ "=") v.2)] (.simple 0 [v] [] []) .newline

theorem settingClause_reads (n : Nat) (hn : 1 < n) (v : String × Word) (hv : v ∈ settings) :
    (settingClause v).Reads (chainOf n) := by
  have hsetting : keyword? (.word (settingWord (v.1 ++ "=") v.2)) = none ∧
      assignment? (settingWord (v.1 ++ "=") v.2) = some v ∧
      isSpelledWord (settingWord (v.1 ++ "=") v.2) = true := by
    simp only [settings, List.mem_cons, List.not_mem_nil, or_false] at hv
    rcases hv with rfl | rfl | rfl | rfl | rfl <;> exact ⟨rfl, rfl, rfl⟩
  obtain ⟨hk, ha, hs⟩ := hsetting
  have hreads := pipelineOf_readsAs n _ [] _ (by omega) (by simp [hk]) fun optional self =>
    command_assignment (list false false n) optional self n _ v hn hk ha hs
  exact clause_reads n _ [] _ .newline (by omega) (opensCommand_of_keyword _ hk) (Or.inr rfl) hreads

def commands (s : Script) : List Command :=
  (settings.map fun v => .simple 0 [v] [] []) ++ s.steps.filterMap (stepCommand s.elevated)

def clauses (s : Script) : List Clause :=
  settings.map settingClause ++ .blank :: s.steps.map (stepClause s.elevated)

theorem clauses_tokens (s : Script) :
    headerTokens ++ bodyTokens s = .operator .newline :: (clauses s).flatMap Clause.tokens := by
  simp only [clauses, List.flatMap_append, List.flatMap_cons, List.flatMap_map, stepClause_tokens]
  rfl

theorem clauses_commands (s : Script) :
    (clauses s).filterMap Clause.command? = commands s := by
  have hstep : ∀ step, (stepClause s.elevated step).command? = stepCommand s.elevated step := by
    intro step
    unfold stepClause
    split
    · rename_i h
      rw [h]
      rfl
    · rename_i h
      rw [h]
      rfl
  have hsteps : (s.steps.map (stepClause s.elevated)).filterMap Clause.command? =
      s.steps.filterMap (stepCommand s.elevated) := by
    rw [List.filterMap_map]
    congr 1
    exact funext hstep
  rw [clauses, List.filterMap_append, List.filterMap_cons, hsteps]
  rfl

theorem stepTokens_quiet (elevated : Bool) (step : Step) :
    (stepTokens elevated step).all isQuiet = true := by
  have hbare : ∀ text, isQuiet (bareToken text) = true := fun _ => rfl
  have hword : ∀ text, isQuiet (wordToken text) = true := fun _ => rfl
  have hmessage : ∀ label message, isQuiet (messageToken label message) = true := fun _ _ => rfl
  have hpieces : ∀ w, isQuiet (.word w) = true := fun _ => rfl
  have hoperator : ∀ o, isQuiet (.operator o) = true := fun _ => rfl
  cases elevated <;> cases step <;>
    simp [stepTokens, testTokens, abortTokens, privilegeTokens, hbare, hword, hmessage, hpieces,
      hoperator]

theorem tokens_quiet (s : Script) : (headerTokens ++ bodyTokens s).all isQuiet = true := by
  have hbody : (bodyTokens s).all isQuiet = true := by
    rw [bodyTokens, List.all_flatMap, List.all_eq_true]
    intro step _
    rw [List.all_append, stepTokens_quiet]
    rfl
  rw [List.all_append, hbody, Bool.and_true]
  rfl

theorem length_intercalate (words : List String) :
    words.length ≤ (" ".intercalate (words.map word)).toList.length + 1 := by
  induction words with
  | nil => simp
  | cons w words ih =>
    cases words with
    | nil => simp
    | cons w' words =>
      simp only [List.map_cons, String.intercalate_cons_cons, String.toList_append,
        List.length_append, List.length_cons] at ih ⊢
      have hblank : " ".toList.length = 1 := rfl
      omega

/-- A step has hardly more tokens than its line has characters. -/
theorem length_stepTokens (elevated : Bool) (step : Step) :
    (stepTokens elevated step).length ≤ (line elevated step).toList.length + 20 := by
  cases step with
  | command words =>
    have h := length_intercalate words
    simp only [stepTokens, List.length_map]
    exact Nat.le_trans h (Nat.add_le_add_left (by decide) _)
  | _ =>
    cases elevated <;>
      simp [stepTokens, testTokens, abortTokens, privilegeTokens]

theorem length_body (elevated : Bool) (steps : List Step) :
    steps.length ≤ (body { elevated := elevated, steps := steps }).toList.length ∧
    ∀ step ∈ steps, (line elevated step).toList.length ≤
      (body { elevated := elevated, steps := steps }).toList.length := by
  induction steps with
  | nil => simp
  | cons step steps ih =>
    have hbody : (body { elevated := elevated, steps := step :: steps }).toList =
        (line elevated step).toList ++ '\n' ::
          (body { elevated := elevated, steps := steps }).toList := by
      simp [body, String.toList_join]
    rw [hbody]
    simp only [List.length_append, List.length_cons, List.mem_cons, forall_eq_or_imp]
    refine ⟨by omega, by omega, fun other h => ?_⟩
    have := ih.2 other h
    omega

theorem length_header : 50 ≤ header.toList.length := by
  delta header
  simp

theorem tokens_render (s : Script) : (tokens 1 s.render.toList).map Located.token =
    (Clause.blank :: clauses s).flatMap Clause.tokens ++ [.ending] := by
  have htokens := tokens_of_reads _ _ (reads_header.append (reads_body s)) 1
  have htext : s.render.toList = header.toList ++ s.body.toList := String.toList_append
  rw [htext, htokens, clauses_tokens]
  rfl

theorem quiet_render (s : Script) :
    ∀ t ∈ (tokens 1 s.render.toList).map Located.token, isQuiet t = true := by
  rw [tokens_render]
  intro t ht
  rcases List.mem_append.1 ht with h | h
  · exact List.all_eq_true.1 (tokens_quiet s) t (by rw [clauses_tokens]; exact h)
  · rw [List.mem_singleton.1 h]
    rfl

theorem length_render (s : Script) : s.steps.length + 50 ≤ s.render.toList.length ∧
    ∀ step ∈ s.steps, (line s.elevated step).toList.length + 50 ≤ s.render.toList.length := by
  have htext : s.render.toList = header.toList ++ s.body.toList := String.toList_append
  have hheader := length_header
  have hbody : s.steps.length ≤ s.body.toList.length ∧ ∀ step ∈ s.steps,
      (line s.elevated step).toList.length ≤ s.body.toList.length :=
    length_body s.elevated s.steps
  rw [htext, List.length_append]
  exact ⟨by omega, fun step h => by have := hbody.2 step h; omega⟩

theorem clauses_read (s : Script) (hp : ∀ step ∈ s.steps, IsPlain step) (n : Nat)
    (hn : s.render.toList.length ≤ n) : ∀ c ∈ clauses s, c.Reads (chainOf n) := by
  obtain ⟨hsteps, hline⟩ := length_render s
  intro c hc
  simp only [clauses, List.mem_append, List.mem_map, List.mem_cons] at hc
  rcases hc with ⟨v, hv, rfl⟩ | rfl | ⟨step, hstep, rfl⟩
  · exact settingClause_reads _ (by omega) v hv
  · trivial
  · have hlong := hline step hstep
    have hshort := length_stepTokens s.elevated step
    exact stepClause_reads _ s.elevated step (hp step hstep) (by omega)

theorem length_clauses (s : Script) : (clauses s).length = s.steps.length + 6 := by
  simp [clauses, settings]

/-- A script whose steps are plain is read as the assignments of its header
and the commands of its steps. -/
theorem commandsOf_render (s : Script) (hp : ∀ step ∈ s.steps, IsPlain step) :
    ∃ c documents, commandsOf 1 s.render.toList false #[] = .ok (c, documents) ∧
      c.unlined = (commands s).foldl join .nothing := by
  obtain ⟨first, rest, hclauses, hfirst⟩ : ∃ first rest, clauses s = first :: rest ∧
      first.command?.isSome = true := ⟨_, _, rfl, rfl⟩
  have htokens := tokens_render s
  have hreads := clauses_read s hp (2 * s.render.toList.length + 7) (by omega)
  have hlength := length_clauses s
  have hlong := (length_render s).1
  rw [hclauses] at htokens hreads hlength
  rw [List.length_cons] at hlength
  have hall := commandsOf_clauses 1 s.render.toList 1 first rest hfirst htokens (quiet_render s)
    (by omega) hreads
  rwa [← hclauses, clauses_commands] at hall

end ImageTools.Script
