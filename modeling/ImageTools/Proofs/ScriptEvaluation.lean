import ImageTools.Proofs.ScriptRun
import ImageTools.Proofs.ShellRuns

/-!
# The commands of a script in the shell

The header and the steps of a script give commands that mean the same in a
trace and in the shell that runs programs on a file system.
-/

set_option autoImplicit false

namespace ImageTools.Shell
open Trace

/-! ## Sayable commands -/

theorem bound_unlined (c : Command) : bound c.unlined = bound c := by
  induction c with
  | simple line assignments words redirects =>
    rcases assignments with _ | ⟨v, _ | ⟨v', assignments⟩⟩ <;> rcases words with _ | ⟨w, words⟩ <;>
      rcases redirects with _ | ⟨r, redirects⟩ <;> rfl
  | sequence a b iha ihb => rw [Command.unlined, bound, bound, iha, ihb]
  | _ => rfl

theorem sayable_unlined (known : List String) (c : Command) :
    Sayable known c.unlined ↔ Sayable known c := by
  induction c generalizing known with
  | simple line assignments words redirects =>
    rcases assignments with _ | ⟨v, _ | ⟨v', assignments⟩⟩ <;> rcases words with _ | ⟨w, words⟩ <;>
      rcases redirects with _ | ⟨r, redirects⟩ <;> exact Iff.rfl
  | both a b iha ihb => rw [Command.unlined, Sayable, Sayable, iha, ihb]
  | sequence a b iha ihb => rw [Command.unlined, Sayable, Sayable, bound_unlined, iha, ihb]
  | branch test yes no ihtest ihyes _ =>
    cases no with
    | nothing =>
      change Sayable known test.unlined ∧ Sayable known yes.unlined ↔ _
      rw [ihtest, ihyes]
      rfl
    | _ => exact Iff.rfl
  | _ => exact Iff.rfl

/-! ## Legible words -/

theorem clear_closed (p : Pattern) (h : p.all isClosed = true) : Clear p :=
  Or.inr (Or.inl (isOpen_unescape p h))

theorem isOpen_append (p q : Pattern) (h : isOpen q = true) : isOpen (p ++ q) = true := by
  induction p with
  | nil => exact h
  | cons s p ih => simp [isOpen, ih]

/-- A word that the trace and the shell expand alike, whatever has happened before. -/
structure Legible (known : List String) (word : Word) : Prop where
  plain : isPlainWord known word = true
  clear : ∀ t : Trace, ∀ p ∈ t.patterns [word], Clear p

theorem legible_solid (known : List String) (word : Word) (hp : isPlainWord known word = true)
    (h : ∀ t : Trace, ∃ gs, t.glyphs? word = some gs ∧ gs.all isSolid = true ∧
      gs.any isContent = true ∧ Clear (signsOf gs)) : Legible known word := by
  refine ⟨hp, fun t p hmem => ?_⟩
  obtain ⟨gs, hgs, hsolid, hcontent, hclear⟩ := h t
  rw [patterns_word t word gs hgs, fieldsOf_uncut gs hsolid hcontent] at hmem
  obtain rfl := List.mem_singleton.1 hmem
  exact hclear

theorem legible_field (known : List String) (word : Word) (hp : isPlainWord known word = true)
    (h : ∀ t : Trace, ∃ text, IsField t word text) : Legible known word := by
  refine legible_solid known word hp fun t => ?_
  obtain ⟨text, gs, hgs, hsolid, hcontent, hclosed, -⟩ := h t
  exact ⟨gs, hgs, hsolid, hcontent, clear_closed _ hclosed⟩

theorem plain_settled (known : List String) (word : Word) (h : word.all isSettled = true)
    (hn : word.length ≤ pieceLimit) : isPlainWord known word = true := by
  have hpiece : ∀ p, isSettled p = true → p.isPlain known = true := by
    intro p hp
    cases p with
    | char c quoted => exact hp
    | mark => rfl
    | _ => cases hp
  rw [isPlainWord, decide_eq_true hn, Bool.true_and, List.all_eq_true]
  exact fun p hp => hpiece p (List.all_eq_true.1 h p hp)

theorem sayable_words (known : List String) (words : List Word)
    (hwords : ∀ word ∈ words, Legible known word)
    (hcall : ∀ w t, ∃ texts, arguments? w t words = some texts ∧ isCallable texts = true) :
    Sayable known (Script.simpleCommand words) := by
  refine ⟨fun word hword => (hwords word hword).plain, fun t => ⟨fun p hp => ?_, fun w => ?_⟩⟩
  · obtain ⟨word, hword, hmem⟩ := List.mem_flatMap.1 hp
    exact (hwords word hword).clear t p (by simpa [Trace.patterns] using hmem)
  · have hplain : ∀ word ∈ words, word.all (Piece.isPlain known) = true :=
      fun word hword => (Bool.and_eq_true_iff.1 (hwords word hword).plain).2
    obtain ⟨texts, htexts, hcallable⟩ := hcall w t
    rw [arguments_plain w known t words hplain] at htexts
    rwa [Option.some.inj htexts]

theorem callable_name (name : String) (args : List String)
    (h : name = "echo" ∨ isBuiltin name = false) : isCallable (name :: args) = true := by
  have hother : ∀ other, isBuiltin other = true → other ≠ "echo" → name ≠ other := by
    rintro other hb hecho rfl
    rcases h with h | h
    · exact hecho h
    · rw [hb] at h
      cases h
  rw [isCallable, if_neg (hother "exit" rfl (by decide)), if_neg (hother "[" rfl (by decide))]
  rcases h with rfl | h
  · rfl
  · simp [h]

/-- Commands that begin with the name of a program, or with `echo`. -/
theorem sayable_called (known : List String) (first : Word) (name : String) (words : List Word)
    (hname : name = "echo" ∨ isBuiltin name = false) (hfirst : ∀ t, IsField t first name)
    (hplain : isPlainWord known first = true) (hwords : ∀ word ∈ words, Legible known word) :
    Sayable known (Script.simpleCommand (first :: words)) := by
  have hlegible : ∀ word ∈ first :: words, Legible known word := List.forall_mem_cons.2
    ⟨legible_field known first hplain fun t => ⟨name, hfirst t⟩, hwords⟩
  refine sayable_words known _ hlegible fun w t => ?_
  have hall : ∀ word ∈ words, word.all (Piece.isPlain known) = true :=
    fun word hword => (Bool.and_eq_true_iff.1 (hwords word hword).plain).2
  refine ⟨name :: (t.patterns words).flatMap (namesOf w t), ?_, callable_name name _ hname⟩
  exact Script.arguments_cons w t first words [name] _ ((hfirst t).fields w)
    (arguments_plain w known t words hall)

end ImageTools.Shell

namespace ImageTools.Script
open Shell Shell.Lexer Shell.Parse Shell.Trace

/-! ## The words of a script -/

def stepTexts : Step → List String
  | .blank => []
  | .command words => words
  | .abortOnFailure message => [message]
  | .unmountOnFailure mountpoint message => [mountpoint, message]
  | .makeDirectory path => [path]
  | .mount image mountpoint => [image, mountpoint]
  | .copyTree source target => [source, target]
  | .unmount mountpoint => [mountpoint]
  | .announce message => [message]

def isShort (text : String) : Bool := 3 * text.length + 4 ≤ pieceLimit

/-- A step whose texts are short and whose command, if it has one of its own, has a meaning. -/
structure IsSayable (step : Step) : Prop where
  short : ∀ text ∈ stepTexts step, isShort text = true
  callable : ∀ words, step = .command words → isCallable words = true

section
variable (known : List String)

theorem length_wordPieces (text : String) : (wordPieces text).length ≤ 3 * text.length + 2 := by
  have hquoted : ∀ cs : List Char, (cs.flatMap quotedPieces).length ≤ 3 * cs.length := by
    intro cs
    induction cs with
    | nil => simp
    | cons c cs ih =>
      have hc : (quotedPieces c).length ≤ 3 := by
        unfold quotedPieces
        split <;> simp
      rw [List.flatMap_cons, List.length_append, List.length_cons]
      omega
  have htext := hquoted text.toList
  rw [String.length_toList] at htext
  unfold wordPieces
  split
  · rw [List.length_map, String.length_toList]
    omega
  · simp only [List.cons_append, List.length_cons, List.length_append, List.length_nil]
    omega

theorem plain_word (text : String) (h : isShort text = true) (after : Word)
    (ha : after.all isSettled = true) (hn : after.length ≤ 2) :
    isPlainWord known (wordPieces text ++ after) = true := by
  have hlength := length_wordPieces text
  have hshort := of_decide_eq_true h
  refine plain_settled known _ ?_ ?_
  · rw [List.all_append, (literal_pieces _ _ (wordPieces_parts text)).1, ha]
    rfl
  · rw [List.length_append]
    omega

theorem legible_word (text : String) (h : isShort text = true) :
    Legible known (wordPieces text) := by
  have hplain := plain_word known text h [] rfl (Nat.zero_le 2)
  rw [List.append_nil] at hplain
  exact legible_field known _ hplain fun t => ⟨text, isField_word t text⟩

theorem legible_slashed (text : String) (h : isShort text = true) :
    Legible known (wordPieces text ++ [.char '/' false]) :=
  legible_field known _ (plain_word known text h _ rfl (Nat.le_succ 1)) fun t =>
    ⟨text ++ "/", isField_slashed t text⟩

theorem legible_bare (text : String) (h : isBareText text = true)
    (hp : isPlainWord known (bareWord text) = true) : Legible known (bareWord text) :=
  legible_field known _ hp fun t => ⟨text, isField_bare t text h⟩

theorem legible_tree (source : String) (h : isShort source = true) :
    Legible known (wordPieces source ++ [.char '/' false, .char '*' false]) := by
  have hsettled : (wordPieces source ++ [Piece.char '/' false, .char '*' false]).all isSettled =
      true := by
    rw [List.all_append, (literal_pieces _ _ (wordPieces_parts source)).1]
    rfl
  obtain ⟨hsolid, hcontent, hsigns⟩ :=
    solid_settled (wordPieces source ++ [.char '/' false, .char '*' false]) (by simp)
  refine legible_solid known _ (plain_word known source h _ rfl (Nat.le_refl 2)) fun t =>
    ⟨_, glyphs_settled t _ hsettled, hsolid, hcontent, Or.inl ?_⟩
  rw [hsigns, signs, List.filterMap_append]
  exact isOpen_append _ _ rfl

theorem legible_message (label message : String) (hl : isNamed label = true ∧ label ∈ known)
    (h : isShort message = true) : Legible known (messageWord label message) := by
  have hshort := of_decide_eq_true h
  have hlength : (messageWord label message).length ≤ pieceLimit := by
    simp only [messageWord, quotedText, List.cons_append, List.length_cons, List.length_append,
      List.length_map, String.length_toList, List.length_nil]
    omega
  refine legible_field known _ ?_ fun t => ?_
  · rw [isPlainWord, decide_eq_true hlength]
    simp [messageWord, quotedText, Piece.isPlain, hl.1, hl.2]
  · obtain ⟨value, hvalue⟩ := value_plain known t label (by simp [hl.1, hl.2])
    exact ⟨_, isField_message t label message value hvalue⟩

theorem legible_sign (c : Char) (hp : isPlainWord known [.char c false] = true)
    (h : Clear [⟨c, false⟩]) : Legible known [.char c false] := by
  refine ⟨hp, fun t p hmem => ?_⟩
  have hpiece : (!false && isReplaced c) = false := by
    simpa [isPlainWord, Piece.isPlain, pieceLimit] using hp
  have hglyphs : t.glyphs? [.char c false] = some [.char c false] := by
    rw [glyphs?, pieceGlyphs?, hpiece]
    rfl
  rw [patterns_word t _ _ hglyphs, fieldsOf_uncut [.char c false] rfl rfl] at hmem
  obtain rfl := List.mem_singleton.1 hmem
  exact h

/-! ## The commands of a script -/

theorem sayable_privileged (elevated : Bool) (name : String) (words : List Word)
    (hname : isBareText name = true ∧ isBuiltin name = false)
    (hp : isPlainWord known (bareWord name) = true)
    (hwords : ∀ word ∈ words, Legible known word) :
    Sayable known (simpleCommand (privilegeWords elevated ++ bareWord name :: words)) := by
  cases elevated with
  | false =>
    exact sayable_called known _ name words (Or.inr hname.2) (fun t => isField_bare t name hname.1)
      hp hwords
  | true =>
    have hall : ∀ word ∈ bareWord name :: words, Legible known word :=
      List.forall_mem_cons.2 ⟨legible_bare known name hname.1 hp, hwords⟩
    exact sayable_called known _ "sudo" _ (Or.inr rfl) (fun t => isField_bare t "sudo" rfl) rfl hall

theorem sayable_message (label message : String) (hl : isNamed label = true ∧ label ∈ known)
    (h : isShort message = true) :
    Sayable known (simpleCommand [bareWord "echo", bareWord "-e", messageWord label message]) := by
  refine sayable_called known _ "echo" _ (Or.inl rfl) (fun t => isField_bare t "echo" rfl) rfl ?_
  simpa using ⟨legible_bare known "-e" rfl rfl, legible_message known label message hl h⟩

theorem sayable_test : Sayable known testCommand := by
  have hstatus : Legible known [.parameter "?" .value false []] :=
    legible_field known _ rfl fun t => ⟨_, isField_status t⟩
  refine sayable_words known _ ?_ fun w t => ⟨_, arguments_test w t, ?_⟩
  · simpa using ⟨legible_sign known '[' rfl (Or.inr (Or.inr rfl)), hstatus,
      legible_bare known "-ne" rfl rfl, legible_bare known "0" rfl rfl,
      legible_sign known ']' rfl (clear_closed _ rfl)⟩
  · change (test? [toString t.status.toNat, "-ne", "0", "]"]).isSome = true
    rw [test_status]
    rfl

theorem sayable_exit : Sayable known (simpleCommand [bareWord "exit", bareWord "1"]) := by
  refine sayable_words known _ ?_ fun w t => ⟨_, arguments_exit w t, rfl⟩
  simpa using ⟨legible_bare known "exit" rfl rfl, legible_bare known "1" rfl rfl⟩

theorem sayable_abort (message : String) (hk : "ERROR" ∈ known) (h : isShort message = true) :
    Sayable known (abortCommand message) :=
  ⟨sayable_message known "ERROR" message ⟨rfl, hk⟩ h, sayable_exit known⟩

theorem sayable_step (elevated : Bool) (step : Step) (h : IsSayable step)
    (hk : "ERROR" ∈ known ∧ "SUCCESS" ∈ known) (c : Command)
    (hc : stepCommand elevated step = some c) : Sayable known c ∧ bound c = [] := by
  obtain ⟨hshort, hcallable⟩ := h
  cases step with
  | blank => cases hc
  | command words =>
    cases words with
    | nil => cases hc
    | cons name args =>
      obtain rfl := Option.some.inj hc
      refine ⟨sayable_words known _ ?_ fun w t =>
        ⟨name :: args, arguments_words w t (name :: args), hcallable _ rfl⟩, rfl⟩
      intro word hword
      obtain ⟨text, htext, rfl⟩ := List.mem_map.1 hword
      exact legible_word known text (hshort text htext)
  | abortOnFailure message =>
    obtain rfl := Option.some.inj hc
    obtain ⟨hmessage, -⟩ := List.forall_mem_cons.1 hshort
    exact ⟨⟨sayable_test known, sayable_abort known message hk.1 hmessage⟩, rfl⟩
  | unmountOnFailure mountpoint message =>
    obtain rfl := Option.some.inj hc
    obtain ⟨hmountpoint, hmessage⟩ := List.forall_mem_cons.1 hshort
    obtain ⟨hmessage, -⟩ := List.forall_mem_cons.1 hmessage
    have humount := sayable_privileged known elevated "umount" [wordPieces mountpoint] ⟨rfl, rfl⟩
      rfl (by simpa using legible_word known mountpoint hmountpoint)
    exact ⟨⟨sayable_test known, humount,
      sayable_abort _ message (List.mem_append_right _ hk.1) hmessage⟩, rfl⟩
  | makeDirectory path =>
    obtain rfl := Option.some.inj hc
    obtain ⟨hpath, -⟩ := List.forall_mem_cons.1 hshort
    refine ⟨sayable_privileged known elevated "mkdir" _ ⟨rfl, rfl⟩ rfl ?_, rfl⟩
    simpa using ⟨legible_bare known "-p" rfl rfl, legible_word known path hpath⟩
  | mount image mountpoint =>
    obtain rfl := Option.some.inj hc
    obtain ⟨himage, hmountpoint⟩ := List.forall_mem_cons.1 hshort
    obtain ⟨hmountpoint, -⟩ := List.forall_mem_cons.1 hmountpoint
    refine ⟨sayable_privileged known elevated "fuse-ext2" _ ⟨rfl, rfl⟩ rfl ?_, rfl⟩
    simpa using ⟨legible_word known image himage, legible_word known mountpoint hmountpoint,
      legible_bare known "-o" rfl rfl, legible_bare known "rw+" rfl rfl⟩
  | copyTree source target =>
    obtain rfl := Option.some.inj hc
    obtain ⟨hsource, htarget⟩ := List.forall_mem_cons.1 hshort
    obtain ⟨htarget, -⟩ := List.forall_mem_cons.1 htarget
    refine ⟨sayable_privileged known elevated "cp" _ ⟨rfl, rfl⟩ rfl ?_, rfl⟩
    simpa using ⟨legible_bare known "-r" rfl rfl, legible_tree known source hsource,
      legible_slashed known target htarget⟩
  | unmount mountpoint =>
    obtain rfl := Option.some.inj hc
    obtain ⟨hmountpoint, -⟩ := List.forall_mem_cons.1 hshort
    refine ⟨sayable_privileged known elevated "umount" _ ⟨rfl, rfl⟩ rfl ?_, rfl⟩
    simpa using legible_word known mountpoint hmountpoint
  | announce message =>
    obtain rfl := Option.some.inj hc
    obtain ⟨hmessage, -⟩ := List.forall_mem_cons.1 hshort
    exact ⟨sayable_message known "SUCCESS" message ⟨rfl, hk.2⟩ hmessage, rfl⟩

/-! ## Scripts -/

theorem sayable_steps (elevated : Bool) (steps : List Step) (h : ∀ step ∈ steps, IsSayable step)
    (hk : "ERROR" ∈ known ∧ "SUCCESS" ∈ known) :
    SayableAll known (steps.filterMap (stepCommand elevated)) := by
  induction steps with
  | nil => trivial
  | cons step steps ih =>
    rw [List.forall_mem_cons] at h
    cases hc : stepCommand elevated step with
    | none =>
      rw [List.filterMap_cons_none hc]
      exact ih h.2
    | some c =>
      obtain ⟨hsayable, hbound⟩ := sayable_step known elevated step h.1 hk c hc
      rw [List.filterMap_cons_some hc, SayableAll, hbound]
      exact ⟨hsayable, ih h.2⟩

end

theorem sayable_settings : SayableAll [] (settings.map fun v => .simple 0 [v] [] []) := by
  simp only [settings, List.map_cons, List.map_nil, SayableAll, Sayable]
  decide

theorem sayable_commands (s : Script) (h : ∀ step ∈ s.steps, IsSayable step) :
    SayableAll [] (commands s) := by
  rw [commands, sayableAll_append]
  exact ⟨sayable_settings, sayable_steps _ s.elevated s.steps h (by decide)⟩

end ImageTools.Script
