import ImageTools.Shell.Run
import ImageTools.Proofs.Arguments

/-!
# Words in the shell and in a trace

Words of characters and of the values of known variables are expanded by the
shell to what they stand for in a trace, given a world that sees the same
files.
-/

set_option autoImplicit false

namespace ImageTools.Shell

/-! ## Actions one after the other -/

namespace Action

variable {α β : Type}

@[simp] theorem run_pure (a : α) (m : Machine) : (pure a : Action α) m = (.ok a, m) := rfl

@[simp] theorem run_modify (f : Machine → Machine) (m : Machine) :
    (modify f : Action Unit) m = (.ok (), f m) := rfl

theorem run_bind (x : Action α) (f : α → Action β) (m : Machine) :
    (x >>= f) m = match x m with
      | (.ok a, m') => f a m'
      | (.error j, m') => (.error j, m') := by
  change ExceptT.bind x f m = _
  rcases h : x m with ⟨_ | _, m'⟩ <;>
    simp only [ExceptT.bind, ExceptT.mk, bind, StateT.bind, h] <;> rfl

theorem bind_ok (x : Action α) (f : α → Action β) (m m' : Machine) (a : α)
    (h : x m = (.ok a, m')) : (x >>= f) m = f a m' := by
  rw [run_bind, h]

theorem bind_error (x : Action α) (f : α → Action β) (m m' : Machine) (j : Jump)
    (h : x m = (.error j, m')) : (x >>= f) m = (.error j, m') := by
  rw [run_bind, h]

theorem pure_bind (a : α) (f : α → Action β) (m : Machine) : (pure a >>= f) m = f a m := rfl

theorem get_bind (f : Machine → Action β) (m : Machine) : (get >>= f) m = f m m := rfl

theorem set_bind (m' : Machine) (f : PUnit → Action β) (m : Machine) :
    (set m' >>= f) m = f ⟨⟩ m' := rfl

theorem modify_bind (g : Machine → Machine) (f : PUnit → Action β) (m : Machine) :
    (modify g >>= f) m = f ⟨⟩ (g m) := rfl

theorem attempt_bind (x : Action α) (f : Except Jump α → Action β) (m : Machine) :
    (attempt x >>= f) m = f (x m).1 (x m).2 := rfl

@[simp] theorem run_afterwards (x : Action α) (f : Machine → Machine) (m : Machine) :
    afterwards x f m = ((x m).1, f (x m).2) := rfl

end Action

open Trace

/-! ## Values -/

def Piece.isPlain (known : List String) : Piece → Bool
  | .char c quoted => quoted || !Trace.isReplaced c
  | .mark => true
  | .parameter name .value _ [] => name == "?" || (isNamed name && known.contains name)
  | _ => false

def Knows (known : List String) (t : Trace) (m : Machine) : Prop :=
  ∀ name ∈ known, (m.valueOf? name).getD "" = String.ofList ((t.bindings.lookup name).getD [])

theorem replaceTilde_plain (known : List String) (m : Machine) (assigned : Bool) (word : Word)
    (h : word.all (Piece.isPlain known) = true) : replaceTilde m assigned word = word := by
  unfold replaceTilde
  split
  · simp [Piece.isPlain, isReplaced] at h
  · rfl

theorem replaceTildes_plain (known : List String) (m : Machine) (n : Nat) (word : Word)
    (h : word.all (Piece.isPlain known) = true) : replaceTildes m n word = word := by
  induction n generalizing word with
  | zero => rfl
  | succ n ih =>
    rw [replaceTildes, replaceTilde_plain known m true word h]
    simp only
    split
    · rename_i colon rest heq
      have hrest : rest.all (Piece.isPlain known) = true := by
        have hsub : rest ⊆ word := fun p hp =>
          (List.dropWhile_suffix _).subset (heq ▸ List.mem_cons_of_mem _ hp)
        rw [List.all_eq_true] at h ⊢
        exact fun p hp => h p (hsub hp)
      rw [ih rest hrest, ← heq, List.takeWhile_append_dropWhile]
    · rfl

theorem named_ne (name other : String) (h : isNamed name = true) (hother : isNamed other = false) :
    name ≠ other := by
  rintro rfl
  simp [h] at hother

theorem isDigit_of_value (c : Char) (h : isDigitOf 10 c = true) : c.isDigit = true := by
  have hle : ∀ d, (decide (d ≤ c)) = true → d.toNat ≤ c.toNat := fun d hd => of_decide_eq_true hd
  unfold isDigitOf digitValue? at h
  split at h
  · assumption
  · split at h
    · rename_i hc
      have hlow := hle 'a' (Bool.and_eq_true_iff.1 hc).1
      have hlow : 97 ≤ c.toNat := hlow
      have hvalue : c.toNat - 87 < 10 := by simpa using h
      omega
    · split at h
      · rename_i hc
        have hlow : 65 ≤ c.toNat := hle 'A' (Bool.and_eq_true_iff.1 hc).1
        have hvalue : c.toNat - 55 < 10 := by simpa using h
        omega
      · simp at h

theorem digits?_named (name : String) (h : isNamed name = true) : digits? name = none := by
  unfold isNamed at h
  unfold digits? readDigits
  split at h
  · simp at h
  · rename_i c r hname
    rw [Bool.and_eq_true] at h
    have hc : isDigitOf 10 c = false := by
      rw [Bool.eq_false_iff]
      intro hdigit
      have hbounds := digit_bounds c (isDigit_of_value c hdigit)
      have hstart : 65 ≤ c.toNat := by
        rcases Bool.or_eq_true_iff.1 h.1 with halpha | hunderscore
        · rcases Bool.or_eq_true_iff.1 halpha with hupper | hlower
          · exact (of_decide_eq_true hupper).1
          · have hlow : 97 ≤ c.toNat := of_decide_eq_true (Bool.and_eq_true_iff.1 hlower).1
            omega
        · rw [beq_iff_eq.1 hunderscore]
          decide
      omega
    rw [hname, List.takeWhile_cons, hc]
    rfl

theorem parameter_named (m : Machine) (name : String) (h : isNamed name = true) :
    parameterText m name = m.valueOf? name := by
  have hne := fun other => named_ne name other h
  have hlist : Machine.isList name = false := by
    simp [Machine.isList, hne "@" rfl, hne "*" rfl]
  rw [parameterText, hlist, if_neg Bool.false_ne_true]
  unfold Machine.parameter?
  split
  · exact absurd rfl (hne "?" rfl)
  · exact absurd rfl (hne "#" rfl)
  · exact absurd rfl (hne "$" rfl)
  · exact absurd rfl (hne "!" rfl)
  · exact absurd rfl (hne "-" rfl)
  · exact absurd rfl (hne "0" rfl)
  · rw [digits?_named name h]

theorem value_plain (known : List String) (t : Trace) (name : String)
    (h : (name == "?" || (isNamed name && known.contains name)) = true) :
    ∃ value, t.value? name = some value := by
  unfold value?
  split
  · exact ⟨_, rfl⟩
  · rename_i hne
    have hname : isNamed name = true := by
      simp only [Bool.or_eq_true, beq_iff_eq, hne, false_or, Bool.and_eq_true] at h
      exact h.1
    exact ⟨_, if_pos hname⟩

theorem demandValue_plain (known : List String) (t : Trace) (m : Machine) (hk : Knows known t m)
    (hs : m.status = t.status.toNat) (hu : m.isOn 'u' = false) (name : String)
    (h : (name == "?" || (isNamed name && known.contains name)) = true) (value : List Char)
    (hv : t.value? name = some value) :
    Machine.isList name = false ∧ demandValue name m = (.ok (String.ofList value), m) := by
  have hdemand : ∀ found, parameterText m name = found →
      demandValue name m = (.ok (found.getD ""), m) := by
    rintro found rfl
    unfold demandValue
    rw [Action.get_bind]
    cases parameterText m name with
    | some text => rfl
    | none => simp [hu]
  rw [Bool.or_eq_true, Bool.and_eq_true, beq_iff_eq, List.contains_iff_mem] at h
  rcases h with rfl | ⟨hname, hmem⟩
  · obtain rfl := Option.some.inj hv
    rw [hdemand (some (toString m.status)) rfl, hs, String.ofList_toList]
    exact ⟨rfl, rfl⟩
  · rw [value?, if_neg (named_ne name "?" hname rfl), if_pos hname] at hv
    obtain rfl := Option.some.inj hv
    rw [hdemand _ (parameter_named m name hname), hk name hmem]
    exact ⟨by simp [Machine.isList, named_ne name "@" hname rfl, named_ne name "*" hname rfl], rfl⟩

theorem pieceGlyphs_plain (known : List String) (t : Trace) (p : Piece)
    (h : p.isPlain known = true) : ∃ gs, t.pieceGlyphs? p = some gs := by
  cases p with
  | char c quoted =>
    have hc : (!quoted && isReplaced c) = false := by
      cases quoted with
      | true => rfl
      | false => simpa [Piece.isPlain] using h
    exact ⟨_, by rw [pieceGlyphs?, hc]; rfl⟩
  | mark => exact ⟨_, rfl⟩
  | parameter name operation quoted operand =>
    cases operation with
    | value =>
      cases operand with
      | nil =>
        obtain ⟨value, hvalue⟩ := value_plain known t name h
        exact ⟨_, by rw [pieceGlyphs?, hvalue]; rfl⟩
      | cons => cases h
    | _ => cases h
  | _ => cases h

theorem glyphs_plain (known : List String) (t : Trace) (word : Word)
    (h : word.all (Piece.isPlain known) = true) : ∃ gs, t.glyphs? word = some gs := by
  induction word with
  | nil => exact ⟨[], rfl⟩
  | cons p word ih =>
    rw [List.all_cons, Bool.and_eq_true] at h
    obtain ⟨first, hfirst⟩ := pieceGlyphs_plain known t p h.1
    obtain ⟨rest, hrest⟩ := ih h.2
    exact ⟨first ++ rest, by rw [glyphs?, hfirst, hrest]; rfl⟩

theorem expandPieces_plain (run : Substitute) (known : List String) (t : Trace) (m : Machine)
    (hk : Knows known t m) (hs : m.status = t.status.toNat) (hu : m.isOn 'u' = false)
    (use : Use) (before : Option Piece) (word : Word) (n : Nat) (hn : word.length ≤ n)
    (h : word.all (Piece.isPlain known) = true) (gs : List Glyph) (hg : t.glyphs? word = some gs) :
    expandPieces run n use false before word m = (.ok gs, m) := by
  induction word generalizing n before gs with
  | nil =>
    obtain rfl := Option.some.inj hg
    cases n <;> rfl
  | cons p word ih =>
    cases n with
    | zero => simp at hn
    | succ n =>
      rw [List.all_cons, Bool.and_eq_true] at h
      obtain ⟨first, hfirst, rest, hrest, rfl⟩ : ∃ first, t.pieceGlyphs? p = some first ∧
          ∃ rest, t.glyphs? word = some rest ∧ first ++ rest = gs := by
        simpa [glyphs?, Option.bind_eq_some_iff] using hg
      have hrun := ih (some p) n (by simpa using hn) h.2 rest hrest
      have hnext : ∀ action : Action (List Glyph), action m = (.ok first, m) →
          (do
            let first ← action
            let rest ← expandPieces run n use false (some p) word
            return first ++ rest : Action (List Glyph)) m = (.ok (first ++ rest), m) :=
        fun action haction =>
        (Action.bind_ok _ _ m m first haction).trans (Action.bind_ok _ _ m m rest hrun)
      cases p with
      | char c quoted =>
        rw [expandPieces]
        refine hnext _ ?_
        simp only [pieceGlyphs?, Option.ite_none_left_eq_some, Option.some.injEq] at hfirst
        rw [← hfirst.2]
        simp [literal, beginsValue]
      | mark =>
        obtain rfl := Option.some.inj hfirst
        have hnot : ∀ r, word ≠ .parameter "@" .value true [] :: .mark :: r := by
          rintro r rfl
          have hname : isNamed "@" = false := rfl
          simp [Piece.isPlain, hname] at h
        rw [expandPieces]
        · exact hnext _ rfl
        · exact fun r _ => hnot r
      | parameter name operation quoted operand =>
        cases operation with
        | value =>
          cases operand with
          | nil =>
            obtain ⟨value, hvalue, rfl⟩ := Option.map_eq_some_iff.1 hfirst
            obtain ⟨hlist, hdemand⟩ := demandValue_plain known t m hk hs hu name h.1 value hvalue
            rw [expandPieces]
            refine hnext _ ((Action.get_bind _ m).trans ?_)
            simp only [plainValue, hlist, Bool.false_eq_true, if_false]
            rw [Action.bind_ok _ _ m m _ hdemand, String.toList_ofList]
            rfl
          | cons => cases h.1
        | _ => cases h.1
      | _ => cases h.1

theorem unescape_closed (p : Pattern) (h : p.all isClosed = true) :
    p.unescape.all isClosed = true := by
  induction p using Pattern.unescape.induct with
  | case1 => rfl
  | case2 s =>
    rw [Pattern.unescape]
    split
    · simp [isClosed]
    · exact h
  | case3 s t r hs ih =>
    simp only [List.all_cons, Bool.and_eq_true] at h
    rw [Pattern.unescape, if_pos hs]
    simp [isClosed, ih h.2.2]
  | case4 s t r hs ih =>
    rw [List.all_cons, Bool.and_eq_true] at h
    rw [Pattern.unescape, if_neg hs]
    simp [h.1, ih h.2]

theorem isOpen_unescape (p : Pattern) (h : p.all isClosed = true) : p.unescape.isOpen = false := by
  have hclosed := List.all_eq_true.1 (unescape_closed p h)
  rw [Pattern.isOpen, List.any_eq_false]
  intro s hs
  have hsign := hclosed s hs
  simp only [isClosed, Bool.or_eq_true, Bool.not_eq_true'] at hsign
  rcases hsign with hsign | hsign
  · simp [hsign]
  · simp only [hsign, Bool.and_false, Bool.false_eq_true, not_false_eq_true]

def bracket : Pattern := [⟨'[', false⟩]

/-- The shell looks the pattern up only if the trace does, or it is a lone bracket. -/
def Clear (p : Pattern) : Prop := Trace.isOpen p = true ∨ p.unescape.isOpen = false ∨ p = bracket

def Bracketed (fs : FileSystem) : Prop := pathsOf fs bracket = ["["]

def World.Sees (w : World) (k : Nat) (fs : FileSystem) : Prop := ∀ p, w.names k p = pathsOf fs p

theorem pathsOf_ne_nil (fs : FileSystem) (p : Pattern) : pathsOf fs p ≠ [] := by
  unfold pathsOf
  split
  · simp
  · split
    · simp
    · rename_i hpaths
      intro hsorted
      exact hpaths (List.eq_nil_of_length_eq_zero (by
        rw [← List.length_mergeSort, hsorted, List.length_nil]))

theorem pathsOf_shut (fs : FileSystem) (p : Pattern) (h : p.unescape.isOpen = false) :
    pathsOf fs p = [p.text] := by
  simp [pathsOf, h]

theorem namesOf_clear (w : World) (t : Trace) (fs : FileSystem) (p : Pattern)
    (hs : w.Sees t.events.length fs) (hb : Bracketed fs) (hp : Clear p) :
    namesOf w t p = pathsOf fs p := by
  unfold namesOf
  rw [hs p]
  split
  · split
    · rename_i hnone
      exact absurd hnone (pathsOf_ne_nil fs p)
    · rfl
  · rename_i hopen
    rcases hp with h | h | rfl
    · exact absurd h hopen
    · exact (pathsOf_shut fs p h).symm
    · exact hb.symm

def Trace.patterns (t : Trace) (words : List Word) : List Pattern :=
  words.flatMap fun word => fieldsOf Trace.separators ((t.glyphs? word).getD [])

theorem patterns_word (t : Trace) (word : Word) (gs : List Glyph) (h : t.glyphs? word = some gs) :
    t.patterns [word] = fieldsOf Trace.separators gs := by
  simp [Trace.patterns, h]

theorem arguments_plain (w : World) (known : List String) (t : Trace) (words : List Word)
    (h : ∀ word ∈ words, word.all (Piece.isPlain known) = true) :
    arguments? w t words = some ((t.patterns words).flatMap (namesOf w t)) := by
  induction words with
  | nil => rfl
  | cons word words ih =>
    rw [List.forall_mem_cons] at h
    obtain ⟨gs, hgs⟩ := glyphs_plain known t word h.1
    have hpatterns : t.patterns (word :: words) =
        fieldsOf Trace.separators gs ++ t.patterns words := by
      rw [← patterns_word t word gs hgs]
      simp [Trace.patterns]
    rw [arguments?, ih h.2, fields?, hgs, hpatterns, List.flatMap_append]
    rfl

/-! ## Words in the machine -/

section
variable (run : Substitute) (known : List String) (t : Trace) (m : Machine)
  (hk : Knows known t m) (hs : m.status = t.status.toNat) (ho : m.options = [])

include hk hs ho

theorem expandWord_plain (hi : m.separators = Trace.separators) (word : Word)
    (hn : word.length ≤ pieceLimit) (h : word.all (Piece.isPlain known) = true) :
    expandWord run word m = (.ok ((t.patterns [word]).flatMap (pathsOf m.system.files)), m) := by
  have hon : ∀ option, m.isOn option = false := fun option => by simp [Machine.isOn, ho]
  obtain ⟨gs, hgs⟩ := glyphs_plain known t word h
  have hrun := expandPieces_plain run known t m hk hs (hon 'u') .fields none word _ hn h gs hgs
  unfold expandWord
  rw [Action.get_bind, replaceTilde_plain known m false word h, Action.bind_ok _ _ m m gs hrun,
    Action.get_bind, patterns_word t word gs hgs]
  simp [hon 'f', hi]

theorem expandValue_plain (word : Word) (hn : word.length ≤ pieceLimit)
    (h : word.all (Piece.isPlain known) = true) (gs : List Glyph) (hg : t.glyphs? word = some gs) :
    expandValue run word m = (.ok (signsOf gs).text, m) := by
  have hon : m.isOn 'u' = false := by simp [Machine.isOn, ho]
  have hrun := expandPieces_plain run known t m hk hs hon .text none word _ hn h gs hg
  unfold expandValue
  rw [Action.get_bind, replaceTildes_plain known m _ word h, Action.bind_ok _ _ m m gs hrun]
  rfl

end

section
variable (run : Substitute) (m : Machine) (fields : Word → List String)

theorem mapM_expanded (words : List Word)
    (h : ∀ word ∈ words, expandWord run word m = (.ok (fields word), m)) :
    words.mapM (expandWord run) m = (.ok (words.map fields), m) := by
  induction words with
  | nil => rfl
  | cons word words ih =>
    rw [List.forall_mem_cons] at h
    rw [List.mapM_cons]
    exact (Action.bind_ok _ _ m m _ h.1).trans ((Action.bind_ok _ _ m m _ (ih h.2)).trans rfl)

namespace Evaluator

theorem expandBeyond_expanded (count : Nat) (first : List String) (words : List Word)
    (h : ∀ word ∈ words, expandWord run word m = (.ok (fields word), m)) :
    ∃ taken rest, words = taken ++ rest ∧
      expandBeyond run count first words m = (.ok (first ++ taken.flatMap fields, rest), m) ∧
      (rest = [] ∨ count < (first ++ taken.flatMap fields).length) := by
  induction words generalizing first with
  | nil => exact ⟨[], [], rfl, by rw [List.flatMap_nil, List.append_nil]; rfl, Or.inl rfl⟩
  | cons word words ih =>
    rw [List.forall_mem_cons] at h
    unfold expandBeyond
    split
    · rename_i hcount
      exact ⟨[], word :: words, rfl, by rw [List.flatMap_nil, List.append_nil]; rfl,
        Or.inr (by simpa using hcount)⟩
    · obtain ⟨taken, rest, hsplit, hrun, hend⟩ := ih (first ++ fields word) h.2
      rw [List.append_assoc, ← List.flatMap_cons] at hrun hend
      exact ⟨word :: taken, rest, by rw [hsplit]; rfl,
        (Action.bind_ok _ _ m m _ h.1).trans hrun, hend⟩

theorem readWords_expanded (words : List Word)
    (h : ∀ word ∈ words, expandWord run word m = (.ok (fields word), m))
    (hc : ∀ name ∈ (words.flatMap fields).head?, name ≠ "command" ∧ isDeclaring name = false) :
    readWords run words m = (.ok { fields := words.flatMap fields, rest := [] }, m) := by
  obtain ⟨taken, rest, rfl, hrun, hend⟩ := expandBeyond_expanded run m fields 0 [] words h
  rw [List.nil_append] at hrun hend
  have hfirst : (taken.flatMap fields)[0]? = ((taken ++ rest).flatMap fields).head? := by
    rw [List.flatMap_append, List.head?_eq_getElem?]
    rcases hend with rfl | hlen
    · simp
    · rw [List.getElem?_append_left hlen]
  have hhead : readHead run headLimit { rest := taken ++ rest } m =
      (.ok { fields := taken.flatMap fields, rest := rest }, m) := by
    unfold headLimit readHead
    refine (Action.bind_ok _ _ m m _ hrun).trans ((Action.bind_ok _ _ m m m rfl).trans ?_)
    have hname : ((taken ++ rest).flatMap fields).head? ≠ some "command" :=
      fun hname => (hc _ hname).1 rfl
    simp only [hfirst, hname, decide_false, Bool.false_and, Bool.false_eq_true, if_false]
    rfl
  unfold readWords
  refine (Action.bind_ok _ _ m m _ hhead).trans ((Action.bind_ok _ _ m m m rfl).trans ?_)
  have hplain : ∀ name ∈ ((taken ++ rest).flatMap fields).head?, isDeclaring name = false :=
    fun name hname => (hc name hname).2
  have hrest := mapM_expanded run m fields rest fun word hw => h word (List.mem_append_right _ hw)
  have hfields : (taken ++ rest).flatMap fields =
      taken.flatMap fields ++ (rest.map fields).flatten := by
    rw [List.flatMap_append, List.flatMap_def (l := rest)]
  rw [hfirst, hfields]
  rw [hfields] at hplain
  cases hname : (taken.flatMap fields ++ (rest.map fields).flatten).head? with
  | none => exact Action.bind_ok _ _ m m _ hrest
  | some name =>
    simp only [hplain name hname, Bool.false_and, Bool.false_eq_true, if_false]
    exact Action.bind_ok _ _ m m _ hrest

end Evaluator
end

end ImageTools.Shell
