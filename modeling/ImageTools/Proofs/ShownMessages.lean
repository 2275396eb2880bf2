import Mathlib.Data.List.TakeWhile
import Mathlib.Tactic.SplitIfs
import ImageTools.Proofs.ScriptRun
import ImageTools.Shell.Print

/-!
# Messages as they are shown

The shell takes the quotes off a message, and then `echo -e` reads backslash
sequences in what is left. A message is escaped for the quotes only, so it is
shown as it was written exactly if no backslash in it begins such a sequence:
each sequence prints less than it is written with.
-/

set_option autoImplicit false

namespace ImageTools

namespace Shell.Echo

/-! ## What `echo` prints -/

def groups (n : Nat) : Nat → List UInt8
  | 0 => []
  | k + 1 => UInt8.ofNat (0x80 + n / 64 ^ k % 64) :: groups n k

def numbered (n : Nat) : List UInt8 :=
  if n < 0x80 then [UInt8.ofNat n]
  else if n < 0x800 then UInt8.ofNat (0xC0 + n / 64) :: groups n 1
  else if n < 0x10000 then UInt8.ofNat (0xE0 + n / 64 ^ 2) :: groups n 2
  else if n < 0x200000 then UInt8.ofNat (0xF0 + n / 64 ^ 3) :: groups n 3
  else if n < 0x4000000 then UInt8.ofNat (0xF8 + n / 64 ^ 4) :: groups n 4
  else if n < 0x80000000 then UInt8.ofNat (0xFC + n / 64 ^ 5) :: groups n 5
  else []

inductive Meaning
  | itself
  /-- The output ends here, without a line feed. -/
  | stop
  /-- Bytes, in place of the backslash and some characters behind it. -/
  | bytes (value : List UInt8) (length : Nat)
  deriving DecidableEq, Repr

def digits (base most : Nat) (cs : List Char) : List Char :=
  (cs.take most).takeWhile (isDigitOf base)

def hexadecimal (most : Nat) (write : Nat → List UInt8) (cs : List Char) : Meaning :=
  match digits 16 most cs with
  | [] => .itself
  | ds => .bytes (write (valueIn 16 ds)) (ds.length + 1)

def letter? (c : Char) : Option Char :=
  if c = 'E' then some '\x1b' else Print.letterEscape? c

def meaning : List Char → Meaning
  | [] => .itself
  | c :: r =>
    if c = 'c' then .stop
    else if c = '0' then
      .bytes [UInt8.ofNat (valueIn 8 (digits 8 3 r))] ((digits 8 3 r).length + 1)
    else if c = 'x' then hexadecimal 2 (fun n => [UInt8.ofNat n]) r
    else if c = 'u' then hexadecimal 4 numbered r
    else if c = 'U' then hexadecimal 8 numbered r
    else match letter? c with
      | some e => .bytes (String.utf8EncodeChar e) 1
      | none => .itself

def interpret (last : List UInt8) : Nat → List Char → List UInt8
  | _, [] => last
  | k + 1, _ :: r => interpret last k r
  | 0, c :: r =>
    if c = '\\' then
      match meaning r with
      | .itself => String.utf8EncodeChar c ++ interpret last 0 r
      | .stop => []
      | .bytes value length => value ++ interpret last length r
    else String.utf8EncodeChar c ++ interpret last 0 r

def encoded (cs : List Char) : List UInt8 := cs.flatMap String.utf8EncodeChar

structure Options where
  escapes : Bool := false
  feed : Bool := true

def Options.read (o : Options) (c : Char) : Options :=
  if c = 'n' then { o with feed := false } else { o with escapes := c = 'e' }

def isOption (arg : String) : Bool :=
  match arg.toList with
  | '-' :: c :: r => (c :: r).all fun c => ['n', 'e', 'E'].contains c
  | _ => false

def output (args : List String) : List UInt8 :=
  let options := ((args.takeWhile isOption).flatMap fun a => a.toList.tail).foldl Options.read {}
  let last := if options.feed then encoded ['\n'] else []
  let text := (" ".intercalate (args.dropWhile isOption)).toList
  if options.escapes then interpret last 0 text else encoded text ++ last

/-! ## Sequences -/

/-- The text makes a sequence of the backslash before it. -/
def Begins : List Char → Prop
  | [] => False
  | c :: r => c ∈ ['a', 'b', 'c', 'e', 'E', 'f', 'n', 'r', 't', 'v', '\\', '0'] ∨
      c ∈ ['x', 'u', 'U'] ∧ ∃ d ∈ r.head?, isDigitOf 16 d = true

def Literal (cs : List Char) : Prop :=
  ∀ front r, cs = front ++ '\\' :: r → ¬Begins r

theorem literal_cons (c : Char) (r : List Char) :
    Literal (c :: r) ↔ (c = '\\' → ¬Begins r) ∧ Literal r := by
  constructor
  · intro h
    refine ⟨?_, fun front s hr => h (c :: front) s (by rw [hr, List.cons_append])⟩
    rintro rfl
    exact h [] r rfl
  · rintro ⟨hc, hr⟩ front s heq
    cases front with
    | nil =>
      obtain ⟨rfl, rfl⟩ := List.cons.inj heq
      exact hc rfl
    | cons d front =>
      obtain ⟨rfl, htail⟩ := List.cons.inj heq
      exact hr front s htail

theorem digits_nil_iff (base most : Nat) (cs : List Char) (hmost : 0 < most) :
    digits base most cs = [] ↔ ¬∃ d ∈ cs.head?, isDigitOf base d = true := by
  obtain ⟨k, rfl⟩ := Nat.exists_eq_add_of_lt hmost
  cases cs with
  | nil => simp [digits]
  | cons c cs =>
    cases h : isDigitOf base c <;> simp [digits, h]

theorem hexadecimal_itself_iff (most : Nat) (write : Nat → List UInt8) (cs : List Char)
    (hmost : 0 < most) :
    hexadecimal most write cs = .itself ↔ ¬∃ d ∈ cs.head?, isDigitOf 16 d = true := by
  rw [← digits_nil_iff 16 most cs hmost, hexadecimal]
  cases digits 16 most cs <;> simp

theorem letter_none_iff (c : Char) :
    letter? c = none ↔ c ∉ ['a', 'b', 'e', 'E', 'f', 'n', 'r', 't', 'v', '\\'] := by
  unfold letter?
  split
  · rename_i h
    simp [h]
  · unfold Print.letterEscape?
    split <;> simp_all

theorem meaning_itself_iff (cs : List Char) : meaning cs = .itself ↔ ¬Begins cs := by
  cases cs with
  | nil => simp [meaning, Begins]
  | cons c r =>
    rw [Begins, meaning]
    split_ifs with hc h0 hx hu hU
    · simp [hc]
    · simp [h0]
    · rw [hexadecimal_itself_iff 2 _ r (by decide), hx]
      simp
    · rw [hexadecimal_itself_iff 4 _ r (by decide), hu]
      simp
    · rw [hexadecimal_itself_iff 8 _ r (by decide), hU]
      simp
    · have hletter := letter_none_iff c
      cases h : letter? c with
      | none => simp_all
      | some e => simp_all

/-! ## Lengths -/

theorem groups_length (n k : Nat) : (groups n k).length = k := by
  induction k with
  | zero => rfl
  | succ k ih => rw [groups, List.length_cons, ih]

/-- A character is written with no more bytes than its number has digits, and one. -/
theorem numbered_length (n k : Nat) (h : n < 16 ^ k) : (numbered n).length ≤ k + 1 := by
  have hdigits : ∀ m, 16 ^ m ≤ n → m < k := fun m hm =>
    (Nat.pow_lt_pow_iff_right (by decide)).1 (Nat.lt_of_le_of_lt hm h)
  unfold numbered
  split_ifs with h1 h2 h3 h4 h5 h6
  · simp
  · have := hdigits 1 (by omega)
    simp [groups_length]
    omega
  · have := hdigits 2 (by omega)
    simp [groups_length]
    omega
  · have := hdigits 4 (by omega)
    simp [groups_length]
    omega
  · have := hdigits 5 (by omega)
    simp [groups_length]
    omega
  · have := hdigits 6 (by omega)
    simp [groups_length]
    omega
  · simp

theorem length_digits_le (base most : Nat) (cs : List Char) :
    (digits base most cs).length ≤ cs.length :=
  ((List.takeWhile_sublist _).trans (List.take_sublist _ _)).length_le

theorem isDigit_digits (base most : Nat) (cs : List Char) :
    ∀ c ∈ digits base most cs, isDigitOf base c = true :=
  fun _ hc => List.mem_takeWhile_imp hc

theorem hexadecimal_length (most : Nat) (write : Nat → List UInt8) (cs : List Char)
    (hwrite : ∀ n k, n < 16 ^ k → (write n).length ≤ k + 1) (value : List UInt8) (length : Nat)
    (h : hexadecimal most write cs = .bytes value length) :
    value.length ≤ length ∧ length ≤ cs.length + 1 := by
  have hle := length_digits_le 16 most cs
  have hlt := valueIn_lt 16 (digits 16 most cs) (isDigit_digits 16 most cs)
  rw [hexadecimal] at h
  cases hds : digits 16 most cs with
  | nil => simp [hds] at h
  | cons d ds =>
    rw [hds] at h hle hlt
    obtain ⟨rfl, rfl⟩ := Meaning.bytes.inj h
    exact ⟨hwrite _ _ hlt, Nat.add_le_add_right hle 1⟩

theorem letter_length (c e : Char) (h : letter? c = some e) :
    (String.utf8EncodeChar e).length = 1 := by
  rw [String.length_utf8EncodeChar]
  unfold letter? at h
  split at h
  · obtain rfl := Option.some.inj h
    decide
  · unfold Print.letterEscape? at h
    split at h
    all_goals
      first
      | contradiction
      | obtain rfl := Option.some.inj h
        decide

/-- A sequence stands for no more bytes than follow its backslash. -/
theorem meaning_length (cs : List Char) (value : List UInt8) (length : Nat)
    (h : meaning cs = .bytes value length) : value.length ≤ length ∧ length ≤ cs.length := by
  cases cs with
  | nil => simp [meaning] at h
  | cons c r =>
    rw [meaning] at h
    rw [List.length_cons]
    split_ifs at h
    · obtain ⟨rfl, rfl⟩ := Meaning.bytes.inj h
      exact ⟨Nat.le_add_left 1 _, Nat.add_le_add_right (length_digits_le 8 3 r) 1⟩
    · exact hexadecimal_length 2 (fun n => [UInt8.ofNat n]) r (fun _ k _ => Nat.le_add_left 1 k)
        value length h
    · exact hexadecimal_length 4 _ r numbered_length value length h
    · exact hexadecimal_length 8 _ r numbered_length value length h
    · cases hletter : letter? c with
      | none => simp [hletter] at h
      | some e =>
        rw [hletter] at h
        obtain ⟨rfl, rfl⟩ := Meaning.bytes.inj h
        exact ⟨Nat.le_of_eq (letter_length c e hletter), Nat.le_add_left 1 _⟩

/-! ## Texts that are printed as they are -/

theorem encoded_append (as bs : List Char) : encoded (as ++ bs) = encoded as ++ encoded bs :=
  List.flatMap_append

theorem length_le_encoded (cs : List Char) : cs.length ≤ (encoded cs).length := by
  induction cs with
  | nil => exact Nat.le_refl _
  | cons c cs ih =>
    have hc := Char.utf8Size_pos c
    rw [encoded, List.flatMap_cons, List.length_append, String.length_utf8EncodeChar,
      List.length_cons]
    exact Nat.add_comm .. ▸ Nat.add_le_add hc ih

/-- Where a sequence begins, less is printed than is written. -/
theorem interpret_sequence (last : List UInt8) (r : List Char) (hr : meaning r ≠ .itself)
    (hrest : ∀ k, (interpret last k r).length ≤ (encoded (r.drop k)).length + last.length) :
    (interpret last 0 ('\\' :: r)).length < (encoded ('\\' :: r)).length + last.length := by
  have hwritten : (encoded ('\\' :: r)).length = (encoded r).length + 1 := by
    rw [encoded, List.flatMap_cons, List.length_append, String.length_utf8EncodeChar]
    exact Nat.add_comm ..
  rw [interpret, if_pos rfl, hwritten]
  cases hm : meaning r with
  | itself => exact absurd hm hr
  | stop => exact Nat.lt_of_lt_of_le (Nat.succ_pos _) (Nat.le_add_right _ _)
  | bytes value length =>
    obtain ⟨hvalue, hlength⟩ := meaning_length r value length hm
    have hsplit : (encoded r).length =
        (encoded (r.take length)).length + (encoded (r.drop length)).length := by
      rw [← List.length_append, ← encoded_append, List.take_append_drop]
    have htaken := length_le_encoded (r.take length)
    rw [List.length_take, Nat.min_eq_left hlength] at htaken
    have := hrest length
    simp only [List.length_append]
    omega

theorem interpret_length (last : List UInt8) (k : Nat) (cs : List Char) :
    (interpret last k cs).length ≤ (encoded (cs.drop k)).length + last.length := by
  induction cs generalizing k with
  | nil => simp [interpret]
  | cons c r ih =>
    cases k with
    | succ k => exact ih k
    | zero =>
      have hplain : (String.utf8EncodeChar c ++ interpret last 0 r).length ≤
          (encoded (c :: r)).length + last.length := by
        have := ih 0
        rw [List.drop_zero] at this
        simp only [encoded, List.flatMap_cons, List.length_append] at *
        omega
      by_cases hc : c = '\\'
      · by_cases hr : meaning r = .itself
        · rw [interpret, if_pos hc, hr]
          exact hplain
        · exact hc ▸ Nat.le_of_lt (interpret_sequence last r hr ih)
      · rw [interpret, if_neg hc]
        exact hplain

/-- A text is printed as it is exactly if no backslash in it begins a sequence. -/
theorem interpret_eq_iff (last : List UInt8) (cs : List Char) :
    interpret last 0 cs = encoded cs ++ last ↔ Literal cs := by
  induction cs with
  | nil => exact ⟨fun _ front r h => by simp at h, fun _ => rfl⟩
  | cons c r ih =>
    rw [literal_cons]
    have hplain : String.utf8EncodeChar c ++ interpret last 0 r = encoded (c :: r) ++ last ↔
        Literal r := by
      rw [encoded, List.flatMap_cons, List.append_assoc, List.append_cancel_left_eq]
      exact ih
    by_cases hc : c = '\\'
    · by_cases hr : meaning r = .itself
      · rw [interpret, if_pos hc, hr]
        exact hplain.trans (and_iff_right fun _ => (meaning_itself_iff r).1 hr).symm
      · have hbegins : Begins r :=
          Classical.not_not.1 fun hno => hr ((meaning_itself_iff r).2 hno)
        have hless := interpret_sequence last r hr fun k => interpret_length last k r
        constructor
        · intro h
          rw [hc, ← List.length_append] at *
          exact absurd (congrArg List.length h) (Nat.ne_of_lt hless)
        · exact fun h => absurd hbegins (h.1 hc)
    · rw [interpret, if_neg hc]
      exact hplain.trans (and_iff_right fun h => absurd h hc).symm

instance (cs : List Char) : Decidable (Literal cs) :=
  decidable_of_iff _ (interpret_eq_iff [] cs)

/-! ## Messages behind a label -/

def highlighted (colour label : String) : String :=
  "\x1b[" ++ colour ++ "m[" ++ label ++ "]\x1b[0m"

end Shell.Echo

namespace Shell.Trace

def printed (t : Trace) : List UInt8 :=
  t.events.flatMap fun event =>
    match event.words with
    | "echo" :: args => Echo.output args
    | _ => []

theorem printed_print (t : Trace) (args : List String) :
    (t.print args).printed = t.printed ++ Echo.output args := by
  simp [printed, print]

theorem printed_call (w : World) (t : Trace) (name : String) (args : List String)
    (h : name ≠ "echo") : (t.call w (name :: args)).printed = t.printed := by
  simp [printed, call, h]

end Shell.Trace

namespace Script
open Shell Shell.Trace Shell.Echo

theorem output_escapes (text : String) (h : isOption text = false) :
    output ["-e", text] = interpret (encoded ['\n']) 0 text.toList := by
  have hfirst : isOption "-e" = true := by decide
  have hwords : ["-e", text].takeWhile isOption = ["-e"] ∧
      ["-e", text].dropWhile isOption = [text] := by simp [hfirst, h]
  have hoptions : (["-e"].flatMap fun a => a.toList.tail).foldl Options.read {} =
      { escapes := true } := rfl
  have hjoined : " ".intercalate [text] = text := by simp
  rw [output, hwords.1, hwords.2, hjoined, hoptions]
  rfl

theorem output_shown (label message : String) (front : List Char) (expanded : String)
    (hlabel : (colours.lookup label).getD [] = '\\' :: front)
    (hread : ∀ r, interpret (encoded ['\n']) 0 ('\\' :: front ++ ' ' :: r) =
      encoded expanded.toList ++ encoded [' '] ++ interpret (encoded ['\n']) 0 r) :
    output (shown label message) = encoded (expanded ++ " ").toList ++
      interpret (encoded ['\n']) 0 message.toList := by
  have htext : (String.ofList ((colours.lookup label).getD []) ++ " " ++ message).toList =
      '\\' :: front ++ ' ' :: message.toList := by simp [hlabel]
  have hoption : isOption (String.ofList ((colours.lookup label).getD []) ++ " " ++ message) =
      false := by
    rw [isOption, htext]
    rfl
  have hblank : " ".toList = [' '] := rfl
  rw [shown, output_escapes _ hoption, htext, hread, String.toList_append, encoded_append, hblank]

theorem output_error (message : String) :
    output (shown "ERROR" message) = encoded (highlighted "0;31" "ERROR" ++ " ").toList ++
      interpret (encoded ['\n']) 0 message.toList :=
  output_shown "ERROR" message "033[0;31m[ERROR]\\033[0m".toList _ rfl fun _ => rfl

theorem output_success (message : String) :
    output (shown "SUCCESS" message) = encoded (highlighted "0;32" "SUCCESS" ++ " ").toList ++
      interpret (encoded ['\n']) 0 message.toList :=
  output_shown "SUCCESS" message "033[0;32m[SUCCESS]\\033[0m".toList _ rfl fun _ => rfl

/-! ## Lines that report -/

/-- After a status, the step shows a message behind a label. -/
inductive Reports (status : UInt8) : Step → String → String → Prop
  | failed (message : String) : status ≠ 0 →
      Reports status (.abortOnFailure message) (highlighted "0;31" "ERROR") message
  | failedMounted (mountpoint message : String) : status ≠ 0 →
      Reports status (.unmountOnFailure mountpoint message) (highlighted "0;31" "ERROR") message
  | announced (message : String) :
      Reports status (.announce message) (highlighted "0;32" "SUCCESS") message

theorem Reports.isPlain {status : UInt8} {step : Step} {label message : String}
    (h : Reports status step label message) : IsPlain step := by
  cases h <;> trivial

/-- A step that reports prints the label, and the message as `echo` reads it. -/
theorem Reports.printed {t : Trace} {step : Step} {label message : String}
    (h : Reports t.status step label message) (w : World) (elevated : Bool) :
    ∃ t', effect? w elevated t step = some t' ∧
      t'.printed = t.printed ++ (encoded (label ++ " ").toList ++
        interpret (encoded ['\n']) 0 message.toList) := by
  have habort : ∀ t message, (abort t message).printed =
      t.printed ++ output (shown "ERROR" message) := fun t message =>
    printed_print t (shown "ERROR" message)
  cases h with
  | failed message hstatus =>
    refine ⟨abort t message, congrArg some (if_neg hstatus), ?_⟩
    rw [habort, output_error]
  | failedMounted mountpoint message hstatus =>
    refine ⟨_, congrArg some (if_neg hstatus), ?_⟩
    have hcall :
        (t.call w (withPrivilege elevated ["umount", mountpoint])).printed = t.printed := by
      cases elevated <;> exact printed_call w t _ _ (by decide)
    rw [habort, hcall, output_error]
  | announced message =>
    exact ⟨_, rfl, by rw [printed_print, output_success]⟩

/-- A line that reports prints the label in its colours, a blank, the message
and a line feed exactly if no backslash of the message begins a sequence that
`echo -e` reads. -/
theorem message_shown_iff (w : World) (s : Script) (hplain : ∀ step ∈ s.steps, IsPlain step)
    (t : Trace) (hrun : run? w s.render = some t) (hgoes : t.ended = false) (step : Step)
    (label message : String) (h : Reports t.status step label message) :
    ∃ t', run? w (s.add step).render = some t' ∧
      (t'.printed = t.printed ++ encoded (label ++ " " ++ message ++ "\n").toList ↔
        Literal message.toList) := by
  obtain ⟨t', heffect, hprinted⟩ := h.printed w s.elevated
  have hplain' : ∀ step' ∈ (s.add step).steps, IsPlain step' := by
    intro step' hstep
    rcases List.mem_append.1 hstep with hstep | hstep
    · exact hplain step' hstep
    · exact List.mem_singleton.1 hstep ▸ h.isPlain
  refine ⟨t', ?_, ?_⟩
  · rw [run_render w s hplain] at hrun
    rw [run_render w _ hplain', add, effects_append w _ _ _ _ rfl, hrun, Option.bind_some,
      goOn_running _ _ hgoes, effects?, heffect, Option.bind_some]
    exact goOn_some t'
  · have hfeed : (label ++ " " ++ message ++ "\n").toList =
        (label ++ " ").toList ++ (message.toList ++ ['\n']) := by simp
    rw [hprinted, hfeed, List.append_cancel_left_eq, encoded_append, encoded_append,
      List.append_cancel_left_eq]
    exact interpret_eq_iff _ _

/-- The error line of a check below a failed command, with a backslash that is shown. -/
theorem message_shown_backslash :
    (∀ step ∈ [Step.command ["false"]], IsPlain step) ∧
    ∃ t', run? ⟨fun _ => 1, fun _ _ => []⟩ (({ steps := [.command ["false"]] } : Script).add
        (.unmountOnFailure "/mnt" "can\x27t copy $HOME\\dev \"now\"")).render = some t' ∧
      t'.printed = encoded "\x1b[0;31m[ERROR]\x1b[0m can\x27t copy $HOME\\dev \"now\"\n".toList := by
  have hplain : ∀ step ∈ [Step.command ["false"]], IsPlain step :=
    List.forall_mem_singleton.2 ⟨rfl, rfl⟩
  refine ⟨hplain, ?_⟩
  let failing : World := ⟨fun _ => 1, fun _ _ => []⟩
  have hrun : run? failing ({ steps := [.command ["false"]] } : Script).render =
      some (begun.call failing ["false"]) := (run_render failing _ hplain).trans rfl
  obtain ⟨t', ht', hshown⟩ := message_shown_iff failing { steps := [.command ["false"]] } hplain _
    hrun rfl _ _ "can\x27t copy $HOME\\dev \"now\"" (.failedMounted "/mnt" _ (by decide))
  exact ⟨t', ht', hshown.2 (by decide +kernel)⟩

/-- A message with a backslash before an `n` is shown on two lines. -/
theorem message_broken :
    ∃ t', run? ⟨fun _ => 0, fun _ _ => []⟩ (({} : Script).add (.announce "a\\nb")).render =
        some t' ∧
      t'.printed = encoded "\x1b[0;32m[SUCCESS]\x1b[0m a\nb\n".toList ∧
      t'.printed ≠ encoded "\x1b[0;32m[SUCCESS]\x1b[0m a\\nb\n".toList := by
  let succeeding : World := ⟨fun _ => 0, fun _ _ => []⟩
  have hrun : run? succeeding (({} : Script).add (.announce "a\\nb")).render =
      some (begun.print (shown "SUCCESS" "a\\nb")) :=
    (run_render succeeding _ (List.forall_mem_singleton.2 trivial)).trans rfl
  refine ⟨_, hrun, ?_⟩
  rw [printed_print, output_success]
  decide +kernel

end Script

end ImageTools
