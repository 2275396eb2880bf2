import ImageTools.Proofs.Number
import ImageTools.Toml.Document

/-!
# Documents that are written and read

A document of sections is written line by line: a header with a bare name,
then entries of bare names and strings in double quotes. Each character of a
string may stand for itself or be escaped in any way that means it. Such a text
is read as those sections.
-/

set_option autoImplicit false

namespace ImageTools.Toml

/-! ## Strings in double quotes -/

inductive HexDigit : Char → Nat → Prop
  | lower {d : Nat} : d < 16 → HexDigit (Nat.digitChar d) d
  | upper {d : Nat} : d < 16 → HexDigit (Nat.digitChar d).toUpper d

inductive Hex : List Char → Nat → Prop
  | nil : Hex [] 0
  | snoc {ds : List Char} {n d : Nat} {c : Char} : Hex ds n → HexDigit c d →
      Hex (ds ++ [c]) (n * 16 + d)

theorem hexValue?_digit {c : Char} {d : Nat} (h : HexDigit c d) : hexValue? c = some d := by
  have hlower : ∀ d < 16, hexValue? (Nat.digitChar d) = some d := by decide
  have hupper : ∀ d < 16, hexValue? (Nat.digitChar d).toUpper = some d := by decide
  cases h with
  | lower hd => exact hlower d hd
  | upper hd => exact hupper d hd

theorem hexNumber?_snoc (ds : List Char) (c : Char) (n : Nat) :
    hexNumber? (ds ++ [c]) n =
      (hexNumber? ds n).bind fun m => (hexValue? c).map fun d => m * 16 + d := by
  induction ds generalizing n with
  | nil => cases h : hexValue? c <;> simp [hexNumber?, h]
  | cons d ds ih => cases h : hexValue? d <;> simp [hexNumber?, h, ih]

theorem hexNumber?_hex {ds : List Char} {n : Nat} (h : Hex ds n) : hexNumber? ds 0 = some n := by
  induction h with
  | nil => rfl
  | snoc _ hc ih => rw [hexNumber?_snoc, ih, hexValue?_digit hc]; rfl

theorem charOfHex?_hex {ds : List Char} {c : Char} (h : Hex ds c.toNat) :
    charOfHex? ds = some c := by
  have hvalid : c.toNat.isValidChar := c.valid
  simp [charOfHex?, hexNumber?_hex h, hvalid]

def isControl (c : Char) : Bool := c.toNat < 32 || c.toNat == 127

def shortSpellings : List (Char × Char) :=
  [('\x08', 'b'), ('\t', 't'), ('\n', 'n'), ('\x0c', 'f'), ('\r', 'r'), ('\x22', '\x22'),
    ('\\', '\\')]

/-- The ways to write a character in a string. Quotes, backslashes and control
characters cannot stand for themselves. -/
inductive Spelling : Char → List Char → Prop
  | plain {c : Char} : c ≠ '\x22' → c ≠ '\\' → isControl c = false → Spelling c [c]
  | short {c letter : Char} : (c, letter) ∈ shortSpellings → Spelling c ['\\', letter]
  | four {c : Char} {ds : List Char} : ds.length = 4 → Hex ds c.toNat →
      Spelling c ('\\' :: 'u' :: ds)
  | eight {c : Char} {ds : List Char} : ds.length = 8 → Hex ds c.toNat →
      Spelling c ('\\' :: 'U' :: ds)

inductive Spelled : List Char → List Char → Prop
  | nil : Spelled [] []
  | cons {c : Char} {text word body : List Char} : Spelling c word → Spelled text body →
      Spelled (c :: text) (word ++ body)

theorem isTextual_of_not_control {c : Char} (h : isControl c = false) : isTextual c = true := by
  simp only [isControl, Bool.or_eq_false_iff, decide_eq_false_iff_not, beq_eq_false_iff_ne] at h
  simp only [isTextual, Bool.or_eq_true, Bool.and_eq_true, decide_eq_true_eq, bne_iff_ne]
  exact Or.inr ⟨by omega, h.2⟩

theorem basicRest_spelling {c : Char} {word : List Char} (h : Spelling c word) (r : List Char) :
    basicRest (word ++ r) = prepend c (basicRest r) := by
  cases h with
  | plain hquote hslash hcontrol =>
    have htextual := isTextual_of_not_control hcontrol
    simp [basicRest, hslash, htextual]
  | @short letter hmem =>
    have hletter : shortEscape? letter = some c ∧ letter ≠ 'u' ∧ letter ≠ 'U' := by
      simp only [shortSpellings, List.mem_cons, Prod.mk.injEq, List.not_mem_nil, or_false] at hmem
      rcases hmem with ⟨rfl, rfl⟩ | ⟨rfl, rfl⟩ | ⟨rfl, rfl⟩ | ⟨rfl, rfl⟩ | ⟨rfl, rfl⟩ | ⟨rfl, rfl⟩ |
        ⟨rfl, rfl⟩ <;> decide
    simp [basicRest, hletter]
  | @four ds hlen hhex =>
    match ds, hlen with
    | [_, _, _, _], _ => simp [basicRest, charOfHex?_hex hhex]
  | @eight ds hlen hhex =>
    match ds, hlen with
    | [_, _, _, _, _, _, _, _], _ => simp [basicRest, charOfHex?_hex hhex]

/-- A string is read up to its closing quote, as the characters that were spelled. -/
theorem basicRest_spelled {text body : List Char} (h : Spelled text body) (r : List Char) :
    basicRest (body ++ '\x22' :: r) = some (text, r) := by
  induction h with
  | nil => simp [basicRest]
  | cons hword _ ih => rw [List.append_assoc, basicRest_spelling hword, ih]; rfl

theorem Spelling.head_ne_quote {c : Char} {word : List Char} (h : Spelling c word) :
    ∃ first rest, word = first :: rest ∧ first ≠ '\x22' := by
  cases h with
  | plain hquote _ _ => exact ⟨_, _, rfl, hquote⟩
  | short _ => exact ⟨_, _, rfl, by decide⟩
  | four _ _ => exact ⟨_, _, rfl, by decide⟩
  | eight _ _ => exact ⟨_, _, rfl, by decide⟩

/-- What follows the closing quote must not be a third one in a row. -/
theorem string_spelled {text body : List Char} (h : Spelled text body) (r : List Char) :
    string ('\x22' :: (body ++ '\x22' :: '\n' :: r)) = some (String.ofList text, '\n' :: r) := by
  have hshort : ∀ later, body ++ '\x22' :: '\n' :: r ≠ '\x22' :: '\x22' :: later := by
    intro later heq
    cases h with
    | nil => simp at heq
    | cons hword _ =>
      obtain ⟨first, rest, rfl, hfirst⟩ := hword.head_ne_quote
      exact hfirst (List.cons.inj heq).1
  rw [string, basicRest_spelled h]
  · rfl
  · exact hshort

/-! ## Names -/

def Bare (name : String) : Prop := name ≠ "" ∧ ∀ c ∈ name.toList, isBareKeyChar c = true

def Apart (rest : List Char) : Prop := ∀ c ∈ rest.head?, isBareKeyChar c = false

theorem isBareKeyChar_plain {c : Char} (h : isBareKeyChar c = true) :
    isBlank c = false ∧ c ≠ '\x22' ∧ c ≠ '\x27' ∧ c ≠ '[' ∧ c ≠ '#' ∧ c ≠ '\n' ∧ c ≠ '\r' ∧
      c.toNat ≠ 0xFEFF := by
  have hother (d : Char) (hd : isBareKeyChar d = false) : c ≠ d := by
    rintro rfl
    rw [h] at hd
    cases hd
  refine ⟨?_, hother _ (by decide), hother _ (by decide), hother _ (by decide),
    hother _ (by decide), hother _ (by decide), hother _ (by decide), fun hmark => ?_⟩
  · simp [isBlank, hother ' ' (by decide), hother '\t' (by decide)]
  · exact hother (Char.ofNat 0xFEFF) (by decide) (by rw [← hmark, Char.ofNat_toNat])

theorem Bare.first {name : String} (h : Bare name) :
    ∃ c rest, name.toList = c :: rest ∧ isBareKeyChar c = true := by
  cases hchars : name.toList with
  | nil => exact absurd (String.toList_eq_nil_iff.1 hchars) h.1
  | cons c rest => exact ⟨c, rest, rfl, h.2 c (by simp [hchars])⟩

theorem simpleKey_bare {name : String} (h : Bare name) {rest : List Char} (hrest : Apart rest) :
    simpleKey (name.toList ++ rest) = some (name, rest) := by
  obtain ⟨c, cs, hchars, hc⟩ := h.first
  obtain ⟨-, hquote, hsingle, -⟩ := isBareKeyChar_plain hc
  obtain ⟨htake, hdrop⟩ := span_run h.2 hrest
  rw [simpleKey, htake, hdrop]
  · simp only [hchars]
    rw [← hchars, String.ofList_toList]
  all_goals simp [hchars, hquote, hsingle]

theorem skipBlanks_bare {name : String} (h : Bare name) (rest : List Char) :
    skipBlanks (name.toList ++ rest) = name.toList ++ rest := by
  obtain ⟨c, cs, hchars, hc⟩ := h.first
  simp [skipBlanks, hchars, (isBareKeyChar_plain hc).1]

theorem key_bare {name : String} (h : Bare name) {rest : List Char} (hrest : Apart rest)
    (hdot : ∀ later, skipBlanks rest ≠ '.' :: later) :
    key (name.toList ++ rest) = some ([name], skipBlanks rest) := by
  simp only [key, depthLimit, keyParts, skipBlanks_bare h, simpleKey_bare h hrest]

/-! ## Lines -/

inductive Line : Expression → List Char → Prop
  | header {name : String} : Bare name →
      Line (.header [name]) ('[' :: (name.toList ++ [']', '\n']))
  | entry {name text : String} {body : List Char} : Bare name → Spelled text.toList body →
      Line (.entry [name] (.string text))
        (name.toList ++ [' ', '=', ' ', '\x22'] ++ body ++ ['\x22', '\n'])

theorem value_spelled (n : Nat) {text : String} {body : List Char} (h : Spelled text.toList body)
    (r : List Char) :
    value n ('\x22' :: (body ++ '\x22' :: '\n' :: r)) = some (.string text, '\n' :: r) := by
  rw [value, atom, string_spelled h, String.ofList_toList]
  · rfl
  all_goals
    intro depth later _ heq
    exact absurd (List.cons.inj heq).1 (by decide)

theorem keyValue_entry (n : Nat) {name text : String} {body : List Char} (hname : Bare name)
    (hbody : Spelled text.toList body) (r : List Char) :
    keyValue (value n)
        (name.toList ++ [' ', '=', ' ', '\x22'] ++ body ++ ['\x22', '\n'] ++ r) =
      some (([name], .string text), '\n' :: r) := by
  have hkey : key (name.toList ++ ' ' :: '=' :: ' ' :: '\x22' :: (body ++ '\x22' :: '\n' :: r)) =
      some ([name], '=' :: ' ' :: '\x22' :: (body ++ '\x22' :: '\n' :: r)) :=
    key_bare hname (by simp [Apart, isBareKeyChar]) (by simp [skipBlanks, isBlank])
  simp [keyValue, hkey, skipBlanks, isBlank, value_spelled n hbody]

@[simp] theorem finishLine_lineEnd (r : List Char) : finishLine ('\n' :: r) = some r := rfl

theorem Bare.ne_bracket {name : String} (h : Bare name) (rest later : List Char) :
    name.toList ++ rest ≠ '[' :: later := by
  obtain ⟨c, cs, hchars, hc⟩ := h.first
  rw [hchars]
  intro heq
  exact (isBareKeyChar_plain hc).2.2.2.1 (List.cons.inj heq).1

/-- A line is read as its expression, and what comes after it is left. -/
theorem expression_line {e : Expression} {line : List Char} (h : Line e line) (r : List Char) :
    expression (line ++ r) = some (e, r) := by
  cases h with
  | @header name hname =>
    have hkey : key (name.toList ++ ']' :: '\n' :: r) = some ([name], ']' :: '\n' :: r) :=
      key_bare hname (by simp [Apart, isBareKeyChar]) (by simp [skipBlanks, isBlank])
    rw [List.cons_append, List.append_assoc, List.cons_append, List.singleton_append, expression,
      hkey]
    · rfl
    · exact hname.ne_bracket _
  | @entry name text body hname hbody =>
    rw [expression, keyValue_entry _ hname hbody]
    · rfl
    all_goals
      intro later
      simp only [List.append_assoc]
      exact hname.ne_bracket _ _

/-- A line begins with a character that is neither blank nor ends a line. -/
theorem Line.first {e : Expression} {line : List Char} (h : Line e line) :
    ∃ c rest, line = c :: rest ∧ isBlank c = false ∧ (∀ later, isIdle (c :: later) = false) ∧
      c.toNat ≠ 0xFEFF := by
  cases h with
  | header _ => exact ⟨_, _, rfl, by decide, fun _ => rfl, by decide⟩
  | @entry name text body hname _ =>
    obtain ⟨c, cs, hchars, hc⟩ := hname.first
    obtain ⟨hblank, -, -, -, hhash, hfeed, hreturn, hmark⟩ := isBareKeyChar_plain hc
    refine ⟨c, cs ++ ([' ', '=', ' ', '\x22'] ++ body ++ ['\x22', '\n']), ?_, hblank, ?_, hmark⟩
    · simp [hchars]
    · simp [isIdle, hhash, hfeed, hreturn]

inductive Lines : List Expression → List Char → Prop
  | nil : Lines [] []
  | gap {es : List Expression} {text : List Char} : Lines es text → Lines es ('\n' :: text)
  | cons {e : Expression} {es : List Expression} {line text : List Char} : Line e line →
      Lines es text → Lines (e :: es) (line ++ text)

/-- The text is read line by line. Every step takes a character at least, which
bounds their number. -/
theorem expressions_lines {es : List Expression} {text : List Char} (h : Lines es text) (n : Nat)
    (hn : text.length < n) : expressions n text = some es := by
  induction h generalizing n with
  | nil =>
    cases n with
    | zero => simp at hn
    | succ n => rfl
  | @gap es text _ ih =>
    cases n with
    | zero => simp at hn
    | succ n =>
      have hskip : skipBlanks ('\n' :: text) = '\n' :: text := rfl
      simp only [expressions, hskip, isIdle, if_true, finishLine_lineEnd, Option.bind_some]
      exact ih n (by simp only [List.length_cons] at hn; omega)
  | @cons e es line text hline _ ih =>
    obtain ⟨c, rest, rfl, hblank, hidle, -⟩ := hline.first
    cases n with
    | zero => simp at hn
    | succ n =>
      have hskip : skipBlanks (c :: rest ++ text) = c :: (rest ++ text) := by
        simp [skipBlanks, hblank]
      have hread : expression (c :: (rest ++ text)) = some (e, text) := expression_line hline text
      simp only [expressions, hskip, hidle, hread]
      rw [ih n (by simp only [List.cons_append, List.length_cons, List.length_append] at hn; omega)]
      rfl

theorem Lines.unmarked {es : List Expression} {text : List Char} (h : Lines es text) :
    dropByteOrderMark text = text := by
  have hfirst : ∀ c rest, c.toNat ≠ 0xFEFF → dropByteOrderMark (c :: rest) = c :: rest := by
    intro c rest hc
    simp [dropByteOrderMark, hc]
  cases h with
  | nil => rfl
  | gap _ => exact hfirst _ _ (by decide)
  | cons hline _ =>
    obtain ⟨c, rest, rfl, -, -, hmark⟩ := hline.first
    exact hfirst c _ hmark

/-! ## Sections -/

structure Section where
  name : String
  fields : List (String × String)
  bare : Bare name
  keys : ∀ f ∈ fields, Bare f.1
  distinct : (fields.map Prod.fst).Nodup

namespace Section

def expressions (s : Section) : List Expression :=
  .header [s.name] :: s.fields.map fun f => .entry [f.1] (.string f.2)

def entries (s : Section) : Entries := s.fields.map fun f => (f.1, .string f.2)

def entry (s : Section) : String × Value := (s.name, .table .header s.entries)

end Section

theorem add_header (d : Draft) (name : String) (h : d.root.lookup name = none) :
    d.add (.header [name]) =
      some { root := d.root ++ [(name, .table .header [])], current := [name] } := by
  simp [Draft.add, update, openTable, h]

theorem lookup_last (es : Entries) (name : String) (v : Value) (h : es.lookup name = none) :
    (es ++ [(name, v)]).lookup name = some v := by
  rw [Entries.lookup_append_new es name name v h, if_pos rfl]

theorem replace_last (es : Entries) (name : String) (old new : Value)
    (h : es.lookup name = none) :
    (es ++ [(name, old)]).replace name new = es ++ [(name, new)] := by
  induction es with
  | nil => simp [Entries.replace]
  | cons e r ih =>
    obtain ⟨k, v⟩ := e
    by_cases hk : k = name
    · simp [hk] at h
    · have hne : (name == k) = false := by simp [Ne.symm hk]
      simp only [List.lookup_cons, hne] at h
      simp [Entries.replace, hk, ih h]

/-- A field goes to the end of the section that was opened last. -/
theorem add_entry (es inner : Entries) (name key : String) (v : Value)
    (hname : es.lookup name = none) (hkey : inner.lookup key = none) :
    ({ root := es ++ [(name, .table .header inner)], current := [name] } : Draft).add
        (.entry [key] v) =
      some { root := es ++ [(name, .table .header (inner ++ [(key, v)]))], current := [name] } := by
  simp [Draft.add, update, addValue, insertNew, lookup_last es name _ hname, hkey, Way.enters,
    replace_last es name _ _ hname]

theorem add_fields (es inner : Entries) (name : String) (fields : List (String × String))
    (hname : es.lookup name = none) (hdistinct : (fields.map Prod.fst).Nodup)
    (hnew : ∀ f ∈ fields, inner.lookup f.1 = none) :
    (fields.map fun f => Expression.entry [f.1] (.string f.2)).foldlM Draft.add
        { root := es ++ [(name, .table .header inner)], current := [name] } =
      some
        { root := es ++
            [(name, .table .header (inner ++ fields.map fun f => (f.1, Value.string f.2)))]
          current := [name] } := by
  induction fields generalizing inner with
  | nil => simp
  | cons f fields ih =>
    obtain ⟨hfirst, hrest⟩ := List.nodup_cons.1 hdistinct
    have hadd := add_entry es inner name f.1 (.string f.2) hname (hnew f List.mem_cons_self)
    have hlater : ∀ g ∈ fields, (inner ++ [(f.1, Value.string f.2)]).lookup g.1 = none := by
      intro g hg
      have hne : g.1 ≠ f.1 := fun heq => hfirst (heq ▸ List.mem_map_of_mem hg)
      rw [Entries.lookup_append_new inner f.1 g.1 _ (hnew f List.mem_cons_self), if_neg hne]
      exact hnew g (List.mem_cons_of_mem f hg)
    rw [List.map_cons, List.foldlM_cons, hadd, Option.bind_eq_bind, Option.bind_some,
      ih _ hrest hlater]
    simp

theorem add_section (d : Draft) (s : Section) (h : d.root.lookup s.name = none) :
    s.expressions.foldlM Draft.add d =
      some { root := d.root ++ [s.entry], current := [s.name] } := by
  rw [Section.expressions, List.foldlM_cons, add_header d s.name h, Option.bind_eq_bind,
    Option.bind_some, add_fields d.root [] s.name s.fields h s.distinct (by simp)]
  rfl

theorem add_sections (d : Draft) (ss : List Section) (hdistinct : (ss.map Section.name).Nodup)
    (hnew : ∀ s ∈ ss, d.root.lookup s.name = none) :
    ((ss.flatMap Section.expressions).foldlM Draft.add d).map Draft.root =
      some (d.root ++ ss.map Section.entry) := by
  induction ss generalizing d with
  | nil => simp
  | cons s ss ih =>
    obtain ⟨hfirst, hrest⟩ := List.nodup_cons.1 hdistinct
    have hs := hnew s List.mem_cons_self
    have hlater : ∀ t ∈ ss, (d.root ++ [s.entry]).lookup t.name = none := by
      intro t ht
      have hne : t.name ≠ s.name := fun heq => hfirst (heq ▸ List.mem_map_of_mem ht)
      rw [Section.entry, Entries.lookup_append_new d.root s.name t.name _ hs, if_neg hne]
      exact hnew t (List.mem_cons_of_mem s ht)
    rw [List.flatMap_cons, List.foldlM_append, add_section d s hs, Option.bind_eq_bind,
      Option.bind_some, ih _ hrest hlater]
    simp

/-- The text of a document is read as its sections, in their order. -/
theorem parse_sections (ss : List Section) (hdistinct : (ss.map Section.name).Nodup)
    {text : String} (h : Lines (ss.flatMap Section.expressions) text.toList) :
    parse text = some (ss.map Section.entry) := by
  rw [parse, h.unmarked, expressions_lines h _ (Nat.lt_succ_self _), Option.bind_some, build,
    add_sections {} ss hdistinct (fun _ _ => rfl)]
  rfl

/-! ## Writing -/

def escape (c : Char) : List Char :=
  if c = '\x22' ∨ c = '\\' then ['\\', c]
  else if isControl c then
    ['\\', 'u', '0', '0', Nat.digitChar (c.toNat / 16), Nat.digitChar (c.toNat % 16)]
  else [c]

theorem hex_two (n : Nat) (hn : n < 256) :
    Hex ['0', '0', Nat.digitChar (n / 16), Nat.digitChar (n % 16)] n := by
  have hzero : HexDigit '0' 0 := @HexDigit.lower 0 (by decide)
  have hhigh : HexDigit (Nat.digitChar (n / 16)) (n / 16) := .lower (by omega)
  have hlow : HexDigit (Nat.digitChar (n % 16)) (n % 16) := .lower (by omega)
  have hhex := (((Hex.nil.snoc hzero).snoc hzero).snoc hhigh).snoc hlow
  have hn' : ((0 * 16 + 0) * 16 + 0) * 16 + n / 16 = n / 16 := by omega
  rw [hn', Nat.div_add_mod'] at hhex
  exact hhex

theorem spelling_escape (c : Char) : Spelling c (escape c) := by
  by_cases hmarked : c = '\x22' ∨ c = '\\'
  · rw [escape, if_pos hmarked]
    rcases hmarked with rfl | rfl <;> exact .short (by decide)
  · rw [escape, if_neg hmarked]
    rw [not_or] at hmarked
    cases hcontrol : isControl c with
    | true =>
      have hsmall : c.toNat < 256 := by
        simp only [isControl, Bool.or_eq_true, decide_eq_true_eq, beq_iff_eq] at hcontrol
        omega
      exact .four rfl (hex_two c.toNat hsmall)
    | false => exact .plain hmarked.1 hmarked.2 hcontrol

theorem spelled_escape (text : List Char) : Spelled text (text.flatMap escape) := by
  induction text with
  | nil => exact .nil
  | cons c text ih => exact .cons (spelling_escape c) ih

namespace Section

def fieldLine (f : String × String) : List Char :=
  f.1.toList ++ [' ', '=', ' ', '\x22'] ++ f.2.toList.flatMap escape ++ ['\x22', '\n']

def text (s : Section) : List Char :=
  '[' :: (s.name.toList ++ [']', '\n']) ++ s.fields.flatMap fieldLine

theorem lines_text (s : Section) : Lines s.expressions s.text := by
  have hfields : ∀ fields : List (String × String), (∀ f ∈ fields, Bare f.1) →
      Lines (fields.map fun f => .entry [f.1] (.string f.2)) (fields.flatMap fieldLine) := by
    intro fields hbare
    induction fields with
    | nil => exact .nil
    | cons f fields ih =>
      obtain ⟨hf, hrest⟩ := List.forall_mem_cons.1 hbare
      exact .cons (.entry hf (spelled_escape f.2.toList)) (ih hrest)
  exact .cons (.header s.bare) (hfields s.fields s.keys)

end Section

theorem Lines.append {es fs : List Expression} {text later : List Char} (h : Lines es text)
    (hlater : Lines fs later) : Lines (es ++ fs) (text ++ later) := by
  induction h with
  | nil => exact hlater
  | gap _ ih => exact .gap ih
  | cons hline _ ih =>
    rw [List.append_assoc]
    exact .cons hline ih

end ImageTools.Toml
