import ImageTools.Merge
import ImageTools.Proofs.DirectiveFile
import ImageTools.Proofs.Footprint

/-!
# Names in a directory that others use, too

A name joined to a path that leads to a directory is a name in that directory,
whatever else has happened since. Taking away the name of a file leaves every
way to a directory open.
-/

set_option autoImplicit false

namespace ImageTools

namespace Path

/-! ## The names of a joined path -/

theorem pieces_append_slash (cs ds : List Char) :
    pieces (cs ++ '/' :: ds) = pieces cs ++ pieces ds := by
  induction cs with
  | nil => simp [pieces]
  | cons c cs ih =>
    simp only [List.cons_append, pieces, ih]
    split
    · rfl
    · cases hp : pieces cs with
      | nil => exact absurd hp (pieces_ne_nil cs)
      | cons p ps => rfl

theorem names_append_slash (path name : String) (h : '/' ∉ name.toList) :
    names (path ++ "/" ++ name) = names path ++ [name] := by
  have hchars : (path ++ "/" ++ name).toList = path.toList ++ '/' :: name.toList := by
    simp
  simp only [names, hchars, pieces_append_slash, pieces_of_no_slash _ h, List.map_append,
    List.map_cons, List.map_nil, String.ofList_toList]

theorem isAbsolute_plain (name : String) (h : '/' ∉ name.toList) : isAbsolute name = false := by
  unfold isAbsolute
  cases hn : name.toList with
  | nil => rfl
  | cons c cs =>
    have hc : c ≠ '/' := fun hc => h (by simp [hn, hc])
    simpa using hc

/-- A plain name joined to a path is its last name; a slash that the path ends
in is not doubled. -/
theorem names_join (base name : String) (hbase : base ≠ "") (h : '/' ∉ name.toList) :
    ∃ front, names (join base name) = front ++ [name] ∧
      (names base = front ∨ names base = front ++ [""]) := by
  have habs := isAbsolute_plain name h
  by_cases hslash : base.toList.getLast? = some '/'
  · obtain ⟨front, hfront⟩ := List.getLast?_eq_some_iff.1 hslash
    have hstem : base = String.ofList front ++ "/" := by
      rw [← String.ofList_toList (s := base), hfront]
      simp
    refine ⟨names (String.ofList front), ?_, Or.inr ?_⟩
    · simp only [join, habs, hslash, or_true, if_true, Bool.false_eq_true, if_false]
      rw [hstem]
      exact names_append_slash _ name h
    · rw [hstem, ← String.append_empty (s := String.ofList front ++ "/")]
      exact names_append_slash _ "" (by simp)
  · refine ⟨names base, ?_, Or.inl rfl⟩
    simp only [join, habs, hbase, hslash, or_self, if_false, Bool.false_eq_true]
    exact names_append_slash base name h

def lastName (path : String) : String := (names path).getLastD ""

theorem lastName_join (base name : String) (hbase : base ≠ "") (h : '/' ∉ name.toList) :
    lastName (join base name) = name := by
  obtain ⟨front, hjoin, -⟩ := names_join base name hbase h
  rw [lastName, hjoin, List.getLastD_concat]

theorem isAbsolute_join (base name : String) (hbase : base ≠ "") (h : isAbsolute name = false) :
    isAbsolute (join base name) = isAbsolute base := by
  have hhead : ∀ rest : String, isAbsolute (base ++ rest) = isAbsolute base := by
    intro rest
    unfold isAbsolute
    cases hb : base.toList with
    | nil => exact absurd (String.toList_eq_nil_iff.1 hb) hbase
    | cons c cs => simp [hb]
  unfold join
  simp only [h, Bool.false_eq_true, if_false]
  split
  · exact hhead name
  · rw [String.append_assoc]
    exact hhead ("/" ++ name)

end Path

namespace FileSystem

/-! ## The way to a name in a directory -/

/-- A slash at the end of a path does not change where it leads. -/
theorem walk_without_slash (fs : FileSystem) (links : Nat) (t t' : Trail) (ns : List String)
    (h : fs.walk false links t (ns ++ [""]) = .ok (.found t')) :
    fs.walk false links t ns = .ok (.found t') := by
  have hend : ∀ u, fs.stride false u [""] = .arrived u ∨
      fs.stride false u [""] = .failed .notDirectory := by
    intro u
    simp only [stride]
    split
    · exact Or.inl rfl
    · exact Or.inr rfl
  generalize hslashed : ns ++ [""] = slashed at h
  rw [walk_found] at h ⊢
  induction h generalizing ns with
  | @arrived links t t' slashed ha =>
    rw [← hslashed, stride_append] at ha
    cases hs : fs.stride false t ns with
    | arrived u =>
      rcases hend u with hu | hu <;> simp only [hs, hu, Stride.arrived.injEq, reduceCtorEq] at ha
      exact ha ▸ .arrived hs
    | failed e => simp [hs] at ha
    | missing u name rest => simp [hs] at ha
    | link u target rest => simp [hs] at ha
  | @link links t t' stop slashed rest target hl _ ih =>
    rw [← hslashed, stride_append] at hl
    cases hs : fs.stride false t ns with
    | arrived u => rcases hend u with hu | hu <;> simp [hs, hu] at hl
    | failed e => simp [hs] at hl
    | missing u name more => simp [hs] at hl
    | link u aim more =>
      simp only [hs, Stride.link.injEq] at hl
      obtain ⟨rfl, rfl, rfl⟩ := hl
      exact .link hs (ih _ (List.append_assoc _ _ _))

/-- Where the path above a name leads now is where the name is looked for. -/
theorem parentOf_join (fs : FileSystem) (base name : String) (dir : Nat)
    (hbase : fs.locate base = .ok dir) (hd : fs.isDirectory dir = true)
    (hname : '/' ∉ name.toList) (hr : refused? (Path.join base name) = none) :
    ∃ t, fs.parentOf (Path.join base name) = .ok (t, name) ∧ t.last = dir := by
  obtain ⟨t, ht, rfl⟩ := (locate_ok fs base dir).1 hbase
  obtain ⟨hlegal, hwalk⟩ := (resolve_ok fs base t).1 ht
  have hne : base ≠ "" := by
    rintro rfl
    simp [refused?] at hlegal
  obtain ⟨front, hjoin, hfront⟩ := Path.names_join base name hne hname
  have hplain := Path.isAbsolute_plain name hname
  obtain ⟨above, habove, hall⟩ : ∃ above, fs.absoluteNames (Path.join base name) = above ++ [name] ∧
      (fs.absoluteNames base = above ∨ fs.absoluteNames base = above ++ [""]) := by
    unfold absoluteNames
    rw [Path.isAbsolute_join base name hne hplain, hjoin]
    split
    · exact ⟨front, rfl, hfront⟩
    · refine ⟨Path.names fs.workDir ++ front, by simp, ?_⟩
      rcases hfront with h | h
      · exact Or.inl (by rw [h])
      · exact Or.inr (by rw [h, List.append_assoc])
  refine ⟨t, (parentOf_ok fs _ t name).2 ⟨hr, ?_, hd, ?_⟩, rfl⟩
  · rw [habove, List.dropLast_concat]
    rcases hall with h | h
    · exact h ▸ hwalk
    · exact walk_without_slash fs _ _ _ _ (h ▸ hwalk)
  · rw [habove, List.getLastD_concat]

/-! ## Taking away the name of a file -/

section

variable (fs : FileSystem) (dir : Nat) (name : String)

theorem removeEntry_caller : SameCaller fs (fs.removeEntry dir name) := by
  unfold removeEntry
  split <;> exact ⟨rfl, rfl, rfl⟩

theorem isDirectory_removeEntry (i : Nat) :
    (fs.removeEntry dir name).isDirectory i = fs.isDirectory i := by
  by_cases hd : fs.isDirectory dir = true
  · obtain ⟨entries, hn⟩ := isDirectory_entries fs dir hd
    simp only [isDirectory, node?_removeEntry fs dir name entries hn]
    by_cases hi : i = dir
    · simp [hi, hn]
    · simp [hi]
  · unfold removeEntry
    split
    · rename_i hn
      simp [isDirectory, hn] at hd
    · rfl

variable (hd : fs.isDirectory dir = true)
  (hfile : ∀ i, fs.entry? dir name = some i → ∃ mode bytes, fs.node? i = some (.file mode bytes))

include hd hfile

/-- A way that passes the name ends there. -/
theorem stride_removeEntry (t : Trail) (ns : List String) :
    (∀ t', fs.stride false t ns = .arrived t' → fs.isDirectory t'.last = true →
      (fs.removeEntry dir name).stride false t ns = .arrived t') ∧
    ∀ t' target rest, fs.stride false t ns = .link t' target rest →
      (fs.removeEntry dir name).stride false t ns = .link t' target rest := by
  obtain ⟨gone, hdrop⟩ := isDirectory_entries fs dir hd
  have hnode := node?_removeEntry fs dir name gone hdrop
  induction ns generalizing t with
  | nil => simp [stride]
  | cons key ns ih =>
    rw [stride.eq_2, stride.eq_2]
    cases hn : fs.node? t.last with
    | none => simp
    | some n =>
      cases n with
      | directory entries =>
        obtain ⟨entries', hn', hlookup⟩ : ∃ entries', (fs.removeEntry dir name).node? t.last =
            some (.directory entries') ∧
            (¬ (t.last = dir ∧ key = name) → entries'.lookup key = entries.lookup key) := by
          rw [hnode]
          by_cases ht : t.last = dir
          · rw [ht, hdrop, Option.some.injEq, Node.directory.injEq] at hn
            rw [if_pos ht]
            refine ⟨_, rfl, fun hk => ?_⟩
            rw [← hn]
            exact lookup_filter_ne gone name key fun h => hk ⟨ht, h⟩
          · rw [if_neg ht]
            exact ⟨entries, hn, fun _ => rfl⟩
        simp only [hn', Bool.false_and, Bool.false_eq_true, if_false]
        split
        · exact ih t
        split
        · exact ih t.tail
        split
        · simp
        by_cases hk : t.last = dir ∧ key = name
        · -- Behind the file nothing is found, and the file is no directory.
          cases hl : entries.lookup key with
          | none => simp
          | some i =>
            obtain ⟨mode, bytes, hf⟩ := hfile i (by rw [← hk.1, ← hk.2]; simp [hn, hl, entry?])
            simp only [hf]
            cases ns with
            | nil => simp [stride, isDirectory, hf, Trail.last]
            | cons next rest =>
              have hstop := stride_behind_file fs mode bytes false ((key, i) :: t) next rest hf
              simp [hstop]
        · rw [hlookup hk]
          cases hl : entries.lookup key with
          | none => simp
          | some i =>
            simp only [hnode]
            by_cases hi : i = dir
            · simp only [hi, hdrop, if_true]
              exact ih _
            · simp only [if_neg hi]
              cases fs.node? i with
              | none => exact ih _
              | some n =>
                cases n with
                | link target => simp
                | _ => exact ih _
      | _ => simp

theorem walk_removeEntry (links : Nat) (t t' : Trail) (ns : List String)
    (hw : fs.walk false links t ns = .ok (.found t')) (ht : fs.isDirectory t'.last = true) :
    (fs.removeEntry dir name).walk false links t ns = .ok (.found t') := by
  have hstride := stride_removeEntry fs dir name hd hfile
  rw [walk_found] at hw ⊢
  induction hw with
  | arrived ha => exact .arrived ((hstride _ _).1 _ ha ht)
  | link hl _ ih => exact .link ((hstride _ _).2 _ _ _ hl) (ih ht)

theorem locate_removeEntry (path : String) (i : Nat) (hl : fs.locate path = .ok i)
    (hi : fs.isDirectory i = true) : (fs.removeEntry dir name).locate path = .ok i := by
  obtain ⟨t, ht, rfl⟩ := (locate_ok fs path i).1 hl
  obtain ⟨hr, hw⟩ := (resolve_ok fs path t).1 ht
  refine (locate_ok _ path t.last).2 ⟨t, (resolve_ok _ path t).2 ⟨hr, ?_⟩, rfl⟩
  have hnames : (fs.removeEntry dir name).absoluteNames path = fs.absoluteNames path := by
    simp only [absoluteNames, (removeEntry_caller fs dir name).workDir]
  rw [hnames]
  exact walk_removeEntry fs dir name hd hfile _ _ t _ hw hi

end

/-! ## One name comes or goes -/

structure OnlyName (dir : Nat) (name : String) (fs fs' : FileSystem) : Prop where
  caller : SameCaller fs fs'
  directory : fs'.isDirectory dir = true
  ways : ∀ path, fs.locate path = .ok dir → fs'.locate path = .ok dir
  names : ∀ other, other ≠ name → fs'.entry? dir other = fs.entry? dir other
  nodes : ∀ i n, fs.node? i = some n → fs.isDirectory i = false → fs'.node? i = some n

theorem addNode_onlyName (fs : FileSystem) (dir : Nat) (name : String) (mode : Nat)
    (bytes : ByteArray) (hd : fs.isDirectory dir = true) :
    OnlyName dir name fs (fs.addNode dir name (.file mode bytes)) := by
  have hgrows := grows_addNode fs dir name mode bytes
  constructor
  case caller => exact addNode_caller fs dir name _
  case directory => exact isDirectory_grows fs _ hgrows dir hd
  case ways => exact fun path hl => locate_grows fs _ hgrows path dir hl
  case names =>
    intro other hother
    rw [entry?_addNode fs dir name mode bytes hd]
    cases fs.entry? dir other <;> simp [hother]
  case nodes => exact fun i n hi hf => addNode_keeps fs dir name _ n i hd hi hf

theorem removeEntry_onlyName (fs : FileSystem) (dir : Nat) (name : String)
    (hd : fs.isDirectory dir = true)
    (hfile : ∀ i, fs.entry? dir name = some i →
      ∃ mode bytes, fs.node? i = some (.file mode bytes)) :
    OnlyName dir name fs (fs.removeEntry dir name) := by
  have hdrops := removeEntry_drops fs dir name hd
  constructor
  case caller => exact removeEntry_caller fs dir name
  case directory => rw [isDirectory_removeEntry, hd]
  case ways => exact fun path hl => locate_removeEntry fs dir name hd hfile path dir hl hd
  case names => exact hdrops.names
  case nodes =>
    intro i n hi hf
    have hne : i ≠ dir := fun he => by simp [he, hd] at hf
    rw [hdrops.nodes i hne, hi]

end FileSystem

namespace Directive
open FileSystem

/-! ## Directive files in a directory -/

theorem fileName_plain (drawn : String) (h : '/' ∉ drawn.toList) :
    '/' ∉ (fileName drawn).toList := by
  simp [fileName, h]

theorem placesOf_plain (k n : Nat) : '/' ∉ placesOf k n := by
  induction k generalizing n with
  | zero => simp [placesOf]
  | succ k ih =>
    have hchar : ∀ i, nameChars.getD i 'A' ≠ '/' := by
      intro i
      rw [List.getD_eq_getElem?_getD]
      cases hc : nameChars[i]? with
      | none => decide
      | some c =>
        have hnone : '/' ∉ nameChars := by decide +kernel
        exact fun hslash => hnone (hslash ▸ List.mem_of_getElem? hc)
    rw [placesOf, List.mem_cons, not_or]
    exact ⟨Ne.symm (hchar _), ih _⟩

theorem variablePart_plain (n : Nat) : '/' ∉ (variablePart n).toList := by
  rw [variablePart, String.toList_ofList]
  exact placesOf_plain 6 n

theorem fileName_named (drawn : String) :
    fileName drawn ≠ "" ∧ fileName drawn ≠ "." ∧ fileName drawn ≠ ".." := by
  have hlen : 4 ≤ (fileName drawn).toList.length := by
    simp only [fileName, String.toList_append, List.length_append]
    exact Nat.le_add_left 4 _
  refine ⟨?_, ?_, ?_⟩ <;> intro h <;> rw [h] at hlen <;> simp at hlen

/-- The file is made in the directory that the path leads to, under a name that
was free there. -/
theorem createFile_in (fs fs' : FileSystem) (dir path : String) (commands : List Command)
    (draw : Nat → String) (d : Nat)
    (hl : fs.locate (if Path.isAbsolute dir then dir else Path.join fs.workDir dir) = .ok d)
    (hd : fs.isDirectory d = true) (hdraw : ∀ n, '/' ∉ (draw n).toList)
    (h : createFile fs dir commands draw = .ok (path, fs')) :
    ∃ k i, path = Path.join (if Path.isAbsolute dir then dir else Path.join fs.workDir dir)
        (fileName (draw k)) ∧
      refused? path = none ∧ ¬ nameLimit < (fileName (draw k)).utf8ByteSize ∧
      fs.entry? d (fileName (draw k)) = none ∧ fs.owns d = true ∧
      OnlyName d (fileName (draw k)) fs fs' ∧ fs'.entry? d (fileName (draw k)) = some i ∧
      fs.owns i = true ∧ fs'.node? i = some (.file (fs.masked 0o600) (render commands).toUTF8) := by
  obtain ⟨k, hpath, hnew⟩ := createFirst_ok fs fs' _ _ path draw _ _ h
  obtain ⟨t, name, hp, hlen, hfree, ho, hmade⟩ := createNew_ok fs fs' path _ _ hnew
  have hr := ((parentOf_ok fs path t name).1 hp).1
  obtain ⟨t', hp', ht'⟩ :=
    parentOf_join fs _ _ d hl hd (fileName_plain _ (hdraw k)) (hpath ▸ hr)
  rw [← hpath, hp, Except.ok.injEq, Prod.mk.injEq] at hp'
  obtain ⟨rfl, rfl⟩ := hp'
  subst ht'
  subst hmade
  exact ⟨k, fs.nodes.size, hpath, hr, hlen, hfree, ho, addNode_onlyName fs _ _ _ _ hd,
    addNode_entry fs t.last _ _ hd hfree, owns_new fs t.last hd ho, addNode_new fs t.last _ _ hd⟩

/-- Whoever may read the file finds its text. -/
theorem inputText_file (fs : FileSystem) (base drawn text : String) (d i mode : Nat)
    (call : Invocation) (hcall : call.input = some (Path.join base (fileName drawn)))
    (hl : fs.locate base = .ok d) (hd : fs.isDirectory d = true) (hdraw : '/' ∉ drawn.toList)
    (hr : refused? (Path.join base (fileName drawn)) = none)
    (hlen : ¬ nameLimit < (fileName drawn).utf8ByteSize)
    (he : fs.entry? d (fileName drawn) = some i)
    (hn : fs.node? i = some (.file mode text.toUTF8)) :
    Host.inputText fs call = if fs.mayRead i mode then some text else none := by
  obtain ⟨t, hp, rfl⟩ := parentOf_join fs base _ d hl hd (fileName_plain drawn hdraw) hr
  have hleads := resolve_entry fs _ _ t i hp (fileName_named drawn) hlen he
    (fun target h => by rw [hn] at h; simp at h)
  simp only [Host.inputText, hcall, readText, FileSystem.read, openForReading, locate, hleads,
    Except.map, Trail.last, bind, Except.bind, hn]
  by_cases hread : fs.mayRead i mode = true
  · simp only [hread, if_true, readNode, hn, fromUTF8?_toUTF8]
  · simp [hread]

/-! ## Whether a directive file can be made -/

section

variable (fs : FileSystem) (base : String) (d : Nat) (hl : fs.locate base = .ok d)
  (hd : fs.isDirectory d = true) (ho : fs.owns d = true)

include hl hd ho

/-- In an own directory only a name that is taken is in the way. -/
theorem createNew_in (name : String) (bytes : ByteArray) (hname : '/' ∉ name.toList)
    (hr : refused? (Path.join base name) = none) (hlen : ¬ nameLimit < name.utf8ByteSize) :
    fs.createNew (Path.join base name) 0o600 bytes =
      if (fs.entry? d name).isSome then .error .alreadyExists
      else .ok (fs.addNode d name (.file (fs.masked 0o600) bytes)) := by
  obtain ⟨t, hp, rfl⟩ := parentOf_join fs base name d hl hd hname hr
  simp only [createNew, hp, bind, Except.bind, hlen, if_false, createIn, ho, if_true]

variable (text : String) (draw : Nat → String) (hdraw : ∀ n, '/' ∉ (draw n).toList)
  (hr : ∀ n, refused? (Path.join base (fileName (draw n))) = none)
  (hlen : ∀ n, ¬ nameLimit < (fileName (draw n)).utf8ByteSize)

include hdraw hr hlen

theorem createFirst_iff (left n : Nat) :
    (∃ path fs', createFirst fs base text draw left n = .ok (path, fs')) ↔
      ∃ k, k < left ∧ fs.entry? d (fileName (draw (n + k))) = none := by
  have hnone : ∀ n, createFirst fs base text draw 0 n = .error .alreadyExists := fun _ => rfl
  induction left generalizing n with
  | zero => simp [hnone]
  | succ left ih =>
    rw [createFirst_succ, createNew_in fs base d hl hd ho _ _ (fileName_plain _ (hdraw n)) (hr n)
      (hlen n)]
    cases hfree : fs.entry? d (fileName (draw n)) with
    | none => exact iff_of_true ⟨_, _, rfl⟩ ⟨0, Nat.succ_pos left, hfree⟩
    | some i =>
      have hlater : (∃ k, k < left + 1 ∧ fs.entry? d (fileName (draw (n + k))) = none) ↔
          ∃ k, k < left ∧ fs.entry? d (fileName (draw (n + 1 + k))) = none := by
        constructor
        · rintro ⟨k, hk, hnone⟩
          cases k with
          | zero => simp [hfree] at hnone
          | succ k => exact ⟨k, Nat.lt_of_succ_lt_succ hk, by rwa [Nat.add_assoc, Nat.add_comm 1]⟩
        · rintro ⟨k, hk, hnone⟩
          exact ⟨k + 1, Nat.succ_lt_succ hk, by rwa [Nat.add_comm k, ← Nat.add_assoc]⟩
      refine Iff.trans ?_ ((ih (n + 1)).trans hlater.symm)
      cases left with
      | zero => simp [hnone]
      | succ left => simp

end

/-- A directive file can be made in an own directory exactly if one of the names that are
tried is free there. -/
theorem createFile_iff (fs : FileSystem) (dir : String) (commands : List Command)
    (draw : Nat → String) (d : Nat)
    (hl : fs.locate (if Path.isAbsolute dir then dir else Path.join fs.workDir dir) = .ok d)
    (hd : fs.isDirectory d = true) (ho : fs.owns d = true)
    (hdraw : ∀ n, '/' ∉ (draw n).toList)
    (hr : ∀ n, refused? (Path.join (if Path.isAbsolute dir then dir else Path.join fs.workDir dir)
      (fileName (draw n))) = none)
    (hlen : ∀ n, ¬ nameLimit < (fileName (draw n)).utf8ByteSize) :
    (∃ path fs', createFile fs dir commands draw = .ok (path, fs')) ↔
      ∃ k, k < attempts ∧ fs.entry? d (fileName (draw k)) = none := by
  unfold createFile
  generalize attempts = left
  have h := createFirst_iff fs _ d hl hd ho (render commands) draw hdraw hr hlen left 0
  simpa only [Nat.zero_add] using h

end Directive

end ImageTools
