import ImageTools.Merge.Directive
import ImageTools.Proofs.Creation

/-!
# Directive files

A directive file is made under a name that nothing had, holds the directive's
text, and goes again with its name. Nothing else in the file system changes
when it is made or dropped.
-/

set_option autoImplicit false

namespace ImageTools

/-! ## The last name of a path -/

namespace Path

theorem pieces_of_no_slash (cs : List Char) (h : '/' ∉ cs) : pieces cs = [cs] := by
  induction cs with
  | nil => rfl
  | cons c r ih =>
    simp only [List.mem_cons, not_or] at h
    simp [pieces, Ne.symm h.1, ih h.2]

/-- What a path ends with, without a slash, ends its last piece. -/
theorem pieces_append_getLast (cs ending : List Char) (h : '/' ∉ ending) :
    ∃ p, (pieces (cs ++ ending)).getLast? = some (p ++ ending) := by
  induction cs with
  | nil => exact ⟨[], by simp [pieces_of_no_slash ending h]⟩
  | cons c r ih =>
    obtain ⟨p, hp⟩ := ih
    simp only [List.cons_append, pieces]
    split
    · exact ⟨p, by simp [List.getLast?_cons, hp]⟩
    · cases hr : pieces (r ++ ending) with
      | nil => exact absurd hr (pieces_ne_nil _)
      | cons q qs =>
        rw [hr] at hp
        cases qs with
        | nil =>
          simp only [List.getLast?_singleton, Option.some.injEq] at hp
          exact ⟨c :: p, by simp [hp]⟩
        | cons q' qs => exact ⟨p, by simpa [List.getLast?_cons_cons] using hp⟩

end Path

namespace FileSystem

theorem absoluteNames_append (fs : FileSystem) (path : String) :
    ∃ before, fs.absoluteNames path = before ++ Path.names path := by
  unfold absoluteNames
  split
  · exact ⟨[], rfl⟩
  · exact ⟨_, rfl⟩

theorem names_ne_nil (path : String) : Path.names path ≠ [] := by
  simp [Path.names, Path.pieces_ne_nil]

theorem absoluteNames_ne_nil (fs : FileSystem) (path : String) : fs.absoluteNames path ≠ [] := by
  obtain ⟨before, h⟩ := absoluteNames_append fs path
  simp [h, names_ne_nil]

/-! ## A name in a directory -/

/-- The way to a directory and then to a name in it. -/
theorem resolve_entry (fs : FileSystem) (path name : String) (dir : Trail) (i : Nat)
    (hp : fs.parentOf path = .ok (dir, name))
    (hname : name ≠ "" ∧ name ≠ "." ∧ name ≠ "..") (hlen : ¬ nameLimit < name.utf8ByteSize)
    (he : fs.entry? dir.last name = some i) (hlink : ∀ target, fs.node? i ≠ some (.link target)) :
    fs.resolve path = .ok ((name, i) :: dir) := by
  rw [parentOf_ok] at hp
  obtain ⟨hr, hw, hd, hl⟩ := hp
  obtain ⟨entries, hn⟩ := isDirectory_entries fs dir.last hd
  have hsplit : fs.absoluteNames path = (fs.absoluteNames path).dropLast ++ [name] := by
    have hne := absoluteNames_ne_nil fs path
    have hlast : (fs.absoluteNames path).getLast hne = name := by
      rw [← hl, List.getLastD_eq_getLast?, List.getLast?_eq_some_getLast hne, Option.getD_some]
    rw [← hlast, List.dropLast_concat_getLast hne]
  obtain ⟨left, hleft⟩ := walk_append fs _ _ _ _ hw
  rw [resolve_ok]
  refine ⟨hr, ?_⟩
  rw [hsplit, hleft]
  simp only [hn, entry?] at he
  have hs : fs.stride false dir [name] = .arrived ((name, i) :: dir) := by
    simp only [stride, hn, hname, or_self, if_false, he, hlen, Bool.false_and,
      Bool.false_eq_true]
  unfold walk
  simp only [hs]

/-! ## Making and dropping a file -/

theorem createNew_ok (fs fs' : FileSystem) (path : String) (mode : Nat) (bytes : ByteArray)
    (h : fs.createNew path mode bytes = .ok fs') :
    ∃ dir name, fs.parentOf path = .ok (dir, name) ∧ ¬ nameLimit < name.utf8ByteSize ∧
      fs.entry? dir.last name = none ∧ fs.owns dir.last = true ∧
      fs' = fs.addNode dir.last name (.file (fs.masked mode) bytes) := by
  unfold createNew at h
  cases hp : fs.parentOf path with
  | error e => simp [hp, bind, Except.bind] at h
  | ok p =>
    obtain ⟨dir, name⟩ := p
    simp only [hp, bind, Except.bind] at h
    refine ⟨dir, name, rfl, ?_⟩
    split at h
    · simp at h
    · rename_i hlen
      split at h
      · simp at h
      · rename_i he
        unfold createIn at h
        split at h
        · rename_i ho
          simp only [Except.ok.injEq] at h
          exact ⟨hlen, by simpa using he, ho, h.symm⟩
        · simp at h

theorem lookup_filter_self {α : Type} (entries : List (String × α)) (name : String) :
    (entries.filter fun e => e.1 != name).lookup name = none := by
  simp only [List.lookup_eq_none_iff, List.mem_filter, bne_iff_ne]
  exact fun e he => Ne.symm he.2

theorem lookup_filter_ne {α : Type} (entries : List (String × α)) (name other : String)
    (h : other ≠ name) : (entries.filter fun e => e.1 != name).lookup other =
      entries.lookup other := by
  induction entries with
  | nil => rfl
  | cons e entries ih =>
    obtain ⟨key, i⟩ := e
    by_cases hkey : key = name
    · have hne : (other == key) = false := by simpa [hkey] using h
      rw [List.filter_cons_of_neg (by simp [hkey]), List.lookup_cons, hne]
      exact ih
    · rw [List.filter_cons_of_pos (by simp [hkey]), List.lookup_cons, List.lookup_cons, ih]

/-- A file with this text has been made under a name that the directory did
not have. -/
structure Fresh (fs fs' : FileSystem) (path text : String) (dir : Trail) (name : String) :
    Prop where
  parent : fs.parentOf path = .ok (dir, name)
  vacant : fs.entry? dir.last name = none
  owned : fs.owns dir.last = true
  made : fs' = fs.addNode dir.last name (.file (fs.masked 0o600) text.toUTF8)
  leads : fs'.resolve path = .ok ((name, fs.nodes.size) :: dir)
  holds : fs'.node? fs.nodes.size = some (.file (fs.masked 0o600) text.toUTF8)

structure Dropped (fs fs' : FileSystem) (dir : Nat) (name : String) : Prop where
  gone : fs'.entry? dir name = none
  names : ∀ other, other ≠ name → fs'.entry? dir other = fs.entry? dir other
  nodes : ∀ i, i ≠ dir → fs'.node? i = fs.node? i

/-- A file made under a path whose last name names something is fresh. -/
theorem createNew_fresh (fs fs' : FileSystem) (path text : String)
    (hname : ∀ name, (fs.absoluteNames path).getLastD "" = name →
      name ≠ "" ∧ name ≠ "." ∧ name ≠ "..")
    (h : fs.createNew path 0o600 text.toUTF8 = .ok fs') :
    ∃ dir name, Fresh fs fs' path text dir name := by
  obtain ⟨dir, name, hp, hlen, he, ho, rfl⟩ := createNew_ok fs fs' path _ _ h
  obtain ⟨-, -, hd, hl⟩ := (parentOf_ok fs path dir name).1 hp
  have hnew := addNode_new fs dir.last name (.file (fs.masked 0o600) text.toUTF8) hd
  have hp' := parentOf_grows fs _ (grows_addNode fs dir.last name (fs.masked 0o600) text.toUTF8)
    path dir name hp
  have hleads := resolve_entry _ path name dir fs.nodes.size hp' (hname name hl) hlen
    (addNode_entry fs dir.last name _ hd he) (fun target ht => by rw [hnew] at ht; simp at ht)
  exact ⟨dir, name, hp, he, ho, rfl, hleads, hnew⟩

theorem Fresh.grows {fs fs' : FileSystem} {path text : String} {dir : Trail} {name : String}
    (h : Fresh fs fs' path text dir name) : Grows fs fs' :=
  h.made ▸ grows_addNode fs _ _ _ _

theorem Fresh.readText {fs fs' : FileSystem} {path text : String} {dir : Trail} {name : String}
    (h : Fresh fs fs' path text dir name)
    (hr : fs'.mayRead fs.nodes.size (fs.masked 0o600) = true) : fs'.readText path = .ok text := by
  have hi := (openForReading_ok fs' path fs.nodes.size _ _ h.holds).2 ⟨⟨_, h.leads, rfl⟩, hr⟩
  refine readText_of_read fs' path text ?_
  simp only [FileSystem.read, hi, bind, Except.bind, readNode, h.holds]

theorem node?_removeEntry (fs : FileSystem) (dir : Nat) (name : String)
    (entries : List (String × Nat)) (hn : fs.node? dir = some (.directory entries)) (i : Nat) :
    (fs.removeEntry dir name).node? i =
      if i = dir then some (.directory (entries.filter fun e => e.1 != name)) else fs.node? i := by
  simp only [removeEntry, hn]
  split
  · rename_i h
    subst h
    exact node?_setNode_self fs i _ (node?_size fs i _ hn)
  · rename_i h
    exact node?_setNode_ne fs dir i _ (Ne.symm h)

theorem removeEntry_drops (fs : FileSystem) (dir : Nat) (name : String)
    (hd : fs.isDirectory dir = true) : Dropped fs (fs.removeEntry dir name) dir name := by
  obtain ⟨entries, hn⟩ := isDirectory_entries fs dir hd
  have hnode := node?_removeEntry fs dir name entries hn
  refine ⟨?_, fun other hother => ?_, fun i hi => ?_⟩
  · simp only [hnode, if_true, entry?]
    exact lookup_filter_self entries name
  · simp only [hnode, hn, if_true, entry?]
    exact lookup_filter_ne entries name other hother
  · rw [hnode, if_neg hi]

theorem dropFile_removes (fs : FileSystem) (path name : String) (dir : Trail) (i : Nat)
    (hp : fs.parentOf path = .ok (dir, name)) (ho : fs.owns dir.last = true)
    (he : fs.entry? dir.last name = some i) (hf : fs.isDirectory i = false) :
    Directive.dropFile fs path = fs.removeEntry dir.last name := by
  simp [Directive.dropFile, remove, hp, he, ho, hf, bind, Except.bind]

/-- Where the directory is still there and the name is none of a directory,
the name goes, and nothing else does. -/
theorem dropFile_drops (fs : FileSystem) (path name : String) (dir : Trail)
    (hp : fs.parentOf path = .ok (dir, name)) (ho : fs.owns dir.last = true)
    (hd : ∀ i, fs.entry? dir.last name = some i → fs.isDirectory i = false) :
    Dropped fs (Directive.dropFile fs path) dir.last name := by
  cases he : fs.entry? dir.last name with
  | none =>
    have hdrop : Directive.dropFile fs path = fs := by
      simp [Directive.dropFile, remove, hp, he, bind, Except.bind]
    rw [hdrop]
    exact ⟨he, fun _ _ => rfl, fun _ _ => rfl⟩
  | some i =>
    rw [dropFile_removes fs path name dir i hp ho he (hd i he)]
    exact removeEntry_drops fs dir.last name ((parentOf_ok fs path dir name).1 hp).2.2.1

/-- A fresh file goes with its name as long as no name has been lost since. -/
theorem Fresh.dropped {fs fs' after : FileSystem} {path text : String} {dir : Trail}
    {name : String} (h : Fresh fs fs' path text dir name) (hg : Grows fs' after) :
    Dropped after (Directive.dropFile after path) dir.last name := by
  have hall := h.grows.trans hg
  have hp := parentOf_grows fs after hall path dir name h.parent
  have ho : after.owns dir.last = true := by
    simpa [owns, hall.foreign] using h.owned
  apply dropFile_drops after path name dir hp ho
  intro i hi
  have hdir := ((parentOf_ok fs path dir name).1 h.parent).2.2.1
  obtain ⟨entries, hn⟩ := isDirectory_entries fs dir.last hdir
  have hd := hg.nodes dir.last
  rw [h.made, (node?_addNode fs dir.last name _ entries hn).2.1] at hd
  obtain ⟨more, hmore, hkept⟩ := hd
  have hvacant := h.vacant
  simp only [hn, entry?] at hvacant
  have hsize := hkept name fs.nodes.size (by simp [List.lookup_append, hvacant])
  simp only [hmore, hsize, Option.some.injEq, entry?] at hi
  subst hi
  have hfile := hg.nodes fs.nodes.size
  rw [h.holds] at hfile
  obtain ⟨mode, bytes, hf⟩ := hfile
  simp [isDirectory, hf]

end FileSystem

namespace Directive
open FileSystem

section

-- Otherwise the attempt is evaluated here, for a path that is not known.
attribute [local irreducible] FileSystem.createNew

theorem createFirst_succ (fs : FileSystem) (base text : String) (draw : Nat → String)
    (left n : Nat) :
    createFirst fs base text draw (left + 1) n =
      match fs.createNew (Path.join base (fileName (draw n))) 0o600 text.toUTF8 with
      | .ok created => .ok (Path.join base (fileName (draw n)), created)
      | .error e =>
        if e = .alreadyExists ∧ left ≠ 0 then createFirst fs base text draw left (n + 1)
        else .error (.located e (Path.join base (fileName (draw n)))) := rfl

end

theorem createFirst_ok (fs fs' : FileSystem) (base text path : String) (draw : Nat → String)
    (left n : Nat) (h : createFirst fs base text draw left n = .ok (path, fs')) :
    ∃ k, path = Path.join base (fileName (draw k)) ∧
      fs.createNew path 0o600 text.toUTF8 = .ok fs' := by
  induction left generalizing n with
  | zero =>
    have hnone : createFirst fs base text draw 0 n = .error .alreadyExists := rfl
    simp [hnone] at h
  | succ left ih =>
    rw [createFirst_succ] at h
    split at h
    · rename_i created hc
      simp only [Except.ok.injEq, Prod.mk.injEq] at h
      obtain ⟨rfl, rfl⟩ := h
      exact ⟨n, rfl, hc⟩
    · split at h
      · exact ih (n + 1) h
      · simp at h

theorem join_append (base start ending : String) :
    ∃ before, Path.join base (start ++ ending) = before ++ ending := by
  unfold Path.join
  split
  · exact ⟨start, rfl⟩
  split
  · exact ⟨base ++ start, by rw [String.append_assoc]⟩
  · exact ⟨base ++ "/" ++ start, by simp only [String.append_assoc]⟩

/-- The last name of a directive file's path is no idle one. -/
theorem fileName_last (fs : FileSystem) (base drawn name : String)
    (h : (fs.absoluteNames (Path.join base (fileName drawn))).getLastD "" = name) :
    name ≠ "" ∧ name ≠ "." ∧ name ≠ ".." := by
  obtain ⟨before, hb⟩ := join_append base ("libmerger" ++ drawn) ".mri"
  have hpath : Path.join base (fileName drawn) = before ++ ".mri" := hb
  obtain ⟨front, hf⟩ := absoluteNames_append fs (before ++ ".mri")
  obtain ⟨p, hp⟩ := Path.pieces_append_getLast before.toList ".mri".toList (by decide)
  have hname : name = String.ofList (p ++ ".mri".toList) := by
    rw [← h, hpath, hf, List.getLastD_eq_getLast?, List.getLast?_append, Path.names,
      List.getLast?_map, String.toList_append, hp]
    rfl
  have hlen : 4 ≤ name.toList.length := by
    rw [hname, String.toList_ofList, List.length_append]
    exact Nat.le_add_left _ _
  refine ⟨?_, ?_, ?_⟩ <;> rintro rfl <;> simp at hlen

/-- A directive file is fresh and holds the directive. -/
theorem createFile_fresh (fs fs' : FileSystem) (dir path : String) (commands : List Command)
    (draw : Nat → String) (h : createFile fs dir commands draw = .ok (path, fs')) :
    (∃ k, path = Path.join (if Path.isAbsolute dir then dir else Path.join fs.workDir dir)
      (fileName (draw k))) ∧
    ∃ parent name, Fresh fs fs' path (render commands) parent name := by
  obtain ⟨k, rfl, hc⟩ := createFirst_ok fs fs' _ _ path draw _ _ h
  exact ⟨⟨k, rfl⟩, createNew_fresh fs fs' _ _
    (fun name hl => fileName_last fs _ (draw k) name hl) hc⟩

end Directive

end ImageTools
