import Mathlib.Data.List.Basic
import ImageTools.Merge.Directive

/-!
# Directives read back from their text

A reader of directives that takes lines as they stand: it knows no quotes, so
all that follows the name of a command on its line is a path. The texts it
accepts are exactly those of commands whose paths hold no line feed, and each
such text stands for one list of commands only. A path with a line feed is
read as more commands than there are, or as none at all.
-/

set_option autoImplicit false

namespace ImageTools.Directive

/-! ## Lines -/

def lines? (text : List Char) : Option (List (List Char)) :=
  if (text.splitOn '\n').getLast? = some [] then some (text.splitOn '\n').dropLast else none

theorem not_mem_splitOn (text : List Char) : ∀ piece ∈ text.splitOn '\n', '\n' ∉ piece := by
  induction text with
  | nil => simp
  | cons c text ih =>
    rw [List.splitOn_cons_eq_if_modifyHead]
    split
    · simpa using ih
    · rename_i hc
      obtain ⟨first, rest, hpieces⟩ := List.exists_cons_of_ne_nil (List.splitOn_ne_nil '\n' text)
      rw [hpieces] at ih ⊢
      simp only [List.modifyHead_cons, List.mem_cons, forall_eq_or_imp] at ih ⊢
      refine ⟨?_, ih.2⟩
      rintro (rfl | h)
      · simp at hc
      · exact ih.1 h

theorem splitOn_ended (lines : List (List Char)) (h : ∀ l ∈ lines, '\n' ∉ l) :
    (lines.flatMap fun l => l ++ ['\n']).splitOn '\n' = lines ++ [[]] := by
  induction lines with
  | nil => simp
  | cons l lines ih =>
    rw [List.flatMap_cons, List.append_assoc, List.singleton_append,
      List.splitOn_append_cons_self_of_not_mem (h l (by simp)),
      ih fun l hl => h l (by simp [hl])]
    rfl

theorem intercalate_ended (lines : List (List Char)) :
    ['\n'].intercalate (lines ++ [[]]) = lines.flatMap fun l => l ++ ['\n'] := by
  induction lines with
  | nil => rfl
  | cons l lines ih =>
    rw [List.cons_append, List.intercalate_cons_of_ne_nil (by simp), ih, List.flatMap_cons]

theorem lines?_eq_some_iff (text : List Char) (lines : List (List Char)) :
    lines? text = some lines ↔
      text = (lines.flatMap fun l => l ++ ['\n']) ∧ ∀ l ∈ lines, '\n' ∉ l := by
  constructor
  · intro h
    rw [lines?, Option.ite_none_right_eq_some, Option.some_inj] at h
    obtain ⟨hlast, rfl⟩ := h
    obtain ⟨front, hfront⟩ := List.getLast?_eq_some_iff.1 hlast
    have hpieces := not_mem_splitOn text
    rw [hfront, List.dropLast_concat]
    refine ⟨?_, fun l hl => hpieces l (by simp [hfront, hl])⟩
    rw [← intercalate_ended, ← hfront, List.intercalate_splitOn]
  · rintro ⟨rfl, h⟩
    rw [lines?, splitOn_ended lines h]
    simp

/-! ## Commands -/

def Command.ofLine? (line : List Char) : Option Command :=
  if line = "SAVE".toList then some .save
  else if line = "END".toList then some .finish
  else match "CREATE ".toList.isPrefixOf? line with
    | some path => some (.create (String.ofList path))
    | none => ("ADDLIB ".toList.isPrefixOf? line).map fun path => .addLibrary (String.ofList path)

/-- A line is read as the one command that has it. -/
theorem Command.ofLine?_eq_some_iff (line : List Char) (c : Command) :
    ofLine? line = some c ↔ line = c.line.toList := by
  constructor
  · intro h
    unfold ofLine? at h
    split at h
    · rename_i hsave
      rw [← Option.some.inj h, hsave]
      rfl
    split at h
    · rename_i hend
      rw [← Option.some.inj h, hend]
      rfl
    split at h
    · rename_i path hpath
      rw [← Option.some.inj h]
      simpa [Command.line] using (List.isPrefixOf?_eq_some_iff_append_eq.1 hpath).symm
    · obtain ⟨path, hpath, rfl⟩ := Option.map_eq_some_iff.1 h
      simpa [Command.line] using (List.isPrefixOf?_eq_some_iff_append_eq.1 hpath).symm
  · rintro rfl
    cases c with
    | create path => simp [Command.line, ofLine?, List.isPrefixOf?]
    | addLibrary path => simp [Command.line, ofLine?, List.isPrefixOf?]
    | save => rfl
    | finish => rfl

def read? (text : String) : Option (List Command) :=
  (lines? text.toList).bind fun lines => lines.mapM Command.ofLine?

theorem mapM_ofLine? (lines : List (List Char)) (commands : List Command) :
    lines.mapM Command.ofLine? = some commands ↔ lines = commands.map fun c => c.line.toList := by
  induction lines generalizing commands with
  | nil => cases commands <;> simp
  | cons line lines ih =>
    rw [List.mapM_cons]
    cases commands with
    | nil => simp [Option.bind_eq_some_iff]
    | cons c commands => simp [Option.bind_eq_some_iff, Command.ofLine?_eq_some_iff, ih]

theorem render_chars (commands : List Command) :
    (render commands).toList =
      (commands.map fun c => c.line.toList).flatMap fun l => l ++ ['\n'] := by
  simp [render, String.toList_join, List.flatMap_map]

/-- The texts that can be read are those of commands on one line each. -/
theorem read?_eq_some_iff (text : String) (commands : List Command) :
    read? text = some commands ↔
      text = render commands ∧ ∀ c ∈ commands, '\n' ∉ c.line.toList := by
  have hlines : read? text = some commands ↔
      lines? text.toList = some (commands.map fun c => c.line.toList) := by
    simp [read?, Option.bind_eq_some_iff, mapM_ofLine?]
  rw [hlines, lines?_eq_some_iff, ← render_chars, String.toList_inj]
  simp

/-! ## Merges -/

/-- Only a path can bring a line feed into the commands of a merge. -/
theorem lines_merge (target : String) (sources : List String) :
    (∀ c ∈ merge target sources, '\n' ∉ c.line.toList) ↔
      ∀ path ∈ target :: sources, '\n' ∉ path.toList := by
  have hend : '\n' ∉ Command.save.line.toList ∧ '\n' ∉ Command.finish.line.toList := by decide
  have hcreate : '\n' ∉ (Command.create target).line.toList ↔ '\n' ∉ target.toList := by
    simp [Command.line]
  have hlibrary : ∀ path,
      '\n' ∉ (Command.addLibrary path).line.toList ↔ '\n' ∉ path.toList := by
    simp [Command.line]
  simp only [merge, List.cons_append, List.forall_mem_cons, List.forall_mem_append,
    List.forall_mem_map, hcreate, hlibrary]
  simp [hend]

theorem merge_inj (target target' : String) (sources sources' : List String) :
    merge target sources = merge target' sources' ↔ target = target' ∧ sources = sources' := by
  have hlibrary : Function.Injective Command.addLibrary := fun _ _ h => Command.addLibrary.inj h
  simp [merge, hlibrary.list_map.eq_iff]

/-- The text of a merge is read back as its commands exactly if no path holds
a line feed. So it tells the merges without one apart. -/
theorem merge_readable_iff (target : String) (sources : List String) :
    (read? (render (merge target sources)) =
        some (.create target :: sources.map .addLibrary ++ [.save, .finish]) ↔
      ∀ path ∈ target :: sources, '\n' ∉ path.toList) ∧
    ∀ target' sources', (∀ path ∈ target :: sources, '\n' ∉ path.toList) →
      (∀ path ∈ target' :: sources', '\n' ∉ path.toList) →
      render (merge target sources) = render (merge target' sources') →
      target = target' ∧ sources = sources' := by
  have hread : ∀ target sources, read? (render (merge target sources)) =
      some (merge target sources) ↔ ∀ path ∈ target :: sources, '\n' ∉ path.toList := by
    intro target sources
    rw [read?_eq_some_iff, lines_merge]
    exact and_iff_right rfl
  refine ⟨hread target sources, fun target' sources' h h' htext => ?_⟩
  have hone := (hread target sources).2 h
  rw [htext, (hread target' sources').2 h', Option.some_inj, merge_inj] at hone
  exact ⟨hone.1.symm, hone.2.symm⟩

/-- Blanks at the ends of paths and paths without a name are told apart, too. -/
theorem blanks_told_apart :
    render (merge " t" ["", "a "]) ≠ render (merge " t" ["a ", ""]) := by
  intro h
  have hpaths := (merge_readable_iff " t" ["", "a "]).2 " t" ["a ", ""] (by decide) (by decide) h
  exact absurd hpaths.2 (by decide)

/-- A path with a line feed poses as one more command. -/
example : read? (render (merge "t\nADDLIB a" [])) =
    some [.create "t", .addLibrary "a", .save, .finish] := by
  decide +kernel

end ImageTools.Directive
