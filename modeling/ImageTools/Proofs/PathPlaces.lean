import ImageTools.Proofs.SharedDirectory

/-!
# Places that paths lead to

Empty names and dots in a path lead nowhere, and from the root no step leads
up. Paths that are alike apart from these lead to the same file, whatever the
file system holds. The same path used in two directories is such a pair
exactly if the directories are, so long as it has names to follow at all.
-/

set_option autoImplicit false

namespace ImageTools

namespace Path

def isStep (name : String) : Bool := name ≠ "" && name ≠ "."

def steps (ns : List String) : List String := ns.filter isStep

/-- Where names lead from the root: their steps, without those that stay there. -/
def destination (ns : List String) : List String := (steps ns).dropWhile (· == "..")

def namesFrom (dir path : String) : List String :=
  if isAbsolute path then names path else names dir ++ names path

/-! ## The steps of a joined path -/

theorem steps_append (ns ms : List String) : steps (ns ++ ms) = steps ns ++ steps ms :=
  List.filter_append ..

theorem names_slash (a b : String) : names (a ++ "/" ++ b) = names a ++ names b := by
  have hchars : (a ++ "/" ++ b).toList = a.toList ++ '/' :: b.toList := by simp
  rw [names, hchars, pieces_append_slash, List.map_append]
  rfl

theorem split_slash (path : String) (h : path.toList.getLast? = some '/') :
    ∃ front, path = front ++ "/" ∧ dropSlash path = front := by
  obtain ⟨front, hfront⟩ := List.getLast?_eq_some_iff.1 h
  refine ⟨String.ofList front, ?_, ?_⟩
  · apply String.toList_inj.1
    simp [hfront]
  · simp [dropSlash, hfront]

theorem mem_dropSlash (path : String) (c : Char) (hc : c ≠ '/') :
    c ∈ (dropSlash path).toList ↔ c ∈ path.toList := by
  by_cases h : path.toList.getLast? = some '/'
  · obtain ⟨front, hpath, hdrop⟩ := split_slash path h
    rw [hdrop, hpath]
    simp [hc]
  · simp [dropSlash, h]

theorem steps_dropSlash (path : String) : steps (names (dropSlash path)) = steps (names path) := by
  by_cases h : path.toList.getLast? = some '/'
  · obtain ⟨front, hpath, hdrop⟩ := split_slash path h
    have hend : names path = names front ++ names "" := by
      rw [← names_slash, String.append_empty, hpath]
    rw [hdrop, hend, steps_append]
    exact (List.append_nil _).symm
  · simp [dropSlash, h]

theorem join_empty (name : String) (h : isAbsolute name = false) : join "" name = name := by
  simp [join, h]

/-- A relative name is joined behind a slash, unless there is nothing to join it to. -/
theorem join_relative (base name : String) (hbase : base ≠ "") (h : isAbsolute name = false) :
    join base name = dropSlash base ++ "/" ++ name := by
  by_cases hslash : base.toList.getLast? = some '/'
  · obtain ⟨front, hpath, hdrop⟩ := split_slash base hslash
    simp [join, h, hslash, hdrop, ← hpath]
  · simp [join, dropSlash, h, hbase, hslash]

theorem steps_join (base name : String) :
    steps (names (join base name)) = steps (namesFrom base name) := by
  unfold namesFrom
  by_cases habs : isAbsolute name = true
  · simp [join, habs]
  rw [Bool.not_eq_true] at habs
  by_cases hbase : base = ""
  · subst hbase
    rw [join_empty name habs, if_neg (by simp [habs]), steps_append]
    rfl
  · simp only [habs, Bool.false_eq_true, if_false]
    rw [join_relative base name hbase habs, names_slash, steps_append, steps_append,
      steps_dropSlash]

/-! ## Names behind two places -/

theorem destination_append (ns ms : List String) :
    destination (ns ++ ms) =
      if destination ns = [] then destination ms else destination ns ++ steps ms := by
  rw [destination, steps_append, List.dropWhile_append]
  show (if (destination ns).isEmpty then destination ms else destination ns ++ steps ms) = _
  cases destination ns <;> rfl

theorem length_destination_le (ns : List String) : (destination ns).length ≤ (steps ns).length :=
  (List.dropWhile_sublist _).length_le

theorem destination_append_ne (ns ns' ms : List String) (h : destination ns = [])
    (h' : destination ns' ≠ []) : destination (ns ++ ms) ≠ destination (ns' ++ ms) := by
  intro heq
  have hlength := congrArg List.length heq
  have hle := length_destination_le ms
  have hpos := List.length_pos_iff.2 h'
  rw [destination_append, destination_append, if_pos h, if_neg h', List.length_append] at hlength
  omega

/-- The same names lead from two places to one place only if the places are one. -/
theorem destination_append_inj (ns ns' ms : List String) :
    destination (ns ++ ms) = destination (ns' ++ ms) ↔ destination ns = destination ns' := by
  constructor
  · intro h
    by_cases hns : destination ns = [] <;> by_cases hns' : destination ns' = []
    · rw [hns, hns']
    · exact absurd h (destination_append_ne ns ns' ms hns hns')
    · exact absurd h.symm (destination_append_ne ns' ns ms hns' hns)
    · rw [destination_append, destination_append, if_neg hns, if_neg hns'] at h
      exact List.append_cancel_right h
  · intro h
    rw [destination_append, destination_append, h]

end Path

namespace FileSystem
open ImageTools.Path

/-! ## One place, one file -/

def Proper (ns : List String) : Prop :=
  (ns.getLast?.any fun name => isStep name && name ≠ "..") = true

instance decidableProper (ns : List String) : Decidable (Proper ns) :=
  inferInstanceAs (Decidable (_ = true))

theorem proper_iff (ns : List String) :
    Proper ns ↔ ∃ front name, ns = front ++ [name] ∧ isStep name = true ∧ name ≠ ".." := by
  constructor
  · intro h
    obtain ⟨name, hlast, hname⟩ := (Option.any_eq_true _ _).1 h
    obtain ⟨front, hfront⟩ := List.getLast?_eq_some_iff.1 hlast
    exact ⟨front, name, hfront, by simpa using hname⟩
  · rintro ⟨front, name, rfl, hname⟩
    simpa [Proper] using hname

theorem Proper.behind {ms : List String} (h : Proper ms) (ns : List String) :
    Proper (ns ++ ms) := by
  obtain ⟨front, name, rfl, hname⟩ := (proper_iff ms).1 h
  rw [← List.append_assoc]
  exact (proper_iff _).2 ⟨ns ++ front, name, rfl, hname⟩

theorem Proper.from {path : String} (h : Proper (names path)) (dir : String) :
    Proper (namesFrom dir path) := by
  unfold namesFrom
  split
  · exact h
  · exact h.behind _

theorem proper_cons (name : String) (ns : List String) (h : Proper (name :: ns)) :
    ns = [] ∧ isStep name = true ∧ name ≠ ".." ∨ Proper ns := by
  obtain ⟨front, last, hns, hlast⟩ := (proper_iff _).1 h
  cases front with
  | nil =>
    left
    simp only [List.nil_append, List.cons.injEq] at hns
    exact ⟨hns.2, hns.1 ▸ hlast⟩
  | cons first front =>
    right
    exact (proper_iff ns).2 ⟨front, last, (List.cons.inj hns).2, hlast⟩

theorem Proper.ne_nil {ns : List String} (h : Proper ns) : ns ≠ [] := by
  rintro rfl
  exact Bool.false_ne_true h

variable (fs : FileSystem)

theorem stride_nowhere (t : Trail) (ns : List String) (hns : ns ≠ [])
    (h : ∀ entries, fs.node? t.last ≠ some (.directory entries)) :
    fs.stride false t ns = .failed .notDirectory := by
  obtain ⟨name, rest, rfl⟩ := List.exists_cons_of_ne_nil hns
  rw [stride.eq_2]
  split
  · rename_i entries hentries
    exact absurd hentries (h entries)
  · rfl

theorem stride_idle (t : Trail) (name : String) (ns : List String) (h : isStep name = false)
    (hns : ns ≠ []) : fs.stride false t (name :: ns) = fs.stride false t ns := by
  have hidle : name = "" ∨ name = "." := by
    by_cases hempty : name = "" <;> simp_all [isStep]
  rw [stride.eq_2]
  split
  · rw [if_pos hidle]
  · -- what is no directory is refused just as well by the name that follows
    rename_i hdir
    exact (stride_nowhere fs t ns hns hdir).symm

theorem stride_up (ns : List String) (hns : ns ≠ []) :
    fs.stride false [] (".." :: ns) = fs.stride false [] ns := by
  rw [stride.eq_2]
  split
  · rfl
  · rename_i hdir
    exact (stride_nowhere fs [] ns hns hdir).symm

theorem walk_idle (links : Nat) (t : Trail) (ns ms : List String) (name : String)
    (h : isStep name = false) (hms : ms ≠ []) :
    fs.walk false links t (ns ++ name :: ms) = fs.walk false links t (ns ++ ms) := by
  induction links generalizing t ns with
  | zero =>
    unfold walk
    rw [stride_append, stride_append]
    cases fs.stride false t ns with
    | arrived t' => simp only [stride_idle fs t' name ms h hms]
    | failed e => rfl
    | missing t' n rest => cases rest <;> cases ms <;> simp_all
    | link t' target rest => rfl
  | succ links ih =>
    unfold walk
    rw [stride_append, stride_append]
    cases fs.stride false t ns with
    | arrived t' => simp only [stride_idle fs t' name ms h hms]
    | failed e => rfl
    | missing t' n rest => cases rest <;> cases ms <;> simp_all
    | link t' target rest => simpa using ih (startOf t' target) (names target ++ rest)

theorem walk_steps (links : Nat) (t : Trail) (ns ms : List String) (h : Proper ms) :
    fs.walk false links t (ns ++ ms) = fs.walk false links t (ns ++ steps ms) := by
  induction ms generalizing ns with
  | nil => exact absurd rfl h.ne_nil
  | cons name ms ih =>
    rcases proper_cons name ms h with ⟨rfl, hname, -⟩ | hms
    · simp [steps, hname]
    by_cases hname : isStep name = true
    · have hnext := ih (ns ++ [name]) hms
      simpa [steps, hname] using hnext
    · rw [walk_idle fs links t ns ms name (by simpa using hname) hms.ne_nil, ih ns hms]
      simp [steps, hname]

theorem walk_ups (links : Nat) (ns : List String) (h : Proper ns) :
    fs.walk false links [] ns = fs.walk false links [] (ns.dropWhile (· == "..")) := by
  induction ns with
  | nil => rfl
  | cons name ns ih =>
    rcases proper_cons name ns h with ⟨rfl, -, hname⟩ | hns
    · simp [hname]
    by_cases hname : name = ".."
    · subst hname
      have hup : fs.walk false links [] (".." :: ns) = fs.walk false links [] ns := by
        unfold walk
        rw [stride_up fs ns hns.ne_nil]
      rw [hup, ih hns]
      simp
    · simp [hname]

theorem Proper.steps {ns : List String} (h : Proper ns) : Proper (Path.steps ns) := by
  obtain ⟨front, name, rfl, hname⟩ := (proper_iff ns).1 h
  have hsteps : Path.steps (front ++ [name]) = Path.steps front ++ [name] := by
    simp [Path.steps, hname.1]
  exact (proper_iff _).2 ⟨Path.steps front, name, hsteps, hname⟩

theorem walk_destination (links : Nat) (ns : List String) (h : Proper ns) :
    fs.walk false links [] ns = fs.walk false links [] (destination ns) := by
  have hsteps := walk_steps fs links [] [] ns h
  rw [List.nil_append, List.nil_append] at hsteps
  rw [hsteps, walk_ups fs links _ h.steps]
  rfl

/-! ## Paths used in a directory -/

theorem stride_workDir (dir : String) (creating : Bool) (t : Trail) (ns : List String) :
    { fs with workDir := dir }.stride creating t ns = fs.stride creating t ns := by
  induction ns generalizing t with
  | nil => rfl
  | cons name ns ih =>
    rw [stride.eq_2, stride.eq_2]
    simp only [ih]
    rfl

theorem walk_workDir (dir : String) (creating : Bool) (links : Nat) (t : Trail) (ns : List String) :
    { fs with workDir := dir }.walk creating links t ns = fs.walk creating links t ns := by
  induction links generalizing t ns with
  | zero =>
    unfold walk
    rw [stride_workDir]
  | succ links ih =>
    unfold walk
    rw [stride_workDir]
    split <;> simp only [ih]

/-- Two paths, each used in a directory of its own, lead to one file if they
lead to one place; a path may be refused for its text alone. -/
theorem reach_destination (dir dir' path path' : String) (hrefused : refused? path = refused? path')
    (h : destination (namesFrom dir path) = destination (namesFrom dir' path'))
    (hpath : Proper (names path)) (hpath' : Proper (names path')) :
    { fs with workDir := dir }.reach false path =
      { fs with workDir := dir' }.reach false path' := by
  unfold reach
  rw [hrefused]
  split
  · rfl
  · rw [walk_workDir fs dir, walk_workDir fs dir']
    show fs.walk false linkLimit [] (namesFrom dir path) =
      fs.walk false linkLimit [] (namesFrom dir' path')
    rw [walk_destination fs _ _ (hpath.from dir), walk_destination fs _ _ (hpath'.from dir'), h]

end FileSystem

end ImageTools
