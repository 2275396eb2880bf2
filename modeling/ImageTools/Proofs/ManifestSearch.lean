import ImageTools.Proofs.Ancestors
import ImageTools.Proofs.SettingLayers

/-!
# The search for a manifest

The search looks into one directory after the other, upwards. It ends because
each directory has a component less than the one before, and it passes over
whatever is no file: a directory, a device or a link that leads nowhere counts
like a name that is not there.
-/

set_option autoImplicit false

namespace ImageTools.Manifest
open ImageTools.Path

def Regular (fs : FileSystem) (path : String) : Prop :=
  ∃ trail mode bytes, fs.resolve path = .ok trail ∧
    fs.node? trail.last = some (.file mode bytes)

theorem isFile_iff (fs : FileSystem) (path : String) :
    fs.isFile path = true ↔ Regular fs path := by
  unfold FileSystem.isFile Regular
  cases hresolve : fs.resolve path with
  | error e => simp
  | ok trail =>
    cases hnode : fs.node? trail.last with
    | none => simp [hnode]
    | some node => cases node <;> simp [hnode]

theorem isFile_eq_false_iff (fs : FileSystem) (path : String) :
    fs.isFile path = false ↔ ¬Regular fs path := by
  rw [← isFile_iff, Bool.not_eq_true]

/-- A search from a directory upwards, with the directories that were looked
into and the manifest it ends with. -/
inductive Search (fs : FileSystem) : String → List String → Option String → Prop
  | found {dir : String} : Regular fs (candidate dir) →
      Search fs dir [dir] (some (candidate dir))
  | top {dir : String} : ¬Regular fs (candidate dir) → pop? dir = none → Search fs dir [dir] none
  | up {dir parent : String} {tried : List String} {result : Option String} :
      ¬Regular fs (candidate dir) → pop? dir = some parent → Search fs parent tried result →
      Search fs dir (dir :: tried) result

section
variable {fs : FileSystem} {dir parent start : String}

theorem find_here (h : Regular fs (candidate dir)) : find fs dir = some (candidate dir) := by
  have hfile := (isFile_iff fs _).2 h
  cases hpop : pop? dir with
  | none => simp [find, ancestors_top dir hpop, hfile]
  | some parent => simp [find, ancestors_up dir parent hpop, hfile]

theorem find_top (h : ¬Regular fs (candidate dir)) (hpop : pop? dir = none) :
    find fs dir = none := by
  simp [find, ancestors_top dir hpop, (isFile_eq_false_iff fs _).2 h]

theorem find_up (h : ¬Regular fs (candidate dir)) (hpop : pop? dir = some parent) :
    find fs dir = find fs parent := by
  simp [find, ancestors_up dir parent hpop, (isFile_eq_false_iff fs _).2 h]

theorem search_here (h : Regular fs (candidate dir)) : Search fs dir [dir] (find fs dir) := by
  rw [find_here h]
  exact .found h

/-- The search comes to an end. -/
theorem search_find {chain : List String} (h : Climb start chain) :
    ∃ tried, Search fs start tried (find fs start) := by
  induction h with
  | @top dir hpop =>
    refine ⟨[dir], ?_⟩
    by_cases hfile : Regular fs (candidate dir)
    · exact search_here hfile
    · rw [find_top hfile hpop]
      exact .top hfile hpop
  | @up dir parent chain hpop _ ih =>
    by_cases hfile : Regular fs (candidate dir)
    · exact ⟨[dir], search_here hfile⟩
    · obtain ⟨tried, hsearch⟩ := ih
      refine ⟨dir :: tried, ?_⟩
      rw [find_up hfile hpop]
      exact .up hfile hpop hsearch

/-- A search has one end, and looks at all of the chain before it gives up. -/
theorem Search.along {tried chain : List String} {result : Option String}
    (h : Search fs start tried result) (hc : Climb start chain) :
    result = find fs start ∧ tried <+: chain ∧ (result = none → tried = chain) := by
  induction h generalizing chain with
  | @found dir hfile =>
    refine ⟨(find_here hfile).symm, ?_, fun h => by cases h⟩
    cases hc with
    | top hpop => exact List.prefix_rfl
    | up hpop hc => exact ⟨_, rfl⟩
  | @top dir hfile hpop =>
    refine ⟨(find_top hfile hpop).symm, ?_⟩
    cases hc with
    | top => exact ⟨List.prefix_rfl, fun _ => rfl⟩
    | up hup hc => simp [hpop] at hup
  | @up dir parent tried result hfile hpop _ ih =>
    cases hc with
    | top htop => simp [hpop] at htop
    | up hup hc =>
      obtain rfl := Option.some.inj (hpop.symm.trans hup)
      obtain ⟨hresult, htried, hall⟩ := ih hc
      refine ⟨hresult.trans (find_up hfile hpop).symm, ?_, fun hnone => ?_⟩
      · exact List.cons_prefix_cons.2 ⟨rfl, htried⟩
      · rw [hall hnone]

end

/-- There is one chain of directories upwards from any start, it ends with the
root or the empty path, and the search follows it: it ends, with the first
manifest of the chain that is a file, or with none after all of the chain. -/
theorem search_nearest (fs : FileSystem) (start : String) :
    (∃ chain, Climb start chain) ∧ ∀ chain, Climb start chain →
      chain.length = (components start).length + (if isAbsolute start then 0 else 1) ∧
      (isAbsolute start = false → chain.getLast? = some "") ∧
      (isAbsolute start = true → ∃ top, chain.getLast? = some top ∧ components top = ["/"] ∧
        (top = "/" ∨ chain = [start])) ∧
      (∃ tried, Search fs start tried (find fs start)) ∧
      (∀ tried result, Search fs start tried result →
        result = find fs start ∧ tried <+: chain ∧ (result = none → tried = chain)) ∧
      (∀ path, find fs start = some path ↔ ∃ below dir above, chain = below ++ dir :: above ∧
        path = candidate dir ∧ Regular fs path ∧ ∀ d ∈ below, ¬Regular fs (candidate d)) ∧
      (find fs start = none ↔ ∀ dir ∈ chain, ¬Regular fs (candidate dir)) := by
  refine ⟨⟨_, (climb_iff start _).2 rfl⟩, fun chain hchain => ?_⟩
  refine ⟨hchain.length, hchain.last.1, hchain.last.2, search_find hchain,
    fun tried result h => h.along hchain, fun path => ?_, ?_⟩
  · rw [find_nearest, (climb_iff start chain).1 hchain]
    simp only [Nearest, isFile_iff, isFile_eq_false_iff]
  · rw [find, List.find?_eq_none, (climb_iff start chain).1 hchain]
    simp [isFile_iff]

def shadowed : FileSystem where
  nodes := #[.directory [("a", 1), ("xos-build.toml", 5)],
    .directory [("b", 2), ("xos-build.toml", 4)], .directory [("xos-build.toml", 3)],
    .directory [], .link "gone", .file 0o644 .empty]
  workDir := "/"

theorem shadowed_passed_over :
    Climb "./a//b/" ["./a//b/", "./a", ".", ""] ∧
    find shadowed "./a//b/" = some "./xos-build.toml" := by
  have hclimb : Climb "./a//b/" ["./a//b/", "./a", ".", ""] :=
    .up (by decide +kernel) (.up (by decide +kernel) (.up (by decide +kernel)
      (.top (by decide +kernel))))
  obtain ⟨-, -, -, -, -, hfind, -⟩ := (search_nearest shadowed "./a//b/").2 _ hclimb
  have hbelow : ∀ d ∈ ["./a//b/", "./a"], shadowed.isFile (candidate d) = false := by
    decide +kernel
  have hfile : shadowed.isFile "./xos-build.toml" = true := by decide +kernel
  refine ⟨hclimb, (hfind _).2 ⟨["./a//b/", "./a"], ".", [""], rfl, by decide +kernel, ?_, ?_⟩⟩
  · exact (isFile_iff shadowed _).1 hfile
  · exact fun d hd => (isFile_eq_false_iff shadowed _).1 (hbelow d hd)

end ImageTools.Manifest
